/-
  THE SEND PATHS: `ctx_send_broadcasts`, `ctx_send_unicasts` and `od_send_acks`.

  Each forges work requests one message at a time, links them, and posts the chain; on the way it
  flags every `ss_batch`-th message and polls for its completion later.  Before it posts, it tops
  up the receives of the QP that gets the replies.

  A broadcast is `remMachNum` work requests, of which the links visit those of the active
  machines; up to `maxBcastBatch` broadcasts are posted as one chain.  The work requests of a
  unicast or an ack are one each.

  The loops end because each round takes something that is counted: a broadcast takes a credit,
  a unicast a message of the FIFO.
-/
import Odyssey.Context

namespace Odyssey

open Lib

/-! ## Work requests of a broadcast -/

namespace SendQueue

variable (cl : Cluster) (q : QuorumInfo) (s : SendQueue)

/-- `get_last_message_of_bcast` -/
def getLastMessageOfBcast (brI : Nat) : Nat :=
  if enableMulticast then brI * cl.messagesInBcast - 1
  else (brI - 1) * cl.messagesInBcast + q.lastActiveRmId

/-- `get_first_message_of_next_bcast` -/
def getFirstMessageOfNextBcast (brI : Nat) : Nat :=
  if enableMulticast then brI * cl.messagesInBcast
  else brI * cl.messagesInBcast + q.firstActiveRmId

/-- `get_first_mes_of_bcast` -/
def getFirstMesOfBcast : Nat := if enableMulticast then 0 else q.firstActiveRmId

/-- `last_mes_of_bcast_point_to_frst_mes_of_next_bcast` -/
def lastMesOfBcastPointToFrstMesOfNextBcast (brI : Nat) : SendQueue :=
  s.setNext (getLastMessageOfBcast cl q brI) (some (getFirstMessageOfNextBcast cl q brI))

/-- `form_bcast_links`.  Signaling is tested before the counter moves, polling after. -/
def formBcastLinks (ssBatch brI : Nat) : Outcome SendQueue := do
  let s := if s.sentTx % ssBatch = 0 then s.flagSignaled (getFirstMesOfBcast q) else s
  let s := s.incrSentTx
  let s ← (if s.sentTx % ssBatch = ssBatch - 1 then s.pollCq else pure s)
  return if 0 < brI then s.lastMesOfBcastPointToFrstMesOfNextBcast cl q brI else s

/-- The send half of `post_quorum_broadasts_and_recvs`, for a batch of `brI` broadcasts. -/
def postQuorumBroadcasts (sendWrNum brI : Nat) (enableInlining : Bool) : Outcome SendQueue := do
  let s := s.setNext (getLastMessageOfBcast cl q brI) none
  let s ← s.ibvPostSend sendWrNum brI (getFirstMesOfBcast q)
  return s.setFlags (getFirstMesOfBcast q) enableInlining

end SendQueue

namespace Context

variable {μ : Type} (ctx : Context μ) (qp : Nat)

/-! ## Broadcasts -/

/-- `ctx_forge_bcast_wr` -/
def ctxForgeBcastWr (brI : Nat) : Outcome (Context μ) := do
  let m := ctx.qpMeta qp
  let f := m.sendFifo 0
  let s := m.send.setSge brI ⟨f.getFifoPullSlot, f.getFifoSlotMetaPull.byteSize⟩
  let s ← s.formBcastLinks ctx.cl ctx.qInfo m.ssBatch brI
  return ctx.setSend qp s

/-- `post_quorum_broadasts_and_recvs`: the receives of the QP that gets the replies, then the
    broadcasts. -/
def postQuorumBroadcastsAndRecvs (brI : Nat) : Outcome (Context μ) := do
  let recvQp := (ctx.qpMeta qp).recvQpId
  let r ← (ctx.qpMeta recvQp).recv.postQuorumRecvs
  let ctx := ctx.setRecv recvQp r
  let m := ctx.qpMeta qp
  let s ← m.send.postQuorumBroadcasts ctx.cl ctx.qInfo m.sendWrNum brI m.enableInlining
  return ctx.setSend qp s

/-- One round of the loop of `ctx_send_broadcasts`, up to the post of a full batch. -/
def bcastRound (brI : Nat) : Outcome (Context μ × Nat) := do
  let ctx ← ctx.ctxForgeBcastWr qp brI
  let ctx := ctx.setFifo qp 0 ((ctx.qpMeta qp).sendFifo 0).fifoSendFromPullSlot
  if brI + 1 = maxBcastBatch then
    let ctx ← ctx.postQuorumBroadcastsAndRecvs qp (brI + 1)
    return (ctx, 0)
  else return (ctx, brI + 1)

/-- The loop of `ctx_send_broadcasts`: a context, the length of the batch being built, and how
    many messages were sent. -/
def bcastLoop : Nat → Context μ → Nat → Nat → Outcome (Context μ × Nat × Nat)
  | 0, ctx, brI, mesSent => .ok (ctx, brI, mesSent)
  | credits + 1, ctx, brI, mesSent =>
    if ((ctx.qpMeta qp).sendFifo 0).netCapacity = 0 then .ok (ctx, brI, mesSent)
    else do
      let (ctx, brI) ← ctx.bcastRound qp brI
      bcastLoop credits ctx brI (mesSent + 1)

/-- `ctx_send_broadcasts` -/
def ctxSendBroadcasts : Outcome (Context μ) := do
  if ((ctx.qpMeta qp).sendFifo 0).netCapacity = 0 then return ctx
  let (ctx, answer) ← ctx.checkCredits qp 1
  match answer with
  | none => return ctx
  | some availableCredits =>
    let (ctx, brI, mesSent) ← bcastLoop qp availableCredits.toNat ctx 0 0
    let ctx ← (if 0 < brI then ctx.postQuorumBroadcastsAndRecvs qp brI else pure ctx)
    return if 0 < mesSent then
      ctx.setCredits qp
        (decreaseCredits (ctx.qpMeta qp).credits ctx.qInfo (UInt16.ofNat mesSent))
    else ctx

/-! ## Unicasts -/

/-- `ctx_can_send_unicasts` -/
def ctxCanSendUnicasts (m : PerQpMeta μ) (fifoI : Nat) : Bool :=
  if m.needsCredits then 0 < (m.sendFifo fifoI).capacity && 0 < m.credits 0
  else 0 < (m.sendFifo fifoI).capacity

/-- `ctx_forge_unicast_wr`.  There are `send_wr_num` work requests. -/
def ctxForgeUnicastWr (m : PerQpMeta μ) (fifoI mesI : Nat) : Outcome (PerQpMeta μ) :=
  if mesI < m.sendWrNum then do
    let f := m.sendFifo fifoI
    let s := m.send.setSge mesI ⟨f.getFifoPullSlot, f.getFifoSlotMetaPull.byteSize⟩
    let s := s.setAh mesI (u8 f.getFifoSlotMetaPull.rmId)
    let s ← s.selectiveSignalingForUnicast m.ssBatch mesI m.enableInlining
    -- have the last message point to the current message
    let s := if 0 < mesI then s.setNext (mesI - 1) (some mesI) else s
    return { m with send := s }
  else .error .undefined

/-- One round of `ctx_send_unicasts`: forge the message, take it off the FIFO, and take a credit
    of its recipient. -/
def unicastRound (m : PerQpMeta μ) (fifoI mesI : Nat) : Outcome (PerQpMeta μ) := do
  let rmId := ((m.sendFifo fifoI).getFifoSlotMetaPull).rmId
  let m ← ctxForgeUnicastWr m fifoI mesI
  let f := (m.sendFifo fifoI).fifoSendFromPullSlot
  return { m with
    sendFifo := Function.update m.sendFifo fifoI f
    credits := if m.needsCredits then Function.update m.credits rmId (m.credits rmId - 1)
      else m.credits }

/-- The loop over the messages of one FIFO, of which there are no more than its capacity. -/
def unicastLoop (fifoI : Nat) : Nat → PerQpMeta μ → Nat → Outcome (PerQpMeta μ × Nat)
  | 0, m, mesI => .ok (m, mesI)
  | n + 1, m, mesI =>
    if ctxCanSendUnicasts m fifoI then do
      let m ← unicastRound m fifoI mesI
      unicastLoop fifoI n m (mesI + 1)
    else .ok (m, mesI)

/-- `ctx_send_unicasts` -/
def ctxSendUnicasts : Outcome (Context μ) := do
  let (m, mesI) ← (List.range (ctx.qpMeta qp).sendFifoNum).foldlM
    (fun (m, mesI) fifoI => unicastLoop fifoI (m.sendFifo fifoI).capacity m mesI)
    (ctx.qpMeta qp, 0)
  let ctx := ctx.modify qp fun _ => m
  if 0 < mesI then
    let r ← (ctx.qpMeta m.recvQpId).recv.ctxRefillRecvs
    let ctx := ctx.setRecv m.recvQpId r
    let s := (ctx.qpMeta qp).send.setNext (mesI - 1) none
    let s ← s.ibvPostSend m.sendWrNum mesI 0
    return ctx.setSend qp s
  else return ctx

/-! ## Acks -/

/-- `ctx_ack_insert`, on the slot of one machine: `true` if the insert is successful, and if not,
    the old ack needs to be sent first.  The test for that is in the build with assertions. -/
def ackInsert (enableAssertions : Bool) (ack : CtxAckMes) (mesNum : UInt32) (lId : UInt64) :
    CtxAckMes × Bool :=
  if enableAssertions = true ∧ ack.opcode ≠ opAck ∧ ack.lId + ack.ackNum.toUInt64 ≠ lId then
    (ack, false)
  else if ack.opcode = opAck then
    ({ ack with lId := lId, credits := 1, ackNum := mesNum, opcode := ackNotYetSent }, true)
  else ({ ack with credits := ack.credits + 1, ackNum := ack.ackNum + mesNum }, true)

/-- `ctx_ack_insert`.  There are `receipient_num + 1` slots. -/
def ctxAckInsert (enableAssertions : Bool) (mesNum : UInt32) (lId : UInt64) (mId : Nat) :
    Outcome (Context μ × Bool) :=
  let m := ctx.qpMeta qp
  if m.receipientNum < mId then .error .undefined
  else
    let (ack, answer) := ackInsert enableAssertions (m.acks mId) mesNum lId
    .ok (ctx.modify qp ({ · with acks := Function.update m.acks mId ack }), answer)

/-- The state of the loop of `od_send_acks`. -/
structure AckLoop where
  acks : Nat → CtxAckMes
  send : SendQueue
  ackI : Nat
  prevAckI : Nat
  firstWr : Nat

/-- One round: skip the slot of machine `mI`, or forge its ack and link it behind the last.
    There are `send_wr_num` work requests. -/
def ackRound (sendWrNum ssBatch : Nat) (l : AckLoop) (mI : Nat) : Outcome AckLoop :=
  if (l.acks mI).opcode = opAck then .ok l
  else if sendWrNum ≤ mI then .error .undefined
  else do
    let acks := Function.update l.acks mI { l.acks mI with opcode := opAck }
    let s ← l.send.selectiveSignalingForUnicast ssBatch mI true
    return {
      acks := acks
      send := if 0 < l.ackI then s.setNext l.prevAckI (some mI) else s
      ackI := u8 (l.ackI + 1)
      prevAckI := mI
      firstWr := if 0 < l.ackI then l.firstWr else mI }

/-- `od_send_acks` -/
def odSendAcks : Outcome (Context μ) := do
  let m := ctx.qpMeta qp
  let l ← forLoop 8 (m.receipientNum + 1) (ackRound m.sendWrNum m.ssBatch) ⟨m.acks, m.send, 0, 0, 0⟩
  let ctx := ctx.modify qp ({ · with acks := l.acks, send := l.send })
  if 0 < l.ackI then
    let r ← (ctx.qpMeta m.recvQpId).recv.ctxRefillRecvs
    let ctx := ctx.setRecv m.recvQpId r
    let s := (ctx.qpMeta qp).send.setNext l.prevAckI none
    let s ← s.ibvPostSend m.sendWrNum l.ackI l.firstWr
    return ctx.setSend qp s
  else return ctx

end Context

end Odyssey
