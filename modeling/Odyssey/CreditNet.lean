/-
  BROADCASTS AND ACKS OVER A NETWORK.

  On every machine a worker has a broadcast QP and an ack QP, paired both ways by `recv_qp_id`:
  the acks of what the one sends come in on the other.  A credit goes round:
  `ctx_send_broadcasts` takes it, the message is handled and inserted in an ack
  (`ctx_ack_insert`), `od_send_acks` sends the ack, and the handler of acks gives it back
  (`ctx_increase_credits_on_polling_ack`).

  Messages arrive at any time, also in the middle of a call, and each needs a receive that is
  posted.  So a call is not one step here: it ends a step whenever it is about to hand messages to
  the NIC (`CallStage`), with the receives of the replies already posted, and the next step hands
  them over.  `ctxSendBroadcasts_stages` and `odSendAcks_stages` say that the steps of a call make
  up the call.

  The network delivers what flies in any order, or loses it.  `lost` and `unhandled` record where
  the messages are; no function reads them, but for one: the protocol's handler of messages makes
  one successful insert for the sender of each message that it handles, and which message that is
  is read off `unhandled`.  (With no more receives than slots, it is in the slot:
  `RecvRing.held`.)  The handler of acks reads the slot.
-/
import Odyssey.SendRuns
import Odyssey.Acks

namespace Odyssey

open Lib

/-! ## What travels -/

/-- A message that machine `sender` has broadcast, or an ack. -/
inductive Packet
  | mes (sender : Nat)
  | ack (ack : CtxAckMes)
  deriving DecidableEq

/-- A packet on its way to a machine. -/
structure Flight where
  dst : Nat
  packet : Packet
  deriving DecidableEq

namespace Context

variable {μ : Type} (ctx : Context μ) (qp : Nat)

/-! ## The calls, up to what they hand to the NIC -/

/-- `ctx_increase_credits_on_polling_ack`, called on the ack QP.  The broadcast QP is not a
    multicast one (`mcast_send`), so the build with assertions does not cap the credits. -/
def ctxIncreaseCreditsOnPollingAck (enableAssertions : Bool) (ack : CtxAckMes) :
    Outcome (Context μ) :=
  let recvQp := (ctx.qpMeta qp).recvQpId
  let mId := ack.mId.toNat
  let credits := (ctx.qpMeta recvQp).credits mId + ack.credits
  let maxCredits := (ctx.qpMeta recvQp).maxCredits
  let set := fun (c : UInt16) =>
    ctx.setCredits recvQp (Function.update (ctx.qpMeta recvQp).credits mId c)
  if maxCredits < credits then
    if enableAssertions then .error .undefined else .ok (set maxCredits)
  else .ok (set credits)

/-- The receives of `post_quorum_broadasts_and_recvs`. -/
def postReplyRecvs : Outcome (Context μ) := do
  let recvQp := (ctx.qpMeta qp).recvQpId
  let r ← (ctx.qpMeta recvQp).recv.postQuorumRecvs
  return ctx.setRecv recvQp r

/-- The broadcasts of `post_quorum_broadasts_and_recvs`. -/
def postBroadcasts (brI : Nat) : Outcome (Context μ) := do
  let m := ctx.qpMeta qp
  let s ← m.send.postQuorumBroadcasts ctx.cl ctx.qInfo m.sendWrNum brI m.enableInlining
  return ctx.setSend qp s

/-- `od_send_acks` up to the refill. -/
def forgeAcks : Outcome (Context μ × AckLoop) := do
  let m := ctx.qpMeta qp
  let l ← forLoop 8 (m.receipientNum + 1) (ackRound m.sendWrNum m.ssBatch) ⟨m.acks, m.send, 0, 0, 0⟩
  let ctx := ctx.modify qp ({ · with acks := l.acks, send := l.send })
  if 0 < l.ackI then
    let r ← (ctx.qpMeta m.recvQpId).recv.ctxRefillRecvs
    return (ctx.setRecv m.recvQpId r, l)
  else return (ctx, l)

/-- The rest of `od_send_acks`. -/
def postAcks (l : AckLoop) : Outcome (Context μ) := do
  let m := ctx.qpMeta qp
  let s := m.send.setNext l.prevAckI none
  let s ← s.ibvPostSend m.sendWrNum l.ackI l.firstWr
  return ctx.setSend qp s

end Context

/-! ## Stages of a call -/

/-- Where a worker is between two steps. -/
inductive CallStage
  | idle
  /-- in the loop of `ctx_send_broadcasts`, with `credits` left to spend -/
  | broadcasts (credits brI mesSent : Nat)
  /-- about to post a batch of broadcasts -/
  | batch (credits brI mesSent : Nat)
  /-- about to post the acks in `slots` -/
  | acks (l : Context.AckLoop) (slots : List Nat)

section Stages

variable {μ : Type} (b a : Nat)

/-- `ctx_send_broadcasts` up to its loop. -/
def startBroadcasts (ctx : Context μ) : Outcome (Context μ × CallStage) := do
  if ((ctx.qpMeta b).sendFifo 0).netCapacity = 0 then return (ctx, .idle)
  let (ctx, answer) ← ctx.checkCredits b 1
  match answer with
  | none => return (ctx, .idle)
  | some availableCredits => return (ctx, .broadcasts availableCredits.toNat 0 0)

/-- `ctx_send_broadcasts` behind its loop: what is left is posted, and the credits are taken. -/
def endBroadcasts (ctx : Context μ) (brI mesSent : Nat) : Outcome (Context μ × CallStage) := do
  if 0 < brI then
    let ctx ← ctx.postReplyRecvs b
    return (ctx, .batch 0 brI mesSent)
  else if 0 < mesSent then
    return (ctx.setCredits b
      (decreaseCredits (ctx.qpMeta b).credits ctx.qInfo (UInt16.ofNat mesSent)), .idle)
  else return (ctx, .idle)

/-- One round of the loop of `ctx_send_broadcasts`. -/
def loopBroadcasts (ctx : Context μ) (credits brI mesSent : Nat) :
    Outcome (Context μ × CallStage) :=
  match credits with
  | 0 => endBroadcasts b ctx brI mesSent
  | credits + 1 =>
    if ((ctx.qpMeta b).sendFifo 0).netCapacity = 0 then endBroadcasts b ctx brI mesSent
    else do
      let ctx ← ctx.ctxForgeBcastWr b brI
      let ctx := ctx.setFifo b 0 ((ctx.qpMeta b).sendFifo 0).fifoSendFromPullSlot
      if brI + 1 = maxBcastBatch then
        let ctx ← ctx.postReplyRecvs b
        return (ctx, .batch credits (brI + 1) (mesSent + 1))
      else return (ctx, .broadcasts credits (brI + 1) (mesSent + 1))

/-- `od_send_acks` up to its post, with the slots of the acks that it is about to post. -/
def startAcks (ctx : Context μ) : Outcome (Context μ × CallStage) := do
  let slots := pendingAcks (ctx.qpMeta a).acks ((ctx.qpMeta a).receipientNum + 1)
  let (ctx, l) ← ctx.forgeAcks a
  return (ctx, if 0 < l.ackI then .acks l slots else .idle)

/-- The next step of the call that a worker is in. -/
def proceed (ctx : Context μ) : CallStage → Outcome (Context μ × CallStage)
  | .idle => .error .disabled
  | .broadcasts credits brI mesSent => loopBroadcasts b ctx credits brI mesSent
  | .batch credits brI mesSent => do
    let ctx ← ctx.postBroadcasts b brI
    return (ctx, .broadcasts credits 0 mesSent)
  | .acks l _ => do
    let ctx ← ctx.postAcks a l
    return (ctx, .idle)

/-- The call that a worker is in goes on to its end. -/
inductive Finishes : Context μ × CallStage → Context μ → Prop
  | idle {ctx : Context μ} : Finishes (ctx, .idle) ctx
  | step {ctx ctx' : Context μ} {stage : CallStage} {p : Context μ × CallStage} :
      proceed b a ctx stage = .ok p → Finishes p ctx' → Finishes (ctx, stage) ctx'

end Stages

/-! ## The stages make up the calls -/

section Calls

variable {μ : Type} {b a : Nat} {ctx ctx' : Context μ}

/-- `post_quorum_broadasts_and_recvs` posts the receives first. -/
theorem postQuorumBroadcastsAndRecvs_eq (brI : Nat) : ctx.postQuorumBroadcastsAndRecvs b brI = (do
    let ctx ← ctx.postReplyRecvs b
    ctx.postBroadcasts b brI) := by
  unfold Context.postQuorumBroadcastsAndRecvs Context.postReplyRecvs Context.postBroadcasts
  simp only [bind_assoc, pure_bind]

/-- What `ctx_send_broadcasts` does behind its loop. -/
def afterLoop (b : Nat) (ctx : Context μ) (brI mesSent : Nat) : Outcome (Context μ) := do
  let ctx ← (if 0 < brI then ctx.postQuorumBroadcastsAndRecvs b brI else pure ctx)
  return if 0 < mesSent then
    ctx.setCredits b (decreaseCredits (ctx.qpMeta b).credits ctx.qInfo (UInt16.ofNat mesSent))
  else ctx

theorem endBroadcasts_zero {mesSent : Nat} (h : afterLoop b ctx 0 mesSent = .ok ctx') :
    endBroadcasts b ctx 0 mesSent = .ok (ctx', .idle) := by
  unfold afterLoop at h
  rw [if_neg (Nat.lt_irrefl 0)] at h
  cases h
  unfold endBroadcasts
  rw [if_neg (Nat.lt_irrefl 0)]
  split
  · rfl
  · rfl

theorem afterLoop_finishes {brI mesSent : Nat} (h : afterLoop b ctx brI mesSent = .ok ctx') :
    ∃ p, endBroadcasts b ctx brI mesSent = .ok p ∧ Finishes b a p ctx' := by
  by_cases hbrI : 0 < brI
  · unfold afterLoop at h
    rw [if_pos hbrI, postQuorumBroadcastsAndRecvs_eq] at h
    obtain ⟨ctx₂, hpost, hrest⟩ := bind_eq_ok.mp h
    obtain ⟨ctx₁, hrecvs, hsend⟩ := bind_eq_ok.mp hpost
    refine ⟨(ctx₁, .batch 0 brI mesSent), ?_, ?_⟩
    · unfold endBroadcasts
      rw [if_pos hbrI, hrecvs]
      rfl
    · have hbatch : proceed b a ctx₁ (.batch 0 brI mesSent)
          = .ok (ctx₂, .broadcasts 0 0 mesSent) := by
        show (ctx₁.postBroadcasts b brI >>= _) = _
        rw [hsend]
        rfl
      refine .step hbatch (.step ?_ .idle)
      show endBroadcasts b ctx₂ 0 mesSent = _
      refine endBroadcasts_zero ?_
      unfold afterLoop
      rw [if_neg (Nat.lt_irrefl 0)]
      exact hrest
  · have hzero : brI = 0 := by omega
    subst hzero
    exact ⟨_, endBroadcasts_zero h, .idle⟩

/-- There is no message left to send. -/
theorem loopBroadcasts_full {credits brI mesSent : Nat}
    (hcap : ((ctx.qpMeta b).sendFifo 0).netCapacity = 0) :
    loopBroadcasts b ctx (credits + 1) brI mesSent = endBroadcasts b ctx brI mesSent := if_pos hcap

/-- One more message is sent. -/
theorem loopBroadcasts_round {credits brI mesSent : Nat} {ctx₁ : Context μ}
    (hcap : ((ctx.qpMeta b).sendFifo 0).netCapacity ≠ 0)
    (hforge : ctx.ctxForgeBcastWr b brI = .ok ctx₁) :
    loopBroadcasts b ctx (credits + 1) brI mesSent =
      let ctx := ctx₁.setFifo b 0 ((ctx₁.qpMeta b).sendFifo 0).fifoSendFromPullSlot
      if brI + 1 = maxBcastBatch then do
        let ctx ← ctx.postReplyRecvs b
        return (ctx, .batch credits (brI + 1) (mesSent + 1))
      else .ok (ctx, .broadcasts credits (brI + 1) (mesSent + 1)) := by
  show (if ((ctx.qpMeta b).sendFifo 0).netCapacity = 0 then _ else _) = _
  rw [if_neg hcap, hforge]
  rfl

theorem bcastLoop_finishes {credits brI mesSent brI' mesSent' : Nat} {ctx₁ : Context μ}
    (hloop : Context.bcastLoop b credits ctx brI mesSent = .ok (ctx₁, brI', mesSent'))
    (h : afterLoop b ctx₁ brI' mesSent' = .ok ctx') :
    Finishes b a (ctx, .broadcasts credits brI mesSent) ctx' := by
  induction credits generalizing ctx brI mesSent with
  | zero =>
    cases hloop
    obtain ⟨p, hend, hfinishes⟩ := afterLoop_finishes (a := a) h
    exact .step hend hfinishes
  | succ credits ih =>
    unfold Context.bcastLoop at hloop
    split at hloop
    · rename_i hcap
      cases hloop
      obtain ⟨p, hend, hfinishes⟩ := afterLoop_finishes (a := a) h
      refine .step ?_ hfinishes
      exact (loopBroadcasts_full hcap).trans hend
    · rename_i hcap
      obtain ⟨⟨ctx₂, brI₂⟩, hround, hloop⟩ := bind_eq_ok.mp hloop
      obtain ⟨ctx₃, hforge, hround⟩ := bind_eq_ok.mp hround
      dsimp only at hround
      split at hround
      · -- a full batch
        rename_i hfull
        rw [postQuorumBroadcastsAndRecvs_eq] at hround
        obtain ⟨ctx₅, hpost, hround⟩ := bind_eq_ok.mp hround
        obtain ⟨ctx₄, hrecvs, hsend⟩ := bind_eq_ok.mp hpost
        cases hround
        have hstep : proceed b a ctx (.broadcasts (credits + 1) brI mesSent)
            = .ok (ctx₄, .batch credits (brI + 1) (mesSent + 1)) := by
          show loopBroadcasts b ctx (credits + 1) brI mesSent = _
          rw [loopBroadcasts_round hcap hforge, if_pos hfull, hrecvs]
          rfl
        have hbatch : proceed b a ctx₄ (.batch credits (brI + 1) (mesSent + 1))
            = .ok (ctx₂, .broadcasts credits 0 (mesSent + 1)) := by
          show (ctx₄.postBroadcasts b (brI + 1) >>= _) = _
          rw [hsend]
          rfl
        exact .step hstep (.step hbatch (ih hloop))
      · rename_i hfull
        cases hround
        refine .step ?_ (ih hloop)
        show loopBroadcasts b ctx (credits + 1) brI mesSent = _
        rw [loopBroadcasts_round hcap hforge, if_neg hfull]

/-- **`ctx_send_broadcasts` is its stages.** -/
theorem ctxSendBroadcasts_stages (h : ctx.ctxSendBroadcasts b = .ok ctx') :
    ∃ p, startBroadcasts b ctx = .ok p ∧ Finishes b a p ctx' := by
  unfold Context.ctxSendBroadcasts at h
  unfold startBroadcasts
  split at h
  · rename_i hcap
    cases h
    rw [if_pos hcap]
    exact ⟨_, rfl, .idle⟩
  · rename_i hcap
    rw [if_neg hcap]
    obtain ⟨⟨ctx₁, answer⟩, hcheck, h⟩ := bind_eq_ok.mp h
    rw [hcheck, ok_bind]
    cases answer with
    | none =>
      cases h
      exact ⟨_, rfl, .idle⟩
    | some availableCredits =>
      obtain ⟨⟨ctx₂, brI, mesSent⟩, hloop, h⟩ := bind_eq_ok.mp h
      exact ⟨_, rfl, bcastLoop_finishes hloop h⟩

/-- The number of work requests of a QP does not change. -/
theorem sendWrNum_setRecv (i j : Nat) (f : PerQpMeta μ → PerQpMeta μ)
    (hf : (f (ctx.qpMeta i)).toQpConf = (ctx.qpMeta i).toQpConf) (r : RecvQueue μ) :
    (((ctx.modify i f).setRecv j r).qpMeta i).sendWrNum = (ctx.qpMeta i).sendWrNum := by
  have hframe : Frame i ctx ((ctx.modify i f).setRecv j r) :=
    (Frame.modify hf (Or.inl rfl)).trans (Frame.modify rfl (Or.inr rfl))
  exact congrArg QpConf.sendWrNum (hframe.conf i)

theorem startAcks_eq {l : Context.AckLoop} (h : ctx.forgeAcks a = .ok (ctx', l)) :
    startAcks a ctx = .ok (ctx', if 0 < l.ackI then
      .acks l (pendingAcks (ctx.qpMeta a).acks ((ctx.qpMeta a).receipientNum + 1)) else .idle) := by
  unfold startAcks
  rw [h]
  rfl

/-- **`od_send_acks` is its stages.** -/
theorem odSendAcks_stages (h : ctx.odSendAcks a = .ok ctx') :
    ∃ p, startAcks a ctx = .ok p ∧ Finishes b a p ctx' := by
  obtain ⟨l, hloop, h⟩ := bind_eq_ok.mp h
  dsimp only at h
  split at h
  · rename_i hpos
    obtain ⟨r, hrecvs, h⟩ := bind_eq_ok.mp h
    obtain ⟨s, hpost, h⟩ := bind_eq_ok.mp h
    cases h
    have hforge : ctx.forgeAcks a = .ok ((ctx.modify a
        ({ · with acks := l.acks, send := l.send })).setRecv (ctx.qpMeta a).recvQpId r, l) := by
      unfold Context.forgeAcks
      dsimp only
      rw [hloop, ok_bind, if_pos hpos, hrecvs]
      rfl
    refine ⟨_, startAcks_eq hforge, ?_⟩
    rw [if_pos hpos]
    refine .step ?_ .idle
    show (Context.postAcks _ a l >>= _) = _
    have hnum : (((ctx.modify a ({ · with acks := l.acks, send := l.send })).setRecv
        (ctx.qpMeta a).recvQpId r).qpMeta a).sendWrNum = (ctx.qpMeta a).sendWrNum :=
      sendWrNum_setRecv a _ _ (by rfl) r
    unfold Context.postAcks
    dsimp only
    rw [hnum, hpost]
    rfl
  · rename_i hpos
    cases h
    have hforge : ctx.forgeAcks a
        = .ok (ctx.modify a ({ · with acks := l.acks, send := l.send }), l) := by
      unfold Context.forgeAcks
      dsimp only
      rw [hloop, ok_bind, if_neg hpos]
      rfl
    refine ⟨_, startAcks_eq hforge, ?_⟩
    rw [if_neg hpos]
    exact .idle

end Calls

/-! ## Workers -/

/-- A worker, in the middle of a call or between two calls. -/
structure Worker where
  ctx : Context Packet
  stage : CallStage
  /-- what has arrived at a QP and is not handled, oldest first -/
  unhandled : Nat → List Packet

/-- What a worker can do next.  `around` is the rest of the program: it changes what is not of the
    two QPs, and inserts messages. -/
inductive WorkCmd
  | around (rest : Nat → Around Packet)
  /-- a broadcast QP that shares the `q_info` checks its credits -/
  | checkCredits (qp : Nat) (minCredits : UInt16)
  /-- a send path of another QP refills the receives -/
  | refillRecvs (qp : Nat)
  | sendBroadcasts
  | sendAcks
  /-- the call goes on -/
  | proceed
  /-- the handler of messages has an insert for as many messages as there are answers -/
  | pollMessages (comps : Nat) (answers : List (UInt32 × UInt64))
  /-- the handler of acks handles `n` of them -/
  | pollAcks (comps n : Nat)

section Steps

variable (enableAssertions : Bool) (b a : Nat)

/-- The protocol's handler of messages: one successful insert for the sender of each. -/
def mesHandler : Context Packet × List Packet × List (UInt32 × UInt64) → Nat → Option Packet →
    Option (Context Packet × List Packet × List (UInt32 × UInt64))
  | (ctx, .mes sender :: rest, (mesNum, lId) :: answers), _, _ =>
    match ctx.ctxAckInsert a enableAssertions mesNum lId sender with
    | .ok (ctx, true) => some (ctx, rest, answers)
    | _ => none
  | _, _, _ => none

/-- The protocol's handler of acks: their credits are given back. -/
def ackHandler : Outcome (Context Packet) × Nat → Nat → Option Packet →
    Option (Outcome (Context Packet) × Nat)
  | (ctx, n + 1), _, some (.ack ack) => some (do
      let ctx ← ctx
      ctx.ctxIncreaseCreditsOnPollingAck a enableAssertions ack, n)
  | _, _, _ => none

/-- The messages that were posted on a QP between two states. -/
def newPosts (qp : Nat) (ctx ctx' : Context Packet) : List Posted :=
  ((posts (ctx'.qpMeta qp).send.log).drop (posts (ctx.qpMeta qp).send.log).length).flatMap Prod.snd

/-- What a step of a call hands to the NIC. -/
def handed (ctx ctx' : Context Packet) : CallStage → List Flight
  | .batch _ _ _ => (newPosts b ctx ctx').map fun p => ⟨p.ah, .mes ctx.cl.machineId⟩
  | .acks _ _ => (sentAcks a ctx ctx').map fun s => ⟨s.machine, .ack s.ack⟩
  | .idle | .broadcasts _ _ _ => []

/-- The rest of the program leaves the credits of the broadcast QP, the acks of the ack QP, and the
    receives of both. -/
def Worker.around (w : Worker) (rest : Nat → Around Packet) : Worker :=
  { w with ctx.qpMeta := fun qp => { w.ctx.qpMeta qp with
      credits := if qp = b then (w.ctx.qpMeta qp).credits else (rest qp).credits
      sendFifo := (rest qp).sendFifo
      acks := if qp = a then (w.ctx.qpMeta qp).acks else (rest qp).acks
      recv := if qp = b ∨ qp = a then (w.ctx.qpMeta qp).recv else (rest qp).recv } }

/-- A step of a worker, and what it hands to the NIC.  No call begins in the middle of another. -/
def workStep (w : Worker) : WorkCmd → Outcome (Worker × List Flight)
  | .proceed => do
    let (ctx, stage) ← proceed b a w.ctx w.stage
    return ({ w with ctx := ctx, stage := stage }, handed b a w.ctx ctx w.stage)
  | cmd =>
    match w.stage, cmd with
    | .idle, .around rest => .ok (w.around b a rest, [])
    | .idle, .checkCredits qp minCredits =>
      if qp ∈ w.ctx.qInfo.sharing then do
        let (ctx, _) ← w.ctx.checkCredits qp minCredits
        return ({ w with ctx := ctx }, [])
      else .error .disabled
    | .idle, .refillRecvs qp => do
      let r ← (w.ctx.qpMeta qp).recv.ctxRefillRecvs
      return ({ w with ctx := w.ctx.setRecv qp r }, [])
    | .idle, .sendBroadcasts => do
      let (ctx, stage) ← startBroadcasts b w.ctx
      return ({ w with ctx := ctx, stage := stage }, [])
    | .idle, .sendAcks => do
      let (ctx, stage) ← startAcks a w.ctx
      return ({ w with ctx := ctx, stage := stage }, [])
    | .idle, .pollMessages comps answers => do
      let (r, ctx, rest, _) ← (w.ctx.qpMeta b).recv.ctxPollIncomingMessages
        (mesHandler enableAssertions a) comps (w.ctx, w.unhandled b, answers)
      return ({ w with
        ctx := ctx.setRecv b r, unhandled := Function.update w.unhandled b rest }, [])
    | .idle, .pollAcks comps n => do
      let (r, ctx, left) ← (w.ctx.qpMeta a).recv.ctxPollIncomingMessages
        (ackHandler enableAssertions a) comps (.ok w.ctx, n)
      let ctx ← ctx
      return ({ w with
        ctx := ctx.setRecv a r
        unhandled := Function.update w.unhandled a ((w.unhandled a).drop (n - left)) }, [])
    | _, _ => .error .disabled

/-! ## The network -/

/-- The QP that a packet is for. -/
def Packet.qp : Packet → Nat
  | .mes _ => b
  | .ack _ => a

/-- The workers, what flies and what was lost. -/
structure Net where
  worker : Nat → Worker
  flying : List Flight
  lost : List Flight

inductive NetCmd
  | work (i : Nat) (cmd : WorkCmd)
  /-- the packet in place `n` arrives, or is lost -/
  | arrive (n : Nat)
  | lose (n : Nat)

/-- A packet arrives, in the oldest receive that is posted. -/
def Worker.receive (w : Worker) (packet : Packet) : Outcome Worker := do
  let qp := packet.qp b a
  let r ← (w.ctx.qpMeta qp).recv.arrive packet
  return { w with
    ctx := w.ctx.setRecv qp r
    unhandled := Function.update w.unhandled qp (w.unhandled qp ++ [packet]) }

/-- A step of the workers and the network. -/
def netStep (machineNum : Nat) (s : Net) : NetCmd → Outcome (Net × Unit)
  | .work i cmd =>
    if i < machineNum then do
      let (w, flights) ← workStep enableAssertions b a (s.worker i) cmd
      return ({ s with
        worker := Function.update s.worker i w, flying := s.flying ++ flights }, ())
    else .error .disabled
  | .arrive n =>
    match s.flying[n]? with
    | none => .error .disabled
    | some f => do
      let w ← (s.worker f.dst).receive b a f.packet
      return ({ s with
        worker := Function.update s.worker f.dst w, flying := s.flying.eraseIdx n }, ())
  | .lose n =>
    match s.flying[n]? with
    | none => .error .disabled
    | some f => .ok ({ s with flying := s.flying.eraseIdx n, lost := s.lost ++ [f] }, ())

end Steps

end Odyssey
