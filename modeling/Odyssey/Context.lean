/-
  THE NETWORK CONTEXT of a worker, and its set-up.

  A context has QPs (`per_qp_meta_t`), each with a send side, a receive side, send FIFOs and
  credits, and one `q_info` shared by its broadcast QPs.  A QP is named by its index; `recvQpId`
  pairs a QP with the one whose receives it has to keep posted.

  The set-up functions are those of `od_init_qp_meta.c` and `od_init_ctx.c`, as far as they touch
  this data: the credits and the selective-signalling batch of a QP, `initCtxSendWrs`, which
  writes all send work requests once, and `setUpQInfo`.  The work requests are allocated by
  `send_wr_num`, so a flow type that writes more of them is undefined.

  Protocol callbacks fill in messages and handle them.  `send_helper` only completes the message
  that is about to be sent, and nothing here depends on its bytes.
-/
import Odyssey.Quorum
import Odyssey.Receive

namespace Odyssey

open Lib

/-! ## The data -/

/-- `flow_type_t` -/
inductive FlowType
  | sendAckRecvAck
  | sendCreditsLdrRecvNone
  | recvCredits
  | sendUniReqRecvUniReq
  | sendUniRepRecvUniReq
  | sendUniReqRecvLdrRep
  | sendUniRepLdrRecvUniReq
  | sendBcastLdrRecvUni
  | sendUniRepRecvLdrBcast
  | sendUniRepToBcast
  | sendBcastRecvUni
  | sendBcastRecvBcast
  | sendUniRepRecvUniRep
  deriving DecidableEq

/-- The flow types that broadcast. -/
def FlowType.isBroadcast : FlowType → Bool
  | .sendBcastLdrRecvUni | .sendBcastRecvUni | .sendBcastRecvBcast => true
  | _ => false

/-- `ctx_ack_mes_t`: the format of an ack message. -/
structure CtxAckMes where
  /-- the first local id that is being acked -/
  lId : UInt64
  ackNum : UInt32
  credits : UInt16
  mId : UInt8
  opcode : UInt8
  deriving DecidableEq

/-- The fields of `per_qp_meta_t` that `create_per_qp_meta` sets once. -/
structure QpConf where
  flowType : FlowType
  sendWrNum : Nat
  recvQpId : Nat
  receipientNum : Nat
  leaderMId : Nat
  ssBatch : Nat
  maxCredits : UInt16
  needsCredits : Bool
  sendFifoNum : Nat
  sendSize : Nat
  enableInlining : Bool

/-- `per_qp_meta_t`, for messages `μ` to receive. -/
structure PerQpMeta (μ : Type) extends QpConf where
  credits : Nat → UInt16
  sendFifo : Nat → Fifo
  /-- on an ack QP, the slots of the send FIFO -/
  acks : Nat → CtxAckMes
  send : SendQueue
  recv : RecvQueue μ
  timeOutCnt : Nat

/-- `context_t`.  The own machine id is that of the cluster. -/
structure Context (μ : Type) where
  cl : Cluster
  qpNum : Nat
  qpMeta : Nat → PerQpMeta μ
  qInfo : QuorumInfo

/-! ## Setting up a QP -/

/-- The batch of `qp_meta_ss_batch_q_depth`: every how many messages one is signaled.  A flow
    that only receives keeps the 0 it was allocated with. -/
def qpMetaSsBatch (flowType : FlowType) (receipientNum sendWrNum : Nat) : Nat :=
  match flowType with
  | .sendBcastLdrRecvUni | .sendBcastRecvUni | .sendBcastRecvBcast =>
      max (minSsBatch / receipientNum) (maxBcastBatch + 2)
  | .recvCredits => 0
  | _ => max minSsBatch (u32 (sendWrNum + 2))

/-- `qp_meta_set_up_credits`. -/
def PerQpMeta.setUpCredits {μ : Type} (m : PerQpMeta μ) (credits : UInt16) : PerQpMeta μ :=
  { m with
    maxCredits := credits
    needsCredits := m.needsCredits || 0 < credits
    credits := if 0 < credits then fun _ => credits else m.credits }

namespace Context

variable {μ : Type} (ctx : Context μ)

/-- A change of one QP. -/
def modify (qp : Nat) (f : PerQpMeta μ → PerQpMeta μ) : Context μ :=
  { ctx with qpMeta := Function.update ctx.qpMeta qp (f (ctx.qpMeta qp)) }

def setSend (qp : Nat) (s : SendQueue) : Context μ := ctx.modify qp ({ · with send := s })

def setRecv (qp : Nat) (r : RecvQueue μ) : Context μ := ctx.modify qp ({ · with recv := r })

def setFifo (qp i : Nat) (f : Fifo) : Context μ :=
  ctx.modify qp fun m => { m with sendFifo := Function.update m.sendFifo i f }

def setCredits (qp : Nat) (credits : Nat → UInt16) : Context μ :=
  ctx.modify qp ({ · with credits := credits })

/-! ## Setting up the send work requests -/

/-- `const_set_up_wr`, on the send queue of a QP. -/
def constSetUpWr (m : PerQpMeta μ) (s : SendQueue) (wrI sglI : Nat) (last : Bool)
    (rmId : Nat) : SendQueue :=
  { s.setSge sglI { s.sendSgl sglI with length := m.sendSize } with
    sendWr := Function.update s.sendWr wrI {
      next := if last then none else some (wrI + 1)
      ah := rmId
      sgList := sglI
      inlined := m.enableInlining
      signaled := false } }

/-- The work requests of a broadcast: `MAX_BCAST_BATCH` times one for each remote machine. -/
def initBcastWrs (m : PerQpMeta μ) : Outcome SendQueue :=
  if m.sendWrNum < ctx.cl.messagesInBcastBatch then .error .undefined
  else forLoop 16 maxBcastBatch (fun s brI =>
    forPure 16 ctx.cl.messagesInBcast (fun s i =>
      constSetUpWr m s (brI * ctx.cl.messagesInBcast + i) brI
        (i = ctx.cl.messagesInBcast - 1) (if i < ctx.cl.machineId then i else i + 1)) s) m.send

/-- `init_ctx_send_wrs`, on one QP. -/
def initQpSendWrs (m : PerQpMeta μ) : Outcome SendQueue :=
  match m.flowType with
  | .sendBcastLdrRecvUni | .sendBcastRecvUni | .sendBcastRecvBcast => ctx.initBcastWrs m
  | .recvCredits => .ok m.send
  | .sendCreditsLdrRecvNone =>
      forPure 16 m.sendWrNum (fun s wrI => constSetUpWr m s wrI 0 true m.leaderMId) m.send
  | .sendUniReqRecvLdrRep | .sendUniRepRecvLdrBcast | .sendUniRepToBcast
  | .sendUniRepLdrRecvUniReq =>
      forPure 16 m.sendWrNum (fun s wrI =>
        constSetUpWr m s wrI wrI (wrI = m.sendWrNum - 1) m.leaderMId) m.send
  | .sendUniRepRecvUniReq | .sendUniRepRecvUniRep | .sendUniReqRecvUniReq | .sendAckRecvAck =>
      forPure 16 m.sendWrNum (fun s wrI =>
        constSetUpWr m s wrI wrI (wrI = m.sendWrNum - 1) (wrI % ctx.cl.machineNum)) m.send

/-- `init_ctx_send_wrs`. -/
def initCtxSendWrs : Outcome (Context μ) :=
  (List.range ctx.qpNum).foldlM (fun ctx qp => do
    let s ← ctx.initQpSendWrs (ctx.qpMeta qp)
    return ctx.setSend qp s) ctx

/-- The broadcast QPs of the context, in order, each with its `max_credits`. -/
def broadcasts : List (Nat × UInt16) :=
  ((List.range ctx.qpNum).filter fun qp => (ctx.qpMeta qp).flowType.isBroadcast).map
    fun qp => (qp, (ctx.qpMeta qp).maxCredits)

/-- `ctx_set_up_q_info`. -/
def setUpQInfo : Outcome (Context μ) := do
  let q ← ctxSetUpQInfo ctx.cl ctx.broadcasts
  return { ctx with qInfo := q }

/-! ## check_bcast_credits -/

/-- The part of the context that a reconfiguration changes, for a broadcast on `qp`. -/
def reconf (qp : Nat) : Reconf :=
  ⟨ctx.qInfo, fun i => (ctx.qpMeta i).send, (ctx.qpMeta qp).timeOutCnt⟩

/-- Put it back. -/
def withReconf (qp : Nat) (r : Reconf) : Context μ :=
  { ctx with
    qInfo := r.qInfo
    qpMeta := fun i => { ctx.qpMeta i with
      send := r.queue i
      timeOutCnt := if i = qp then r.timeOutCnt else (ctx.qpMeta i).timeOutCnt } }

/-- `check_bcast_credits` for the broadcast QP `qp`. -/
def checkCredits (qp : Nat) (minCredits : UInt16) : Outcome (Context μ × Option UInt16) := do
  let (r, answer) ← checkBcastCredits ctx.cl (fun qp m => (ctx.qpMeta qp).credits m)
    (ctx.qpMeta qp).credits minCredits (ctx.reconf qp)
  return (ctx.withReconf qp r, answer)

end Context

end Odyssey
