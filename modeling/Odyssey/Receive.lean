/-
  THE RECEIVE SIDE OF A QP.

  Receives are posted on the slots of a circular buffer, messages are handled from it, and three
  parts of the code keep their own counters:

  * `recv_info`: `pushPtr` is the next slot to post, `postedRecvs` counts the receives that are
    posted and not yet handled;
  * `recv_fifo`: `pullPtr` is the slot of the next message to handle;
  * `completedButNotPolled` counts the messages that were taken off the completion queue and that
    the receive handler refused.

  A buffer slot is named by its number.  The NIC is not under the repository; what the code relies
  on is that it fills the posted receives in posting order (`arrive`), and that `ibv_poll_cq`
  takes some of the completions, oldest first, no more than it is asked for.

  `recv_handler` belongs to the protocol.  It looks at the slot at `pullPtr`, and it may refuse
  the message there, to be asked again at the next poll.
-/
import Odyssey.Fifo

namespace Odyssey

open Lib

/-- `MOD_INCR`, on a `uint32_t`. -/
def modIncr32 (x N : Nat) : Nat := if u32 (x + 1) = N then 0 else u32 (x + 1)

/-- `recv_info_t`. -/
structure RecvInfo where
  pushPtr : Nat
  bufSlots : Nat
  postedRecvs : Nat
  deriving DecidableEq

/-- The receive side of a QP, with the NIC's end of it.  A message is anything. -/
structure RecvQueue (μ : Type) where
  recvInfo : RecvInfo
  recvWrNum : Nat
  recvBufSlotNum : Nat
  /-- `recv_fifo->pull_ptr` -/
  pullPtr : Nat
  completedButNotPolled : Nat
  polledMessages : Nat
  /-- the slots of the posted receives that are not filled yet, in posting order -/
  rq : List Nat
  /-- completions in `recv_cq` -/
  cq : Nat
  /-- the buffer -/
  buf : Nat → Option μ

/-- The receive side as `ctx_init_recv_info` leaves it. -/
def ctxInitRecvInfo (μ : Type) (recvWrNum recvBufSlotNum : UInt32) : RecvQueue μ where
  recvInfo := ⟨0, recvBufSlotNum.toNat, 0⟩
  recvWrNum := recvWrNum.toNat
  recvBufSlotNum := recvBufSlotNum.toNat
  pullPtr := 0
  completedButNotPolled := 0
  polledMessages := 0
  rq := []
  cq := 0
  buf := fun _ => none

namespace RecvQueue

variable {μ : Type} (r : RecvQueue μ)

/-! ## Posting receives -/

/-- `post_recvs_with_recv_info`.  The receives are counted by a `uint16_t`, and there are
    `recv_wr_num` work requests for them. -/
def postRecvsWithRecvInfo (recvNum : Nat) : Outcome (RecvQueue μ) := do
  if recvNum = 0 then return r
  let r' ← forPure 16 recvNum (fun (r : RecvQueue μ) _ =>
    { r with
      rq := r.rq ++ [r.recvInfo.pushPtr]
      recvInfo.pushPtr := modIncr32 r.recvInfo.pushPtr r.recvInfo.bufSlots }) r
  if recvNum ≤ r.recvWrNum then
    return { r' with recvInfo.postedRecvs := u32 (r'.recvInfo.postedRecvs + recvNum) }
  else .error .undefined

/-- `recv_wr_num - recv_info->posted_recvs`.  Without receives there is no `recv_info`. -/
def recvsToPost : Outcome Nat :=
  if r.recvWrNum = 0 then .error .undefined
  else .ok (sub32 r.recvWrNum r.recvInfo.postedRecvs)

/-- `ctx_refill_recvs`. -/
def ctxRefillRecvs : Outcome (RecvQueue μ) := do
  let recvNum ← r.recvsToPost
  if r.recvInfo.postedRecvs < r.recvWrNum then r.postRecvsWithRecvInfo recvNum else return r

/-- The receive half of `post_quorum_broadasts_and_recvs`. -/
def postQuorumRecvs : Outcome (RecvQueue μ) := do
  let recvNum ← r.recvsToPost
  if 0 < recvNum then r.postRecvsWithRecvInfo recvNum else return r

/-- `ctx_prepost_recvs`, on one QP. -/
def ctxPrepostRecvs : Outcome (RecvQueue μ) := r.postRecvsWithRecvInfo r.recvWrNum

/-! ## The NIC -/

/-- A message arrives, in the oldest posted receive. -/
def arrive (m : μ) : Outcome (RecvQueue μ) :=
  match r.rq with
  | [] => .error .disabled
  | sl :: rq => .ok { r with rq := rq, cq := r.cq + 1, buf := Function.update r.buf sl (some m) }

/-! ## Polling -/

/-- `find_how_many_messages_can_be_polled`, where `ibv_poll_cq` returns `comps`. -/
def findHowManyMessagesCanBePolled (comps : Nat) : Outcome (RecvQueue μ × Nat) :=
  if comps ≤ r.cq ∧ comps ≤ r.recvBufSlotNum then
    .ok ({ r with cq := r.cq - comps, completedButNotPolled := 0 },
      comps + r.completedButNotPolled)
  else .error .disabled

/-- `fifo_incr_pull_ptr(recv_fifo); polled_messages++` -/
def handled : RecvQueue μ :=
  { r with
    pullPtr := modIncr r.pullPtr r.recvBufSlotNum
    polledMessages := u32 (r.polledMessages + 1) }

/-- The loop of `ctx_poll_incoming_messages`, over at most `n` more messages: `recv_handler`
    handles the message in the slot at `pullPtr`, or refuses it and ends the loop. -/
def pollLoop {τ : Type} (recvHandler : τ → Nat → Option μ → Option τ) :
    Nat → RecvQueue μ → τ → RecvQueue μ × τ
  | 0, r, t => (r, t)
  | n + 1, r, t =>
    match recvHandler t r.pullPtr (r.buf r.pullPtr) with
    | none => (r, t)
    | some t => pollLoop recvHandler n r.handled t

/-- `ctx_poll_incoming_messages`. -/
def ctxPollIncomingMessages {τ : Type} (recvHandler : τ → Nat → Option μ → Option τ)
    (comps : Nat) (t : τ) : Outcome (RecvQueue μ × τ) := do
  let (r, completedMessages) ← r.findHowManyMessagesCanBePolled comps
  if completedMessages = 0 then return (r, t)
  let (r, t) := pollLoop recvHandler completedMessages { r with polledMessages := 0 } t
  return ({ r with
    completedButNotPolled := sub32 completedMessages r.polledMessages
    recvInfo.postedRecvs := sub32 r.recvInfo.postedRecvs r.polledMessages }, t)

end RecvQueue

end Odyssey
