/-
  SEND WORK REQUESTS, and the send queue of a QP.

  A QP owns an array of send work requests and an array of scatter-gather entries.  The send
  paths patch both in place and hand a chain of work requests, linked by `next`, to
  `ibv_post_send`.  A pointer into the array is an index.

  The NIC is not under the repository; what the code relies on is:

  * `ibv_post_send(qp, first)` takes the work requests from `first` along `next` up to NULL, with
    the scatter-gather entries they point to, as they are at that moment, and it fails on a
    chain that is longer than the array, which is a cycle;
  * it completes, in order, exactly the posted work requests flagged `IBV_SEND_SIGNALED`.

  `log` records what happened on the queue, in order: a work request was flagged, a chain was
  posted, a completion was polled.  A blocking `poll_cq` for one completion needs a posted
  signaled work request that is not polled yet.  Nothing is posted while it blocks, so if there
  is none it waits for ever: the outcome `waiting`.
-/
import Odyssey.Top
import Odyssey.Lib.Arrays

namespace Odyssey

open Lib

/-! ## Work requests -/

/-- `struct ibv_send_wr`, as far as the send paths change it. -/
structure SendWr where
  /-- the next work request to post -/
  next : Option Nat
  /-- the machine its address handle leads to -/
  ah : Nat
  /-- its scatter-gather entry -/
  sgList : Nat
  /-- `IBV_SEND_INLINE` -/
  inlined : Bool
  /-- `IBV_SEND_SIGNALED` -/
  signaled : Bool
  deriving DecidableEq

/-- `struct ibv_sge` -/
structure Sge where
  addr : Nat
  length : Nat
  deriving DecidableEq

/-- A posted work request: its index, where it goes, and what it sends. -/
structure Posted where
  wr : Nat
  ah : Nat
  sgList : Nat
  sge : Sge
  signaled : Bool
  deriving DecidableEq

/-- What happened on a send queue. -/
inductive SendEvent
  /-- a work request was flagged `IBV_SEND_SIGNALED` -/
  | flagged
  /-- `num` messages were posted, as the chain `chain` -/
  | posted (num : Nat) (chain : List Posted)
  /-- one completion was polled -/
  | polled
  deriving DecidableEq

/-- The send side of a QP. -/
structure SendQueue where
  sendWr : Nat → SendWr
  sendSgl : Nat → Sge
  /-- how many messages have been sent, a `uint64_t` -/
  sentTx : Nat
  log : List SendEvent

/-- A send queue before any set-up. -/
def SendQueue.blank : SendQueue where
  sendWr := fun _ => ⟨none, 0, 0, false, false⟩
  sendSgl := fun _ => ⟨0, 0⟩
  sentTx := 0
  log := []

/-! ## Counting a log -/

/-- Signaled sends so far. -/
def flags (log : List SendEvent) : Nat := log.countP (· matches .flagged)

/-- Completions polled so far. -/
def polls (log : List SendEvent) : Nat := log.countP (· matches .polled)

/-- Messages handed to the NIC so far. -/
def sends : List SendEvent → Nat
  | [] => 0
  | .posted num _ :: log => num + sends log
  | _ :: log => sends log

/-- The chains handed to the NIC so far, each with its number of messages. -/
def posts (log : List SendEvent) : List (Nat × List Posted) :=
  log.filterMap fun
    | .posted num chain => some (num, chain)
    | _ => none

/-- Signaled work requests in a chain. -/
def signals (chain : List Posted) : Nat := chain.countP (·.signaled)

/-- Completions the NIC has delivered so far: one for each posted signaled work request. -/
def completions : List SendEvent → Nat
  | [] => 0
  | .posted _ chain :: log => signals chain + completions log
  | _ :: log => completions log

theorem completions_append (l l' : List SendEvent) :
    completions (l ++ l') = completions l + completions l' := by
  induction l with
  | nil => exact (Nat.zero_add _).symm
  | cons e l ih =>
    cases e with
    | posted num chain =>
      show signals chain + completions (l ++ l') = signals chain + completions l + _
      rw [ih, Nat.add_assoc]
    | flagged => exact ih
    | polled => exact ih

theorem sends_append (l l' : List SendEvent) : sends (l ++ l') = sends l + sends l' := by
  induction l with
  | nil => exact (Nat.zero_add _).symm
  | cons e l ih =>
    cases e with
    | posted num chain =>
      show num + sends (l ++ l') = num + sends l + _
      rw [ih, Nat.add_assoc]
    | flagged => exact ih
    | polled => exact ih

theorem posts_append (l l' : List SendEvent) : posts (l ++ l') = posts l ++ posts l' :=
  List.filterMap_append ..

theorem flags_append (l l' : List SendEvent) : flags (l ++ l') = flags l + flags l' :=
  List.countP_append ..

theorem polls_append (l l' : List SendEvent) : polls (l ++ l') = polls l + polls l' :=
  List.countP_append ..

/-! What one more event counts for. -/

theorem counts_flagged (log : List SendEvent) :
    flags (log ++ [.flagged]) = flags log + 1 ∧ polls (log ++ [.flagged]) = polls log ∧
      completions (log ++ [.flagged]) = completions log ∧
      sends (log ++ [.flagged]) = sends log := by
  rw [flags_append, polls_append, completions_append, sends_append]
  exact ⟨rfl, rfl, rfl, rfl⟩

theorem counts_polled (log : List SendEvent) :
    flags (log ++ [.polled]) = flags log ∧ polls (log ++ [.polled]) = polls log + 1 ∧
      completions (log ++ [.polled]) = completions log ∧
      sends (log ++ [.polled]) = sends log := by
  rw [flags_append, polls_append, completions_append, sends_append]
  exact ⟨rfl, rfl, rfl, rfl⟩

theorem counts_posted (log : List SendEvent) (num : Nat) (chain : List Posted) :
    flags (log ++ [.posted num chain]) = flags log ∧
      polls (log ++ [.posted num chain]) = polls log ∧
      completions (log ++ [.posted num chain]) = completions log + signals chain ∧
      sends (log ++ [.posted num chain]) = sends log + num := by
  rw [flags_append, polls_append, completions_append, sends_append]
  exact ⟨rfl, rfl, rfl, rfl⟩

namespace SendQueue

variable (s : SendQueue)

/-! ## Writes -/

/-- `send_wr[i].next = p` -/
def setNext (i : Nat) (p : Option Nat) : SendQueue :=
  { s with sendWr := Function.update s.sendWr i { s.sendWr i with next := p } }

/-- `send_wr[i].wr.ud.ah = ah` -/
def setAh (i ah : Nat) : SendQueue :=
  { s with sendWr := Function.update s.sendWr i { s.sendWr i with ah := ah } }

/-- `send_wr[i].send_flags = inlined ? IBV_SEND_INLINE : 0` -/
def setFlags (i : Nat) (inlined : Bool) : SendQueue :=
  { s with sendWr :=
    Function.update s.sendWr i { s.sendWr i with inlined := inlined, signaled := false } }

/-- `send_wr[i].send_flags |= IBV_SEND_SIGNALED` -/
def flagSignaled (i : Nat) : SendQueue :=
  { s with
    sendWr := Function.update s.sendWr i { s.sendWr i with signaled := true }
    log := s.log ++ [.flagged] }

def setSge (i : Nat) (sge : Sge) : SendQueue :=
  { s with sendSgl := Function.update s.sendSgl i sge }

def incrSentTx : SendQueue := { s with sentTx := u64 (s.sentTx + 1) }

/-! ## The NIC -/

/-- The blocking `poll_cq` for one completion. -/
def pollCq : Outcome SendQueue :=
  if polls s.log < completions s.log then .ok { s with log := s.log ++ [.polled] }
  else .error .waiting

/-- What the NIC reads from a work request. -/
def posted (i : Nat) : Posted :=
  let wr := s.sendWr i
  ⟨i, wr.ah, wr.sgList, s.sendSgl wr.sgList, wr.signaled⟩

/-- `ibv_post_send`: the chain from `first` on, out of an array of `sendWrNum` work requests.  It
    takes no cycle, and the code gives up when it fails. -/
def ibvPostSend (sendWrNum num first : Nat) : Outcome SendQueue :=
  match follow (fun i => (s.sendWr i).next) sendWrNum (some first) with
  | some chain => .ok { s with log := s.log ++ [.posted num (chain.map s.posted)] }
  | none => .error .aborted

/-! ## Unicasts -/

/-- `selective_signaling_for_unicast`, without adaptive inlining. -/
def selectiveSignalingForUnicast (ssBatch mesI : Nat) (allowInline : Bool) :
    Outcome SendQueue := do
  let s := s.setFlags mesI allowInline
  let s := if s.sentTx % ssBatch = 0 then s.flagSignaled mesI else s
  let s ← (if s.sentTx % ssBatch = ssBatch - 1 then s.pollCq else pure s)
  return s.incrSentTx

end SendQueue

end Odyssey
