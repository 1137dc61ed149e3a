/-
  THE SESSIONS OF THE BENCHMARKS in `od_client.c`, and the part of the asynchronous interface that
  they wait with.

  Every machine runs some clients, every client some sessions.  The sessions are numbered here by
  `g`, over the whole deployment: machine `g / SESSIONS_PER_MACHINE`, and on it the session
  `g % SESSIONS_PER_MACHINE`.  A client goes round its sessions and makes one pass of a state
  machine over each; here any session may be the next one to move, so the round is one of many
  orders.

  Of the interface, this keeps what the state machines see: the requests of a session are executed
  in the order they were issued in (`Lib.Sessions`), an asynchronous call returns the number of the
  request as an `int`, and `poll_a_req_blocking` spins until that many requests were pulled.  The
  state machines keep that number in a `uint32_t`, and the interface counts in a `uint64_t`.
-/
import Odyssey.Lib.Sessions
import Odyssey.Lib.Outcome
import Odyssey.Lib.Places

namespace Odyssey

open Lib

/-- The macros the benchmarks depend on.  The session ids of the interface are `uint16_t`s. -/
structure Deployment where
  machineNum : Nat
  sessionsPerMachine : Nat
  sessionsPerClient : Nat
  clientsPerMachine : Nat
  /-- `NUM_OF_RMW_KEYS` -/
  numOfRmwKeys : Nat
  /-- `CLIENT_ASSERTIONS` -/
  clientAssertions : Bool
  sessionsPerMachine_pos : 0 < sessionsPerMachine
  sessionsPerMachine_le : sessionsPerMachine ≤ 2 ^ 16

namespace Deployment

variable (d : Deployment)

/-- `GLOBAL_SESSION_NUM` -/
def globalSessionNum : Nat := d.machineNum * d.sessionsPerMachine

def machineId (g : Nat) : Nat := g / d.sessionsPerMachine

def realSessI (g : Nat) : Nat := g % d.sessionsPerMachine

/-- The client that runs a session, numbered over the whole deployment. -/
def clientOf (g : Nat) : Nat :=
  d.machineId g * d.clientsPerMachine + d.realSessI g / d.sessionsPerClient

/-- `(uint16_t) (SESSIONS_PER_MACHINE * machine_id + real_sess_i)` -/
def globSessI (g : Nat) : Nat := u16 (d.sessionsPerMachine * d.machineId g + d.realSessI g)

theorem globSessI_eq (g : Nat) : d.globSessI g = u16 g := by
  unfold globSessI machineId realSessI
  rw [Nat.div_add_mod]

end Deployment

/-! ## Waiting for a request -/

/-- What a state machine keeps of the number of the `k`-th request that it issues in a pass: the
    `int` that the call returns, as a `uint32_t`. -/
def lastReqIdAfter {L R : Type} (x : Issuer L R) (k : Nat) : Nat := u32 (x.issued + k)

/-- `poll_a_req_blocking`, which pulls all requests that were executed. -/
def pollAReqBlocking {L R : Type} (x : Issuer L R) (target : Nat) : Outcome Unit :=
  if target ≤ u64 x.executed then .ok () else .error .waiting

/-- **After the wait**: while the number of a request fits in 32 bits, all requests up to it were
    executed. -/
theorem executed_of_poll {L R : Type} {x : Issuer L R} {n : Nat} (hle : x.queue.length ≤ x.issued)
    (hfew : x.issued < 2 ^ 32) (hn : n ≤ x.issued)
    (h : pollAReqBlocking x (u32 n) = .ok ()) : x.queue.length ≤ x.issued - n := by
  unfold pollAReqBlocking Issuer.executed at h
  split at h
  · rename_i hpoll
    rw [u32_of_lt (by omega), u64_of_lt (by omega)] at hpoll
    omega
  · nomatch h

/-! ## Nodes -/

/-- Where a node can be: with session `g`, or linked in stack, queue or list `i`. -/
inductive NodePlace
  | session (g : Nat)
  | linked (i : Nat)
  deriving DecidableEq

/-- What is at a place: the node that a session owns, and the nodes that are linked. -/
def holdsNode (sessions lists : Nat) (owned : Nat → Option Nat) (chain : Nat → List Nat) :
    NodePlace → Nat → Prop
  | .session g, k => g < sessions ∧ owned g = some k
  | .linked i, k => i < lists ∧ k ∈ chain i

namespace holdsNode

variable {isNode : Nat → Prop} {n m g i k : Nat} {owned owned' : Nat → Option Nat}
  {chain : Nat → List Nat} {l : List Nat}

/-- A node that a session owns is not linked. -/
theorem not_linked (h : Placed isNode (holdsNode n m owned chain)) (hg : g < n)
    (howned : owned g = some k) (hi : i < m) : k ∉ chain i := by
  intro hk
  have hsession : holdsNode n m owned chain (.session g) k := ⟨hg, howned⟩
  have hlinked : holdsNode n m owned chain (.linked i) k := ⟨hi, hk⟩
  nomatch h.once hsession hlinked

/-- **A session links its node.** -/
theorem link (h : Placed isNode (holdsNode n m owned chain)) (hg : g < n) (hi : i < m)
    (howned : owned g = some k) (hnone : owned' g = none) (hothers : ∀ g', g' ≠ g → owned' g' = owned g')
    (hl : ∀ k', k' ∈ l ↔ k' = k ∨ k' ∈ chain i) :
    Placed isNode (holdsNode n m owned' (Function.update chain i l)) := by
  have hmine : holdsNode n m owned chain (.session g) k := ⟨hg, howned⟩
  refine h.move hmine (show holdsNode n m owned' _ (.linked i) k from ⟨hi, ?_⟩) ?_ ?_
  · rw [Function.update_self]
    exact (hl k).mpr (Or.inl rfl)
  · rintro (g' | i') ⟨hlt, hk⟩
    · by_cases hne : g' = g
      · rw [hne, hnone] at hk
        nomatch hk
      · rw [hothers g' hne] at hk
        have htheirs : holdsNode n m owned chain (.session g') k := ⟨hlt, hk⟩
        cases h.once hmine htheirs
        exact absurd rfl hne
    · by_cases hne : i' = i
      · rw [hne]
      · rw [Function.update_of_ne hne] at hk
        exact absurd hk (not_linked h hg howned hlt)
  · rintro (g' | i') k' hk'
    · by_cases hne : g' = g
      · constructor
        · rintro ⟨-, hc⟩
          rw [hne, hnone] at hc
          nomatch hc
        · rintro ⟨-, hc⟩
          rw [hne, howned] at hc
          exact absurd (Option.some.inj hc).symm hk'
      · show (_ ∧ owned' g' = _) ↔ (_ ∧ _)
        rw [hothers g' hne]
    · by_cases hne : i' = i
      · show (_ ∧ k' ∈ Function.update chain i l i') ↔ (_ ∧ _)
        rw [hne, Function.update_self, hl k']
        exact ⟨fun hc => ⟨hc.1, hc.2.resolve_left hk'⟩, fun hc => ⟨hc.1, Or.inr hc.2⟩⟩
      · show (_ ∧ k' ∈ Function.update chain i l i') ↔ (_ ∧ _)
        rw [Function.update_of_ne hne]

/-- **A session takes a node out.** -/
theorem unlink (h : Placed isNode (holdsNode n m owned chain)) (hg : g < n) (hi : i < m)
    (howned : owned' g = some k) (hnone : owned g = none) (hothers : ∀ g', g' ≠ g → owned' g' = owned g')
    (hl : ∀ k', k' ∈ chain i ↔ k' = k ∨ k' ∈ l) (hk : k ∉ l) :
    Placed isNode (holdsNode n m owned' (Function.update chain i l)) := by
  have hmine : holdsNode n m owned chain (.linked i) k := ⟨hi, (hl k).mpr (Or.inl rfl)⟩
  refine h.move hmine (show holdsNode n m owned' _ (.session g) k from ⟨hg, howned⟩) ?_ ?_
  · rintro (g' | i') ⟨hlt, hc⟩
    · by_cases hne : g' = g
      · rw [hne]
      · rw [hothers g' hne] at hc
        exact absurd ((hl k).mpr (Or.inl rfl)) (not_linked h hlt hc hi)
    · by_cases hne : i' = i
      · rw [hne, Function.update_self] at hc
        exact absurd hc hk
      · rw [Function.update_of_ne hne] at hc
        have htheirs : holdsNode n m owned chain (.linked i') k := ⟨hlt, hc⟩
        cases h.once hmine htheirs
        exact absurd rfl hne
  · rintro (g' | i') k' hk'
    · by_cases hne : g' = g
      · constructor
        · rintro ⟨-, hc⟩
          rw [hne, howned] at hc
          exact absurd (Option.some.inj hc).symm hk'
        · rintro ⟨-, hc⟩
          rw [hne, hnone] at hc
          nomatch hc
      · show (_ ∧ owned' g' = _) ↔ (_ ∧ _)
        rw [hothers g' hne]
    · by_cases hne : i' = i
      · show (_ ∧ k' ∈ Function.update chain i l i') ↔ (_ ∧ _)
        rw [hne, Function.update_self, hl k']
        exact ⟨fun hc => ⟨hc.1, Or.inr hc.2⟩, fun hc => ⟨hc.1, hc.2.resolve_left hk'⟩⟩
      · show (_ ∧ k' ∈ Function.update chain i l i') ↔ (_ ∧ _)
        rw [Function.update_of_ne hne]

end holdsNode

/-! ## Schedules for small runs -/

/-- Two machines with one session each. -/
def Deployment.two : Deployment where
  machineNum := 2
  sessionsPerMachine := 1
  sessionsPerClient := 1
  clientsPerMachine := 1
  numOfRmwKeys := 60000
  clientAssertions := false
  sessionsPerMachine_pos := by decide
  sessionsPerMachine_le := by decide

/-- The store executes `n` requests of session `g`. -/
def serves (g n : Nat) : List Turn := List.replicate n (.store g false)

end Odyssey
