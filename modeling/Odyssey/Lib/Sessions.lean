/-
  SESSIONS OVER A STORE THAT IS ATOMIC.

  A session issues requests and goes on without waiting for them; the store executes the requests
  of a session one at a time and in the order they were issued in, and those of different sessions
  in any order.  This is all that a client relies on when it calls an asynchronous store, and here
  it is a system in the sense of `Run`:

  * a turn of a client is one pass of its program over one session: the pass sees what the session
    holds (`info`, the buffers included), how many of its requests were issued and executed, and
    what the sessions of the client share;
  * a turn of the store executes the oldest request of a session, against the store and the
    buffers of that session.  Whether the request fails for no reason (as a weak compare-and-swap
    may) is part of the turn.

  So a statement about every run is one about every interleaving of the passes of all sessions and
  of the execution of their requests, under any scheduling of the sessions.
-/
import Odyssey.Lib.Runs
import Mathlib.Logic.Function.Basic
import Mathlib.Data.List.Basic
import Mathlib.Algebra.Order.BigOperators.Group.Finset

namespace Lib

/-- A session: what it holds, its requests that are issued and not executed, oldest first, and the
    number of those that were issued. -/
structure Issuer (L R : Type) where
  info : L
  queue : List R
  issued : Nat

/-- The requests of a session that were executed. -/
def Issuer.executed {L R : Type} (x : Issuer L R) : Nat := x.issued - x.queue.length

/-- A store with the sessions that use it; `shared` is what the sessions of one client share. -/
structure Sessions (S C L R : Type) where
  store : S
  shared : Nat → C
  session : Nat → Issuer L R

/-- Counting again after one item has changed. -/
theorem countP_range_update (p p' : Nat → Bool) {g : Nat} (n : Nat) (hg : g < n)
    (h : ∀ i, i ≠ g → p' i = p i) :
    (List.range n).countP p' + (if p g = true then 1 else 0)
      = (List.range n).countP p + (if p' g = true then 1 else 0) := by
  induction n with
  | zero => exact absurd hg (Nat.not_lt_zero g)
  | succ n ih =>
    rw [List.range_succ, List.countP_append, List.countP_append, List.countP_singleton,
      List.countP_singleton]
    by_cases hn : g = n
    · subst hn
      have hold : (List.range g).countP p' = (List.range g).countP p :=
        List.countP_congr fun i hi => by rw [h i (Nat.ne_of_lt (List.mem_range.mp hi))]
      rw [hold]
      omega
    · have hold := ih (by omega)
      rw [h n fun hc => hn hc.symm]
      omega

/-- **The sessions of which something holds**, after one of them has changed. -/
theorem countP_update {L R : Type} (P : Issuer L R → Bool) (session : Nat → Issuer L R) {g n : Nat}
    (hg : g < n) (x : Issuer L R) :
    (List.range n).countP (fun i => P (Function.update session g x i))
        + (if P (session g) = true then 1 else 0)
      = (List.range n).countP (fun i => P (session i)) + (if P x = true then 1 else 0) := by
  have h := countP_range_update (fun i => P (session i))
    (fun i => P (Function.update session g x i)) n hg fun i hi => by
      simp only [Function.update_of_ne hi]
  simp only [Function.update_self] at h
  exact h

/-- Who moves next. -/
inductive Turn
  /-- the client, on its session `g` -/
  | client (g : Nat)
  /-- the store, on the oldest request of session `g`, which may fail for no reason -/
  | store (g : Nat) (spurious : Bool)
  deriving DecidableEq

/-- What the clients do, and what the store does. -/
structure Service (S C L R E : Type) where
  /-- the client of a session -/
  clientOf : Nat → Nat
  /-- one pass over session `g`: what it holds and shares then, and the requests it issues -/
  pass : Nat → C → Issuer L R → Outcome (C × L × List R × E)
  /-- the execution of a request -/
  serve : Bool → S → L → R → S × L × E

variable {S C L R E : Type}

namespace Service

variable (p : Service S C L R E)

/-- A turn. -/
def step (s : Sessions S C L R) : Turn → Outcome (Sessions S C L R × E)
  | .client g => do
    let x := s.session g
    let (c, info, requests, e) ← p.pass g (s.shared (p.clientOf g)) x
    return (⟨s.store, Function.update s.shared (p.clientOf g) c,
      Function.update s.session g ⟨info, x.queue ++ requests, x.issued + requests.length⟩⟩, e)
  | .store g spurious =>
    let x := s.session g
    match x.queue with
    | [] => .error .disabled
    | r :: queue =>
      let (store, info, e) := p.serve spurious s.store x.info r
      .ok (⟨store, s.shared, Function.update s.session g ⟨info, queue, x.issued⟩⟩, e)

variable {p} {s s' : Sessions S C L R} {e : E}

/-- What a turn can do. -/
theorem step_cases {k : Turn} (h : p.step s k = .ok (s', e)) :
    (∃ g c info requests, k = .client g ∧
      p.pass g (s.shared (p.clientOf g)) (s.session g) = .ok (c, info, requests, e) ∧
      s' = ⟨s.store, Function.update s.shared (p.clientOf g) c, Function.update s.session g
        ⟨info, (s.session g).queue ++ requests, (s.session g).issued + requests.length⟩⟩) ∨
    (∃ g spurious r queue store info, k = .store g spurious ∧ (s.session g).queue = r :: queue ∧
      p.serve spurious s.store (s.session g).info r = (store, info, e) ∧
      s' = ⟨store, s.shared, Function.update s.session g ⟨info, queue, (s.session g).issued⟩⟩) := by
  cases k with
  | client g =>
    obtain ⟨⟨c, info, requests, e'⟩, hpass, h⟩ := bind_eq_ok.mp h
    cases h
    exact Or.inl ⟨g, c, info, requests, rfl, hpass, rfl⟩
  | store g spurious =>
    simp only [step] at h
    split at h
    · nomatch h
    · rename_i r queue hqueue
      cases h
      exact Or.inr ⟨g, spurious, r, queue, _, _, rfl, hqueue, rfl, rfl⟩

/-- The requests that were issued are only added to. -/
theorem issued_mono {k : Turn} (h : p.step s k = .ok (s', e)) (g : Nat) :
    (s.session g).issued ≤ (s'.session g).issued := by
  rcases step_cases h with ⟨g', c, info, requests, -, -, rfl⟩ |
    ⟨g', spurious, r, queue, store, info, -, -, -, rfl⟩
  · by_cases hg : g = g'
    · subst hg
      simp only [Function.update_self]
      exact Nat.le_add_right ..
    · simp only [Function.update_of_ne hg]
      exact Nat.le_refl _
  · by_cases hg : g = g'
    · subst hg
      simp only [Function.update_self]
      exact Nat.le_refl _
    · simp only [Function.update_of_ne hg]
      exact Nat.le_refl _

theorem issued_mono_run {s₀ : Sessions S C L R} {tr : List (Turn × E)} (h : Run p.step s₀ tr s)
    (g : Nat) : (s₀.session g).issued ≤ (s.session g).issued :=
  h.invariant (fun _ s => (s₀.session g).issued ≤ (s.session g).issued) (Nat.le_refl _)
    fun _ _ _ _ _ _ hle hstep => Nat.le_trans hle (issued_mono hstep g)

/-- No more requests are waiting than were issued. -/
theorem queue_le_issued {s₀ : Sessions S C L R} {tr : List (Turn × E)}
    (h0 : ∀ g, (s₀.session g).queue.length ≤ (s₀.session g).issued) (h : Run p.step s₀ tr s) :
    ∀ g, (s.session g).queue.length ≤ (s.session g).issued := by
  refine h.invariant (fun _ s => ∀ g, (s.session g).queue.length ≤ (s.session g).issued) h0 ?_
  intro tr s k s' e _ ih hstep g'
  rcases step_cases hstep with ⟨g, c, info, requests, -, -, rfl⟩ |
    ⟨g, spurious, r, queue, store, info, -, hqueue, -, rfl⟩
  · by_cases hg : g' = g
    · subst hg
      have hold := ih g'
      simp only [Function.update_self, List.length_append]
      omega
    · simp only [Function.update_of_ne hg]
      exact ih g'
  · by_cases hg : g' = g
    · subst hg
      have hold := ih g'
      rw [hqueue, List.length_cons] at hold
      simp only [Function.update_self]
      omega
    · simp only [Function.update_of_ne hg]
      exact ih g'

/-- The requests that were executed. -/
def served (tr : List (Turn × E)) : Nat :=
  tr.countP fun
    | (.store _ _, _) => true
    | _ => false

/-- The requests of session `g` that were executed. -/
def servedOf (g : Nat) (tr : List (Turn × E)) : Nat :=
  tr.countP fun
    | (.store g' _, _) => g' == g
    | _ => false

/-- **The requests that were executed**, session by session, if only the first `n` issue any. -/
theorem served_eq {s₀ : Sessions S C L R} {tr : List (Turn × E)} (n : Nat)
    (h0 : ∀ g, (s₀.session g).queue.length = (s₀.session g).issued) (h : Run p.step s₀ tr s)
    (hout : ∀ g, n ≤ g → (s.session g).issued = 0) :
    served tr = (Finset.range n).sum fun g => (s.session g).executed := by
  induction h with
  | start =>
    refine (Finset.sum_eq_zero fun g _ => ?_).symm
    rw [Issuer.executed, h0, Nat.sub_self]
  | @snoc tr s s' k e hrun hstep ih =>
    have hbefore := ih fun g hg => Nat.eq_zero_of_le_zero (hout g hg ▸ issued_mono hstep g)
    have hle := queue_le_issued (fun g => Nat.le_of_eq (h0 g)) hrun
    rcases step_cases hstep with ⟨g, c, info, requests, rfl, -, rfl⟩ |
      ⟨g, spurious, r, queue, store, info, rfl, hqueue, -, rfl⟩
    · have hserved : served (tr ++ [(.client g, e)]) = served tr := by
        rw [served, List.countP_append]
        rfl
      rw [hserved, hbefore]
      refine Finset.sum_congr rfl fun g' _ => ?_
      by_cases hg : g' = g
      · subst hg
        simp only [Function.update_self, Issuer.executed, List.length_append]
        omega
      · simp only [Function.update_of_ne hg]
    · have hserved : served (tr ++ [(.store g spurious, e)]) = served tr + 1 := by
        rw [served, List.countP_append]
        rfl
      have hmore := hle g
      rw [hqueue, List.length_cons] at hmore
      have hg : g ∈ Finset.range n := by
        by_contra hc
        have hnone := hout g (Nat.le_of_not_lt fun hlt => hc (Finset.mem_range.mpr hlt))
        simp only [Function.update_self] at hnone
        omega
      rw [hserved, hbefore, ← Finset.add_sum_erase _ _ hg, ← Finset.add_sum_erase _ _ hg]
      have hothers : ∀ g' ∈ (Finset.range n).erase g, (Function.update s.session g
          ⟨info, queue, (s.session g).issued⟩ g').executed = (s.session g').executed := by
        intro g' hg'
        rw [Function.update_of_ne (Finset.ne_of_mem_erase hg')]
      rw [Finset.sum_congr rfl hothers]
      simp only [Function.update_self, Issuer.executed, hqueue, List.length_cons]
      omega

/-- The requests that were executed, while every session issues fewer than `m`. -/
theorem served_le {s₀ : Sessions S C L R} {tr : List (Turn × E)} {n m : Nat}
    (h0 : ∀ g, (s₀.session g).queue.length = (s₀.session g).issued) (h : Run p.step s₀ tr s)
    (hout : ∀ g, n ≤ g → (s.session g).issued = 0)
    (hm : ∀ g, g < n → (s.session g).issued ≤ m) : served tr ≤ n * m := by
  have hsum := Finset.sum_le_card_nsmul (Finset.range n) (fun g => (s.session g).executed) m
    fun g hg => Nat.le_trans (Nat.sub_le ..) (hm g (Finset.mem_range.mp hg))
  rw [served_eq n h0 h hout]
  rw [Finset.card_range] at hsum
  exact hsum

end Service

end Lib
