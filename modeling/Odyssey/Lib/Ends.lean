/-
  RULES OF POSTCONDITIONS FOR CALLS.

  `Ends E x Q`: the call `x` ends well.  It returns a value with `Q`, or it is stuck in one of the
  ways that `E` allows.  With `E` everything, this is partial correctness; with `E` nothing, the
  call returns; in between, it rules some ways of being stuck out (a call that may run out of
  room but never waits).

  There is one rule for each way calls are composed, and the rule for a counted loop is the
  induction on its counter.
-/
import Odyssey.Lib.Outcome

namespace Lib

variable {α β σ : Type} {E : Stuck → Prop}

/-- The call returns a value with `Q`, or is stuck as `E` allows. -/
def Ends (E : Stuck → Prop) (x : Outcome α) (Q : α → Prop) : Prop :=
  match x with
  | .ok a => Q a
  | .error e => E e

namespace Ends

theorem ok {Q : α → Prop} {a : α} (h : Q a) : Ends E (.ok a) Q := h

theorem error {Q : α → Prop} {e : Stuck} (h : E e) : Ends E (.error e : Outcome α) Q := h

/-- **Sequence.** -/
theorem bind {x : Outcome α} {f : α → Outcome β} {P : α → Prop} {Q : β → Prop}
    (hx : Ends E x P) (hf : ∀ a, P a → Ends E (f a) Q) : Ends E (x >>= f) Q := by
  cases x with
  | error e => exact hx
  | ok a => exact hf a hx

/-- **Consequence.** -/
theorem mono {x : Outcome α} {P Q : α → Prop} (h : Ends E x P) (hPQ : ∀ a, P a → Q a) :
    Ends E x Q := by
  cases x with
  | error e => exact h
  | ok a => exact hPQ a h

/-- A call that returned has its postcondition. -/
theorem of_ok {x : Outcome α} {Q : α → Prop} {a : α} (h : Ends E x Q) (hx : x = .ok a) : Q a := by
  subst hx
  exact h

/-- A call that is stuck is stuck in an allowed way. -/
theorem of_error {x : Outcome α} {Q : α → Prop} {e : Stuck} (h : Ends E x Q)
    (hx : x = .error e) : E e := by
  subst hx
  exact h

/-- A call that is never stuck returns. -/
theorem returns {x : Outcome α} {Q : α → Prop} (h : Ends (fun _ => False) x Q) :
    ∃ a, x = .ok a ∧ Q a := by
  cases x with
  | error e => exact absurd h not_false
  | ok a => exact ⟨a, rfl, h⟩

/-- A postcondition, from what every returning call has and what no stuck call is. -/
theorem intro {x : Outcome α} {Q : α → Prop} (hok : ∀ a, x = .ok a → Q a)
    (herr : ∀ e, x = .error e → E e) : Ends E x Q := by
  cases x with
  | error e => exact herr e rfl
  | ok a => exact hok a rfl

/-- **Loop**, over a range. -/
theorem foldlM {P : Nat → σ → Prop} {body : σ → Nat → Outcome σ} {s : σ} (n : Nat) (h0 : P 0 s)
    (hstep : ∀ i t, i < n → P i t → Ends E (body t i) (P (i + 1))) :
    Ends E ((List.range n).foldlM body s) (P n) := by
  induction n with
  | zero => exact h0
  | succ n ih =>
    rw [List.range_succ, List.foldlM_append]
    refine (ih fun i t hi => hstep i t (by omega)).bind fun t ht => ?_
    exact (hstep n t (by omega) ht).bind fun t' ht' => ok ht'

/-- **Counted loop.**  It may also run for ever. -/
theorem forLoop {w n : Nat} {P : Nat → σ → Prop} {body : σ → Nat → Outcome σ} {s : σ}
    (hE : E .endless) (h0 : P 0 s)
    (hstep : n < 2 ^ w → ∀ i t, i < n → P i t → Ends E (body t i) (P (i + 1))) :
    Ends E (forLoop w n body s) (P n) := by
  unfold Lib.forLoop
  split
  · rename_i hn
    exact foldlM n h0 (hstep hn)
  · exact hE

end Ends

end Lib
