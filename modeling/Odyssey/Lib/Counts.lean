/-
  A QUEUE OF COUNTS, CONSUMED FROM THE FRONT.

  Messages carry several requests each, and requests are consumed one after another, without
  regard to where a message ends.  A queue of messages is the list of their counts; after `k`
  requests of it are consumed

  * `unconsumed l k` is what is left: the messages not fully consumed, the first one reduced by
    what was consumed of it;
  * `finished l k` is how many messages are done.

  Consuming twice is consuming the sum (`unconsumed_unconsumed`, `finished_add`), and a message
  that arrives late is left whole (`unconsumed_concat`).
-/
import Mathlib.Algebra.BigOperators.Group.List.Basic
import Mathlib.Algebra.Ring.Nat

namespace Lib

/-- The messages not fully consumed after `k` requests, the first one reduced. -/
def unconsumed : List Nat → Nat → List Nat
  | [], _ => []
  | c :: l, k => if c ≤ k then unconsumed l (k - c) else (c - k) :: l

/-- The number of messages that `k` requests finish. -/
def finished : List Nat → Nat → Nat
  | [], _ => 0
  | c :: l, k => if c ≤ k then finished l (k - c) + 1 else 0

theorem unconsumed_of_le {c k : Nat} (l : List Nat) (h : c ≤ k) :
    unconsumed (c :: l) k = unconsumed l (k - c) := if_pos h

theorem unconsumed_of_lt {c k : Nat} (l : List Nat) (h : k < c) :
    unconsumed (c :: l) k = (c - k) :: l := if_neg (Nat.not_le.mpr h)

theorem finished_of_le {c k : Nat} (l : List Nat) (h : c ≤ k) :
    finished (c :: l) k = finished l (k - c) + 1 := if_pos h

theorem finished_of_lt {c k : Nat} (l : List Nat) (h : k < c) : finished (c :: l) k = 0 :=
  if_neg (Nat.not_le.mpr h)

/-- Messages are left or finished. -/
theorem finished_add_length (l : List Nat) (k : Nat) :
    finished l k + (unconsumed l k).length = l.length := by
  induction l generalizing k with
  | nil => rfl
  | cons c l ih =>
    rcases Nat.lt_or_ge k c with h | h
    · rw [finished_of_lt l h, unconsumed_of_lt l h, List.length_cons, List.length_cons, Nat.zero_add]
    · have := ih (k - c)
      rw [finished_of_le l h, unconsumed_of_le l h, List.length_cons]
      omega

/-- Requests are left or consumed. -/
theorem sum_unconsumed (l : List Nat) (k : Nat) : (unconsumed l k).sum = l.sum - k := by
  induction l generalizing k with
  | nil => simp [unconsumed]
  | cons c l ih =>
    rcases Nat.lt_or_ge k c with h | h
    · rw [unconsumed_of_lt l h, List.sum_cons, List.sum_cons]
      omega
    · rw [unconsumed_of_le l h, ih, List.sum_cons]
      omega

/-- Nothing consumed: all is left, provided that every message has a request. -/
theorem unconsumed_zero {l : List Nat} (h : ∀ c ∈ l, 1 ≤ c) : unconsumed l 0 = l := by
  cases l with
  | nil => rfl
  | cons c l => rw [unconsumed_of_lt l (h c List.mem_cons_self), Nat.sub_zero]

theorem finished_zero {l : List Nat} (h : ∀ c ∈ l, 1 ≤ c) : finished l 0 = 0 := by
  cases l with
  | nil => rfl
  | cons c l => exact finished_of_lt l (h c List.mem_cons_self)

/-- **Consuming twice is consuming the sum.** -/
theorem unconsumed_unconsumed (l : List Nat) (a b : Nat) :
    unconsumed (unconsumed l a) b = unconsumed l (a + b) := by
  induction l generalizing a with
  | nil => rfl
  | cons c l ih =>
    rcases Nat.lt_or_ge a c with ha | ha
    · rw [unconsumed_of_lt l ha]
      rcases Nat.lt_or_ge (a + b) c with hb | hb
      · rw [unconsumed_of_lt l hb, unconsumed_of_lt l (by omega), Nat.sub_sub]
      · rw [unconsumed_of_le l hb, unconsumed_of_le l (by omega)]
        congr 1
        omega
    · rw [unconsumed_of_le l ha, unconsumed_of_le l (by omega), ih]
      congr 1
      omega

/-- The messages finished are finished by the one or by the other. -/
theorem finished_add (l : List Nat) (a b : Nat) :
    finished l (a + b) = finished l a + finished (unconsumed l a) b := by
  have h₁ := finished_add_length l (a + b)
  have h₂ := finished_add_length l a
  have h₃ := finished_add_length (unconsumed l a) b
  rw [unconsumed_unconsumed] at h₃
  omega

/-- A message that arrives is left whole, as long as no more is consumed than had arrived. -/
theorem unconsumed_concat {l : List Nat} {k c : Nat} (hc : 1 ≤ c) (h : k ≤ l.sum) :
    unconsumed (l ++ [c]) k = unconsumed l k ++ [c] := by
  induction l generalizing k with
  | nil =>
    have hk : k = 0 := Nat.le_zero.mp h
    rw [hk, List.nil_append, unconsumed_of_lt [] hc]
    rfl
  | cons a l ih =>
    rw [List.sum_cons] at h
    rw [List.cons_append]
    rcases Nat.lt_or_ge k a with hk | hk
    · rw [unconsumed_of_lt _ hk, unconsumed_of_lt l hk, List.cons_append]
    · rw [unconsumed_of_le _ hk, unconsumed_of_le l hk]
      exact ih (by omega)

end Lib
