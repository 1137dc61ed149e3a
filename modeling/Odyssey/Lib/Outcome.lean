/-
  OUTCOMES OF A CALL, COUNTED LOOPS AND FIXED-WIDTH COUNTERS.

  A call of a C function either returns or gets stuck: it spins for ever, it waits for an event
  that never comes, it leaves the language (a write outside the allocation), or it exits the
  program.  `Outcome σ` is the result of such a call, and a stuck call has no state after it.

  Two sources of being stuck are generic enough to be said once, here:

  * `forLoop w n body` is `for (uintW_t i = 0; i < n; i++) body`.  A `w`-bit counter never
    reaches a bound of `2 ^ w` or more, it wraps to 0 first, so the loop runs for ever; below
    that bound it is the fold of the body over `0, …, n-1`.
  * `uN x` is what a `uintN_t` variable holds after `x` has been stored in it.

  The loop rules (`forPure_rule`, `foldlM_range_rule`, `foldlM_range_total`) are the induction on
  the counter, packaged once: an invariant indexed by the number of completed rounds.  Where each
  round says exactly when it returns, so does the loop (`foldlM_range_eq_ok`).
-/
import Mathlib.Algebra.Ring.Int.Defs
import Mathlib.Algebra.Ring.Nat
import Mathlib.Data.List.Basic

namespace Lib

/-! ## Outcomes -/

/-- Why a call has no state after it. -/
inductive Stuck
  /-- a loop whose exit condition never becomes true -/
  | endless
  /-- a blocking wait for an event that never comes -/
  | waiting
  /-- undefined behaviour, or a failed assertion -/
  | undefined
  /-- the program gives up: a failed library call -/
  | aborted
  /-- not a call at all: the environment cannot take this step here -/
  | disabled
  deriving Repr, DecidableEq

/-- The result of a call: the state after it, or why there is none. -/
abbrev Outcome := Except Stuck

/-- Peeling a sequenced call apart: it returned, so both halves did. -/
theorem bind_eq_ok {α β : Type} {x : Outcome α} {f : α → Outcome β} {b : β} :
    x >>= f = .ok b ↔ ∃ a, x = .ok a ∧ f a = .ok b := by
  cases x with
  | error e =>
    constructor
    · intro h; nomatch h
    · rintro ⟨a, h, -⟩; nomatch h
  | ok a =>
    constructor
    · intro h; exact ⟨a, rfl, h⟩
    · rintro ⟨a', h, hf⟩
      cases h
      exact hf

/-- Peeling a sequenced call that has not returned apart: one of its halves has not. -/
theorem bind_eq_error {α β : Type} {x : Outcome α} {f : α → Outcome β} {e : Stuck} :
    x >>= f = .error e ↔ x = .error e ∨ ∃ a, x = .ok a ∧ f a = .error e := by
  cases x with
  | error e' =>
    constructor
    · intro h
      cases h
      exact Or.inl rfl
    · rintro (h | ⟨a, h, -⟩)
      · cases h
        rfl
      · nomatch h
  | ok a =>
    constructor
    · intro h
      exact Or.inr ⟨a, rfl, h⟩
    · rintro (h | ⟨a', h, hf⟩)
      · nomatch h
      · cases h
        exact hf

@[simp] theorem ok_bind {α β : Type} (a : α) (f : α → Outcome β) :
    (Except.ok a >>= f : Outcome β) = f a := rfl

/-! ## Counted loops -/

variable {σ : Type}

/-- `for (uintW_t i = 0; i < n; i++) s = body(s, i)`. -/
def forLoop (w n : Nat) (body : σ → Nat → Outcome σ) (s : σ) : Outcome σ :=
  if n < 2 ^ w then (List.range n).foldlM body s else .error .endless

/-- The loop with a body that always returns. -/
def forPure (w n : Nat) (body : σ → Nat → σ) (s : σ) : Outcome σ :=
  if n < 2 ^ w then .ok ((List.range n).foldl body s) else .error .endless

/-- **Fold rule.**  An invariant indexed by the number of completed rounds. -/
theorem foldl_range_rule {P : Nat → σ → Prop} {body : σ → Nat → σ} {s : σ} (n : Nat)
    (h0 : P 0 s) (hstep : ∀ i t, i < n → P i t → P (i + 1) (body t i)) :
    P n ((List.range n).foldl body s) := by
  induction n with
  | zero => exact h0
  | succ n ih =>
    rw [List.range_succ, List.foldl_append]
    exact hstep n _ (by omega) (ih (fun i t hi ht => hstep i t (by omega) ht))

/-- **Partial loop rule.**  If every round that returns keeps the invariant, so does the loop. -/
theorem foldlM_range_rule {P : Nat → σ → Prop} {body : σ → Nat → Outcome σ} {s s' : σ} (n : Nat)
    (h0 : P 0 s) (hstep : ∀ i t t', i < n → P i t → body t i = .ok t' → P (i + 1) t')
    (h : (List.range n).foldlM body s = .ok s') : P n s' := by
  induction n generalizing s' with
  | zero =>
    cases h
    exact h0
  | succ n ih =>
    rw [List.range_succ, List.foldlM_append] at h
    obtain ⟨t, ht, hlast⟩ := bind_eq_ok.mp h
    have hP : P n t := ih (fun i t t' hi => hstep i t t' (by omega)) ht
    obtain ⟨t', hbody, hpure⟩ := bind_eq_ok.mp hlast
    cases hpure
    exact hstep n t s' (by omega) hP hbody

/-- **Total loop rule.**  If every round returns and keeps the invariant, the loop returns. -/
theorem foldlM_range_total {P : Nat → σ → Prop} {body : σ → Nat → Outcome σ} {s : σ} (n : Nat)
    (h0 : P 0 s) (hstep : ∀ i t, i < n → P i t → ∃ t', body t i = .ok t' ∧ P (i + 1) t') :
    ∃ s', (List.range n).foldlM body s = .ok s' ∧ P n s' := by
  induction n with
  | zero => exact ⟨s, rfl, h0⟩
  | succ n ih =>
    obtain ⟨t, ht, hP⟩ := ih (fun i t hi => hstep i t (by omega))
    obtain ⟨t', hbody, hP'⟩ := hstep n t (by omega) hP
    refine ⟨t', ?_, hP'⟩
    rw [List.range_succ, List.foldlM_append, ht]
    show (body t n >>= fun t' => pure t') = .ok t'
    rw [hbody]
    rfl

/-- **Exact loop rule.**  A body that returns exactly when `ok i` holds, and then does `next`: the
    loop returns exactly when `ok` holds of all rounds, and is the fold of `next`. -/
theorem foldlM_range_eq_ok {body : σ → Nat → Outcome σ} {next : σ → Nat → σ} {ok : Nat → Prop}
    {s : σ} (n : Nat)
    (h : ∀ i t, i < n → (body ((List.range i).foldl next s) i = .ok t ↔
      ok i ∧ t = next ((List.range i).foldl next s) i)) {s' : σ} :
    (List.range n).foldlM body s = .ok s' ↔
      (∀ i < n, ok i) ∧ s' = (List.range n).foldl next s := by
  induction n generalizing s' with
  | zero =>
    constructor
    · intro hs
      cases hs
      exact ⟨fun i hi => absurd hi (Nat.not_lt_zero i), rfl⟩
    · rintro ⟨-, rfl⟩
      rfl
  | succ n ih =>
    have hlast : ∀ t t', ([n].foldlM body t = .ok t') ↔ body t n = .ok t' := by
      intro t t'
      rw [List.foldlM_cons]
      show (body t n >>= fun t => .ok t) = .ok t' ↔ _
      rw [bind_eq_ok]
      constructor
      · rintro ⟨u, hu, heq⟩
        cases heq
        exact hu
      · exact fun ht => ⟨t', ht, rfl⟩
    rw [List.range_succ, List.foldlM_append, List.foldl_append, bind_eq_ok]
    constructor
    · rintro ⟨t, ht, hbody⟩
      obtain ⟨hok, rfl⟩ := (ih fun i t hi => h i t (by omega)).mp ht
      obtain ⟨hn, rfl⟩ := (h n s' (Nat.lt_succ_self n)).mp ((hlast _ _).mp hbody)
      refine ⟨fun i hi => ?_, rfl⟩
      rcases Nat.lt_succ_iff_lt_or_eq.mp hi with hlt | rfl
      · exact hok i hlt
      · exact hn
    · rintro ⟨hok, rfl⟩
      refine ⟨_, (ih fun i t hi => h i t (by omega)).mpr ⟨fun i hi => hok i (by omega), rfl⟩, ?_⟩
      exact (hlast _ _).mpr ((h n _ (Nat.lt_succ_self n)).mpr ⟨hok n (Nat.lt_succ_self n), rfl⟩)

/-- A counted loop that returned had a bound its counter can reach, and is the fold. -/
theorem forLoop_eq_ok {w n : Nat} {body : σ → Nat → Outcome σ} {s s' : σ} :
    forLoop w n body s = .ok s' ↔ n < 2 ^ w ∧ (List.range n).foldlM body s = .ok s' := by
  unfold forLoop
  split
  · rename_i h
    exact ⟨fun hs => ⟨h, hs⟩, fun hs => hs.2⟩
  · rename_i h
    exact ⟨(fun hs => nomatch hs), fun hs => absurd hs.1 h⟩

theorem forPure_eq_ok {w n : Nat} {body : σ → Nat → σ} {s s' : σ} :
    forPure w n body s = .ok s' ↔ n < 2 ^ w ∧ (List.range n).foldl body s = s' := by
  unfold forPure
  split
  · rename_i h
    exact ⟨fun hs => ⟨h, Except.ok.inj hs⟩, fun hs => by rw [hs.2]⟩
  · rename_i h
    exact ⟨(fun hs => nomatch hs), fun hs => absurd hs.1 h⟩

/-- **Loop rule**, for a counted loop that returned. -/
theorem forPure_rule {w n : Nat} {body : σ → Nat → σ} {s s' : σ} (P : Nat → σ → Prop)
    (h : forPure w n body s = .ok s') (h0 : P 0 s)
    (hstep : ∀ i t, i < n → P i t → P (i + 1) (body t i)) : P n s' := by
  obtain ⟨-, rfl⟩ := forPure_eq_ok.mp h
  exact foldl_range_rule n h0 hstep

/-! ## Fixed-width counters -/

/-- What a `uint8_t` holds after `x` is stored in it. -/
def u8 (x : Nat) : Nat := x % 2 ^ 8
/-- What a `uint16_t` holds after `x` is stored in it. -/
def u16 (x : Nat) : Nat := x % 2 ^ 16
/-- What a `uint32_t` holds after `x` is stored in it. -/
def u32 (x : Nat) : Nat := x % 2 ^ 32
/-- What a `uint64_t` holds after `x` is stored in it. -/
def u64 (x : Nat) : Nat := x % 2 ^ 64

/-- What an `int` holds after a `uint64_t` is stored in it. -/
def toInt (x : Nat) : Int :=
  if x % 2 ^ 32 < 2 ^ 31 then (x % 2 ^ 32 : Nat) else (x % 2 ^ 32 : Nat) - 2 ^ 32

/-- `x - y` in `uint32_t` arithmetic. -/
def sub32 (x y : Nat) : Nat := u32 (2 ^ 32 + x - u32 y)

/-- `x - y` in `uint64_t` arithmetic. -/
def sub64 (x y : Nat) : Nat := u64 (2 ^ 64 + x - u64 y)

theorem u8_of_lt {x : Nat} (h : x < 2 ^ 8) : u8 x = x := Nat.mod_eq_of_lt h
theorem u16_of_lt {x : Nat} (h : x < 2 ^ 16) : u16 x = x := Nat.mod_eq_of_lt h
theorem u32_of_lt {x : Nat} (h : x < 2 ^ 32) : u32 x = x := Nat.mod_eq_of_lt h
theorem u64_of_lt {x : Nat} (h : x < 2 ^ 64) : u64 x = x := Nat.mod_eq_of_lt h

/-- A `uint32_t` subtraction that does not go below zero does not wrap. -/
theorem sub32_of_le {x y : Nat} (hx : x < 2 ^ 32) (h : y ≤ x) : sub32 x y = x - y := by
  unfold sub32 u32
  omega

/-- A `uint64_t` subtraction that does not go below zero does not wrap. -/
theorem sub64_of_le {x y : Nat} (hx : x < 2 ^ 64) (h : y ≤ x) : sub64 x y = x - y := by
  unfold sub64 u64
  omega

/-- `(x + 7) & ~7` leaves a multiple of 8 alone. -/
theorem and_not_seven {x : Nat} (hx : x < 2 ^ 64) (h8 : 8 ∣ x) :
    (x + 7) &&& (2 ^ 64 - 8) = x := by
  obtain ⟨q, rfl⟩ := h8
  apply Nat.eq_of_testBit_eq
  intro i
  have hx7 : (8 * q + 7).testBit i = if i < 3 then Nat.testBit 7 i else q.testBit (i - 3) :=
    Nat.testBit_two_pow_mul_add q (show 7 < 2 ^ 3 by decide) i
  have hmask : (2 ^ 64 - 8).testBit i =
      if i < 3 then Nat.testBit 0 i else (2 ^ 61 - 1).testBit (i - 3) :=
    Nat.testBit_two_pow_mul_add (2 ^ 61 - 1) (show 0 < 2 ^ 3 by decide) i
  have hxq : (8 * q).testBit i = if i < 3 then Nat.testBit 0 i else q.testBit (i - 3) :=
    Nat.testBit_two_pow_mul_add q (show 0 < 2 ^ 3 by decide) i
  rw [Nat.testBit_and, hx7, hmask, hxq, Nat.testBit_two_pow_sub_one]
  by_cases hi : i < 3
  · simp [hi]
  · rw [if_neg hi, if_neg hi, if_neg hi]
    by_cases h61 : i - 3 < 61
    · simp [h61]
    · have hlt : q < 2 ^ (i - 3) := by
        have hpow : 2 ^ 61 ≤ 2 ^ (i - 3) := Nat.pow_le_pow_right (by decide) (by omega)
        omega
      simp [Nat.testBit_lt_two_pow hlt]

end Lib
