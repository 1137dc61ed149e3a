/-
  RELATIVE SLOTS OF A FIFO.

  `get_fifo_push_relative_slot` and `get_fifo_pull_relative_slot` add a signed move to a pointer and
  reduce the sum by the size of the ring.  The sum is a `uint32_t`: a move below slot 0 goes around
  `2 ^ 32` first, and `2 ^ 32` is a multiple of the size or it is not.  `get_fifo_prev_slot` adds
  the size of the ring before it subtracts, so that nothing goes below 0.

  What a move means is a number of calls of `mod_incr` or of `mod_decr` (`movedBy`), which is the
  cyclic `shift`.  The move of the code is `relativeSlotNo`, and it is the same one exactly when the
  sum stays above 0 or the size divides `2 ^ 32` (`relativeSlotNo_eq_shift`).
-/
import Odyssey.Commits
import Odyssey.Lib.Cyclic
import Mathlib.Logic.Function.Iterate

namespace Odyssey

open Lib

/-! ## The code -/

/-- A `uint32_t` plus an `int`. -/
def addInt (x : Nat) (k : Int) : Nat := ((x + k) % 2 ^ 32).toNat

/-- The two pointers of a FIFO. -/
inductive FifoPtr
  | push
  | pull

namespace Fifo

variable (f : Fifo)

def getFifoSlot (slotNo : Nat) : Nat := f.getFifoSlotPrivate slotNo 0

def getFifoSlotMod (slotNo : Nat) : Nat := f.getFifoSlotPrivate (slotNo % f.maxSize) 0

def getFifoPullPrevSlot : Nat := f.getFifoPrevSlot f.pullPtr

def getFifoPushRelativeSlot (relativeMove : Int) : Nat :=
  f.getFifoSlotMod (addInt f.pushPtr relativeMove)

def getFifoPullRelativeSlot (relativeMove : Int) : Nat :=
  f.getFifoSlotMod (addInt f.pullPtr relativeMove)

/-! ### Either pointer -/

def ptr : FifoPtr → Nat
  | .push => f.pushPtr
  | .pull => f.pullPtr

def setPtr (p : Nat) : FifoPtr → Fifo
  | .push => { f with pushPtr := p }
  | .pull => { f with pullPtr := p }

def relativeSlot (relativeMove : Int) : FifoPtr → Nat
  | .push => f.getFifoPushRelativeSlot relativeMove
  | .pull => f.getFifoPullRelativeSlot relativeMove

def prevSlot : FifoPtr → Nat
  | .push => f.getFifoPushPrevSlot
  | .pull => f.getFifoPullPrevSlot

end Fifo

/-! ## Moves -/

/-- The slot that `|k|` calls of `mod_incr` or `mod_decr` reach. -/
def movedBy (N p : Nat) : Int → Nat
  | .ofNat n => (fun x => modIncr x N)^[n] p
  | .negSucc n => (fun x => modDecr x N)^[n + 1] p

/-- The slot that a relative move reaches in the code. -/
def relativeSlotNo (N p : Nat) (k : Int) : Nat := addInt p k % N

variable {N p : Nat} {k : Int}

theorem modIncr_eq_shift (hN : N < 2 ^ 31) (hp : p < N) : modIncr p N = shift N p 1 := by
  unfold modIncr
  rw [u32_of_lt (by omega)]
  exact (shift_eq_mod rfl).symm

theorem modDecr_eq_shift (hN : N < 2 ^ 31) (hp : p < N) : modDecr p N = shift N p (-1) := by
  have haround : shift N p (-1) = shift N p (-1 + N) := by
    unfold shift
    rw [← Int.add_assoc, Int.add_emod_right]
  unfold modDecr
  rw [u32_of_lt (by omega), sub32_of_le (by omega) (by omega), haround]
  exact (shift_eq_mod (by omega)).symm

/-- Calls of a function that moves by `d`. -/
theorem iterate_eq_shift {g : Nat → Nat} {d : Int} (hg : ∀ q < N, g q = shift N q d) (hp : p < N)
    (n : Nat) : g^[n] p = shift N p (n * d) := by
  have hN : 0 < N := by omega
  induction n with
  | zero =>
    rw [Function.iterate_zero_apply, Int.natCast_zero, Int.zero_mul, shift_zero hp]
  | succ n ih =>
    rw [Function.iterate_succ_apply', ih, hg _ (shift_lt hN _), shift_shift hN]
    congr 1
    rw [Int.natCast_succ, Int.add_mul, Int.one_mul]

theorem movedBy_eq_shift (hN : N < 2 ^ 31) (hp : p < N) (k : Int) :
    movedBy N p k = shift N p k := by
  cases k with
  | ofNat n =>
    have hmove := iterate_eq_shift (fun q hq => modIncr_eq_shift hN hq) hp n
    rw [Int.mul_one] at hmove
    exact hmove
  | negSucc n =>
    have hmove := iterate_eq_shift (fun q hq => modDecr_eq_shift hN hq) hp (n + 1)
    rw [Int.mul_neg, Int.mul_one] at hmove
    exact hmove

/-- **The move of the code** is the cyclic one exactly when the sum does not go below 0, or going
    around `2 ^ 32` does no harm. -/
theorem relativeSlotNo_eq_shift (hN : N < 2 ^ 31) (hp : p < N) (hlow : -N < k) (hhigh : k < N) :
    relativeSlotNo N p k = shift N p k ↔ N ∣ 2 ^ 32 ∨ 0 ≤ p + k := by
  have hpos : 0 < N := by omega
  have hcast := shift_cast (p := p) hpos k
  by_cases hsum : 0 ≤ p + k
  · refine iff_of_true ?_ (.inr hsum)
    unfold relativeSlotNo addInt
    rw [Int.emod_eq_of_lt hsum (by omega)]
    exact (shift_eq_mod (Int.toNat_of_nonneg hsum).symm).symm
  · -- the sum goes around `2 ^ 32`
    have hwrap : (addInt p k : Int) = p + k + 2 ^ 32 := by
      unfold addInt
      rw [← Int.add_emod_right, Int.emod_eq_of_lt (by omega) (by omega)]
      omega
    have hcode : (relativeSlotNo N p k : Int) = (p + k + 2 ^ 32) % N := by
      unfold relativeSlotNo
      rw [Int.natCast_emod, hwrap]
    have hdiff : p + k + 2 ^ 32 - (p + k) = 2 ^ 32 := by omega
    rw [← Int.natCast_inj, hcode, hcast, Int.emod_eq_emod_iff_emod_sub_eq_zero, hdiff,
      ← Int.dvd_iff_emod_eq_zero, or_iff_left hsum]
    exact_mod_cast Int.natCast_dvd_natCast (m := N) (n := 2 ^ 32)

/-- Every move of a ring whose size divides `2 ^ 32`, and every other move that stays above 0. -/
theorem relativeSlotNo_of (hN : N < 2 ^ 31) (hp : p < N) (hlow : -N < k) (hhigh : k < N)
    (h : N ∣ 2 ^ 32 ∨ 0 ≤ p + k) : relativeSlotNo N p k = shift N p k :=
  (relativeSlotNo_eq_shift hN hp hlow hhigh).mpr h

theorem relativeSlotNo_lt (hN : 0 < N) (k : Int) : relativeSlotNo N p k < N := Nat.mod_lt _ hN

/-- **One slot back**, for the two ways to go there. -/
theorem relativeSlotNo_prev (hN : N < 2 ^ 31) (hp : p < N) :
    relativeSlotNo N p (-1) = modDecr p N ↔ N ∣ 2 ^ 32 ∨ 1 ≤ p := by
  rw [modDecr_eq_shift hN hp]
  by_cases hone : N = 1
  · subst hone
    have hlt := relativeSlotNo_lt (p := p) (by omega : 0 < 1) (-1)
    have hlt' := shift_lt (p := p) (by omega : 0 < 1) (-1)
    exact iff_of_true (by omega) (.inl (Nat.one_dvd _))
  · rw [relativeSlotNo_eq_shift hN hp (by omega) (by omega)]
    exact or_congr_right (by omega)

/-- **There and back.** -/
theorem relativeSlotNo_back (hN : N < 2 ^ 31) (hp : p < N) (hlow : -N < k) (hhigh : k < N) :
    relativeSlotNo N (relativeSlotNo N p k) (-k) = p ↔
      N ∣ 2 ^ 32 ∨ 0 ≤ p + k ∧ p + k < N := by
  have hpos : 0 < N := by omega
  have hback : shift N (shift N p k) (-k) = p := by
    rw [shift_shift hpos, Int.add_right_neg, shift_zero hp]
  have hq := relativeSlotNo_lt (p := p) hpos k
  have hreturn := relativeSlotNo_eq_shift hN hq (show -(N : Int) < -k by omega) (by omega)
  by_cases hforth : N ∣ 2 ^ 32 ∨ 0 ≤ p + k
  · -- the way there is right, so the way back is right or it goes below 0
    rw [relativeSlotNo_of hN hp hlow hhigh hforth] at hreturn ⊢
    rw [hback] at hreturn
    rw [hreturn]
    by_cases hdvd : N ∣ 2 ^ 32
    · exact iff_of_true (.inl hdvd) (.inl hdvd)
    · have hsum := hforth.resolve_left hdvd
      obtain ⟨q, hqk⟩ := Int.eq_ofNat_of_zero_le hsum
      rw [or_iff_right hdvd, or_iff_right hdvd, shift_eq_mod hqk]
      by_cases hlt : q < N
      · rw [Nat.mod_eq_of_lt hlt]
        omega
      · rw [Nat.mod_eq_sub_mod (by omega), Nat.mod_eq_of_lt (by omega)]
        omega
  · -- the way there is wrong, and the way back starts from there
    rw [not_or] at hforth
    have hwrong : relativeSlotNo N p k ≠ shift N p k := fun h =>
      not_or.mpr hforth ((relativeSlotNo_eq_shift hN hp hlow hhigh).mp h)
    refine iff_of_false (fun h => ?_) (by rintro (h | h) <;> omega)
    rw [hreturn.mpr (.inr (by omega))] at h
    have hthere : shift N (shift N (relativeSlotNo N p k) (-k)) k = relativeSlotNo N p k := by
      rw [shift_shift hpos, Int.add_left_neg, shift_zero hq]
    rw [h] at hthere
    exact hwrong hthere.symm

/-! ## Addresses -/

namespace Fifo

/-- `check_fifo` holds of the slots, and their bytes are one allocation. -/
structure Allocated (f : Fifo) : Prop where
  slotSize : 0 < f.slotSize
  bytes32 : f.maxSize * f.slotSize < 2 ^ 32

variable {f : Fifo}

/-- Different slots have different addresses. -/
theorem Allocated.slot_inj (hf : f.Allocated) {a b : Nat} (ha : a < f.maxSize)
    (hb : b < f.maxSize) : f.getFifoSlot a = f.getFifoSlot b ↔ a = b := by
  have hbytes : ∀ i < f.maxSize, f.getFifoSlot i = f.slotSize * i := by
    intro i hi
    have hle : f.slotSize * i ≤ f.slotSize * f.maxSize := Nat.mul_le_mul_left _ (by omega)
    have hlt := hf.bytes32
    rw [Nat.mul_comm] at hlt
    exact u32_of_lt (by omega)
  rw [hbytes a ha, hbytes b hb]
  exact Nat.mul_right_inj (Nat.ne_of_gt hf.slotSize)

variable (f)

/-- The slot of a relative move is the one that calls of `mod_incr` or `mod_decr` reach. -/
def MovesRight (k : Int) (w : FifoPtr) : Prop :=
  f.relativeSlot k w = f.getFifoSlot (movedBy f.maxSize (f.ptr w) k)

/-- The slot one back is the previous slot. -/
def PrevRight (w : FifoPtr) : Prop := f.relativeSlot (-1) w = f.prevSlot w

/-- A move and then the opposite one lead back to the pointer. -/
def BackRight (k : Int) (w : FifoPtr) : Prop :=
  (f.setPtr (relativeSlotNo f.maxSize (f.ptr w) k) w).relativeSlot (-k) w = f.getFifoSlot (f.ptr w)

variable {f}

theorem relativeSlot_eq (k : Int) (w : FifoPtr) :
    f.relativeSlot k w = f.getFifoSlot (relativeSlotNo f.maxSize (f.ptr w) k) := by
  cases w <;> rfl

theorem prevSlot_eq (w : FifoPtr) : f.prevSlot w = f.getFifoSlot (modDecr (f.ptr w) f.maxSize) := by
  cases w <;> rfl

theorem relativeSlot_setPtr (p : Nat) (k : Int) (w : FifoPtr) :
    (f.setPtr p w).relativeSlot k w = f.getFifoSlot (relativeSlotNo f.maxSize p k) := by
  cases w <;> rfl

end Fifo

/-- **Relative slots.**  For either pointer and every move, the slot is right if the sum does not go
    below 0 or the size of the ring divides `2 ^ 32`; where slots have addresses of their own, only
    then. -/
theorem relative_slots {f : Fifo} {k : Int} (w : FifoPtr) (hN : f.maxSize < 2 ^ 31)
    (hp : f.ptr w < f.maxSize) (hlow : -f.maxSize < k) (hhigh : k < f.maxSize) :
    ((f.maxSize ∣ 2 ^ 32 ∨ 0 ≤ f.ptr w + k → f.MovesRight k w) ∧
      (f.maxSize ∣ 2 ^ 32 ∨ 1 ≤ f.ptr w → f.PrevRight w) ∧
      (f.maxSize ∣ 2 ^ 32 ∨ 0 ≤ f.ptr w + k ∧ f.ptr w + k < f.maxSize → f.BackRight k w)) ∧
    (f.Allocated →
      (f.MovesRight k w ↔ f.maxSize ∣ 2 ^ 32 ∨ 0 ≤ f.ptr w + k) ∧
      (f.PrevRight w ↔ f.maxSize ∣ 2 ^ 32 ∨ 1 ≤ f.ptr w) ∧
      (f.BackRight k w ↔ f.maxSize ∣ 2 ^ 32 ∨ 0 ≤ f.ptr w + k ∧ f.ptr w + k < f.maxSize)) := by
  have hpos : 0 < f.maxSize := by omega
  have hmoves := relativeSlotNo_eq_shift hN hp hlow hhigh
  have hprev := relativeSlotNo_prev hN hp
  have hback := relativeSlotNo_back hN hp hlow hhigh
  unfold Fifo.MovesRight Fifo.PrevRight Fifo.BackRight
  rw [Fifo.relativeSlot_eq, Fifo.relativeSlot_eq, Fifo.prevSlot_eq, Fifo.relativeSlot_setPtr,
    movedBy_eq_shift hN hp]
  refine ⟨⟨fun h => ?_, fun h => ?_, fun h => ?_⟩, fun hf => ⟨?_, ?_, ?_⟩⟩
  · rw [hmoves.mpr h]
  · rw [hprev.mpr h]
  · rw [hback.mpr h]
  · rw [hf.slot_inj (relativeSlotNo_lt hpos k) (shift_lt hpos k)]
    exact hmoves
  · have hdecr : modDecr (f.ptr w) f.maxSize < f.maxSize := Nat.mod_lt _ hpos
    rw [hf.slot_inj (relativeSlotNo_lt hpos (-1)) hdecr]
    exact hprev
  · rw [hf.slot_inj (relativeSlotNo_lt hpos (-k)) hp]
    exact hback

/-- Three slots of one byte, with both pointers at `p`. -/
def threeSlots (p : Nat) : Fifo where
  fifo := fun _ => 0
  slotMeta := fun _ => ⟨0, 0, 0, 0⟩
  pushPtr := p
  pullPtr := p
  maxSize := 3
  maxByteSize := 3
  capacity := 0
  netCapacity := 0
  slotSize := 1
  mesHeader := 0

/-- One back from slot 0 of three is slot 2, and the code says slot 0. -/
theorem one_back_of_three :
    (threeSlots 0).getFifoPushRelativeSlot (-1) = 0 ∧ (threeSlots 0).getFifoPushPrevSlot = 2 ∧
      ¬ (threeSlots 0).MovesRight (-1) .push ∧ ¬ (threeSlots 0).PrevRight .push ∧
      ¬ (threeSlots 0).BackRight (-1) .push := by
  unfold Fifo.MovesRight Fifo.PrevRight Fifo.BackRight
  decide

/-- Back and forth from slot 1. -/
theorem relative_slots_three : (threeSlots 1).MovesRight (-1) .pull ∧
    (threeSlots 1).PrevRight .pull ∧ (threeSlots 1).BackRight (-1) .pull := by
  obtain ⟨⟨hmoves, hprev, hback⟩, -⟩ := relative_slots (f := threeSlots 1) (k := -1) .pull
    (by decide) (by decide) (by decide) (by decide)
  exact ⟨hmoves (by decide), hprev (by decide), hback (by decide)⟩

end Odyssey
