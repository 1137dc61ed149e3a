/-
  CYCLIC POSITIONS IN A RING OF `N` SLOTS.

  `slot N p k` is the slot `k` places after `p`.  As long as fewer than `N` places are walked the
  slots are distinct (`slot_inj`), so a ring of `N` slots holds a window of up to `N` of them;
  the pointer that closes a full window is the pointer that opens it (`slot_full`), and a full
  window holds each slot once (`window_perm`).

  A C program advances a pointer in two ways, `x = (x + 1) % N` and `x = x + 1; if (x == N) x =
  0`; on the slots of the ring both are one step of `slot` (`succ_mod_slot`, `wrap_slot`).

  `shift N p k` is a move in either direction.  Moves add up (`shift_shift`), so every move has one
  back.
-/
import Mathlib.Data.List.Nodup
import Mathlib.Data.List.Perm.Subperm

namespace Lib

/-- The slot `k` places after `p` in a ring of `N` slots. -/
def slot (N p k : Nat) : Nat := (p + k) % N

variable {N p k l : Nat}

theorem slot_lt (hN : 0 < N) : slot N p k < N := Nat.mod_lt _ hN

@[simp] theorem slot_zero (hp : p < N) : slot N p 0 = p := Nat.mod_eq_of_lt hp

/-- Walking at most once around, the sum wraps at most once. -/
theorem slot_eq (hp : p < N) (hk : k ≤ N) :
    slot N p k = if p + k < N then p + k else p + k - N := by
  unfold slot
  split
  · rename_i h
    exact Nat.mod_eq_of_lt h
  · rename_i h
    rw [Nat.mod_eq_sub_mod (by omega), Nat.mod_eq_of_lt (by omega)]

/-- The window may fill the ring: its end then meets its start. -/
theorem slot_full (hp : p < N) : slot N p N = p := by
  rw [slot_eq hp (Nat.le_refl N), if_neg (by omega)]
  omega

/-- Fewer than `N` places after `p` the slots are distinct. -/
theorem slot_inj (hp : p < N) (hk : k < N) (hl : l < N) (h : slot N p k = slot N p l) :
    k = l := by
  rw [slot_eq hp (by omega), slot_eq hp (by omega)] at h
  split at h <;> split at h <;> omega

theorem slot_ne (hp : p < N) (hk : k < N) (hl : l < N) (h : k ≠ l) : slot N p k ≠ slot N p l :=
  fun heq => h (slot_inj hp hk hl heq)

/-- Walking on. -/
theorem slot_slot : slot N (slot N p k) l = slot N p (k + l) := by
  unfold slot
  rw [Nat.mod_add_mod, Nat.add_assoc]

/-- `x = (x + 1) % N` is one step. -/
theorem succ_mod_slot : (slot N p k + 1) % N = slot N p (k + 1) := by
  unfold slot
  rw [Nat.mod_add_mod, Nat.add_assoc]

/-- `x = x + 1; if (x == N) x = 0` is one step. -/
theorem wrap_slot (hp : p < N) : (if p + 1 = N then 0 else p + 1) = slot N p 1 := by
  rw [slot_eq hp (by omega)]
  split <;> split <;> omega

/-- The window of length `n` opening at `p`, as a list of slots. -/
def window (N p n : Nat) : List Nat := (List.range n).map (slot N p)

@[simp] theorem window_zero : window N p 0 = [] := rfl

@[simp] theorem length_window (n : Nat) : (window N p n).length = n := by simp [window]

theorem window_succ (n : Nat) : window N p (n + 1) = window N p n ++ [slot N p n] := by
  simp [window, List.range_succ]

/-- Opening one place later drops the first slot. -/
theorem window_cons (hp : p < N) (n : Nat) :
    window N p (n + 1) = p :: window N (slot N p 1) n := by
  unfold window
  rw [List.range_succ_eq_map, List.map_cons, slot_zero hp, List.map_map]
  congr 1
  apply List.map_congr_left
  intro i _
  show slot N p (i + 1) = slot N (slot N p 1) i
  rw [slot_slot, Nat.add_comm]

/-- Two adjacent windows make one. -/
theorem window_append (m n : Nat) :
    window N p (m + n) = window N p m ++ window N (slot N p m) n := by
  induction n with
  | zero => simp
  | succ n ih =>
    rw [← Nat.add_assoc, window_succ, ih, window_succ, List.append_assoc, slot_slot]

/-- The slots of a window that fits the ring are distinct. -/
theorem window_nodup (hp : p < N) {n : Nat} (hn : n ≤ N) : (window N p n).Nodup := by
  unfold window
  rw [List.nodup_map_iff_inj_on List.nodup_range]
  intro k hk l hl h
  have hk' := List.mem_range.mp hk
  have hl' := List.mem_range.mp hl
  exact slot_inj hp (by omega) (by omega) h

/-- A window that fills the ring holds each slot once. -/
theorem window_perm (hp : p < N) : (window N p N).Perm (List.range N) := by
  have hsub : window N p N ⊆ List.range N := by
    intro i hi
    obtain ⟨k, -, rfl⟩ := List.mem_map.mp hi
    exact List.mem_range.mpr (slot_lt (by omega))
  refine ((window_nodup hp (Nat.le_refl N)).subperm hsub).perm_of_length_le ?_
  simp

/-- Counting the slots that satisfy `f`, when these are the first `n` of the ring. -/
theorem countP_range_of_window (hp : p < N) {f : Nat → Bool} {n : Nat} (hn : n ≤ N)
    (h : ∀ k < N, f (slot N p k) = decide (k < n)) : (List.range N).countP f = n := by
  rw [← (window_perm hp).countP_eq]
  obtain ⟨m, rfl⟩ := Nat.exists_eq_add_of_le hn
  rw [window_append, List.countP_append]
  have hfirst : (window (n + m) p n).countP f = n := by
    have hall : ∀ i ∈ window (n + m) p n, f i = true := by
      intro i hi
      obtain ⟨k, hk, rfl⟩ := List.mem_map.mp hi
      have hk' := List.mem_range.mp hk
      rw [h k (by omega), decide_eq_true hk']
    rw [List.countP_eq_length.mpr hall, length_window]
  have hrest : (window (n + m) (slot (n + m) p n) m).countP f = 0 := by
    rw [List.countP_eq_zero]
    intro i hi
    obtain ⟨k, hk, rfl⟩ := List.mem_map.mp hi
    have hk' := List.mem_range.mp hk
    rw [slot_slot, h (n + k) (by omega)]
    simp
  omega

/-! ## Signed moves -/

/-- The slot `k` places after `p`, or before it if `k` is negative. -/
def shift (N p : Nat) (k : Int) : Nat := ((p + k) % N).toNat

theorem shift_cast (hN : 0 < N) (k : Int) : (shift N p k : Int) = (p + k) % N :=
  Int.toNat_of_nonneg (Int.emod_nonneg _ (by omega))

theorem shift_lt (hN : 0 < N) (k : Int) : shift N p k < N := by
  have hlt := Int.emod_lt_of_pos (p + k) (show (0 : Int) < N by omega)
  have hcast := shift_cast (p := p) hN k
  omega

theorem shift_zero (hp : p < N) : shift N p 0 = p := by
  have hcast := shift_cast (p := p) (by omega : 0 < N) 0
  rw [Int.add_zero, Int.emod_eq_of_lt (by omega) (by omega)] at hcast
  omega

/-- Moves add up. -/
theorem shift_shift (hN : 0 < N) (k l : Int) : shift N (shift N p k) l = shift N p (k + l) := by
  show ((shift N p k + l) % (N : Int)).toNat = ((p + (k + l)) % (N : Int)).toNat
  rw [shift_cast hN, Int.emod_add_emod, Int.add_assoc]

/-- A sum that is not below 0 is reduced as a number. -/
theorem shift_eq_mod {k : Int} {q : Nat} (hq : (p : Int) + k = q) : shift N p k = q % N := by
  unfold shift
  rw [hq, ← Int.natCast_emod]
  rfl

end Lib
