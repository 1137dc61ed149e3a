/-
  BLOCKS LAID END TO END.

  Blocks of sizes `size 0, size 1, …` follow each other in one array.  `offset size n` is where
  block `n` starts, and an index of the array is an index in one block: `offset_add_lt` says that it
  is in the array, and `offset_add_inj` that it is in no other block.
-/
import Odyssey.Lib.Outcome

namespace Lib

/-- Where block `n` starts. -/
def offset (size : Nat → Nat) : Nat → Nat
  | 0 => 0
  | n + 1 => offset size n + size n

variable {size : Nat → Nat}

@[simp] theorem offset_zero : offset size 0 = 0 := rfl

theorem offset_succ (n : Nat) : offset size (n + 1) = offset size n + size n := rfl

theorem offset_mono {m n : Nat} (h : m ≤ n) : offset size m ≤ offset size n := by
  induction h with
  | refl => exact Nat.le_refl _
  | step _ ih =>
    rw [offset_succ]
    omega

/-- The indices of block `m` are in the first `n` blocks. -/
theorem offset_add_lt {m n i : Nat} (h : m < n) (hi : i < size m) :
    offset size m + i < offset size n := by
  have hle : offset size (m + 1) ≤ offset size n := offset_mono h
  rw [offset_succ] at hle
  omega

/-- An index is in one block only. -/
theorem offset_add_inj {m n i j : Nat} (hi : i < size m) (hj : j < size n)
    (h : offset size m + i = offset size n + j) : m = n ∧ i = j := by
  have hmn : m = n := by
    rcases Nat.lt_trichotomy m n with hlt | heq | hlt
    · have hend := offset_add_lt hlt hi
      omega
    · exact heq
    · have hend := offset_add_lt hlt hj
      omega
  subst hmn
  exact ⟨rfl, by omega⟩

/-- Blocks that are not empty. -/
theorem le_offset {n : Nat} (h : ∀ m < n, 0 < size m) : n ≤ offset size n := by
  induction n with
  | zero => exact Nat.le_refl _
  | succ n ih =>
    have hsize := h n (Nat.lt_succ_self n)
    have hle := ih fun m hm => h m (by omega)
    rw [offset_succ]
    omega

/-- The sum in a `uint16_t`. -/
theorem foldl_u16_eq_offset (size : Nat → Nat) (n : Nat) :
    (List.range n).foldl (fun s j => u16 (s + size j)) 0 = u16 (offset size n) := by
  induction n with
  | zero => rfl
  | succ n ih =>
    rw [List.range_succ, List.foldl_append, ih, List.foldl_cons, List.foldl_nil, offset_succ]
    unfold u16
    omega

end Lib
