/-
  BYTES IN MEMORY.

  A buffer is a function from addresses to bytes; `memcpy` into it is `writeAt`, and a message is
  what `readAt` finds in a range of it.  Three laws carry every use: a range just written reads
  back, a range that a write does not meet reads as before, and a range reads as its two halves.

  A struct is the list of its bytes, and a field of it is a `slice`; `setSlice` assigns to a field,
  with the same two laws.  `leBytes` and `leNat` are the bytes of a number and back, the low byte
  first.
-/
import Mathlib.Algebra.Ring.Nat
import Mathlib.Data.List.Basic

namespace Lib

variable {β : Type}

/-- `memcpy(&buf[ptr], bytes, |bytes|)`. -/
def writeAt (buf : Nat → β) (ptr : Nat) (bytes : List β) : Nat → β := fun a =>
  if h : ptr ≤ a ∧ a < ptr + bytes.length then bytes[a - ptr] else buf a

/-- The `n` bytes from `ptr` on. -/
def readAt (buf : Nat → β) (ptr n : Nat) : List β := (List.range n).map fun i => buf (ptr + i)

@[simp] theorem length_readAt (buf : Nat → β) (ptr n : Nat) : (readAt buf ptr n).length = n := by
  simp [readAt]

@[simp] theorem readAt_zero (buf : Nat → β) (ptr : Nat) : readAt buf ptr 0 = [] := rfl

theorem writeAt_of_lt {buf : Nat → β} {ptr a : Nat} {bytes : List β} (h : a < ptr) :
    writeAt buf ptr bytes a = buf a := by
  unfold writeAt
  rw [dif_neg (by omega)]

theorem writeAt_of_ge {buf : Nat → β} {ptr a : Nat} {bytes : List β}
    (h : ptr + bytes.length ≤ a) : writeAt buf ptr bytes a = buf a := by
  unfold writeAt
  rw [dif_neg (by omega)]

/-- What was written reads back. -/
theorem readAt_writeAt_self (buf : Nat → β) (ptr : Nat) (bytes : List β) :
    readAt (writeAt buf ptr bytes) ptr bytes.length = bytes := by
  apply List.ext_getElem (by simp)
  intro i hi hb
  have hin : ptr ≤ ptr + i ∧ ptr + i < ptr + bytes.length := by omega
  simp only [readAt, List.getElem_map, List.getElem_range, writeAt, dif_pos hin]
  congr 1
  omega

/-- A write below or above a range does not show in it. -/
theorem readAt_writeAt_disjoint {buf : Nat → β} {ptr ptr' n : Nat} {bytes : List β}
    (h : ptr + n ≤ ptr' ∨ ptr' + bytes.length ≤ ptr) :
    readAt (writeAt buf ptr' bytes) ptr n = readAt buf ptr n := by
  apply List.map_congr_left
  intro i hi
  have hin := List.mem_range.mp hi
  rcases h with h | h
  · exact writeAt_of_lt (by omega)
  · exact writeAt_of_ge (by omega)

/-- A range reads as its two halves. -/
theorem readAt_add (buf : Nat → β) (ptr m n : Nat) :
    readAt buf ptr (m + n) = readAt buf ptr m ++ readAt buf (ptr + m) n := by
  unfold readAt
  rw [List.range_add, List.map_append, List.map_map]
  congr 1
  apply List.map_congr_left
  intro i _
  simp [Nat.add_assoc]

/-! ## Structs -/

/-- The `n` bytes from `ptr` on. -/
def slice (bytes : List β) (ptr n : Nat) : List β := (bytes.drop ptr).take n

/-- Assigns to the bytes from `ptr` on. -/
def setSlice (bytes : List β) (ptr : Nat) (new : List β) : List β :=
  bytes.take ptr ++ new ++ bytes.drop (ptr + new.length)

theorem length_setSlice {bytes new : List β} {ptr : Nat} (h : ptr + new.length ≤ bytes.length) :
    (setSlice bytes ptr new).length = bytes.length := by
  simp only [setSlice, List.length_append, List.length_take, List.length_drop]
  omega

/-- What was assigned reads back. -/
theorem slice_setSlice_self {bytes new : List β} {ptr : Nat}
    (h : ptr + new.length ≤ bytes.length) :
    slice (setSlice bytes ptr new) ptr new.length = new := by
  have htake : (bytes.take ptr).length = ptr := by
    rw [List.length_take]
    omega
  unfold slice setSlice
  rw [List.append_assoc, List.drop_append_of_le_length (by omega), List.drop_eq_nil_of_le (by omega),
    List.nil_append, List.take_left]

/-- The other fields are left alone. -/
theorem slice_setSlice_disjoint {bytes new : List β} {ptr ptr' n : Nat}
    (h : ptr + new.length ≤ bytes.length) (hd : ptr' + n ≤ ptr ∨ ptr + new.length ≤ ptr') :
    slice (setSlice bytes ptr new) ptr' n = slice bytes ptr' n := by
  apply List.ext_getElem?
  intro i
  unfold slice setSlice
  simp only [List.getElem?_take, List.getElem?_drop, List.getElem?_append, List.length_append,
    List.length_take]
  split
  · rename_i hi
    rcases hd with hd | hd
    · rw [if_pos (by omega), if_pos (by omega), if_pos (by omega)]
    · rw [if_neg (by omega)]
      congr 1
      omega
  · rfl

/-! ## Numbers as bytes -/

/-- The number in some bytes, the low byte first. -/
def leNat : List UInt8 → Nat
  | [] => 0
  | b :: bs => b.toNat + 2 ^ 8 * leNat bs

/-- The `k` low bytes of a number. -/
def leBytes : Nat → Nat → List UInt8
  | 0, _ => []
  | k + 1, x => UInt8.ofNat (x % 2 ^ 8) :: leBytes k (x / 2 ^ 8)

@[simp] theorem length_leBytes (k x : Nat) : (leBytes k x).length = k := by
  induction k generalizing x with
  | zero => rfl
  | succ k ih => rw [leBytes, List.length_cons, ih]

theorem leNat_lt : ∀ bs : List UInt8, leNat bs < 2 ^ (8 * bs.length)
  | [] => by decide
  | b :: bs => by
    have hb : b.toNat < 2 ^ 8 := b.toNat_lt
    have hbs := leNat_lt bs
    have hpow : 2 ^ (8 * (b :: bs).length) = 2 ^ 8 * 2 ^ (8 * bs.length) := by
      rw [List.length_cons, Nat.mul_succ, Nat.add_comm, Nat.pow_add]
    rw [leNat, hpow]
    omega

/-- A number that fits reads back. -/
theorem leNat_leBytes {k x : Nat} (h : x < 2 ^ (8 * k)) : leNat (leBytes k x) = x := by
  induction k generalizing x with
  | zero =>
    have hx : x = 0 := Nat.lt_one_iff.mp h
    rw [hx]
    rfl
  | succ k ih =>
    have hdiv : x / 2 ^ 8 < 2 ^ (8 * k) := by
      apply Nat.div_lt_of_lt_mul
      rwa [← Nat.pow_add, Nat.add_comm, ← Nat.mul_succ]
    have hbyte : (UInt8.ofNat (x % 2 ^ 8)).toNat = x % 2 ^ 8 := by
      rw [UInt8.toNat_ofNat']
      exact Nat.mod_mod ..
    rw [leBytes, leNat, ih hdiv, hbyte]
    exact Nat.mod_add_div x (2 ^ 8)

end Lib
