/-
  ARRAYS WITH A FILL COUNT, AND CHAINS OF NEXT POINTERS.

  Two shapes of memory that a C program keeps rewriting in place.

  * An array with a fill count: `a[n] = x; n++` appends, `n = 0` empties.  The array keeps stale
    values behind the count; what it denotes is `filled a n`, the first `n` cells.
  * Work requests linked by `next` pointers inside one array.  `Follows next p l` says that
    following the pointers from `p` visits exactly the cells of `l`, in order, and then reads
    NULL; `follow` is the walk itself, with a bound on its length.  A chain is usually built link
    by link, so the way in is `follows_of_isChain`: consecutive cells linked, the last one NULL.
-/
import Mathlib.Data.List.Chain
import Mathlib.Data.List.Nodup
import Mathlib.Logic.Function.Basic

namespace Lib

/-! ## Arrays with a fill count -/

section Filled

variable {α : Type}

/-- What an array with fill count `n` denotes: its first `n` cells. -/
def filled (a : Nat → α) (n : Nat) : List α := (List.range n).map a

@[simp] theorem filled_zero (a : Nat → α) : filled a 0 = [] := rfl

@[simp] theorem length_filled (a : Nat → α) (n : Nat) : (filled a n).length = n := by
  simp [filled]

theorem mem_filled {a : Nat → α} {n : Nat} {x : α} : x ∈ filled a n ↔ ∃ i, i < n ∧ a i = x := by
  simp [filled]

theorem getElem_filled {a : Nat → α} {n i : Nat} (h : i < (filled a n).length) :
    (filled a n)[i] = a i := by
  simp [filled]

/-- Writes behind the fill count do not show. -/
theorem filled_congr {a b : Nat → α} {n : Nat} (h : ∀ i, i < n → a i = b i) :
    filled a n = filled b n := by
  apply List.map_congr_left
  intro i hi
  exact h i (List.mem_range.mp hi)

/-- `a[n] = x; n++` appends `x`. -/
theorem filled_push (a : Nat → α) (n : Nat) (x : α) :
    filled (Function.update a n x) (n + 1) = filled a n ++ [x] := by
  have hold : filled (Function.update a n x) n = filled a n := by
    apply filled_congr
    intro i hi
    rw [Function.update_of_ne (by omega)]
  have hsplit : filled (Function.update a n x) (n + 1)
      = filled (Function.update a n x) n ++ [Function.update a n x n] := by
    simp [filled, List.range_succ]
  rw [hsplit, hold, Function.update_self]

/-- An assignment to one cell after another: the cells so far, and one more. -/
theorem update_below (a b : Nat → α) (n : Nat) :
    Function.update (fun i => if i < n then a i else b i) n (a n) =
      fun i => if i < n + 1 then a i else b i := by
  funext i
  by_cases hi : i = n
  · subst hi
    rw [Function.update_self, if_pos (Nat.lt_succ_self i)]
  · rw [Function.update_of_ne hi]
    refine if_congr ?_ rfl rfl
    omega

end Filled

/-! ## Chains of next pointers -/

section Chains

variable {ι : Type}

/-- Following `next` from the pointer `p` visits the cells of the list in order, then NULL. -/
def Follows (next : ι → Option ι) : Option ι → List ι → Prop
  | p, [] => p = none
  | p, x :: l => p = some x ∧ Follows next (next x) l

/-- The walk along the pointers, over at most `fuel` cells. -/
def follow (next : ι → Option ι) : Nat → Option ι → Option (List ι)
  | _, none => some []
  | 0, some _ => none
  | fuel + 1, some x => (follow next fuel (next x)).map (x :: ·)

/-- The walk finds the chain that is there, when its bound allows. -/
theorem follow_of_follows {next : ι → Option ι} : ∀ {l : List ι} {p : Option ι} {fuel : Nat},
    Follows next p l → l.length ≤ fuel → follow next fuel p = some l
  | [], p, fuel, h, _ => by
      have hp : p = none := h
      subst hp
      cases fuel <;> rfl
  | x :: l, p, fuel, h, hlen => by
      obtain ⟨rfl, hl⟩ := h
      cases fuel with
      | zero => exact absurd hlen (by simp)
      | succ fuel =>
        have ih := follow_of_follows hl (show l.length ≤ fuel by simpa using hlen)
        simp [follow, ih]

/-- A chain from its links: consecutive cells are linked and the last one is NULL. -/
theorem follows_of_isChain {next : ι → Option ι} : ∀ {l : List ι} {x : ι},
    (x :: l).IsChain (fun a b => next a = some b) →
    next ((x :: l).getLast (by simp)) = none → Follows next (some x) (x :: l)
  | [], x, _, hlast => ⟨rfl, hlast⟩
  | y :: l, x, hchain, hlast => by
      rw [List.isChain_cons_cons] at hchain
      obtain ⟨hxy, hrest⟩ := hchain
      refine ⟨rfl, ?_⟩
      rw [hxy]
      exact follows_of_isChain hrest (by simpa using hlast)

/-- Cells linked each to the one behind it, and the last one to NULL. -/
theorem follows_range' {next : Nat → Option Nat} : ∀ {k a : Nat}, 0 < k →
    (∀ j, a ≤ j → j + 1 < a + k → next j = some (j + 1)) → next (a + k - 1) = none →
    Follows next (some a) (List.range' a k)
  | 1, _, _, _, hlast => ⟨rfl, hlast⟩
  | k + 2, a, _, hlink, hlast => by
      refine ⟨rfl, ?_⟩
      rw [hlink a (Nat.le_refl a) (by omega)]
      refine follows_range' (by omega) (fun j hj hjk => hlink j (by omega) (by omega)) ?_
      rw [← hlast]
      congr 1
      omega

/-- Links of a chain survive writes to other cells. -/
theorem isChain_congr {next next' : ι → Option ι} {l : List ι}
    (h : l.IsChain (fun a b => next a = some b))
    (heq : ∀ a ∈ l.dropLast, next' a = next a) : l.IsChain (fun a b => next' a = some b) := by
  induction l with
  | nil => exact List.isChain_nil
  | cons x l ih =>
    cases l with
    | nil => exact List.isChain_singleton _
    | cons y l =>
      rw [List.isChain_cons_cons] at h ⊢
      refine ⟨?_, ih h.2 (fun a ha => heq a (by simp [ha]))⟩
      rw [heq x (by simp)]
      exact h.1

/-- Blocks that are chains, each joined to the next, make a chain. -/
theorem isChain_flatMap_range {R : ι → ι → Prop} {block : Nat → List ι} (n : Nat)
    (hne : ∀ b, block b ≠ []) (hblock : ∀ b, b < n → (block b).IsChain R)
    (hjoin : ∀ b, b + 1 < n → ∀ x ∈ (block b).getLast?, ∀ y ∈ (block (b + 1)).head?, R x y) :
    ((List.range n).flatMap block).IsChain R := by
  induction n with
  | zero => exact List.isChain_nil
  | succ n ih =>
    rw [List.range_succ, List.flatMap_append, List.isChain_append]
    refine ⟨ih (fun b hb => hblock b (by omega)) (fun b hb => hjoin b (by omega)), ?_, ?_⟩
    · simpa using hblock n (by omega)
    · intro x hx y hy
      cases n with
      | zero => simp at hx
      | succ n =>
        refine hjoin n (by omega) x ?_ y (by simpa using hy)
        rw [List.range_succ, List.flatMap_append, List.getLast?_append_of_ne_nil] at hx
        · simpa using hx
        · simpa using hne n

end Chains

end Lib
