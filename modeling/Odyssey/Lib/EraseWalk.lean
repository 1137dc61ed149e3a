/-
  ERASING FROM A LIST WHILE WALKING IT BY INDEX.

  A loop `for (i = 0; i < n; i++) if (ready(a[i])) erase(a, i)` goes on at position `i + 1` after it
  has erased position `i`.  By then the next element has moved to position `i`, and is passed over.
  `eraseWalk ready l` is what such a loop leaves of `l`:

  * it never erases an element that is not ready, nor adds one (`mem_eraseWalk_of_not`,
    `mem_of_mem_eraseWalk`);
  * it erases all that are ready if and only if no two neighbours are (`eraseWalk_all_iff`).  The
    first of two ready neighbours is passed over itself, or it is erased and the second is.
-/
import Mathlib.Data.List.Chain

namespace Lib

variable {α : Type} (ready : α → Bool)

/-- What is left of the list: behind an element that is erased, one is passed over. -/
def eraseWalk : List α → List α
  | [] => []
  | [x] => if ready x then [] else [x]
  | x :: y :: l => if ready x then y :: eraseWalk l else x :: eraseWalk (y :: l)

variable {ready} {x y : α} {l : List α}

theorem eraseWalk_cons_of_not (h : ready x = false) :
    eraseWalk ready (x :: l) = x :: eraseWalk ready l := by
  cases l with
  | nil => simp [eraseWalk, h]
  | cons y l => simp [eraseWalk, h]

theorem eraseWalk_single (h : ready x = true) : eraseWalk ready [x] = [] := by
  rw [eraseWalk, if_pos h]

theorem eraseWalk_cons_cons (h : ready x = true) :
    eraseWalk ready (x :: y :: l) = y :: eraseWalk ready l := by
  rw [eraseWalk, if_pos h]

/-- Nothing is added. -/
theorem mem_of_mem_eraseWalk {a : α} : ∀ {l : List α}, a ∈ eraseWalk ready l → a ∈ l
  | [], h => h
  | [x], h => by
      cases hx : ready x with
      | true =>
        rw [eraseWalk_single hx] at h
        exact nomatch h
      | false => rwa [eraseWalk_cons_of_not hx] at h
  | x :: y :: l, h => by
      cases hx : ready x with
      | true =>
        rw [eraseWalk_cons_cons hx] at h
        rcases List.mem_cons.mp h with rfl | h
        · exact List.mem_cons_of_mem x List.mem_cons_self
        · exact List.mem_cons_of_mem x (List.mem_cons_of_mem y (mem_of_mem_eraseWalk h))
      | false =>
        rw [eraseWalk_cons_of_not hx] at h
        rcases List.mem_cons.mp h with rfl | h
        · exact List.mem_cons_self
        · exact List.mem_cons_of_mem x (mem_of_mem_eraseWalk h)

/-- What is not ready stays. -/
theorem mem_eraseWalk_of_not {a : α} (ha : ready a = false) :
    ∀ {l : List α}, a ∈ l → a ∈ eraseWalk ready l
  | [x], h => by
      obtain rfl := List.mem_singleton.mp h
      rw [eraseWalk_cons_of_not ha]
      exact List.mem_cons_self
  | x :: y :: l, h => by
      cases hx : ready x with
      | true =>
        rw [eraseWalk_cons_cons hx]
        rcases List.mem_cons.mp h with rfl | h
        · rw [ha] at hx
          exact nomatch hx
        · rcases List.mem_cons.mp h with rfl | h
          · exact List.mem_cons_self
          · exact List.mem_cons_of_mem y (mem_eraseWalk_of_not ha h)
      | false =>
        rw [eraseWalk_cons_of_not hx]
        rcases List.mem_cons.mp h with rfl | h
        · exact List.mem_cons_self
        · exact List.mem_cons_of_mem x (mem_eraseWalk_of_not ha h)

/-- **The walk erases all that are ready** if and only if no two neighbours are. -/
theorem eraseWalk_all_iff : ∀ {l : List α}, (∀ a ∈ eraseWalk ready l, ready a = false) ↔
    l.IsChain (fun a b => ¬ (ready a = true ∧ ready b = true))
  | [] => by simp [eraseWalk]
  | [x] => by
      cases hx : ready x with
      | true => simp [eraseWalk_single hx]
      | false => simp [eraseWalk, hx]
  | x :: y :: l => by
      rw [List.isChain_cons_cons]
      cases hx : ready x with
      | true =>
        rw [eraseWalk_cons_cons hx, List.forall_mem_cons, eraseWalk_all_iff]
        cases hy : ready y with
        | true => simp
        | false =>
          -- `y` is no part of a pair, so the rest is a chain with it or without
          have hrest : (y :: l).IsChain (fun a b => ¬ (ready a = true ∧ ready b = true)) ↔
              l.IsChain (fun a b => ¬ (ready a = true ∧ ready b = true)) := by
            cases l with
            | nil => simp
            | cons z l => simp [List.isChain_cons_cons, hy]
          rw [hrest]
          simp
      | false =>
        rw [eraseWalk_cons_of_not hx, List.forall_mem_cons, eraseWalk_all_iff]
        simp [hx]

end Lib
