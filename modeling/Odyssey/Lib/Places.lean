/-
  ITEMS IN PLACES.

  Items that are handed around: at any time every item is at one place, and nothing else is
  anywhere (`Placed`).  A step that moves one item keeps this (`Placed.move`).
-/
import Mathlib.Logic.ExistsUnique

namespace Lib

variable {ι κ : Type}

/-- Every item is at one place, and what is at a place is an item. -/
structure Placed (item : κ → Prop) (holds : ι → κ → Prop) : Prop where
  somewhere : ∀ {k}, item k → ∃ p, holds p k
  once : ∀ {p p' k}, holds p k → holds p' k → p = p'
  isItem : ∀ {p k}, holds p k → item k

namespace Placed

variable {item : κ → Prop} {holds holds' : ι → κ → Prop} {p p' : ι} {k : κ}

theorem existsUnique (h : Placed item holds) (hk : item k) : ∃! p, holds p k := by
  obtain ⟨p, hp⟩ := h.somewhere hk
  exact ⟨p, hp, fun p' hp' => h.once hp' hp⟩

theorem congr (h : Placed item holds) (heq : ∀ p k, holds' p k ↔ holds p k) :
    Placed item holds' where
  somewhere hk := by
    obtain ⟨p, hp⟩ := h.somewhere hk
    exact ⟨p, (heq p _).mpr hp⟩
  once hp hp' := h.once ((heq _ _).mp hp) ((heq _ _).mp hp')
  isItem hp := h.isItem ((heq _ _).mp hp)

/-- **One item moves**, from `p` to `p'`. -/
theorem move (h : Placed item holds) (hp : holds p k) (hp' : holds' p' k)
    (honly : ∀ q, holds' q k → q = p') (hrest : ∀ q k', k' ≠ k → (holds' q k' ↔ holds q k')) :
    Placed item holds' where
  somewhere {k'} hk' := by
    by_cases hk : k' = k
    · subst hk
      exact ⟨p', hp'⟩
    · obtain ⟨q, hq⟩ := h.somewhere hk'
      exact ⟨q, (hrest q k' hk).mpr hq⟩
  once {q q' k'} hq hq' := by
    by_cases hk : k' = k
    · subst hk
      rw [honly q hq, honly q' hq']
    · exact h.once ((hrest q k' hk).mp hq) ((hrest q' k' hk).mp hq')
  isItem {q k'} hq := by
    by_cases hk : k' = k
    · subst hk
      exact h.isItem hp
    · exact h.isItem ((hrest q k' hk).mp hq)

end Placed

end Lib
