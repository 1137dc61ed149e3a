/-
  THE WRITES OF POINTERS in the Harris-Michael lists.

  Four requests write a pointer: the owner of a node overwrites it while the node is in no list, and
  compare-and-swaps insert a node, mark one and link one out.  The last three change the list that
  the pointer is in, and `HmLists.swap` says what is left to show for them: where the pointers lead
  now, and in which order.  `HmFrame.overwrite` and `HmFrame.swap` are the same for the sessions
  that stand by.
-/
import Odyssey.HarrisMichaelPoints

namespace Odyssey

open Lib

variable {d : Deployment} {store : HmStore} {chain : Nat → List Nat} {l p : Nat} {v : HmPtr}

theorem HmStore.write_self : (store.write p v).ptr p = v := Function.update_self ..

theorem HmStore.write_of_ne {q : Nat} (h : q ≠ p) : (store.write p v).ptr q = store.ptr q :=
  Function.update_of_ne h ..

theorem HmStore.after_write_self : (store.write p v).after d p = d.behind v := by
  unfold after
  rw [write_self]

theorem HmStore.after_write_of_ne {q : Nat} (h : q ≠ p) :
    (store.write p v).after d q = store.after d q := by
  unfold after
  rw [write_of_ne h]

/-- A head is a pointer of its own list only. -/
theorem HmLists.eq_of_head_mem (h : HmLists d store chain) (hf : HmFits d) {l' : Nat}
    (hl : l < d.hmListsNum) (hl' : l' < d.hmListsNum) (hmem : l' ∈ chain l) : l' = l := by
  rcases h.node l l' hl hmem with heq | ⟨k, hk, heq⟩
  · exact heq
  · have hle := (hf.linkKey_range hk).1
    omega

/-! ## The owner -/

/-- A pointer that is in no list is overwritten. -/
theorem HmLists.overwrite (h : HmLists d store chain) (hout : OutOfLists d chain p) :
    HmLists d (store.write p v) chain := by
  have hne : ∀ {l q}, l < d.hmListsNum → q ∈ chain l → q ≠ p := fun hl hq heq =>
    hout _ hl (heq ▸ hq)
  constructor
  case path =>
    exact fun l hl => (h.path l hl).congr fun q hq => HmStore.after_write_of_ne (hne hl hq)
  case sorted => exact h.sorted
  case node => exact h.node
  case disjoint => exact h.disjoint
  case valid =>
    intro l q hl hq
    rw [HmStore.write_of_ne (hne hl hq)]
    exact h.valid l q hl hq
  case myKey =>
    intro l q hl hq
    rw [HmStore.write_of_ne (hne hl hq)]
    exact h.myKey l q hl hq
  case body => exact h.body
  case head =>
    intro l hl
    rw [HmStore.write_of_ne (hne hl (h.head_mem hl))]
    exact h.head l hl

theorem HmFrame.overwrite (hout : OutOfLists d chain p) {own : Nat} (hne : own ≠ p) :
    HmFrame d store (store.write p v) chain chain (some p) own where
  later q hq := by
    rw [HmStore.write_of_ne fun heq => hq (by rw [heq])]
    exact .refl _
  apart q hq := by
    cases hq
    exact ⟨hne.symm, hout⟩
  mem _ _ _ hq _ := hq
  owned _ _ hq := hq
  out _ := HmStore.write_of_ne hne
  body _ _ hbody := hbody

/-! ## Swaps -/

/-- **A pointer of list `l` is swapped**: the list is `cells` now, and a pointer that it had not
    before is that of a node which was in no list. -/
theorem HmLists.swap (h : HmLists d store chain) (hf : HmFits d) (hl : l < d.hmListsNum)
    (hp : p ∈ chain l) {cells : List Nat}
    (hpath : Path ((store.write p v).after d) l cells d.lastHmNodePtr)
    (hsorted : cells.Pairwise (· < ·))
    (hcells : ∀ q ∈ cells, q ∉ chain l → OutOfLists d chain q ∧
      (∃ k, d.isHmNode k ∧ q = d.hmGetNodePtrKeyId k ∧ store.BodyOk d k) ∧
      (store.ptr q).myKeyId = q ∧
      ((store.ptr q).nextKeyId ≠ 0 → d.isHmNode (store.ptr q).nextKeyId))
    (hvalid : v.nextKeyId ≠ 0 → d.isHmNode v.nextKeyId) (hmy : v.myKeyId = p)
    (hhead : p = l → v.marked = false) :
    HmLists d (store.write p v) (Function.update chain l cells) := by
  -- the other lists do not have the pointer
  have hother : ∀ {l' q}, l' < d.hmListsNum → l' ≠ l → q ∈ chain l' → q ≠ p := fun hl' hne hq heq =>
    hne (h.disjoint _ _ p hl' hl (heq ▸ hq) hp)
  have hmem : ∀ {l' q}, l' < d.hmListsNum → q ∈ Function.update chain l cells l' →
      q ∈ chain l' ∨ (l' = l ∧ q ∈ cells ∧ q ∉ chain l) := by
    intro l' q hl' hq
    by_cases hne : l' = l
    · rw [hne, Function.update_self] at hq
      by_cases hold : q ∈ chain l
      · exact Or.inl (hne ▸ hold)
      · exact Or.inr ⟨hne, hq, hold⟩
    · rw [Function.update_of_ne hne] at hq
      exact Or.inl hq
  constructor
  case path =>
    intro l' hl'
    by_cases hne : l' = l
    · rw [hne, Function.update_self]
      exact hpath
    · rw [Function.update_of_ne hne]
      exact (h.path l' hl').congr fun q hq => HmStore.after_write_of_ne (hother hl' hne hq)
  case sorted =>
    intro l' hl'
    by_cases hne : l' = l
    · rw [hne, Function.update_self]
      exact hsorted
    · rw [Function.update_of_ne hne]
      exact h.sorted l' hl'
  case node =>
    intro l' q hl' hq
    rcases hmem hl' hq with hold | ⟨-, hnew, hnot⟩
    · exact h.node l' q hl' hold
    · obtain ⟨-, ⟨k, hk, heq, -⟩, -⟩ := hcells q hnew hnot
      exact Or.inr ⟨k, hk, heq⟩
  case disjoint =>
    intro l₁ l₂ q hl₁ hl₂ hq₁ hq₂
    rcases hmem hl₁ hq₁ with hold₁ | ⟨rfl, hnew₁, hnot₁⟩
    · rcases hmem hl₂ hq₂ with hold₂ | ⟨rfl, hnew₂, hnot₂⟩
      · exact h.disjoint l₁ l₂ q hl₁ hl₂ hold₁ hold₂
      · exact absurd hold₁ ((hcells q hnew₂ hnot₂).1 l₁ hl₁)
    · rcases hmem hl₂ hq₂ with hold₂ | ⟨heq, -, -⟩
      · exact absurd hold₂ ((hcells q hnew₁ hnot₁).1 l₂ hl₂)
      · exact heq.symm
  case valid =>
    intro l' q hl' hq
    by_cases hne : q = p
    · rw [hne, HmStore.write_self]
      exact hvalid
    · rw [HmStore.write_of_ne hne]
      rcases hmem hl' hq with hold | ⟨-, hnew, hnot⟩
      · exact h.valid l' q hl' hold
      · exact (hcells q hnew hnot).2.2.2
  case myKey =>
    intro l' q hl' hq
    by_cases hne : q = p
    · rw [hne, HmStore.write_self]
      exact hmy
    · rw [HmStore.write_of_ne hne]
      rcases hmem hl' hq with hold | ⟨-, hnew, hnot⟩
      · exact h.myKey l' q hl' hold
      · exact (hcells q hnew hnot).2.2.1
  case body =>
    intro l' k hl' hk hq
    rcases hmem hl' hq with hold | ⟨-, hnew, hnot⟩
    · exact h.body l' k hl' hk hold
    · obtain ⟨-, ⟨k', hk', heq, hbody⟩, -⟩ := hcells _ hnew hnot
      rw [hf.linkKey_inj hk hk' heq]
      exact hbody
  case head =>
    intro l' hl'
    by_cases hne : l' = p
    · rw [hne, HmStore.write_self]
      exact hhead (h.eq_of_head_mem hf hl (hne ▸ hl') hp)
    · rw [HmStore.write_of_ne hne]
      exact h.head l' hl'

/-- The sessions that stand by, when a pointer of list `l` is swapped. -/
theorem HmFrame.swap (hl : l < d.hmListsNum) (hp : p ∈ chain l) (hlater : (store.ptr p).Later v)
    {cells : List Nat} {own : Nat} (hold : own ∈ cells → own ∈ chain l)
    (hmem : ∀ q ∈ chain l, ((store.write p v).ptr q).marked = false → q ∈ cells) :
    HmFrame d store (store.write p v) chain (Function.update chain l cells) none own where
  later q _ := by
    by_cases hne : q = p
    · rw [hne, HmStore.write_self]
      exact hlater
    · rw [HmStore.write_of_ne hne]
      exact .refl _
  apart _ hq := by cases hq
  mem l' q _ hq hunmarked := by
    by_cases hne : l' = l
    · rw [hne, Function.update_self]
      exact hmem q (hne ▸ hq) hunmarked
    · rw [Function.update_of_ne hne]
      exact hq
  owned l' _ hq := by
    by_cases hne : l' = l
    · rw [hne, Function.update_self] at hq
      rw [hne]
      exact hold hq
    · rw [Function.update_of_ne hne] at hq
      exact hq
  out hout := HmStore.write_of_ne fun heq => hout l hl (heq ▸ hp)
  body _ _ hbody := hbody

/-! ## The three swaps -/

/-- **A node is inserted** behind `p`. -/
theorem HmLists.insert (h : HmLists d store chain) (hf : HmFits d) (hl : l < d.hmListsNum)
    (hp : p ∈ chain l) {k : Nat} (hk : d.isHmNode k)
    (hout : OutOfLists d chain (d.hmGetNodePtrKeyId k)) (hbody : store.BodyOk d k)
    (hmine : (store.ptr (d.hmGetNodePtrKeyId k)).myKeyId = d.hmGetNodePtrKeyId k)
    (hnext : (store.ptr (d.hmGetNodePtrKeyId k)).nextKeyId = (store.ptr p).nextKeyId)
    (hbefore : p < d.hmGetNodePtrKeyId k) (hafter : d.hmGetNodePtrKeyId k < store.after d p)
    (hv : v.nextKeyId = k) (hmy : v.myKeyId = p) (hunmarked : v.marked = false) :
    ∃ cells, (∀ q, q ∈ cells ↔ q = d.hmGetNodePtrKeyId k ∨ q ∈ chain l) ∧
      HmLists d (store.write p v) (Function.update chain l cells) := by
  have hne : d.hmGetNodePtrKeyId k ≠ p := fun heq => hout l hl (heq ▸ hp)
  have hzero : v.nextKeyId ≠ 0 := by
    rw [hv]
    exact hf.isHmNode_ne_zero hk
  have hlink : (store.write p v).after d p = d.hmGetNodePtrKeyId k := by
    rw [HmStore.after_write_self, Deployment.behind, if_neg hzero, hv]
  have hbehind : (store.write p v).after d (d.hmGetNodePtrKeyId k) = store.after d p := by
    rw [HmStore.after_write_of_ne hne]
    exact behind_congr hnext
  obtain ⟨cells, hpath, hsorted, hcells⟩ := (h.path l hl).insert_after (h.sorted l hl) hp hbefore
    (Or.inr hafter) hlink hbehind (fun q _ hq => HmStore.after_write_of_ne hq)
    fun q hq => Nat.ne_of_lt (h.lt_last hf hl hq)
  refine ⟨cells, hcells, h.swap hf hl hp hpath hsorted (fun q hq hnot => ?_) (fun _ => ?_) hmy
    fun _ => hunmarked⟩
  · have heq := ((hcells q).mp hq).resolve_right hnot
    rw [heq]
    refine ⟨hout, ⟨k, hk, rfl, hbody⟩, hmine, ?_⟩
    rw [hnext]
    exact h.valid l p hl hp
  · rw [hv]
    exact hk

/-- **A node is marked.** -/
theorem HmLists.mark (h : HmLists d store chain) (hf : HmFits d) (hl : l < d.hmListsNum)
    (hp : p ∈ chain l) (hne : p ≠ l) (hnext : v.nextKeyId = (store.ptr p).nextKeyId)
    (hmy : v.myKeyId = p) :
    HmLists d (store.write p v) (Function.update chain l (chain l)) := by
  refine h.swap hf hl hp ?_ (h.sorted l hl) (fun q hq hnot => absurd hq hnot) ?_ hmy
    fun heq => absurd heq hne
  · refine (h.path l hl).congr fun q _ => ?_
    by_cases hq : q = p
    · rw [hq, HmStore.after_write_self]
      exact behind_congr hnext
    · exact HmStore.after_write_of_ne hq
  · rw [hnext]
    exact h.valid l p hl hp

/-- **A node is linked out** behind `p`. -/
theorem HmLists.unlink (h : HmLists d store chain) (hf : HmFits d) (hl : l < d.hmListsNum)
    (hp : p ∈ chain l) (hne : (store.ptr p).nextKeyId ≠ 0)
    (hnext : v.nextKeyId = (store.ptr (store.after d p)).nextKeyId) (hmy : v.myKeyId = p)
    (hunmarked : v.marked = false) :
    ∃ cells, (∀ q, q ∈ cells ↔ q ≠ store.after d p ∧ q ∈ chain l) ∧
      HmLists d (store.write p v) (Function.update chain l cells) := by
  have hmem := h.after_mem hf hl hp hne
  have hlink : (store.write p v).after d p = store.after d (store.after d p) := by
    rw [HmStore.after_write_self]
    exact behind_congr hnext
  obtain ⟨cells, hpath, hsorted, hcells⟩ := (h.path l hl).unlink_after (h.sorted l hl) hp rfl
    (Nat.ne_of_lt (h.lt_last hf hl hmem)) hlink fun q _ hq => HmStore.after_write_of_ne hq
  refine ⟨cells, hcells, h.swap hf hl hp hpath hsorted (fun q hq hnot => ?_) ?_ hmy
    fun _ => hunmarked⟩
  · exact absurd ((hcells q).mp hq).2 hnot
  · rw [hnext]
    exact h.valid l _ hl hmem

end Odyssey
