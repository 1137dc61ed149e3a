/-
  PATHS ALONG A POINTER.

  Cells have one pointer each, `next`.  `Path next p l r` says that from `p` the pointers lead
  through the cells of `l`, in order, to `r`; for a list that ends, `r` is the null pointer.

  A path is determined by where it starts and how long it is (`Path.unique`), and sees only the
  pointers of its own cells (`Path.congr`), so that it survives every write to another one.

  The cells of a path may be in order.  Then the pointer of a cell leads to the next greater one
  (`Path.next_le`), and one write puts a cell in (`Path.insert_after`) or takes one out
  (`Path.unlink_after`).
-/
import Mathlib.Data.List.Basic
import Mathlib.Order.Lattice

namespace Lib

variable {ι : Type}

/-- From `p`, the pointers lead through the cells of the list to `r`. -/
def Path (next : ι → ι) : ι → List ι → ι → Prop
  | p, [], r => p = r
  | p, a :: l, r => p = a ∧ Path next (next a) l r

namespace Path

variable {next next' : ι → ι} {p r m a null : ι} {l l' : List ι}

/-- A path sees the pointers of its own cells. -/
theorem congr : ∀ {l : List ι} {p : ι}, Path next p l r → (∀ b ∈ l, next' b = next b) →
    Path next' p l r
  | [], _, h, _ => h
  | a :: l, p, h, heq => by
      obtain ⟨rfl, hl⟩ := h
      refine ⟨rfl, ?_⟩
      rw [heq p List.mem_cons_self]
      exact congr hl fun b hb => heq b (List.mem_cons_of_mem _ hb)

/-- Paths can be joined and cut. -/
theorem append_iff : ∀ {l : List ι} {p : ι},
    Path next p (l ++ l') r ↔ ∃ m, Path next p l m ∧ Path next m l' r
  | [], p => by
      constructor
      · intro h
        exact ⟨p, rfl, h⟩
      · rintro ⟨m, rfl, h⟩
        exact h
  | a :: l, p => by
      constructor
      · rintro ⟨rfl, h⟩
        obtain ⟨m, hm, hr⟩ := append_iff.mp h
        exact ⟨m, ⟨rfl, hm⟩, hr⟩
      · rintro ⟨m, ⟨rfl, hm⟩, hr⟩
        exact ⟨rfl, append_iff.mpr ⟨m, hm, hr⟩⟩

/-- A path that does not begin at its end has a first cell. -/
theorem exists_cons (h : Path next p l r) (hne : p ≠ r) :
    ∃ l', l = p :: l' ∧ Path next (next p) l' r := by
  cases l with
  | nil => exact absurd h hne
  | cons a l' =>
    obtain ⟨rfl, hl⟩ := h
    exact ⟨l', rfl, hl⟩

/-- A path to a place that is not one of its cells is the only one. -/
theorem unique : ∀ {l l' : List ι} {p : ι}, Path next p l r → Path next p l' r → r ∉ l → r ∉ l' →
    l = l'
  | [], [], _, _, _, _, _ => rfl
  | [], a :: l', p, h, h', _, hr' => by
      have hp : p = r := h
      obtain ⟨rfl, -⟩ := h'
      exact absurd (by rw [hp]; exact List.mem_cons_self) hr'
  | a :: l, [], p, h, h', hr, _ => by
      have hp : p = r := h'
      obtain ⟨rfl, -⟩ := h
      exact absurd (by rw [hp]; exact List.mem_cons_self) hr
  | a :: l, b :: l', p, h, h', hr, hr' => by
      obtain ⟨rfl, hl⟩ := h
      obtain ⟨rfl, hl'⟩ := h'
      rw [unique hl hl' (fun hc => hr (List.mem_cons_of_mem _ hc))
        fun hc => hr' (List.mem_cons_of_mem _ hc)]

/-- The pointer of a cell leads to a cell behind the first, or to the end. -/
theorem next_mem : ∀ {l : List ι} {p : ι}, Path next p l r → a ∈ l → next a = r ∨ next a ∈ l.tail
  | b :: l, p, h, ha => by
      obtain ⟨rfl, hl⟩ := h
      rcases List.mem_cons.mp ha with rfl | ha
      · cases l with
        | nil => exact Or.inl hl
        | cons c l =>
          right
          rw [hl.1]
          exact List.mem_cons_self
      · rcases next_mem hl ha with hr | htail
        · exact Or.inl hr
        · exact Or.inr (List.mem_of_mem_tail htail)

/-- The cell whose pointer is the end is the last one. -/
theorem eq_concat (h : Path next p l r) (ha : a ∈ l) (hnext : next a = r) (hr : r ∉ l) :
    ∃ l', l = l' ++ [a] := by
  obtain ⟨l₁, l₂, rfl⟩ := List.append_of_mem ha
  obtain ⟨m, -, rfl, hrest⟩ := append_iff.mp h
  cases l₂ with
  | nil => exact ⟨l₁, rfl⟩
  | cons b l₂ =>
    obtain ⟨hb, -⟩ := hrest
    refine absurd ?_ hr
    rw [← hnext, hb]
    exact List.mem_append_right _ (List.mem_cons_of_mem _ List.mem_cons_self)

/-- **A cell is linked behind the last one.** -/
theorem concat {b : ι} (h : Path next p l r) (ha : a ∈ l) (hnext : next a = r) (hr : r ∉ l)
    (hl : l.Nodup) (hothers : ∀ c ∈ l, c ≠ a → next' c = next c) (hb : next' a = b)
    (hend : next' b = r) : Path next' p (l ++ [b]) r := by
  obtain ⟨l', rfl⟩ := h.eq_concat ha hnext hr
  obtain ⟨m, hm, rfl, -⟩ := append_iff.mp h
  have hnot : m ∉ l' := fun hc =>
    (List.nodup_append.mp hl).2.2 m hc m List.mem_cons_self rfl
  have hbefore : Path next' p l' m := hm.congr fun c hc =>
    hothers c (List.mem_append_left _ hc) fun heq => hnot (heq ▸ hc)
  exact append_iff.mpr ⟨b, append_iff.mpr ⟨m, hbefore, rfl, hb⟩, rfl, hend⟩

/-! ## Paths in order -/

variable [LinearOrder ι]

/-- A path in order, around one of its cells. -/
theorem split (h : Path next p l r) (hl : l.Pairwise (· < ·)) (ha : a ∈ l) :
    ∃ l₁ l₂, l = l₁ ++ a :: l₂ ∧ Path next p l₁ a ∧ Path next (next a) l₂ r ∧
      (∀ b ∈ l₁, b < a) ∧ ∀ b ∈ l₂, a < b := by
  obtain ⟨l₁, l₂, rfl⟩ := List.append_of_mem ha
  obtain ⟨m, hbefore, rfl, hafter⟩ := append_iff.mp h
  obtain ⟨-, hl₂, hlt⟩ := List.pairwise_append.mp hl
  exact ⟨l₁, l₂, rfl, hbefore, hafter, fun b hb => hlt b hb m List.mem_cons_self,
    (List.pairwise_cons.mp hl₂).1⟩

/-- The pointer of a cell leads to the end, or to a greater cell. -/
theorem next_of_mem (h : Path next p l r) (hl : l.Pairwise (· < ·)) (ha : a ∈ l) :
    next a = r ∨ (next a ∈ l ∧ a < next a) := by
  obtain ⟨l₁, l₂, rfl, -, hafter, -, hgt⟩ := h.split hl ha
  cases l₂ with
  | nil => exact Or.inl hafter
  | cons b l₂ =>
    right
    rw [hafter.1]
    exact ⟨List.mem_append_right _ (List.mem_cons_of_mem _ List.mem_cons_self),
      hgt b List.mem_cons_self⟩

/-- **The pointer of a cell leads to the next greater one.** -/
theorem next_le {b : ι} (h : Path next p l r) (hl : l.Pairwise (· < ·)) (ha : a ∈ l) (hb : b ∈ l)
    (hab : a < b) : next a ∈ l ∧ next a ≤ b := by
  obtain ⟨l₁, l₂, rfl, -, hafter, hlt, -⟩ := h.split hl ha
  have hb₂ : b ∈ l₂ := by
    rcases List.mem_append.mp hb with hb | hb
    · exact absurd (hlt b hb) (not_lt_of_gt hab)
    · rcases List.mem_cons.mp hb with rfl | hb
      · exact absurd hab (lt_irrefl _)
      · exact hb
  cases l₂ with
  | nil => nomatch hb₂
  | cons c l₂ =>
    rw [hafter.1]
    refine ⟨List.mem_append_right _ (List.mem_cons_of_mem _ List.mem_cons_self), ?_⟩
    rcases List.mem_cons.mp hb₂ with rfl | hb₂
    · exact le_refl _
    · have hl₂ := (List.pairwise_append.mp hl).2.1
      exact le_of_lt ((List.pairwise_cons.mp (List.pairwise_cons.mp hl₂).2).1 b hb₂)

/-- **A cell is put in** behind `a`. -/
theorem insert_after {b : ι} (h : Path next p l r) (hl : l.Pairwise (· < ·)) (ha : a ∈ l)
    (hab : a < b) (hbefore : next a = r ∨ b < next a) (hnew : next' a = b) (hb : next' b = next a)
    (hothers : ∀ c ∈ l, c ≠ a → next' c = next c) (hr : ∀ c ∈ l, c ≠ r) :
    ∃ l', Path next' p l' r ∧ l'.Pairwise (· < ·) ∧ ∀ c, c ∈ l' ↔ c = b ∨ c ∈ l := by
  obtain ⟨l₁, l₂, rfl, hfirst, hlast, hlt, hgt⟩ := h.split hl ha
  obtain ⟨hl₁, hl₂, hcross⟩ := List.pairwise_append.mp hl
  have hb₂ : ∀ c ∈ l₂, b < c := by
    intro c hc
    have hnext : b < next a := by
      refine hbefore.resolve_left fun heq => ?_
      cases l₂ with
      | nil => nomatch hc
      | cons c' l₂ =>
        exact hr c' (List.mem_append_right _ (List.mem_cons_of_mem _ List.mem_cons_self))
          (hlast.1.symm.trans heq)
    exact lt_of_lt_of_le hnext (h.next_le hl ha
      (List.mem_append_right _ (List.mem_cons_of_mem _ hc)) (hgt c hc)).2
  refine ⟨l₁ ++ a :: b :: l₂, append_iff.mpr ⟨a, ?_, rfl, ?_⟩, ?_, fun c => ?_⟩
  · exact hfirst.congr fun c hc => hothers c (List.mem_append_left _ hc) (ne_of_lt (hlt c hc))
  · rw [hnew]
    refine ⟨rfl, ?_⟩
    rw [hb]
    exact hlast.congr fun c hc => hothers c
      (List.mem_append_right _ (List.mem_cons_of_mem _ hc)) (ne_of_gt (hgt c hc))
  · refine List.pairwise_append.mpr ⟨hl₁, ?_, fun c hc c' hc' => ?_⟩
    · refine List.pairwise_cons.mpr ⟨fun c hc => ?_, List.pairwise_cons.mpr
        ⟨hb₂, (List.pairwise_cons.mp hl₂).2⟩⟩
      rcases List.mem_cons.mp hc with rfl | hc
      · exact hab
      · exact hgt c hc
    · rcases List.mem_cons.mp hc' with rfl | hc'
      · exact hlt c hc
      · rcases List.mem_cons.mp hc' with rfl | hc'
        · exact lt_trans (hlt c hc) hab
        · exact hcross c hc c' (List.mem_cons_of_mem _ hc')
  · simp only [List.mem_append, List.mem_cons]
    tauto

/-- **A cell is taken out** behind `a`. -/
theorem unlink_after {b : ι} (h : Path next p l r) (hl : l.Pairwise (· < ·)) (ha : a ∈ l)
    (hb : next a = b) (hne : b ≠ r) (hnew : next' a = next b)
    (hothers : ∀ c ∈ l, c ≠ a → next' c = next c) :
    ∃ l', Path next' p l' r ∧ l'.Pairwise (· < ·) ∧ ∀ c, c ∈ l' ↔ c ≠ b ∧ c ∈ l := by
  obtain ⟨l₁, l₂, rfl, hfirst, hlast, hlt, hgt⟩ := h.split hl ha
  rw [hb] at hlast
  obtain ⟨l₃, rfl, hrest⟩ := hlast.exists_cons hne
  obtain ⟨hl₁, hl₂, hcross⟩ := List.pairwise_append.mp hl
  obtain ⟨ha₂, hl₃⟩ := List.pairwise_cons.mp hl₂
  obtain ⟨hb₃, hl₃⟩ := List.pairwise_cons.mp hl₃
  have hab : a < b := hgt b List.mem_cons_self
  refine ⟨l₁ ++ a :: l₃, append_iff.mpr ⟨a, ?_, rfl, ?_⟩, ?_, fun c => ?_⟩
  · exact hfirst.congr fun c hc => hothers c (List.mem_append_left _ hc) (ne_of_lt (hlt c hc))
  · rw [hnew]
    refine hrest.congr fun c hc => ?_
    have hc' := List.mem_cons_of_mem b hc
    exact hothers c (List.mem_append_right _ (List.mem_cons_of_mem _ hc')) (ne_of_gt (hgt c hc'))
  · refine List.pairwise_append.mpr ⟨hl₁, List.pairwise_cons.mpr
      ⟨fun c hc => hgt c (List.mem_cons_of_mem _ hc), hl₃⟩, fun c hc c' hc' => ?_⟩
    rcases List.mem_cons.mp hc' with rfl | hc'
    · exact hlt c hc
    · exact hcross c hc c' (List.mem_cons_of_mem _ (List.mem_cons_of_mem _ hc'))
  · have h₁ : c ∈ l₁ → c ≠ b := fun hc => ne_of_lt (lt_trans (hlt c hc) hab)
    have h₂ : c = a → c ≠ b := fun hc => by rw [hc]; exact ne_of_lt hab
    have h₃ : c ∈ l₃ → c ≠ b := fun hc => ne_of_gt (hb₃ c hc)
    simp only [List.mem_append, List.mem_cons]
    tauto

end Path

end Lib
