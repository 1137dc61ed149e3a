/-
  A STORE THAT IS RELEASE CONSISTENT: WRITES, AND WHAT EACH READER HAS SEEN OF THEM.

  A store that is not atomic may give an old value to a reader.  What it keeps of each key is all
  that was written to it, in an order (the time stamps of the writes), and what bounds a reader is
  its view: how far in that order it has been for each key.

  * A read returns any write that is not behind the view of the reader, and takes the view there.
  * A write goes to any time stamp beyond the view of the writer, also between older writes.
  * A write that is a release carries the view of its writer, and a read that is an acquire takes
    over the view that it finds.  Other reads and writes pass nothing on.

  Nothing else is ordered; an atomic store is one where every reader sees the last write.  Which
  write is read, and where a write goes, is a choice of the store; the choices are a stream, so that
  a statement about every stream is one about everything the store may do.

  What the accesses of a program need is that whoever accesses next has seen all (`SeesAll`): it
  then reads what was written last and writes behind that, and it has seen all again (`look_last`,
  `write_seesAll`).  A release hands that on, and the acquire that reads it takes it over
  (`release_seesAll`, `acquire_seesAll`).
-/
import Mathlib.Logic.Function.Basic
import Mathlib.Data.List.Basic
import Mathlib.Order.Lattice

namespace Lib

/-- How far a reader has been, for each key. -/
abbrev View (K : Type) := K → Nat

/-- A write, where it stands in the order of the writes to its key, and the view that it carries. -/
structure Write (K V : Type) where
  ts : Nat
  value : V
  view : View K

/-- The writes to every key: the last, and those before it. -/
structure ViewStore (K V : Type) where
  last : K → Write K V
  older : K → List (Write K V)
  /-- what the store chooses -/
  choices : Nat → Nat
  /-- how many choices were made -/
  chosen : Nat
  older_lt : ∀ k, ∀ w ∈ older k, w.ts < (last k).ts

namespace View

variable {K : Type} [DecidableEq K]

/-- The view is taken to a write of key `k`. -/
def raise (view : View K) (k : K) (ts : Nat) : View K := Function.update view k (max (view k) ts)

/-- The view of one who has seen nothing. -/
def none : View K := fun _ => 0

/-- What two have seen together. -/
def join (view view' : View K) : View K := fun k => max (view k) (view' k)

theorem raise_self (view : View K) (k : K) (ts : Nat) : view.raise k ts k = max (view k) ts :=
  Function.update_self ..

theorem raise_of_ne (view : View K) {k k' : K} (h : k' ≠ k) (ts : Nat) :
    view.raise k ts k' = view k' := Function.update_of_ne h ..

/-- Views only grow. -/
theorem le_raise (view : View K) (k : K) (ts : Nat) (k' : K) : view k' ≤ view.raise k ts k' := by
  by_cases h : k' = k
  · rw [h, raise_self]
    exact Nat.le_max_left ..
  · rw [raise_of_ne view h]

/-- What a write that is no release carries is in the view of its writer. -/
theorem none_raise_le (view : View K) (k : K) (ts : Nat) (k' : K) :
    View.none.raise k ts k' ≤ view.raise k ts k' := by
  by_cases h : k' = k
  · rw [h, raise_self, raise_self]
    exact Nat.max_le.mpr ⟨Nat.zero_le _, Nat.le_max_right ..⟩
  · rw [raise_of_ne _ h]
    exact Nat.zero_le _

end View

namespace ViewStore

variable {K V : Type}

/-! ## What is read, and where is written -/

/-- The next choice. -/
def choice (s : ViewStore K V) : Nat := s.choices s.chosen

def choose (s : ViewStore K V) : ViewStore K V := { s with chosen := s.chosen + 1 }

/-- All writes to a key. -/
def writes (s : ViewStore K V) (k : K) : List (Write K V) := s.last k :: s.older k

/-- The writes that a reader may see. -/
def visible (s : ViewStore K V) (view : View K) (k : K) : List (Write K V) :=
  (s.writes k).filter fun w => view k ≤ w.ts

/-- **The write that a read returns.**  A reader that is ahead of all writes, which there is not,
    would get the last. -/
def look (s : ViewStore K V) (view : View K) (k : K) : Write K V :=
  let seen := s.visible view k
  seen[s.choice % seen.length]?.getD (s.last k)

/-- Where a write goes: beyond the view of the writer, and where no other is. -/
def stamp (s : ViewStore K V) (view : View K) (k : K) : Nat :=
  let ts := view k + 1 + s.choice
  if (s.writes k).any fun w => w.ts == ts then (s.last k).ts + 1 else ts

/-! ## Views that are possible -/

/-- Somebody with this view has seen no write that is not there. -/
def Known (s : ViewStore K V) (view : View K) : Prop := ∀ k, view k ≤ (s.last k).ts

/-- Somebody with this view has seen everything. -/
def SeesAll (s : ViewStore K V) (view : View K) : Prop := ∀ k, view k = (s.last k).ts

/-- The views that the writes carry are possible. -/
def Sound (s : ViewStore K V) : Prop := ∀ k, ∀ w ∈ s.writes k, s.Known w.view

theorem SeesAll.known {s : ViewStore K V} {view : View K} (h : s.SeesAll view) : s.Known view :=
  fun k => Nat.le_of_eq (h k)

/-- No write is behind the last. -/
theorem le_last {s : ViewStore K V} {k : K} {w : Write K V} (hw : w ∈ s.writes k) :
    w.ts ≤ (s.last k).ts := by
  rcases List.mem_cons.mp hw with rfl | hw
  · exact Nat.le_refl _
  · exact Nat.le_of_lt (s.older_lt k w hw)

/-- Only the last write is where the last write is. -/
theorem eq_last {s : ViewStore K V} {k : K} {w : Write K V} (hw : w ∈ s.writes k)
    (hts : (s.last k).ts ≤ w.ts) : w = s.last k := by
  rcases List.mem_cons.mp hw with rfl | hw
  · rfl
  · have hlt := s.older_lt k w hw
    omega

/-- **A read returns a write** that is not behind the view. -/
theorem look_spec {s : ViewStore K V} {view : View K} (h : s.Known view) (k : K) :
    s.look view k ∈ s.writes k ∧ view k ≤ (s.look view k).ts := by
  have hlast : s.last k ∈ s.writes k := List.mem_cons_self
  unfold look
  dsimp only
  cases hw : (s.visible view k)[s.choice % (s.visible view k).length]? with
  | none => exact ⟨hlast, h k⟩
  | some w =>
    have hmem : w ∈ s.visible view k := List.mem_of_getElem? hw
    obtain ⟨hmem, hle⟩ := List.mem_filter.mp hmem
    exact ⟨hmem, of_decide_eq_true hle⟩

/-- **One who has seen all reads the last write.** -/
theorem look_last {s : ViewStore K V} {view : View K} (h : s.SeesAll view) (k : K) :
    s.look view k = s.last k := by
  obtain ⟨hmem, hle⟩ := look_spec h.known k
  exact eq_last hmem (Nat.le_trans (Nat.le_of_eq (h k).symm) hle)

theorem stamp_ne (s : ViewStore K V) (view : View K) (k : K) :
    ∀ w ∈ s.writes k, w.ts ≠ s.stamp view k := by
  intro w hw heq
  unfold stamp at heq
  dsimp only at heq
  split at heq
  · rcases List.mem_cons.mp hw with rfl | hw
    · omega
    · have hlt := s.older_lt k w hw
      omega
  · rename_i hfree
    refine hfree (List.any_eq_true.mpr ⟨w, hw, ?_⟩)
    exact beq_iff_eq.mpr heq

theorem lt_stamp {s : ViewStore K V} {view : View K} (h : s.Known view) (k : K) :
    view k < s.stamp view k := by
  have hle := h k
  unfold stamp
  dsimp only
  split <;> omega

variable [DecidableEq K]

/-! ## Reads -/

/-- The view after a read of this write. -/
def viewAfter (view : View K) (k : K) (w : Write K V) (acquire : Bool) : View K :=
  if acquire then (view.raise k w.ts).join w.view else view.raise k w.ts

/-- A read takes the view no further than to the writes there are. -/
theorem known_viewAfter {s : ViewStore K V} {view : View K} (h : s.Known view) (hs : s.Sound)
    {k : K} {w : Write K V} (hw : w ∈ s.writes k) (acquire : Bool) :
    s.Known (viewAfter view k w acquire) := by
  have hraise : s.Known (view.raise k w.ts) := by
    intro k'
    by_cases hk : k' = k
    · subst hk
      rw [View.raise_self]
      exact Nat.max_le.mpr ⟨h k', le_last hw⟩
    · rw [View.raise_of_ne view hk]
      exact h k'
  unfold viewAfter
  cases acquire with
  | false => exact hraise
  | true => exact fun k' => Nat.max_le.mpr ⟨hraise k', hs k w hw k'⟩

/-- What has been seen stays seen. -/
theorem le_viewAfter (view : View K) (k : K) (w : Write K V) (acquire : Bool) (k' : K) :
    view k' ≤ viewAfter view k w acquire k' := by
  unfold viewAfter
  cases acquire with
  | false => exact view.le_raise k w.ts k'
  | true => exact Nat.le_trans (view.le_raise k w.ts k') (Nat.le_max_left ..)

/-- **An acquire takes over that all was seen.** -/
theorem acquire_seesAll {s : ViewStore K V} {view : View K} (h : s.Known view) (hs : s.Sound)
    {k : K} {w : Write K V} (hw : w ∈ s.writes k) (hall : s.SeesAll w.view) :
    s.SeesAll (viewAfter view k w true) := by
  intro k'
  refine Nat.le_antisymm (known_viewAfter h hs hw true k') ?_
  rw [← hall k']
  exact Nat.le_max_right ..

/-- One who has seen all and reads has seen all. -/
theorem read_seesAll {s : ViewStore K V} {view : View K} (h : s.SeesAll view) (hs : s.Sound) (k : K)
    (acquire : Bool) : s.SeesAll (viewAfter view k (s.look view k) acquire) := by
  intro k'
  refine Nat.le_antisymm (known_viewAfter h.known hs (look_spec h.known k).1 acquire k') ?_
  rw [← h k']
  exact le_viewAfter ..

/-! ## Writes -/

/-- The write that is put there. -/
def fresh (s : ViewStore K V) (view : View K) (k : K) (v : V) (release : Bool) : Write K V :=
  let ts := s.stamp view k
  ⟨ts, v, if release then view.raise k ts else View.none.raise k ts⟩

/-- **A write.** -/
def write (s : ViewStore K V) (view : View K) (k : K) (v : V) (release : Bool) : ViewStore K V :=
  let w := s.fresh view k v release
  if h : (s.last k).ts < w.ts then
    { s with
      last := Function.update s.last k w
      older := Function.update s.older k (s.writes k)
      older_lt := by
        intro k' w' hw'
        by_cases hk : k' = k
        · subst hk
          rw [Function.update_self] at hw' ⊢
          rcases List.mem_cons.mp hw' with rfl | hw'
          · exact h
          · exact Nat.lt_trans (s.older_lt k' w' hw') h
        · rw [Function.update_of_ne hk] at hw' ⊢
          exact s.older_lt k' w' hw' }
  else
    { s with
      older := Function.update s.older k (w :: s.older k)
      older_lt := by
        intro k' w' hw'
        by_cases hk : k' = k
        · subst hk
          rw [Function.update_self] at hw'
          rcases List.mem_cons.mp hw' with rfl | hw'
          · exact Nat.lt_of_le_of_ne (Nat.le_of_not_lt h)
              (s.stamp_ne view k' (s.last k') List.mem_cons_self).symm
          · exact s.older_lt k' w' hw'
        · rw [Function.update_of_ne hk] at hw'
          exact s.older_lt k' w' hw' }

section Writes

variable {s : ViewStore K V} {view : View K} {k : K} {v : V} {release : Bool}

/-- The writes after a write. -/
theorem mem_writes_write {k' : K} {w : Write K V} : w ∈ (s.write view k v release).writes k' ↔
    w ∈ s.writes k' ∨ (k' = k ∧ w = s.fresh view k v release) := by
  unfold write writes
  dsimp only
  by_cases hk : k' = k
  · subst hk
    split
    · simp only [Function.update_self, List.mem_cons, true_and]
      exact or_comm
    · simp only [Function.update_self, List.mem_cons, true_and]
      constructor
      · rintro (h | h | h)
        · exact Or.inl (Or.inl h)
        · exact Or.inr h
        · exact Or.inl (Or.inr h)
      · rintro ((h | h) | h)
        · exact Or.inl h
        · exact Or.inr (Or.inr h)
        · exact Or.inr (Or.inl h)
  · split <;> simp [hk]

/-- The last writes after a write. -/
theorem last_write_of_ne {k' : K} (hk : k' ≠ k) :
    (s.write view k v release).last k' = s.last k' := by
  unfold write
  dsimp only
  split
  · exact Function.update_of_ne hk ..
  · rfl

/-- One who has seen all writes last. -/
theorem last_write (h : s.SeesAll view) :
    (s.write view k v release).last k = s.fresh view k v release := by
  have hlt : (s.last k).ts < (s.fresh view k v release).ts := h k ▸ lt_stamp h.known k
  unfold write
  dsimp only
  rw [dif_pos hlt]
  exact Function.update_self ..

/-- The order of the writes only grows. -/
theorem last_le_write (k' : K) : (s.last k').ts ≤ ((s.write view k v release).last k').ts :=
  le_last (mem_writes_write.mpr (Or.inl List.mem_cons_self))

theorem Known.write {view' : View K} (h : s.Known view') :
    (s.write view k v release).Known view' :=
  fun k' => Nat.le_trans (h k') (last_le_write k')

/-- The view of the writer after its write. -/
theorem known_raise (h : s.Known view) :
    (s.write view k v release).Known (view.raise k (s.stamp view k)) := by
  intro k'
  by_cases hk : k' = k
  · subst hk
    have hlast : (s.fresh view k' v release).ts ≤ ((s.write view k' v release).last k').ts :=
      le_last (mem_writes_write.mpr (Or.inr ⟨rfl, rfl⟩))
    rw [View.raise_self]
    exact Nat.max_le.mpr ⟨h.write k', hlast⟩
  · rw [View.raise_of_ne view hk]
    exact h.write k'

/-- The views that are carried stay possible. -/
theorem Sound.write (hs : s.Sound) (h : s.Known view) : (s.write view k v release).Sound := by
  intro k' w hw
  rcases mem_writes_write.mp hw with hold | ⟨rfl, rfl⟩
  · exact (hs k' w hold).write
  · have hnew : (s.write view k' v release).Known (view.raise k' (s.stamp view k')) :=
      known_raise h
    unfold fresh
    dsimp only
    split
    · exact hnew
    · exact fun k => Nat.le_trans (View.none_raise_le ..) (hnew k)

/-- **One who has seen all and writes has seen all.** -/
theorem write_seesAll (h : s.SeesAll view) :
    (s.write view k v release).SeesAll (view.raise k (s.stamp view k)) := by
  intro k'
  by_cases hk : k' = k
  · subst hk
    rw [last_write h, View.raise_self]
    exact Nat.max_eq_right (Nat.le_of_lt (lt_stamp h.known k'))
  · rw [last_write_of_ne hk, View.raise_of_ne view hk]
    exact h k'

/-- **A release hands it on.** -/
theorem release_seesAll (h : s.SeesAll view) :
    (s.write view k v true).SeesAll ((s.write view k v true).last k).view := by
  rw [last_write h]
  exact write_seesAll h

end Writes

end ViewStore

end Lib
