/-
  WHAT WAS INSERTED IS FOUND.

  Abstractly the store is the list of the ops inserted so far; `Stored L kvs ops` says that `kvs`
  represents it.  Entry `i` is op `i`, at place `i * size`; some slot in the bucket of its key
  points there, with the tag of its key; every slot in use belongs to such an entry; and no bucket
  has the same tag twice.

  The last part is what makes a look-up right that never compares keys.  It is not checked for its
  own sake: `mica_insert_one` stops the program when it is about to use a slot whose tag is taken,
  so after a run that was not stopped it holds.  Nothing is said about keys, and two keys with the
  same bucket and the same tag never both get in.

  The room in the log is checked after an entry has been written, for the next one
  (`Stored.room`), so the physical place of an entry is its virtual place.
-/
import Odyssey.Mica
import Mathlib.Data.List.Induction

namespace Odyssey

open Lib

variable {L : OpLayout} {kvs kvs' : MicaKv} {ops : List (MicaOp L)} {op : MicaOp L}
  {logCap : Nat}

/-! ## Places in the log -/

/-- Two different entries do not meet. -/
theorem entries_disjoint {i j : Nat} (h : i ≠ j) (size : Nat) :
    i * size + size ≤ j * size ∨ j * size + size ≤ i * size := by
  rcases Nat.lt_or_gt_of_ne h with h | h
  · left
    calc i * size + size = (i + 1) * size := (Nat.succ_mul i size).symm
      _ ≤ j * size := Nat.mul_le_mul_right size h
  · right
    calc j * size + size = (j + 1) * size := (Nat.succ_mul j size).symm
      _ ≤ i * size := Nat.mul_le_mul_right size h

/-- An entry ends where the next one starts. -/
theorem entry_end_le {i n : Nat} (h : i < n) (size : Nat) : i * size + size ≤ n * size := by
  rw [← Nat.succ_mul]
  exact Nat.mul_le_mul_right size h

/-! ## Numbers in keys -/

/-- The tag of a key fits the 23 bits a slot has for it. -/
theorem MicaOp.tag_mod (op : MicaOp L) : op.key.tag % 2 ^ 23 = op.key.tag := by
  apply Nat.mod_eq_of_lt
  have hlen : (slice (slice op.1 L.keyAt 8) 6 2).length ≤ 2 := List.length_take_le ..
  have hpow : 2 ^ (8 * (slice (slice op.1 L.keyAt 8) 6 2).length) ≤ 2 ^ 16 :=
    Nat.pow_le_pow_right (by decide) (by omega)
  calc op.key.tag < 2 ^ (8 * (slice (slice op.1 L.keyAt 8) 6 2).length) := leNat_lt _
    _ ≤ 2 ^ 16 := hpow
    _ ≤ 2 ^ 23 := by decide

/-! ## The invariant -/

/-- The store holds these ops, the oldest first. -/
structure Stored (L : OpLayout) (kvs : MicaKv) (ops : List (MicaOp L)) : Prop where
  head : kvs.logHead = ops.length * L.size
  /-- the next entry fits the log, and more -/
  room : kvs.logHead + (L.size + 32) < kvs.logCap
  mask : kvs.bktMask = kvs.numBkts - 1 ∧ 0 < kvs.numBkts
  entries : ∀ i (hi : i < ops.length), readAt kvs.htLog (i * L.size) L.size = ops[i].1
  placed : ∀ i (hi : i < ops.length), ∃ j < 8,
    kvs.htIndex (kvs.bucket ops[i].key) j = ⟨true, ops[i].key.tag, i * L.size⟩
  used : ∀ b < kvs.numBkts, ∀ j < 8, (kvs.htIndex b j).inUse = true →
    ∃ i, ∃ hi : i < ops.length, b = kvs.bucket ops[i].key ∧
      kvs.htIndex b j = ⟨true, ops[i].key.tag, i * L.size⟩
  distinct : ∀ b < kvs.numBkts, ∀ j < 8, ∀ j' < 8, (kvs.htIndex b j).inUse = true →
    (kvs.htIndex b j').inUse = true → (kvs.htIndex b j).tag = (kvs.htIndex b j').tag → j = j'

/-- The constants of a log of `logCap` bytes. -/
structure LogDims (L : OpLayout) (logCap : Nat) (kvs : MicaKv) : Prop where
  /-- `log_cap` is a power of two, and an `int` can hold it -/
  two_pow : ∃ k ≤ 30, logCap = 2 ^ k
  cap : kvs.logCap = logCap
  logMask : kvs.logMask = kvs.logCap - 1
  micaOpSize : L.micaOpSize = L.size
  aligned : 8 ∣ L.size

namespace LogDims

theorem cap_lt (hd : LogDims L logCap kvs) : kvs.logCap < 2 ^ 31 := by
  obtain ⟨k, hk, hcap⟩ := hd.two_pow
  rw [hd.cap, hcap]
  exact Nat.pow_lt_pow_right (by decide) (by omega)

/-- A place inside the log is its own physical place. -/
theorem and_mask (hd : LogDims L logCap kvs) {x : Nat} (hx : x < kvs.logCap) :
    x &&& kvs.logMask = x := by
  obtain ⟨k, -, hcap⟩ := hd.two_pow
  rw [hd.logMask, hd.cap, hcap, Nat.and_two_pow_sub_one_eq_mod]
  rw [hd.cap, hcap] at hx
  exact Nat.mod_eq_of_lt hx

end LogDims

theorem Stored.bucket_lt (hs : Stored L kvs ops) (key : MicaKey) : kvs.bucket key < kvs.numBkts := by
  obtain ⟨hmask, hpos⟩ := hs.mask
  unfold MicaKv.bucket
  have hle : key.bkt &&& kvs.bktMask ≤ kvs.bktMask := Nat.and_le_right
  omega

/-! ## Initialization -/

theorem isPowerOf2_pos {x : Nat} (h : isPowerOf2 x = true) : 0 < x := by
  unfold isPowerOf2 at h
  rw [List.any_eq_true] at h
  obtain ⟨i, -, hi⟩ := h
  rw [beq_iff_eq] at hi
  rw [hi]
  exact Nat.two_pow_pos i

/-- A power of two that `hrd_malloc_socket` accepts as a size fits an `int`. -/
theorem hrdMallocSocket_two_pow {k : Nat} (h : hrdMallocSocket (toInt (2 ^ k)) = .ok ()) :
    k ≤ 30 := by
  by_contra hk
  have hneg : ¬ (0 : Int) < toInt (2 ^ k) := by
    by_cases h31 : k = 31
    · subst h31
      decide
    · have hmod : 2 ^ k % 2 ^ 32 = 0 :=
        Nat.mod_eq_zero_of_dvd (Nat.pow_dvd_pow 2 (by omega))
      unfold toInt
      rw [hmod]
      decide
  unfold hrdMallocSocket at h
  rw [if_neg hneg] at h
  nomatch h

/-- The loops of `mica_init` over the index: no slot is in use. -/
theorem clearIndex_inUse {index index' : Nat → Nat → MicaSlot} {numBkts : Nat}
    (h : forLoop 31 numBkts (fun index i =>
      forPure 31 8 (fun index j => clearInUse index i j) index) index = .ok index') :
    ∀ b < numBkts, ∀ j < 8, (index' b j).inUse = false := by
  obtain ⟨-, hfold⟩ := forLoop_eq_ok.mp h
  refine foldlM_range_rule (P := fun n (index : Nat → Nat → MicaSlot) =>
    ∀ b < n, ∀ j < 8, (index b j).inUse = false) numBkts (fun b hb => absurd hb (by omega)) ?_ hfold
  intro i index₁ index₂ hi ih hbody b hb j hj
  have hrow : (∀ j < 8, (index₂ i j).inUse = false) ∧
      ∀ b, b ≠ i → index₂ b = index₁ b := by
    refine forPure_rule (fun n (index : Nat → Nat → MicaSlot) =>
      (∀ j < n, (index i j).inUse = false) ∧ ∀ b, b ≠ i → index b = index₁ b) hbody
      ⟨fun j hj => absurd hj (by omega), fun _ _ => rfl⟩ ?_
    intro j index hj ih
    constructor
    · intro j' hj'
      unfold clearInUse
      rw [Function.update_self]
      by_cases hjj : j' = j
      · subst hjj
        rw [Function.update_self]
      · rw [Function.update_of_ne hjj]
        exact ih.1 j' (by omega)
    · intro b hb
      unfold clearInUse
      rw [Function.update_of_ne hb]
      exact ih.2 b hb
  by_cases hbi : b = i
  · subst hbi
    exact hrow.1 j hj
  · rw [hrow.2 b hbi]
    exact ih b (by omega) j hj

/-- **After `mica_init`** the store is empty. -/
theorem micaInit_stored {mem : RawMemory} {nodeId : Int} {numBkts k : Nat}
    (hsize : L.micaOpSize = L.size) (hcap : logCap = 2 ^ k) (hroom : L.micaOpSize + 32 < logCap)
    (h : micaInit L mem nodeId numBkts logCap = .ok kvs) :
    Stored L kvs [] ∧ LogDims L logCap kvs := by
  unfold micaInit at h
  by_cases h64 : L.size % 64 = 0
  case neg =>
    rw [if_pos h64] at h
    nomatch h
  by_cases hnode : nodeId ≠ 0 ∧ nodeId ≠ 1
  case pos =>
    rw [if_neg (not_not_intro h64), if_pos hnode] at h
    nomatch h
  by_cases hbkts : isPowerOf2 numBkts = false ∨ 16777216 < numBkts
  case pos =>
    rw [if_neg (not_not_intro h64), if_neg hnode, if_pos hbkts] at h
    nomatch h
  rw [if_neg (not_not_intro h64), if_neg hnode, if_neg hbkts] at h
  obtain ⟨⟨⟩, -, h⟩ := bind_eq_ok.mp h
  obtain ⟨index, hindex, h⟩ := bind_eq_ok.mp h
  obtain ⟨⟨⟩, hmalloc, h⟩ := bind_eq_ok.mp h
  cases h
  have hfree := clearIndex_inUse hindex
  have hpos : 0 < numBkts := by
    apply isPowerOf2_pos
    by_contra hpow
    exact hbkts (Or.inl (by simpa using hpow))
  constructor
  · refine ⟨(Nat.zero_mul _).symm, ?_, ⟨rfl, hpos⟩, fun i hi => absurd hi (Nat.not_lt_zero i),
      fun i hi => absurd hi (Nat.not_lt_zero i), ?_, ?_⟩
    · show 0 + (L.size + 32) < logCap
      omega
    · intro b hb j hj hin
      exact absurd ((hfree b hb j hj).symm.trans hin) (by decide)
    · intro b hb j hj j' hj' hin
      exact absurd ((hfree b hb j hj).symm.trans hin) (by decide)
  · refine ⟨⟨k, ?_, hcap⟩, rfl, rfl, hsize, by omega⟩
    rw [hcap] at hmalloc
    exact hrdMallocSocket_two_pow hmalloc

/-! ## One insertion -/

/-- The slot `mica_insert_one` chooses is free, and no slot in use has the tag. -/
theorem slotToUse_spec {bkt tag slot : Nat} (h : kvs.slotToUse bkt tag = .ok (some slot)) :
    slot < 8 ∧ (kvs.htIndex bkt slot).inUse = false ∧
      ∀ j < 8, (kvs.htIndex bkt j).tag = tag → (kvs.htIndex bkt j).inUse = false := by
  obtain ⟨-, hfold⟩ := forLoop_eq_ok.mp h
  have hP : (∀ slot', some slot = some slot' →
      slot' < 8 ∧ (kvs.htIndex bkt slot').inUse = false) ∧
      ∀ j < 8, (kvs.htIndex bkt j).tag = tag → (kvs.htIndex bkt j).inUse = false := by
    refine foldlM_range_rule (P := fun n (s : Option Nat) =>
      (∀ slot', s = some slot' → slot' < n ∧ (kvs.htIndex bkt slot').inUse = false) ∧
      ∀ j < n, (kvs.htIndex bkt j).tag = tag → (kvs.htIndex bkt j).inUse = false) 8
      ⟨fun _ h => (by nomatch h), fun j hj => absurd hj (by omega)⟩ ?_ hfold
    rintro i s s' hi ⟨hs, htag⟩ hbody
    split at hbody
    · split at hbody
      · nomatch hbody
      · rename_i hfree
        cases hbody
        have hfree' : (kvs.htIndex bkt i).inUse = false := by simpa using hfree
        constructor
        · intro slot' h'
          cases h'
          exact ⟨by omega, hfree'⟩
        · intro j hj hjt
          rcases Nat.lt_succ_iff_lt_or_eq.mp hj with hj | rfl
          · exact htag j hj hjt
          · exact hfree'
    · rename_i hno
      cases hbody
      constructor
      · intro slot' h'
        obtain ⟨hlt, hfree⟩ := hs slot' h'
        exact ⟨by omega, hfree⟩
      · intro j hj hjt
        rcases Nat.lt_succ_iff_lt_or_eq.mp hj with hj | rfl
        · exact htag j hj hjt
        · exact absurd (Or.inl hjt) hno
  obtain ⟨hslot, htag⟩ := hP
  obtain ⟨hlt, hfree⟩ := hslot slot rfl
  exact ⟨hlt, hfree, htag⟩

/-- What an insertion that is not stopped does. -/
theorem micaInsertOne_eq_ok (h : micaInsertOne L kvs op = .ok kvs') :
    ∃ slot, kvs.slotToUse (kvs.bucket op.key) op.key.tag = .ok (some slot) ∧
      u64 (L.size + 8) < sub64 (2 ^ micaLogBits) kvs.logHead ∧
      L.micaOpSize + 32 < sub64 kvs.logCap (kvs.advanceHead L.size) ∧
      kvs' = { kvs.setSlot (kvs.bucket op.key) slot
          ⟨true, op.key.tag % 2 ^ 23, kvs.logHead % 2 ^ micaLogBits⟩ with
        htLog := writeAt kvs.htLog (kvs.logHead &&& kvs.logMask) op.1
        logHead := kvs.advanceHead L.size
        numInsertOp := kvs.numInsertOp + 1 } := by
  unfold micaInsertOne at h
  obtain ⟨s, hslot, h⟩ := bind_eq_ok.mp h
  cases s with
  | none => nomatch h
  | some slot =>
    refine ⟨slot, hslot, ?_⟩
    dsimp only at h
    split at h
    · rename_i hvirtual
      split at h
      · nomatch h
      · rename_i hroom
        cases h
        exact ⟨hvirtual, Nat.not_le.mp hroom, rfl⟩
    · nomatch h

theorem setSlot_self (b j : Nat) (new : MicaSlot) : (kvs.setSlot b j new).htIndex b j = new := by
  show Function.update kvs.htIndex b (Function.update (kvs.htIndex b) j new) b j = new
  rw [Function.update_self, Function.update_self]

theorem setSlot_of_ne {b b' j j' : Nat} {new : MicaSlot} (h : ¬ (b' = b ∧ j' = j)) :
    (kvs.setSlot b j new).htIndex b' j' = kvs.htIndex b' j' := by
  show Function.update kvs.htIndex b (Function.update (kvs.htIndex b) j new) b' j' = _
  by_cases hb : b' = b
  · subst hb
    rw [Function.update_self, Function.update_of_ne (fun hj => h ⟨rfl, hj⟩)]
  · rw [Function.update_of_ne hb]

/-- An op of the longer list is an old one or the new one. -/
theorem lt_or_eq_of_concat {i : Nat} (hi : i < (ops ++ [op]).length) :
    (∃ hi' : i < ops.length, (ops ++ [op])[i] = ops[i]) ∨
      i = ops.length ∧ (ops ++ [op])[i] = op := by
  rcases Nat.lt_or_ge i ops.length with h | h
  · exact Or.inl ⟨h, List.getElem_append_left h⟩
  · have hlen : i = ops.length := by
      rw [List.length_append, List.length_singleton] at hi
      omega
    subst hlen
    exact Or.inr ⟨rfl, by simp⟩

/-- An insertion that is not stopped: the entry is appended, and one free slot of the bucket now
    points to it, the only one with its tag. -/
structure Inserted (L : OpLayout) (kvs : MicaKv) (op : MicaOp L) (slot : Nat) (kvs' : MicaKv) :
    Prop where
  slot_lt : slot < 8
  free : (kvs.htIndex (kvs.bucket op.key) slot).inUse = false
  fresh : ∀ j < 8, (kvs.htIndex (kvs.bucket op.key) j).inUse = true →
    (kvs.htIndex (kvs.bucket op.key) j).tag ≠ op.key.tag
  self : kvs'.htIndex (kvs.bucket op.key) slot = ⟨true, op.key.tag, kvs.logHead⟩
  others : ∀ b j, ¬ (b = kvs.bucket op.key ∧ j = slot) → kvs'.htIndex b j = kvs.htIndex b j
  log : kvs'.htLog = writeAt kvs.htLog kvs.logHead op.1
  head : kvs'.logHead = kvs.logHead + L.size
  room : kvs'.logHead + (L.size + 32) < kvs.logCap
  numBkts : kvs'.numBkts = kvs.numBkts
  bktMask : kvs'.bktMask = kvs.bktMask
  logCap : kvs'.logCap = kvs.logCap
  logMask : kvs'.logMask = kvs.logMask

theorem Stored.inserted (hs : Stored L kvs ops) (hd : LogDims L logCap kvs)
    (h : micaInsertOne L kvs op = .ok kvs') : ∃ slot, Inserted L kvs op slot kvs' := by
  obtain ⟨slot, hslot, -, hroom, rfl⟩ := micaInsertOne_eq_ok h
  obtain ⟨hslot8, hfree, htag⟩ := slotToUse_spec hslot
  have hcap := hd.cap_lt
  have hroom₀ := hs.room
  -- the place of the entry is its virtual place, and the head moves to the next one
  have hplace : kvs.logHead &&& kvs.logMask = kvs.logHead := hd.and_mask (by omega)
  have hoffset : kvs.logHead % 2 ^ micaLogBits = kvs.logHead := by
    apply Nat.mod_eq_of_lt
    unfold micaLogBits
    omega
  have hhead : kvs.advanceHead L.size = kvs.logHead + L.size := by
    unfold MicaKv.advanceHead
    have hdvd : 8 ∣ kvs.logHead + L.size := by
      rw [hs.head]
      exact Nat.dvd_add (Nat.dvd_mul_left_of_dvd hd.aligned _) hd.aligned
    have hsum : u64 (kvs.logHead + L.size) = kvs.logHead + L.size := u64_of_lt (by omega)
    rw [hsum, u64_of_lt (by omega)]
    exact and_not_seven (by omega) hdvd
  rw [hhead, sub64_of_le (by omega) (by omega), hd.micaOpSize] at hroom
  rw [hplace, hoffset, hhead, op.tag_mod]
  refine ⟨slot, hslot8, hfree, ?_, setSlot_self .., fun b j hne => setSlot_of_ne hne, rfl, rfl, ?_,
    rfl, rfl, rfl, rfl⟩
  · intro j hj hin heq
    exact absurd ((htag j hj heq).symm.trans hin) (by decide)
  · show kvs.logHead + L.size + (L.size + 32) < kvs.logCap
    omega

namespace Inserted

variable {slot : Nat}

theorem bucket (hi : Inserted L kvs op slot kvs') (key : MicaKey) :
    kvs'.bucket key = kvs.bucket key := by
  unfold MicaKv.bucket
  rw [hi.bktMask]

/-- The chosen slot is the only one of its bucket with the tag. -/
theorem eq_slot (hi : Inserted L kvs op slot kvs') {j : Nat} (hj : j < 8)
    (hin : (kvs'.htIndex (kvs.bucket op.key) j).inUse = true)
    (htag : (kvs'.htIndex (kvs.bucket op.key) j).tag = op.key.tag) : j = slot := by
  by_contra hne
  have hold := hi.others (kvs.bucket op.key) j (fun h => hne h.2)
  rw [hold] at hin htag
  exact hi.fresh j hj hin htag

theorem entries (hi : Inserted L kvs op slot kvs') (hs : Stored L kvs ops) (i : Nat)
    (hlt : i < (ops ++ [op]).length) :
    readAt kvs'.htLog (i * L.size) L.size = (ops ++ [op])[i].1 := by
  rw [hi.log]
  rcases lt_or_eq_of_concat hlt with ⟨hlt', hop⟩ | ⟨rfl, hop⟩
  · have hbelow : i * L.size + L.size ≤ kvs.logHead := by
      rw [hs.head]
      exact entry_end_le hlt' _
    rw [hop, readAt_writeAt_disjoint (Or.inl hbelow)]
    exact hs.entries i hlt'
  · have hself := readAt_writeAt_self kvs.htLog kvs.logHead op.1
    rw [op.2] at hself
    rw [hop, ← hs.head]
    exact hself

theorem placed (hi : Inserted L kvs op slot kvs') (hs : Stored L kvs ops) (i : Nat)
    (hlt : i < (ops ++ [op]).length) : ∃ j < 8, kvs'.htIndex (kvs'.bucket (ops ++ [op])[i].key) j =
      ⟨true, (ops ++ [op])[i].key.tag, i * L.size⟩ := by
  rw [hi.bucket]
  rcases lt_or_eq_of_concat hlt with ⟨hlt', hop⟩ | ⟨rfl, hop⟩
  · rw [hop]
    obtain ⟨j, hj, hplaced⟩ := hs.placed i hlt'
    refine ⟨j, hj, (hi.others _ _ ?_).trans hplaced⟩
    -- the slot of an entry is in use, the chosen slot is not
    rintro ⟨hbkt, rfl⟩
    have hfree := hi.free
    rw [← hbkt, hplaced] at hfree
    nomatch hfree
  · rw [hop, ← hs.head]
    exact ⟨slot, hi.slot_lt, hi.self⟩

theorem used (hi : Inserted L kvs op slot kvs') (hs : Stored L kvs ops) (b : Nat)
    (hb : b < kvs'.numBkts) (j : Nat) (hj : j < 8) (hin : (kvs'.htIndex b j).inUse = true) :
    ∃ i, ∃ hlt : i < (ops ++ [op]).length, b = kvs'.bucket (ops ++ [op])[i].key ∧
      kvs'.htIndex b j = ⟨true, (ops ++ [op])[i].key.tag, i * L.size⟩ := by
  by_cases hne : b = kvs.bucket op.key ∧ j = slot
  · obtain ⟨rfl, rfl⟩ := hne
    refine ⟨ops.length, by simp, ?_, ?_⟩
    · rw [List.getElem_concat_length rfl, hi.bucket]
    · rw [List.getElem_concat_length rfl, hi.self, hs.head]
  · have hold := hi.others b j hne
    rw [hold] at hin ⊢
    obtain ⟨i, hlt, hbkt, hplaced⟩ := hs.used b (hi.numBkts ▸ hb) j hj hin
    refine ⟨i, by rw [List.length_append]; omega, ?_, ?_⟩
    · rw [List.getElem_append_left hlt, hi.bucket]
      exact hbkt
    · rw [List.getElem_append_left hlt]
      exact hplaced

theorem distinct (hi : Inserted L kvs op slot kvs') (hs : Stored L kvs ops) (b : Nat)
    (hb : b < kvs'.numBkts) (j : Nat) (hj : j < 8) (j' : Nat) (hj' : j' < 8)
    (hin : (kvs'.htIndex b j).inUse = true) (hin' : (kvs'.htIndex b j').inUse = true)
    (heq : (kvs'.htIndex b j).tag = (kvs'.htIndex b j').tag) : j = j' := by
  by_cases hne : b = kvs.bucket op.key ∧ j = slot
  · obtain ⟨rfl, rfl⟩ := hne
    exact (hi.eq_slot hj' hin' (heq.symm.trans (congrArg MicaSlot.tag hi.self))).symm
  · by_cases hne' : b = kvs.bucket op.key ∧ j' = slot
    · obtain ⟨rfl, rfl⟩ := hne'
      exact hi.eq_slot hj hin (heq.trans (congrArg MicaSlot.tag hi.self))
    · rw [hi.others b j hne] at hin heq
      rw [hi.others b j' hne'] at hin' heq
      exact hs.distinct b (hi.numBkts ▸ hb) j hj j' hj' hin hin' heq

end Inserted

/-- **One insertion** adds an op to the store. -/
theorem Stored.insert (hs : Stored L kvs ops) (hd : LogDims L logCap kvs)
    (h : micaInsertOne L kvs op = .ok kvs') : Stored L kvs' (ops ++ [op]) ∧ LogDims L logCap kvs' := by
  obtain ⟨slot, hi⟩ := hs.inserted hd h
  constructor
  · refine ⟨?_, ?_, ?_, hi.entries hs, hi.placed hs, hi.used hs, hi.distinct hs⟩
    · rw [hi.head, hs.head, List.length_append, List.length_singleton, Nat.succ_mul]
    · rw [hi.logCap]
      exact hi.room
    · rw [hi.bktMask, hi.numBkts]
      exact hs.mask
  · refine ⟨hd.two_pow, hi.logCap.trans hd.cap, ?_, hd.micaOpSize, hd.aligned⟩
    · rw [hi.logMask, hi.logCap]
      exact hd.logMask

/-- **A sequence of insertions** that is not stopped. -/
theorem Stored.inserts {news : List (MicaOp L)} (hs : Stored L kvs ops) (hd : LogDims L logCap kvs)
    (h : news.foldlM (micaInsertOne L) kvs = .ok kvs') :
    Stored L kvs' (ops ++ news) ∧ LogDims L logCap kvs' := by
  induction news generalizing kvs ops with
  | nil =>
    cases h
    rw [List.append_nil]
    exact ⟨hs, hd⟩
  | cons op news ih =>
    rw [List.foldlM_cons] at h
    obtain ⟨kvs₁, hop, h⟩ := bind_eq_ok.mp h
    obtain ⟨hs₁, hd₁⟩ := hs.insert hd hop
    rw [List.append_cons]
    exact ih hs₁ hd₁ h

/-! ## Looking up -/

/-- A look-up does what it would do alone, wherever the batch keeps its state. -/
theorem locateOneKvPair_kvPtr (kvs : MicaKv) (i : Nat) (key : MicaKey) (l : Located)
    (hbkt : l.bktPtr i = kvs.bucket key) (htag : l.tag i = key.tag) (hptr : l.kvPtr i = none) :
    (kvs.locateOneKvPair i l).kvPtr i = kvs.locate key := by
  unfold MicaKv.locate
  rw [MicaKv.locateOneKvPair_kvPtr_self, MicaKv.locateOneKvPair_kvPtr_self, hbkt, htag, hptr,
    MicaKv.locateOneBucket_bktPtr_self, MicaKv.locateOneBucket_tag_self,
    MicaKv.locateOneBucket_kvPtr_self]

/-- One look-up, wherever its state is kept. -/
theorem locateOne (kvs : MicaKv) (i : Nat) (key : MicaKey) (l : Located) :
    (kvs.locateOneKvPair i (kvs.locateOneBucket i key l)).kvPtr i = kvs.locate key :=
  locateOneKvPair_kvPtr kvs i key _ (MicaKv.locateOneBucket_bktPtr_self ..)
    (MicaKv.locateOneBucket_tag_self ..) (MicaKv.locateOneBucket_kvPtr_self ..)

/-- **A key that was inserted is found**, at the place of its entry. -/
theorem Stored.locate (hs : Stored L kvs ops) (hd : LogDims L logCap kvs) (i : Nat)
    (hi : i < ops.length) : kvs.locate ops[i].key = some (i * L.size) := by
  obtain ⟨j, hj, hplaced⟩ := hs.placed i hi
  have hbkt := hs.bucket_lt ops[i].key
  unfold MicaKv.locate
  rw [MicaKv.locateOneKvPair_kvPtr_self, MicaKv.locateOneBucket_bktPtr_self,
    MicaKv.locateOneBucket_tag_self]
  split
  · rename_i hnone
    have hno := List.find?_eq_none.mp hnone j (List.mem_range.mpr hj)
    rw [hplaced] at hno
    simp at hno
  · rename_i j' hsome
    -- the first slot that matches is the slot of the entry, since no tag occurs twice
    have hj' : j' < 8 := List.mem_range.mp (List.mem_of_find?_eq_some hsome)
    have hmatch := List.find?_some hsome
    rw [Bool.and_eq_true, beq_iff_eq] at hmatch
    have hjj : j' = j := by
      apply hs.distinct _ hbkt j' hj' j hj hmatch.1
      · rw [hplaced]
      · rw [hmatch.2, hplaced]
    subst hjj
    rw [hplaced]
    have hend : i * L.size + L.size ≤ kvs.logHead := by
      rw [hs.head]
      exact entry_end_le hi _
    have hroom := hs.room
    have hcap := hd.cap_lt
    unfold MicaKv.entryOf
    dsimp only
    rw [sub64_of_le (by omega) (by omega), if_neg (by omega), hd.and_mask (by omega)]

/-- The buckets of a batch. -/
theorem locateBuckets (kvs : MicaKv) (keys : List MicaKey) (l : Located) :
    ∀ i (hi : i < keys.length),
      (keys.zipIdx.foldl (fun l p => kvs.locateOneBucket p.2 p.1 l) l).bktPtr i =
        kvs.bucket keys[i] ∧
      (keys.zipIdx.foldl (fun l p => kvs.locateOneBucket p.2 p.1 l) l).tag i = keys[i].tag ∧
      (keys.zipIdx.foldl (fun l p => kvs.locateOneBucket p.2 p.1 l) l).kvPtr i = none := by
  induction keys using List.reverseRecOn with
  | nil => intro i hi; exact absurd hi (Nat.not_lt_zero i)
  | append_singleton keys key ih =>
    intro i hi
    rw [List.zipIdx_append, List.foldl_append]
    show (kvs.locateOneBucket (0 + keys.length) key _).bktPtr i = _ ∧
      (kvs.locateOneBucket (0 + keys.length) key _).tag i = _ ∧
      (kvs.locateOneBucket (0 + keys.length) key _).kvPtr i = _
    rw [Nat.zero_add]
    by_cases h : i < keys.length
    · obtain ⟨h₁, h₂, h₃⟩ := MicaKv.locateOneBucket_of_ne kvs keys.length key
        (keys.zipIdx.foldl (fun l p => kvs.locateOneBucket p.2 p.1 l) l) (Nat.ne_of_lt h)
      rw [h₁, h₂, h₃, List.getElem_append_left h]
      exact ih i h
    · have hlen : i = keys.length := by
        rw [List.length_append, List.length_singleton] at hi
        omega
      subst hlen
      rw [List.getElem_concat_length rfl]
      exact ⟨MicaKv.locateOneBucket_bktPtr_self .., MicaKv.locateOneBucket_tag_self ..,
        MicaKv.locateOneBucket_kvPtr_self ..⟩

/-- The first `n` look-ups of a batch are done, from the buckets `l₁` on. -/
structure Batched (kvs : MicaKv) (keys : List MicaKey) (l₁ : Located) (n : Nat) (l : Located) :
    Prop where
  bktPtr : l.bktPtr = l₁.bktPtr
  tag : l.tag = l₁.tag
  found : ∀ i (hi : i < keys.length), i < n → l.kvPtr i = kvs.locate keys[i]
  waiting : ∀ i < keys.length, n ≤ i → l.kvPtr i = none

/-- **A batch finds what the single look-ups find**, in the same store. -/
theorem locateBatch_eq (kvs : MicaKv) {keys : List MicaKey} (hlen : keys.length < 2 ^ 16)
    (l : Located) : ∃ l', kvs.locateBatch keys l = .ok l' ∧
      ∀ i (hi : i < keys.length), l'.kvPtr i = kvs.locate keys[i] := by
  have hbuckets := locateBuckets kvs keys l
  unfold MicaKv.locateBatch MicaKv.locateAllKvPairs forPure
  rw [if_pos hlen]
  generalize keys.zipIdx.foldl (fun l p => kvs.locateOneBucket p.2 p.1 l) l = l₁ at hbuckets ⊢
  refine ⟨_, rfl, ?_⟩
  have hall : Batched kvs keys l₁ keys.length
      ((List.range keys.length).foldl (fun l i => kvs.locateOneKvPair i l) l₁) := by
    refine foldl_range_rule (P := Batched kvs keys l₁) keys.length
      ⟨rfl, rfl, fun i _ h => absurd h (Nat.not_lt_zero i), fun i hi _ => (hbuckets i hi).2.2⟩ ?_
    intro n l hn h
    refine ⟨by rw [MicaKv.locateOneKvPair_bktPtr, h.bktPtr],
      by rw [MicaKv.locateOneKvPair_tag, h.tag], ?_, ?_⟩
    · intro i hi hin
      by_cases hne : i = n
      · subst hne
        apply locateOneKvPair_kvPtr
        · rw [h.bktPtr]
          exact (hbuckets i hi).1
        · rw [h.tag]
          exact (hbuckets i hi).2.1
        · exact h.waiting i hi (Nat.le_refl i)
      · rw [MicaKv.locateOneKvPair_kvPtr_of_ne _ _ _ hne]
        exact h.found i hi (by omega)
    · intro i hi hin
      rw [MicaKv.locateOneKvPair_kvPtr_of_ne _ _ _ (by omega)]
      exact h.waiting i hi (by omega)
  exact fun i hi => hall.found i hi hi

/-! ## The result -/

/-- **Every key that was inserted is found, with the op that was inserted with it.**  The entries lie
    inside the log, no two of them meet, and a batch of look-ups, of any keys, returns what the
    look-ups return one by one. -/
theorem inserted_found {mem : RawMemory} {nodeId : Int} {numBkts k : Nat}
    {kvs₀ : MicaKv} (hsize : L.micaOpSize = L.size) (hcap : logCap = 2 ^ k)
    (hroom : L.micaOpSize + 32 < logCap) (hinit : micaInit L mem nodeId numBkts logCap = .ok kvs₀)
    (hrun : ops.foldlM (micaInsertOne L) kvs₀ = .ok kvs) :
    ∃ place : Nat → Nat,
      (∀ i (hi : i < ops.length),
        (∀ opI l, (kvs.locateOneKvPair opI (kvs.locateOneBucket opI ops[i].key l)).kvPtr opI =
          some (place i)) ∧
        place i + L.size ≤ logCap ∧
        readAt kvs.htLog (place i) L.size = ops[i].1 ∧
        L.keyOf (readAt kvs.htLog (place i) L.size) = ops[i].key) ∧
      (∀ i < ops.length, ∀ j < ops.length, i ≠ j →
        place i + L.size ≤ place j ∨ place j + L.size ≤ place i) ∧
      ∀ (keys : List MicaKey) (l : Located), keys.length < 2 ^ 16 →
        ∃ l', kvs.locateBatch keys l = .ok l' ∧ ∀ i (hi : i < keys.length), ∀ opI l₁,
          l'.kvPtr i =
            (kvs.locateOneKvPair opI (kvs.locateOneBucket opI keys[i] l₁)).kvPtr opI := by
  obtain ⟨hs₀, hd₀⟩ := micaInit_stored hsize hcap hroom hinit
  obtain ⟨hs, hd⟩ := hs₀.inserts hd₀ hrun
  rw [List.nil_append] at hs
  refine ⟨fun i => i * L.size, ?_, ?_, ?_⟩
  · intro i hi
    refine ⟨fun opI l => (locateOne ..).trans (hs.locate hd i hi), ?_, hs.entries i hi, ?_⟩
    · have hend := entry_end_le hi L.size
      have hroom' := hs.room
      rw [hs.head, hd.cap] at hroom'
      show i * L.size + L.size ≤ logCap
      omega
    · rw [hs.entries i hi]
      rfl
  · intro i _ j _ hne
    exact entries_disjoint hne L.size
  · intro keys l hlen
    obtain ⟨l', hl', hptr⟩ := locateBatch_eq kvs hlen l
    exact ⟨l', hl', fun i hi opI l₁ => (hptr i hi).trans (locateOne ..).symm⟩

/-- An op of one cache line, with its key and its key id in front. -/
def oneLine : OpLayout := ⟨64, 64, 0, 8, by decide, by decide, by decide⟩

/-- Two keys in one bucket. -/
def twoOps : List (MicaOp oneLine) :=
  [(MicaOp.zero oneLine).setKey (2 ^ 48 * 5), (MicaOp.zero oneLine).setKey (2 ^ 48 * 6)]

theorem inserted_found_two : ∃ kvs₀ kvs,
    micaInit oneLine ⟨fun _ _ => ⟨true, 5, 9⟩, fun _ => 1⟩ 0 1 256 = .ok kvs₀ ∧
    twoOps.foldlM (micaInsertOne oneLine) kvs₀ = .ok kvs ∧
    ∃ place : Nat → Nat, kvs.locate ⟨0, 0, 5⟩ = some (place 0) ∧
      kvs.locate ⟨0, 0, 6⟩ = some (place 1) ∧
      (place 0 + 64 ≤ place 1 ∨ place 1 + 64 ≤ place 0) ∧
      ∃ l', kvs.locateBatch [⟨0, 0, 6⟩, ⟨0, 0, 7⟩, ⟨0, 0, 5⟩] .blank = .ok l' ∧
        l'.kvPtr 2 = some (place 0) := by
  have hok : (do
      let kvs₀ ← micaInit oneLine ⟨fun _ _ => ⟨true, 5, 9⟩, fun _ => 1⟩ 0 1 256
      twoOps.foldlM (micaInsertOne oneLine) kvs₀).isOk = true := by decide +kernel
  obtain ⟨kvs₀, hinit⟩ : ∃ kvs₀,
      micaInit oneLine ⟨fun _ _ => ⟨true, 5, 9⟩, fun _ => 1⟩ 0 1 256 = .ok kvs₀ := ⟨_, rfl⟩
  rw [hinit] at hok
  cases hrun : twoOps.foldlM (micaInsertOne oneLine) kvs₀ with
  | error e =>
    rw [ok_bind, hrun] at hok
    nomatch hok
  | ok kvs =>
    obtain ⟨place, hfound, hapart, hbatch⟩ :=
      inserted_found (k := 8) rfl rfl (by decide) hinit hrun
    obtain ⟨l', hl', hptr⟩ := hbatch [⟨0, 0, 6⟩, ⟨0, 0, 7⟩, ⟨0, 0, 5⟩] .blank (by decide)
    have hfive := (hfound 0 (by decide)).1
    refine ⟨kvs₀, kvs, hinit, hrun, place, hfive 0 .blank, (hfound 1 (by decide)).1 0 .blank,
      hapart 0 (by decide) 1 (by decide) (by decide), l', hl', ?_⟩
    exact (hptr 2 (by decide) 0 .blank).trans (hfive 0 .blank)

/-- The store after `n` rounds of `custom_mica_populate_fixed_len`. -/
structure Populated (L : OpLayout) (logCap : Nat) (cityHash : Nat → Nat) (n : Nat) (kvs : MicaKv)
    (ops : List (MicaOp L)) : Prop where
  stored : Stored L kvs ops
  dims : LogDims L logCap kvs
  length_eq : ops.length = n
  key : ∀ i (hi : i < ops.length), ops[i].key = .ofHash (cityHash i)
  keyId : ∀ i (hi : i < ops.length), ops[i].keyId = i

theorem Populated.round {cityHash : Nat → Nat} {n : Nat}
    (hp : Populated L logCap cityHash n kvs ops) (hn : n < 2 ^ 32)
    (h : micaInsertOne L kvs ((op.setKey (cityHash n)).setKeyId n) = .ok kvs') :
    Populated L logCap cityHash (n + 1) kvs' (ops ++ [(op.setKey (cityHash n)).setKeyId n]) := by
  obtain ⟨hs, hd⟩ := hp.stored.insert hp.dims h
  refine ⟨hs, hd, by rw [List.length_append, hp.length_eq]; rfl, ?_, ?_⟩
  · intro i hi
    rcases lt_or_eq_of_concat hi with ⟨hlt, heq⟩ | ⟨rfl, heq⟩
    · rw [heq]
      exact hp.key i hlt
    · rw [heq, hp.length_eq]
      exact op.setKeyId_setKey_key ..
  · intro i hi
    rcases lt_or_eq_of_concat hi with ⟨hlt, heq⟩ | ⟨rfl, heq⟩
    · rw [heq]
      exact hp.keyId i hlt
    · rw [heq, hp.length_eq]
      exact MicaOp.setKeyId_keyId _ hn

theorem populate_populated {n : Int} {kvsNumKeys : Nat} {cityHash : Nat → Nat} {kvs₀ : MicaKv}
    (hs₀ : Stored L kvs₀ []) (hd₀ : LogDims L logCap kvs₀)
    (h : customMicaPopulateFixedLen L cityHash kvsNumKeys kvs₀ n = .ok kvs) :
    ∃ ops, Populated L logCap cityHash kvsNumKeys kvs ops := by
  unfold customMicaPopulateFixedLen at h
  by_cases hpos : n ≤ 0
  case pos =>
    rw [if_pos hpos] at h
    nomatch h
  by_cases hfresh : kvs₀.numInsertOp ≠ 0 ∨ kvs₀.numIndexEvictions ≠ 0
  case pos =>
    rw [if_neg hpos, if_pos hfresh] at h
    nomatch h
  rw [if_neg hpos, if_neg hfresh] at h
  obtain ⟨⟨kvs₁, op₁⟩, hloop, h⟩ := bind_eq_ok.mp h
  dsimp only at h
  by_cases hnum : (kvs₁.numInsertOp : Int) ≠ n
  case pos =>
    rw [if_pos hnum] at h
    nomatch h
  rw [if_neg hnum] at h
  cases h
  obtain ⟨hbound, hfold⟩ := forLoop_eq_ok.mp hloop
  refine foldlM_range_rule (P := fun n (s : MicaKv × MicaOp L) =>
    ∃ ops, Populated L logCap cityHash n s.1 ops) kvsNumKeys
    ⟨[], hs₀, hd₀, rfl, fun i hi => absurd hi (Nat.not_lt_zero i),
      fun i hi => absurd hi (Nat.not_lt_zero i)⟩ ?_ hfold
  rintro i ⟨kvs, op⟩ s' hi ⟨ops, hp⟩ hbody
  obtain ⟨kvs', hins, hbody⟩ := bind_eq_ok.mp hbody
  cases hbody
  exact ⟨_, hp.round (by omega) hins⟩

/-- **The store as it is populated**: each key id is in it, under its hash. -/
theorem populate_found {mem : RawMemory} {nodeId n : Int} {numBkts k kvsNumKeys : Nat}
    {cityHash : Nat → Nat} {kvs₀ : MicaKv} (hsize : L.micaOpSize = L.size) (hcap : logCap = 2 ^ k)
    (hroom : L.micaOpSize + 32 < logCap) (hinit : micaInit L mem nodeId numBkts logCap = .ok kvs₀)
    (hpop : customMicaPopulateFixedLen L cityHash kvsNumKeys kvs₀ n = .ok kvs) :
    ∀ keyId < kvsNumKeys, ∃ place, kvs.locate (.ofHash (cityHash keyId)) = some place ∧
      L.keyOf (readAt kvs.htLog place L.size) = .ofHash (cityHash keyId) ∧
      L.keyIdOf (readAt kvs.htLog place L.size) = keyId := by
  obtain ⟨hs₀, hd₀⟩ := micaInit_stored hsize hcap hroom hinit
  obtain ⟨ops, hp⟩ := populate_populated hs₀ hd₀ hpop
  intro keyId hlt
  rw [← hp.length_eq] at hlt
  have hkey := hp.key keyId hlt
  refine ⟨keyId * L.size, hkey ▸ hp.stored.locate hp.dims keyId hlt, ?_, ?_⟩
  · rw [hp.stored.entries keyId hlt]
    exact hkey
  · rw [hp.stored.entries keyId hlt]
    exact hp.keyId keyId hlt

end Odyssey
