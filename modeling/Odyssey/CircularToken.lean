/-
  THE TOKEN OF THE CIRCULAR TESTS.

  At any time one machine at most has requests to execute that the others could see; the rest of its
  round is its plan (`Plan`).  It has seen all that was written (`SeesAll`), so what it executes is
  as over an atomic store.  When its flag is released, nobody has a plan, and the write to the flag
  carries all (`Free`); the machine behind it is the only one that can find a 1, because the machine
  that finds one resets it, and does not look behind what it wrote itself (`Circle.flags`).

  This is about the store, the views and the plans only; the rings and the clients come later.
-/
import Odyssey.Circular

namespace Odyssey

open Lib

namespace CircularTest

variable {t : CircularTest}

/-! ## Keys -/

/-- The key of a request, as the store has it. -/
def hash (t : CircularTest) (keyId : Nat) : MicaKey := .ofHash (t.conf.cityHash keyId)

theorem Fits.key_lt (h : t.Fits) {i : Nat} (hi : i < 5) (hm : 0 < t.machineNum) :
    t.key i = t.numOfRmwKeys + i ∧ t.key i < t.conf.kvsNumKeys := by
  have hkeys := h.keys
  have hfew := h.few
  unfold key keyOffset
  rw [u32_of_lt (show t.numOfRmwKeys < 2 ^ 32 by omega),
    u32_of_lt (show t.numOfRmwKeys + i < 2 ^ 32 by omega)]
  omega

theorem Fits.keyFlag_lt (h : t.Fits) {m : Nat} (hm : m < t.machineNum) :
    t.keyFlag m = 2 * t.numOfRmwKeys + t.machineNum * 100 + m ∧
      t.keyFlag m < t.conf.kvsNumKeys := by
  have hkeys := h.keys
  have hfew := h.few
  unfold keyFlag flagOffset
  rw [u32_of_lt (show 2 * t.numOfRmwKeys + t.machineNum * 100 < 2 ^ 32 by omega),
    u32_of_lt (show 2 * t.numOfRmwKeys + t.machineNum * 100 + m < 2 ^ 32 by omega)]
  omega

/-- The data have different keys. -/
theorem Fits.hash_key (h : t.Fits) (hm : 0 < t.machineNum) {i j : Nat} (hi : i < 5) (hj : j < 5) :
    t.hash (t.key i) = t.hash (t.key j) ↔ i = j := by
  obtain ⟨hi', hlt⟩ := h.key_lt hi hm
  obtain ⟨hj', hlt'⟩ := h.key_lt hj hm
  constructor
  · intro heq
    have hkey := h.apart _ hlt _ hlt' heq
    omega
  · rintro rfl
    rfl

/-- So have the flags. -/
theorem Fits.hash_flag (h : t.Fits) {m m' : Nat} (hm : m < t.machineNum) (hm' : m' < t.machineNum) :
    t.hash (t.keyFlag m) = t.hash (t.keyFlag m') ↔ m = m' := by
  obtain ⟨heq, hlt⟩ := h.keyFlag_lt hm
  obtain ⟨heq', hlt'⟩ := h.keyFlag_lt hm'
  constructor
  · intro hc
    have hkey := h.apart _ hlt _ hlt' hc
    omega
  · rintro rfl
    rfl

/-- And no flag is among the data. -/
theorem Fits.hash_ne (h : t.Fits) {i m : Nat} (hi : i < 5) (hm : m < t.machineNum) :
    t.hash (t.key i) ≠ t.hash (t.keyFlag m) := by
  intro hc
  obtain ⟨hkey, hlt⟩ := h.key_lt hi (by omega)
  obtain ⟨hflag, hlt'⟩ := h.keyFlag_lt hm
  have heq := h.apart _ hlt _ hlt' hc
  omega

/-- The machine before. -/
theorem Fits.prev_eq (h : t.Fits) {m : Nat} (hm : m < t.machineNum) :
    t.prevMachineId m = (t.machineNum + m - 1) % t.machineNum ∧
      t.prevMachineId m < t.machineNum := by
  have hlt := Nat.mod_lt (t.machineNum + m - 1) (show 0 < t.machineNum by omega)
  have hsmall := h.machines
  unfold prevMachineId
  rw [u8_of_lt (by omega)]
  exact ⟨rfl, hlt⟩

/-- The machine behind the one before. -/
theorem Fits.next_prev (h : t.Fits) {m : Nat} (hm : m < t.machineNum) :
    (t.prevMachineId m + 1) % t.machineNum = m := by
  rw [(h.prev_eq hm).1, Nat.mod_add_mod]
  have hsum : t.machineNum + m - 1 + 1 = m + t.machineNum := by omega
  rw [hsum, Nat.add_mod_right, Nat.mod_eq_of_lt hm]

theorem Fits.prev_inj (h : t.Fits) {m m' : Nat} (hm : m < t.machineNum) (hm' : m' < t.machineNum)
    (heq : t.prevMachineId m = t.prevMachineId m') : m = m' := by
  rw [← h.next_prev hm, heq, h.next_prev hm']

/-! ## Plans -/

/-- What is written last to every key. -/
abbrev Bytes := MicaKey → UInt8

/-- Machine `m` was the last to write the data, and its flag alone is 1. -/
structure Released (t : CircularTest) (m : Nat) (cur : Bytes) : Prop where
  data : ∀ i < 5, cur (t.hash (t.key i)) = byteOf m i
  flag : ∀ f < t.machineNum, cur (t.hash (t.keyFlag f)) = 1 ↔ f = m

/-- **A plan of machine `m`**: what it reads is what the machine before has written; it writes the
    data, resets the flag of the machine before, and releases its own in the end. -/
def Plan (t : CircularTest) (m : Nat) : List CircularReq → Bytes → Prop
  | .read keyId buffer :: rest, cur => (∃ i < 5, keyId = t.key i ∧ buffer = t.buffer i ∧
      cur (t.hash keyId) = byteOf (t.prevMachineId m) i) ∧ Plan t m rest cur
  | .write keyId value :: rest, cur => ((∃ i < 5, keyId = t.key i) ∨
      (keyId = t.keyFlag (t.prevMachineId m) ∧ value = 0)) ∧
        Plan t m rest (Function.update cur (t.hash keyId) value)
  | [.release keyId value], cur => keyId = t.keyFlag m ∧ value = 1 ∧ cur (t.hash keyId) ≠ 1 ∧
      Released t m (Function.update cur (t.hash keyId) value)
  | _, _ => False

/-- What the data are while they are written. -/
def written (t : CircularTest) (m n : Nat) (cur : Bytes) : Bytes :=
  ((List.range n).map fun i => (t.key i, byteOf m i)).foldl
    (fun cur p => Function.update cur (t.hash p.1) p.2) cur

theorem written_succ (m n : Nat) (cur : Bytes) :
    t.written m (n + 1) cur =
      Function.update (t.written m n cur) (t.hash (t.key n)) (byteOf m n) := by
  unfold written
  rw [List.range_succ, List.map_append, List.foldl_append]
  rfl

/-- The plan to write the data. -/
theorem plan_writes {m : Nat} {rest : List CircularReq} {cur : Bytes}
    (h : t.Plan m rest (t.written m 5 cur)) : t.Plan m (t.writes m ++ rest) cur := by
  show t.Plan m (.write (t.key 0) _ :: .write (t.key 1) _ :: .write (t.key 2) _ ::
    .write (t.key 3) _ :: .write (t.key 4) _ :: rest) cur
  refine ⟨Or.inl ⟨0, by decide, rfl⟩, Or.inl ⟨1, by decide, rfl⟩, Or.inl ⟨2, by decide, rfl⟩,
    Or.inl ⟨3, by decide, rfl⟩, Or.inl ⟨4, by decide, rfl⟩, ?_⟩
  exact h

/-- What was written. -/
theorem Fits.written_key (h : t.Fits) (hpos : 0 < t.machineNum) (m : Nat) (cur : Bytes) {n i : Nat}
    (hn : n ≤ 5) (hi : i < n) : t.written m n cur (t.hash (t.key i)) = byteOf m i := by
  induction n with
  | zero => exact absurd hi (Nat.not_lt_zero i)
  | succ n ih =>
    rw [written_succ]
    by_cases heq : i = n
    · rw [heq, Function.update_self]
    · rw [Function.update_of_ne fun hc => heq ((h.hash_key hpos (by omega) (by omega)).mp hc)]
      exact ih (by omega) (by omega)

theorem Fits.written_flag (h : t.Fits) (m : Nat) (cur : Bytes) {n f : Nat} (hn : n ≤ 5)
    (hf : f < t.machineNum) :
    t.written m n cur (t.hash (t.keyFlag f)) = cur (t.hash (t.keyFlag f)) := by
  induction n with
  | zero => rfl
  | succ n ih =>
    rw [written_succ, Function.update_of_ne fun hc => h.hash_ne (by omega) hf hc.symm]
    exact ih (by omega)

/-- **The plan of a round**, when the machine before has released its flag. -/
theorem Fits.plan_round (h : t.Fits) {m : Nat} (hm : m < t.machineNum) {cur : Bytes}
    (hcur : t.Released (t.prevMachineId m) cur) : t.Plan m (t.round m) cur := by
  have hprev := (h.prev_eq hm).2
  have hpos : 0 < t.machineNum := by omega
  have hread : ∀ i < 5, ∃ j < 5, t.key i = t.key j ∧ t.buffer i = t.buffer j ∧
      cur (t.hash (t.key i)) = byteOf (t.prevMachineId m) j := fun i hi =>
    ⟨i, hi, rfl, rfl, hcur.data i hi⟩
  show t.Plan m (.read (t.key 0) _ :: .read (t.key 1) _ :: .read (t.key 2) _ ::
    .read (t.key 3) _ :: .read (t.key 4) _ :: (t.writes m ++ [_, _])) cur
  refine ⟨hread 0 (by decide), hread 1 (by decide), hread 2 (by decide), hread 3 (by decide),
    hread 4 (by decide), plan_writes ⟨Or.inr ⟨rfl, rfl⟩, rfl, rfl, ?_, ?_, ?_⟩⟩
  · by_cases hself : m = t.prevMachineId m
    · rw [← hself, Function.update_self]
      decide
    · rw [Function.update_of_ne fun hc => hself ((h.hash_flag hm hprev).mp hc),
        h.written_flag m cur (Nat.le_refl 5) hm]
      exact fun hc => hself ((hcur.flag m hm).mp hc)
  · intro i hi
    rw [Function.update_of_ne (h.hash_ne hi hm), Function.update_of_ne (h.hash_ne hi hprev)]
    exact h.written_key hpos m cur (Nat.le_refl 5) hi
  · intro f hf
    by_cases hmine : f = m
    · rw [hmine, Function.update_self]
      exact ⟨fun _ => rfl, fun _ => rfl⟩
    · rw [Function.update_of_ne fun hc => hmine ((h.hash_flag hf hm).mp hc)]
      by_cases htheirs : f = t.prevMachineId m
      · rw [htheirs, Function.update_self]
        exact ⟨fun hc => absurd hc (by decide), fun hc => absurd (htheirs.trans hc) hmine⟩
      · rw [Function.update_of_ne fun hc => htheirs ((h.hash_flag hf hprev).mp hc),
          h.written_flag m cur (Nat.le_refl 5) hf]
        exact ⟨fun hc => absurd ((hcur.flag f hf).mp hc) htheirs, fun hc => absurd hc hmine⟩

/-- **The plan of the kick-off**, when no flag is 1. -/
theorem Fits.plan_kickOff (h : t.Fits) (hpos : 0 < t.machineNum) {cur : Bytes}
    (hcur : ∀ f < t.machineNum, cur (t.hash (t.keyFlag f)) ≠ 1) :
    t.Plan 0 (t.kickOff 0) cur := by
  show t.Plan 0 (t.writes 0 ++ [_]) cur
  refine plan_writes ⟨rfl, rfl, ?_, ?_, ?_⟩
  · rw [h.written_flag 0 cur (Nat.le_refl 5) hpos]
    exact hcur 0 hpos
  · intro i hi
    rw [Function.update_of_ne (h.hash_ne hi hpos)]
    exact h.written_key hpos 0 cur (Nat.le_refl 5) hi
  · intro f hf
    by_cases hmine : f = 0
    · rw [hmine, Function.update_self]
      exact ⟨fun _ => rfl, fun _ => rfl⟩
    · rw [Function.update_of_ne fun hc => hmine ((h.hash_flag hf hpos).mp hc),
        h.written_flag 0 cur (Nat.le_refl 5) hf]
      exact ⟨fun hc => absurd hc (hcur f hf), fun hc => absurd hc hmine⟩

/-! ## The token -/

/-- What was written last. -/
def cur (s : CircularStore) : Bytes := fun key => (s.last key).value

/-- Machine `m` has a plan, and has seen all; the flag it has found is not reset yet, or is. -/
structure Held (t : CircularTest) (m : Nat) (s : CircularStore) (view : Nat → View MicaKey)
    (pending : Nat → List CircularReq) : Prop where
  lt : m < t.machineNum
  seesAll : s.SeesAll (view m)
  plan : t.Plan m (pending m) (cur s)
  flag : ∀ f < t.machineNum, cur s (t.hash (t.keyFlag f)) = 1 → f = t.prevMachineId m
  others : ∀ m' < t.machineNum, m' ≠ m → pending m' = []

/-- Machine `m` has released its flag, and nobody has found it yet. -/
structure Free (t : CircularTest) (m : Nat) (s : CircularStore)
    (pending : Nat → List CircularReq) : Prop where
  lt : m < t.machineNum
  released : t.Released m (cur s)
  carries : s.SeesAll (s.last (t.hash (t.keyFlag m))).view
  nobody : ∀ m' < t.machineNum, pending m' = []

/-- The flag that a machine looks at. -/
def flagBefore (t : CircularTest) (m : Nat) : MicaKey := t.hash (t.keyFlag (t.prevMachineId m))

/-- **The invariant**, after `n` releases: they go round. -/
structure Circle (t : CircularTest) (n : Nat) (s : CircularStore) (view : Nat → View MicaKey)
    (pending : Nat → List CircularReq) : Prop where
  sound : s.Sound
  known : ∀ m < t.machineNum, s.Known (view m)
  /-- a 1 that a machine can find is the last write to the flag -/
  flags : ∀ m < t.machineNum, ∀ w ∈ s.writes (t.flagBefore m), w.value = 1 →
    view m (t.flagBefore m) ≤ w.ts → w = s.last (t.flagBefore m)
  token : t.Held (n % t.machineNum) s view pending ∨
    ∃ n', n = n' + 1 ∧ t.Free (n' % t.machineNum) s pending

namespace Circle

variable {n : Nat} {s : CircularStore} {view : Nat → View MicaKey}
  {pending : Nat → List CircularReq} {m : Nat}

/-- Only the holder of the token has anything to execute. -/
theorem held (h : Circle t n s view pending) (hm : m < t.machineNum) (hpending : pending m ≠ []) :
    m = n % t.machineNum ∧ t.Held m s view pending := by
  rcases h.token with hheld | ⟨n', -, hfree⟩
  · by_cases heq : m = n % t.machineNum
    · exact ⟨heq, heq ▸ hheld⟩
    · exact absurd (hheld.others m hm heq) hpending
  · exact absurd (hfree.nobody m hm) hpending

/-- The views after a read. -/
theorem known_look (h : Circle t n s view pending) (hm : m < t.machineNum) (key : MicaKey)
    (acquire : Bool) : ∀ m' < t.machineNum, s.choose.Known (Function.update view m
      (ViewStore.viewAfter (view m) key (s.look (view m) key) acquire) m') := by
  intro m' hm'
  by_cases heq : m' = m
  · rw [heq, Function.update_self]
    exact ViewStore.known_viewAfter (h.known m hm) h.sound
      (ViewStore.look_spec (h.known m hm) key).1 acquire
  · rw [Function.update_of_ne heq]
    exact h.known m' hm'

/-- What a machine can find, after a read. -/
theorem flags_look (h : Circle t n s view pending) (m : Nat) (key : MicaKey)
    (w : Write MicaKey UInt8) (acquire : Bool) :
    ∀ m' < t.machineNum, ∀ w' ∈ s.choose.writes (t.flagBefore m'), w'.value = 1 →
      Function.update view m (ViewStore.viewAfter (view m) key w acquire) m'
        (t.flagBefore m') ≤ w'.ts → w' = s.choose.last (t.flagBefore m') := by
  intro m' hm' w' hw' hone hle
  refine h.flags m' hm' w' hw' hone (Nat.le_trans ?_ hle)
  by_cases heq : m' = m
  · rw [heq, Function.update_self]
    exact ViewStore.le_viewAfter ..
  · rw [Function.update_of_ne heq]

/-- **The holder reads** what the machine before has written. -/
theorem read (h : Circle t n s view pending) (hm : m < t.machineNum) {keyId buffer : Nat}
    {rest : List CircularReq} (hpending : pending m = .read keyId buffer :: rest) :
    (∃ i < 5, keyId = t.key i ∧ buffer = t.buffer i ∧
      (s.look (view m) (t.hash keyId)).value = byteOf (t.prevMachineId m) i) ∧
    Circle t n s.choose (Function.update view m (ViewStore.viewAfter (view m) (t.hash keyId)
      (s.look (view m) (t.hash keyId)) false)) (Function.update pending m rest) := by
  obtain ⟨hturn, hheld⟩ := h.held hm (by
    rw [hpending]
    exact List.cons_ne_nil _ _)
  have hplan := hheld.plan
  rw [hpending] at hplan
  obtain ⟨⟨i, hi, hkey, hbuffer, hvalue⟩, hplan⟩ := hplan
  refine ⟨⟨i, hi, hkey, hbuffer, ?_⟩, h.sound, h.known_look hm _ _, h.flags_look m _ _ _,
    Or.inl (hturn ▸ ⟨hm, ?_, ?_, hheld.flag, ?_⟩)⟩
  · rw [ViewStore.look_last hheld.seesAll]
    exact hvalue
  · rw [Function.update_self]
    exact ViewStore.read_seesAll hheld.seesAll h.sound _ _
  · rw [Function.update_self]
    exact hplan
  · intro m' hm' hne
    rw [Function.update_of_ne hne]
    exact hheld.others m' hm' hne

/-- The views after a write. -/
theorem known_write (h : Circle t n s view pending) (hm : m < t.machineNum) (key : MicaKey)
    (value : UInt8) (release : Bool) : ∀ m' < t.machineNum,
      (s.write (view m) key value release).choose.Known
        (Function.update view m ((view m).raise key (s.stamp (view m) key)) m') := by
  intro m' hm'
  by_cases heq : m' = m
  · rw [heq, Function.update_self]
    exact ViewStore.known_raise (h.known m hm)
  · rw [Function.update_of_ne heq]
    exact (h.known m' hm').write

/-- What a machine can find of what was there before a write. -/
theorem flags_old (h : Circle t n s view pending) {m' : Nat} (hm' : m' < t.machineNum)
    {key : MicaKey} {w : Write MicaKey UInt8} (hw : w ∈ s.writes (t.flagBefore m'))
    (hone : w.value = 1) {ts : Nat}
    (hle : Function.update view m ((view m).raise key ts) m' (t.flagBefore m') ≤ w.ts) :
    w = s.last (t.flagBefore m') := by
  refine h.flags m' hm' w hw hone (Nat.le_trans ?_ hle)
  by_cases heq : m' = m
  · rw [heq, Function.update_self]
    exact View.le_raise ..
  · rw [Function.update_of_ne heq]

/-- What was written last, after the holder has written. -/
theorem cur_write {view : View MicaKey} (h : s.SeesAll view) (key : MicaKey) (value : UInt8)
    (release : Bool) :
    cur (s.write view key value release).choose = Function.update (cur s) key value := by
  funext key'
  show ((s.write view key value release).last key').value = _
  by_cases heq : key' = key
  · rw [heq, ViewStore.last_write h, Function.update_self]
    rfl
  · rw [ViewStore.last_write_of_ne heq, Function.update_of_ne heq]
    rfl

/-- **The holder writes** the data, or resets the flag that it has found. -/
theorem write (hf : t.Fits) (h : Circle t n s view pending) (hm : m < t.machineNum)
    {keyId : Nat} {value : UInt8} {rest : List CircularReq}
    (hpending : pending m = .write keyId value :: rest) :
    Circle t n (s.write (view m) (t.hash keyId) value false).choose
      (Function.update view m ((view m).raise (t.hash keyId) (s.stamp (view m) (t.hash keyId))))
      (Function.update pending m rest) := by
  obtain ⟨hturn, hheld⟩ := h.held hm (by
    rw [hpending]
    exact List.cons_ne_nil _ _)
  have hplan := hheld.plan
  rw [hpending] at hplan
  obtain ⟨hkey, hplan⟩ := hplan
  have hcur := cur_write hheld.seesAll (t.hash keyId) value false
  refine ⟨h.sound.write (h.known m hm), h.known_write hm _ _ _, ?_,
    Or.inl (hturn ▸ ⟨hm, ?_, ?_, ?_, ?_⟩)⟩
  · intro m' hm' w hw hone hle
    have hflag : t.flagBefore m' = t.hash keyId → m' = m ∧ value = 0 := by
      intro heq
      have hprev' := (hf.prev_eq hm').2
      rcases hkey with ⟨i, hi, rfl⟩ | ⟨rfl, hzero⟩
      · exact absurd heq.symm (hf.hash_ne hi hprev')
      · exact ⟨hf.prev_inj hm' hm ((hf.hash_flag hprev' (hf.prev_eq hm).2).mp heq), hzero⟩
    rcases ViewStore.mem_writes_write.mp hw with hold | ⟨heq, rfl⟩
    · have hlast := h.flags_old hm' hold hone hle
      by_cases heq : t.flagBefore m' = t.hash keyId
      · -- its own reset is in front of what it found
        obtain ⟨rfl, -⟩ := hflag heq
        rw [Function.update_self, heq, View.raise_self] at hle
        have hlt := ViewStore.lt_stamp (h.known m' hm) (t.hash keyId)
        have hsees := hheld.seesAll (t.hash keyId)
        rw [heq] at hlast
        rw [hlast] at hle
        omega
      · rw [hlast]
        exact (ViewStore.last_write_of_ne heq).symm
    · obtain ⟨-, hzero⟩ := hflag heq
      rw [show (s.fresh (view m) (t.hash keyId) value false).value = value from rfl, hzero] at hone
      exact absurd hone (by decide)
  · rw [Function.update_self]
    exact ViewStore.write_seesAll hheld.seesAll
  · rw [Function.update_self, hcur]
    exact hplan
  · intro f hlt hone
    rw [hcur] at hone
    by_cases heq : t.hash (t.keyFlag f) = t.hash keyId
    · rw [heq, Function.update_self] at hone
      rcases hkey with ⟨i, hi, rfl⟩ | ⟨-, hzero⟩
      · exact absurd heq.symm (hf.hash_ne hi hlt)
      · rw [hzero] at hone
        exact absurd hone (by decide)
    · rw [Function.update_of_ne heq] at hone
      exact hheld.flag f hlt hone
  · intro m' hm' hne
    rw [Function.update_of_ne hne]
    exact hheld.others m' hm' hne

/-- **The holder releases** its flag, last of all. -/
theorem release (h : Circle t n s view pending) (hm : m < t.machineNum)
    {keyId : Nat} {value : UInt8} {rest : List CircularReq}
    (hpending : pending m = .release keyId value :: rest) :
    m = n % t.machineNum ∧
    Circle t (n + 1) (s.write (view m) (t.hash keyId) value true).choose
      (Function.update view m ((view m).raise (t.hash keyId) (s.stamp (view m) (t.hash keyId))))
      (Function.update pending m rest) := by
  obtain ⟨hturn, hheld⟩ := h.held hm (by
    rw [hpending]
    exact List.cons_ne_nil _ _)
  have hplan := hheld.plan
  rw [hpending] at hplan
  cases rest with
  | cons r rest => exact hplan.elim
  | nil =>
    obtain ⟨rfl, rfl, hreset, hreleased⟩ := hplan
    have hcur := cur_write hheld.seesAll (t.hash (t.keyFlag m)) 1 true
    refine ⟨hturn, h.sound.write (h.known m hm), h.known_write hm _ _ _, ?_,
      Or.inr ⟨n, rfl, hturn ▸ ⟨hm, ?_, ?_, ?_⟩⟩⟩
    · intro m' hm' w hw hone hle
      rcases ViewStore.mem_writes_write.mp hw with hold | ⟨heq, rfl⟩
      · have hlast := h.flags_old hm' hold hone hle
        by_cases heq : t.flagBefore m' = t.hash (t.keyFlag m)
        · -- the flag was not 1 before
          rw [heq] at hlast
          rw [hlast] at hone
          exact absurd hone hreset
        · rw [hlast]
          exact (ViewStore.last_write_of_ne heq).symm
      · rw [heq]
        exact (ViewStore.last_write hheld.seesAll).symm
    · rw [hcur]
      exact hreleased
    · exact ViewStore.release_seesAll hheld.seesAll
    · intro m' hm'
      by_cases hne : m' = m
      · rw [hne, Function.update_self]
      · rw [Function.update_of_ne hne]
        exact hheld.others m' hm' hne

/-- **A machine without a plan acquires** the flag of the machine before: if it finds a 1, the token
    is its own. -/
theorem acquire (hf : t.Fits) (h : Circle t n s view pending) (hm : m < t.machineNum)
    (hpending : pending m = []) :
    Circle t n s.choose (Function.update view m (ViewStore.viewAfter (view m) (t.flagBefore m)
        (s.look (view m) (t.flagBefore m)) true))
      (Function.update pending m
        (if (s.look (view m) (t.flagBefore m)).value = 1 then t.round m else [])) := by
  obtain ⟨hmem, hle⟩ := ViewStore.look_spec (h.known m hm) (t.flagBefore m)
  have hprev := (hf.prev_eq hm).2
  refine ⟨h.sound, h.known_look hm _ _, h.flags_look m _ _ _, ?_⟩
  by_cases hone : (s.look (view m) (t.flagBefore m)).value = 1
  · rw [if_pos hone]
    -- what it has found is the last write to the flag
    have hlast := h.flags m hm _ hmem hone hle
    have hflag : cur s (t.flagBefore m) = 1 := by
      rw [hlast] at hone
      exact hone
    rcases h.token with hheld | ⟨n', rfl, hfree⟩
    · have hself := hf.prev_inj hm hheld.lt (hheld.flag _ hprev hflag)
      have hplan := hheld.plan
      rw [← hself, hpending] at hplan
      exact hplan.elim
    · have hbefore := (hfree.released.flag _ hprev).mp hflag
      have hturn : m = (n' + 1) % t.machineNum := by
        rw [← hf.next_prev hm, hbefore, Nat.mod_add_mod]
      have hcarries : s.SeesAll (s.look (view m) (t.flagBefore m)).view := by
        have hall := hfree.carries
        rw [← hbefore] at hall
        rw [hlast]
        exact hall
      left
      rw [← hturn]
      refine ⟨hm, ?_, ?_, ?_, ?_⟩
      · rw [Function.update_self]
        exact ViewStore.acquire_seesAll (h.known m hm) h.sound hmem hcarries
      · rw [Function.update_self]
        exact hf.plan_round hm (hbefore ▸ hfree.released)
      · intro f hlt hc
        rw [hbefore]
        exact (hfree.released.flag f hlt).mp hc
      · intro m' hm' hne
        rw [Function.update_of_ne hne]
        exact hfree.nobody m' hm'
  · rw [if_neg hone]
    have hstay : Function.update pending m [] = pending := by
      rw [← hpending]
      exact Function.update_eq_self m pending
    rw [hstay]
    rcases h.token with hheld | ⟨n', heq, hfree⟩
    · left
      refine ⟨hheld.lt, ?_, hheld.plan, hheld.flag, hheld.others⟩
      by_cases hself : n % t.machineNum = m
      · have hplan := hheld.plan
        rw [hself, hpending] at hplan
        exact hplan.elim
      · rw [Function.update_of_ne hself]
        exact hheld.seesAll
    · exact Or.inr ⟨n', heq, hfree.lt, hfree.released, hfree.carries, hfree.nobody⟩

end Circle

end CircularTest

end Odyssey
