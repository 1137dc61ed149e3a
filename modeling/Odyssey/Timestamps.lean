/-
  TIMESTAMPS, their two layouts, and the seven comparators.

  A timestamp is a Lamport clock, a version with the id of the machine that wrote it.  It is stored
  as a `ts_tuple`, with the machine id first and the version aligned behind it, and travels as a
  `network_ts_tuple`, packed, with the version first.  `TsBytes` are the bytes behind a pointer that
  may be of either type, and a `TsFlag` says of which.

  Six comparators are one text, over arguments of different types (`compareFields`).  They are the
  lexicographic order of the pairs (`Orders`), so they never return `ERROR`, and swapping the
  arguments swaps the answer.

  The seventh, `compare_ts_generic`, decodes by flag.  Both pairs start as what the *first* argument
  holds in the regular layout, and a flag that needs no cast leaves them there; so with
  `flag2 = REGULAR_TS` the second argument is not looked at.  `compare_ts_generic` says exactly when
  the answer is right all the same.
-/
import Odyssey.Top
import Mathlib.Data.Prod.Lex

namespace Odyssey

open Lib

/-! ## Layouts -/

/-- `compare_t` -/
inductive CompareT
  | smaller
  | equal
  | greater
  | error
  deriving DecidableEq, Repr

/-- `ts_tuple_t`: the format of a timestamp. -/
structure TsTuple where
  mId : UInt8
  version : UInt32
  deriving DecidableEq

/-- `netw_ts_tuple_t`: its format in a message. -/
structure NetworkTsTuple where
  version : UInt32
  mId : UInt8
  deriving DecidableEq

/-- The flags that help to compare timestamps. -/
inductive TsFlag
  | regularTs
  | netwTs
  | metaTs
  deriving DecidableEq

/-- The eight bytes behind a pointer to a timestamp. -/
abbrev TsBytes := Fin 8 → UInt8

/-- Four bytes, the lowest first. -/
def u32OfBytes (b0 b1 b2 b3 : UInt8) : UInt32 :=
  UInt32.ofNat (b0.toNat + 2 ^ 8 * b1.toNat + 2 ^ 16 * b2.toNat + 2 ^ 24 * b3.toNat)

/-- The byte of a `uint32_t` at an offset. -/
def byteOf (v : UInt32) (i : Nat) : UInt8 := UInt8.ofNat (v.toNat / 2 ^ (8 * i))

namespace TsBytes

variable (b : TsBytes)

/-- `*(struct ts_tuple *) ts`: one byte, three bytes of padding, and the version. -/
def asTs : TsTuple := ⟨b 0, u32OfBytes (b 4) (b 5) (b 6) (b 7)⟩

/-- `*(struct network_ts_tuple *) ts`: packed. -/
def asNetwTs : NetworkTsTuple := ⟨u32OfBytes (b 0) (b 1) (b 2) (b 3), b 4⟩

end TsBytes

/-- A regular timestamp in memory, whatever the padding. -/
def TsTuple.bytes (ts : TsTuple) (padding : Fin 3 → UInt8) : TsBytes
  | 0 => ts.mId
  | 1 => padding 0
  | 2 => padding 1
  | 3 => padding 2
  | 4 => byteOf ts.version 0
  | 5 => byteOf ts.version 1
  | 6 => byteOf ts.version 2
  | 7 => byteOf ts.version 3

/-- A network timestamp in memory, whatever lies behind it. -/
def NetworkTsTuple.bytes (ts : NetworkTsTuple) (behind : Fin 3 → UInt8) : TsBytes
  | 0 => byteOf ts.version 0
  | 1 => byteOf ts.version 1
  | 2 => byteOf ts.version 2
  | 3 => byteOf ts.version 3
  | 4 => ts.mId
  | 5 => behind 0
  | 6 => behind 1
  | 7 => behind 2

theorem u32OfBytes_byteOf (v : UInt32) :
    u32OfBytes (byteOf v 0) (byteOf v 1) (byteOf v 2) (byteOf v 3) = v := by
  have hv := v.toNat_lt
  apply UInt32.toNat_inj.mp
  simp only [u32OfBytes, byteOf, UInt8.toNat_ofNat', UInt32.toNat_ofNat']
  omega

/-- Each layout reads back what it stored. -/
@[simp] theorem asTs_bytes (ts : TsTuple) (padding : Fin 3 → UInt8) :
    (ts.bytes padding).asTs = ts := by
  show TsTuple.mk _ (u32OfBytes _ _ _ _) = ts
  rw [TsTuple.bytes, TsTuple.bytes, TsTuple.bytes, TsTuple.bytes, TsTuple.bytes, u32OfBytes_byteOf]

@[simp] theorem asNetwTs_bytes (ts : NetworkTsTuple) (behind : Fin 3 → UInt8) :
    (ts.bytes behind).asNetwTs = ts := by
  show NetworkTsTuple.mk (u32OfBytes _ _ _ _) _ = ts
  rw [NetworkTsTuple.bytes, NetworkTsTuple.bytes, NetworkTsTuple.bytes, NetworkTsTuple.bytes,
    NetworkTsTuple.bytes, u32OfBytes_byteOf]

/-! ## The comparators -/

/-- The body of the comparators, on the values of the fields. -/
def compareFields (version1 mId1 version2 mId2 : Nat) : CompareT :=
  if version1 = version2 ∧ mId1 = mId2 then .equal
  else if version1 < version2 ∨ (version1 = version2 ∧ mId1 < mId2) then .smaller
  else if version1 > version2 ∨ (version1 = version2 ∧ mId1 > mId2) then .greater
  else .error

/-- `compare_netw_ts` -/
def compareNetwTs (ts1 ts2 : NetworkTsTuple) : CompareT :=
  compareFields ts1.version.toNat ts1.mId.toNat ts2.version.toNat ts2.mId.toNat

/-- `compare_ts` -/
def compareTs (ts1 ts2 : TsTuple) : CompareT :=
  compareFields ts1.version.toNat ts1.mId.toNat ts2.version.toNat ts2.mId.toNat

/-- `compare_netw_ts_with_ts` -/
def compareNetwTsWithTs (ts1 : NetworkTsTuple) (ts2 : TsTuple) : CompareT :=
  compareFields ts1.version.toNat ts1.mId.toNat ts2.version.toNat ts2.mId.toNat

/-- `compare_flat_ts` -/
def compareFlatTs (version1 : UInt64) (mId1 : UInt8) (version2 : UInt64) (mId2 : UInt8) :
    CompareT :=
  compareFields version1.toNat mId1.toNat version2.toNat mId2.toNat

/-- `compare_ts_with_flat` -/
def compareTsWithFlat (ts1 : TsTuple) (version2 : UInt32) (mId2 : UInt8) : CompareT :=
  compareFields ts1.version.toNat ts1.mId.toNat version2.toNat mId2.toNat

/-- `compare_ts_with_netw_ts` -/
def compareTsWithNetwTs (ts1 : TsTuple) (ts2 : NetworkTsTuple) : CompareT :=
  compareFields ts1.version.toNat ts1.mId.toNat ts2.version.toNat ts2.mId.toNat

/-- `compare_ts_generic`.  Other values of a flag fail an assertion. -/
def compareTsGeneric (ts1 : TsBytes) (flag1 : TsFlag) (ts2 : TsBytes) (flag2 : TsFlag) :
    CompareT :=
  let version1 := ts1.asTs.version
  let version2 := ts1.asTs.version
  let mId1 := ts1.asTs.mId
  let mId2 := ts1.asTs.mId
  let (version1, mId1) := match flag1 with
    | .netwTs => (ts1.asNetwTs.version, ts1.asNetwTs.mId)
    | .metaTs => (ts1.asNetwTs.version, ts1.asNetwTs.mId)
    | .regularTs => (version1, mId1)
  let (version2, mId2) := match flag2 with
    | .netwTs => (ts2.asNetwTs.version, ts2.asNetwTs.mId)
    | .metaTs => (ts2.asNetwTs.version, ts2.asNetwTs.mId)
    | .regularTs => (version2, mId2)
  compareFields version1.toNat mId1.toNat version2.toNat mId2.toNat

/-! ## What they compute -/

/-- A timestamp as a pair, in the lexicographic order. -/
abbrev TsKey := ℕ ×ₗ ℕ

def tsKey (version mId : Nat) : TsKey := toLex (version, mId)

theorem tsKey_lt {v1 m1 v2 m2 : Nat} :
    tsKey v1 m1 < tsKey v2 m2 ↔ v1 < v2 ∨ (v1 = v2 ∧ m1 < m2) :=
  Prod.Lex.toLex_lt_toLex

theorem tsKey_eq {v1 m1 v2 m2 : Nat} : tsKey v1 m1 = tsKey v2 m2 ↔ v1 = v2 ∧ m1 = m2 := by
  rw [tsKey, tsKey, toLex_inj, Prod.mk.injEq]

/-- The answer with the arguments swapped. -/
def CompareT.swap : CompareT → CompareT
  | .smaller => .greater
  | .equal => .equal
  | .greater => .smaller
  | .error => .error

/-- **A comparator is the order of the keys.** -/
structure Orders {α β : Type} (compare : α → β → CompareT) (key : α → TsKey) (key' : β → TsKey) :
    Prop where
  smaller : ∀ a b, compare a b = .smaller ↔ key a < key' b
  equal : ∀ a b, compare a b = .equal ↔ key a = key' b
  greater : ∀ a b, compare a b = .greater ↔ key' b < key a

namespace Orders

variable {α β : Type} {compare : α → β → CompareT} {key : α → TsKey} {key' : β → TsKey}

/-- It never returns `ERROR`. -/
theorem ne_error (h : Orders compare key key') (a : α) (b : β) : compare a b ≠ .error := by
  intro herr
  rcases lt_trichotomy (key a) (key' b) with hlt | heq | hgt
  · rw [(h.smaller a b).mpr hlt] at herr
    nomatch herr
  · rw [(h.equal a b).mpr heq] at herr
    nomatch herr
  · rw [(h.greater a b).mpr hgt] at herr
    nomatch herr

/-- Two comparators with the same keys, on swapped arguments. -/
theorem swap {compare' : β → α → CompareT} (h : Orders compare key key')
    (h' : Orders compare' key' key) (a : α) (b : β) : compare' b a = (compare a b).swap := by
  rcases lt_trichotomy (key a) (key' b) with hlt | heq | hgt
  · rw [(h.smaller a b).mpr hlt, (h'.greater b a).mpr hlt]
    rfl
  · rw [(h.equal a b).mpr heq, (h'.equal b a).mpr heq.symm]
    rfl
  · rw [(h.greater a b).mpr hgt, (h'.smaller b a).mpr hgt]
    rfl

/-- Two comparators of one pair of keys give one answer, if and only if the keys lie on the same
    side of one another. -/
theorem eq_iff {γ δ : Type} {compare' : γ → δ → CompareT} {key₁ : γ → TsKey} {key₂ : δ → TsKey}
    (h : Orders compare key key') (h' : Orders compare' key₁ key₂) (a : α) (b : β) (c : γ) (d : δ) :
    compare a b = compare' c d ↔
      (key a < key' b ↔ key₁ c < key₂ d) ∧ (key' b < key a ↔ key₂ d < key₁ c) := by
  constructor
  · intro heq
    rw [← h.smaller, ← h.greater, ← h'.smaller, ← h'.greater, heq]
    exact ⟨Iff.rfl, Iff.rfl⟩
  · rintro ⟨hlt, hgt⟩
    rcases lt_trichotomy (key a) (key' b) with hab | hab | hab
    · rw [(h.smaller a b).mpr hab, (h'.smaller c d).mpr (hlt.mp hab)]
    · have hcd : key₁ c = key₂ d := by
        refine le_antisymm ?_ ?_
        · exact not_lt.mp fun hdc => absurd (hgt.mpr hdc) (by rw [hab]; exact lt_irrefl _)
        · exact not_lt.mp fun hcd => absurd (hlt.mpr hcd) (by rw [hab]; exact lt_irrefl _)
      rw [(h.equal a b).mpr hab, (h'.equal c d).mpr hcd]
    · rw [(h.greater a b).mpr hab, (h'.greater c d).mpr (hgt.mp hab)]

end Orders

/-- **The body of the comparators is the lexicographic order.** -/
theorem compareFields_orders :
    Orders (fun a b : Nat × Nat => compareFields a.1 a.2 b.1 b.2) (fun a => tsKey a.1 a.2)
      (fun b => tsKey b.1 b.2) := by
  constructor
  · rintro ⟨v1, m1⟩ ⟨v2, m2⟩
    rw [tsKey_lt]
    show compareFields v1 m1 v2 m2 = _ ↔ _
    unfold compareFields
    split_ifs <;> simp <;> omega
  · rintro ⟨v1, m1⟩ ⟨v2, m2⟩
    rw [tsKey_eq]
    show compareFields v1 m1 v2 m2 = _ ↔ _
    unfold compareFields
    split_ifs <;> simp <;> omega
  · rintro ⟨v1, m1⟩ ⟨v2, m2⟩
    rw [tsKey_lt]
    show compareFields v1 m1 v2 m2 = _ ↔ _
    unfold compareFields
    split_ifs <;> simp <;> omega

/-- A comparator that runs the body on the fields of its arguments orders them by their keys. -/
theorem Orders.of_fields {α β : Type} {compare : α → β → CompareT} (fields : α → Nat × Nat)
    (fields' : β → Nat × Nat)
    (h : ∀ a b, compare a b = compareFields (fields a).1 (fields a).2 (fields' b).1 (fields' b).2) :
    Orders compare (fun a => tsKey (fields a).1 (fields a).2)
      (fun b => tsKey (fields' b).1 (fields' b).2) := by
  constructor
  · intro a b
    rw [h]
    exact compareFields_orders.smaller (fields a) (fields' b)
  · intro a b
    rw [h]
    exact compareFields_orders.equal (fields a) (fields' b)
  · intro a b
    rw [h]
    exact compareFields_orders.greater (fields a) (fields' b)

def TsTuple.key (ts : TsTuple) : TsKey := tsKey ts.version.toNat ts.mId.toNat

def NetworkTsTuple.key (ts : NetworkTsTuple) : TsKey := tsKey ts.version.toNat ts.mId.toNat

/-- The key of a version and a machine id on their own. -/
def flatKey (ts : UInt64 × UInt8) : TsKey := tsKey ts.1.toNat ts.2.toNat

/-- **Six comparators are one order.** -/
structure OneOrder : Prop where
  netw : Orders compareNetwTs NetworkTsTuple.key NetworkTsTuple.key
  regular : Orders compareTs TsTuple.key TsTuple.key
  netwWithRegular : Orders compareNetwTsWithTs NetworkTsTuple.key TsTuple.key
  regularWithNetw : Orders compareTsWithNetwTs TsTuple.key NetworkTsTuple.key
  flat : Orders (fun a b : UInt64 × UInt8 => compareFlatTs a.1 a.2 b.1 b.2) flatKey flatKey
  regularWithFlat : Orders (fun a (b : UInt32 × UInt8) => compareTsWithFlat a b.1 b.2) TsTuple.key
    (fun b => flatKey (b.1.toUInt64, b.2))

theorem oneOrder : OneOrder := by
  let ofTs : TsTuple → Nat × Nat := fun ts => (ts.version.toNat, ts.mId.toNat)
  let ofNetwTs : NetworkTsTuple → Nat × Nat := fun ts => (ts.version.toNat, ts.mId.toNat)
  let ofFlat : UInt64 × UInt8 → Nat × Nat := fun ts => (ts.1.toNat, ts.2.toNat)
  let ofFlat32 : UInt32 × UInt8 → Nat × Nat := fun ts => (ts.1.toUInt64.toNat, ts.2.toNat)
  constructor
  · exact .of_fields ofNetwTs ofNetwTs fun _ _ => rfl
  · exact .of_fields ofTs ofTs fun _ _ => rfl
  · exact .of_fields ofNetwTs ofTs fun _ _ => rfl
  · exact .of_fields ofTs ofNetwTs fun _ _ => rfl
  · exact .of_fields ofFlat ofFlat fun _ _ => rfl
  · refine .of_fields ofTs ofFlat32 fun ts b => ?_
    show compareFields _ _ b.1.toNat _ = compareFields _ _ b.1.toUInt64.toNat _
    rw [UInt32.toNat_toUInt64]

/-! ## compare_ts_generic -/

namespace TsBytes

/-- The version and the machine id that are stored under the layout of a flag. -/
def stored (b : TsBytes) : TsFlag → UInt32 × UInt8
  | .regularTs => (b.asTs.version, b.asTs.mId)
  | .netwTs | .metaTs => (b.asNetwTs.version, b.asNetwTs.mId)

def key (b : TsBytes) (flag : TsFlag) : TsKey :=
  flatKey ((b.stored flag).1.toUInt64, (b.stored flag).2)

end TsBytes

/-- `compare_flat_ts` of what the arguments of `compare_ts_generic` hold. -/
def compareStored (ts1 : TsBytes) (flag1 : TsFlag) (ts2 : TsBytes) (flag2 : TsFlag) : CompareT :=
  compareFlatTs (ts1.stored flag1).1.toUInt64 (ts1.stored flag1).2
    (ts2.stored flag2).1.toUInt64 (ts2.stored flag2).2

/-- The comparator for arguments of the types that the flags stand for. -/
def compareTyped (ts1 : TsBytes) (flag1 : TsFlag) (ts2 : TsBytes) (flag2 : TsFlag) : CompareT :=
  match flag1, flag2 with
  | .regularTs, .regularTs => compareTs ts1.asTs ts2.asTs
  | .regularTs, _ => compareTsWithNetwTs ts1.asTs ts2.asNetwTs
  | _, .regularTs => compareNetwTsWithTs ts1.asNetwTs ts2.asTs
  | _, _ => compareNetwTs ts1.asNetwTs ts2.asNetwTs

theorem compareStored_typed (ts1 : TsBytes) (flag1 : TsFlag) (ts2 : TsBytes) (flag2 : TsFlag) :
    compareStored ts1 flag1 ts2 flag2 = compareTyped ts1 flag1 ts2 flag2 := by
  cases flag1 <;> cases flag2 <;>
    simp only [compareStored, compareTyped, compareFlatTs, TsBytes.stored, UInt32.toNat_toUInt64,
      compareTs, compareTsWithNetwTs, compareNetwTsWithTs, compareNetwTs]

/-- Where `compare_ts_generic` takes its second pair from: with `REGULAR_TS`, from the first
    argument. -/
def secondPair (ts1 ts2 : TsBytes) : TsFlag → UInt32 × UInt8
  | .regularTs => ts1.stored .regularTs
  | .netwTs => ts2.stored .netwTs
  | .metaTs => ts2.stored .metaTs

theorem compareTsGeneric_eq (ts1 : TsBytes) (flag1 : TsFlag) (ts2 : TsBytes) (flag2 : TsFlag) :
    compareTsGeneric ts1 flag1 ts2 flag2 =
      compareFlatTs (ts1.stored flag1).1.toUInt64 (ts1.stored flag1).2
        (secondPair ts1 ts2 flag2).1.toUInt64 (secondPair ts1 ts2 flag2).2 := by
  rw [compareFlatTs, UInt32.toNat_toUInt64, UInt32.toNat_toUInt64]
  cases flag1 <;> cases flag2 <;> rfl

/-- The second argument is decoded, or does not matter.  With `REGULAR_TS` for both, the pairs are
    equal; with `REGULAR_TS` for the second alone, its pair lies on the same side of the first pair
    as what the bytes of the first argument are in the regular layout. -/
def RightlyDecoded (ts1 : TsBytes) (flag1 : TsFlag) (ts2 : TsBytes) (flag2 : TsFlag) : Prop :=
  match flag2 with
  | .netwTs | .metaTs => True
  | .regularTs =>
    match flag1 with
    | .regularTs => ts1.stored .regularTs = ts2.stored .regularTs
    | .netwTs | .metaTs =>
      (ts1.key flag1 < ts1.key .regularTs ↔ ts1.key flag1 < ts2.key .regularTs) ∧
      (ts1.key .regularTs < ts1.key flag1 ↔ ts2.key .regularTs < ts1.key flag1)

theorem key_inj {b b' : TsBytes} {flag flag' : TsFlag} :
    b.key flag = b'.key flag' ↔ b.stored flag = b'.stored flag' := by
  unfold TsBytes.key flatKey
  rw [tsKey_eq, UInt32.toNat_toUInt64, UInt32.toNat_toUInt64, UInt32.toNat_inj, UInt8.toNat_inj,
    Prod.ext_iff]

/-- **`compare_ts_generic` compares what its arguments hold, if and only if its second argument is
    decoded or does not matter.**  The comparator for the types says the same as `compare_flat_ts`,
    all the others are one order, and this one too never returns `ERROR`; where it is right both
    ways, swapping the arguments swaps the answer. -/
theorem compare_ts_generic (ts1 : TsBytes) (flag1 : TsFlag) (ts2 : TsBytes) (flag2 : TsFlag) :
    (compareTsGeneric ts1 flag1 ts2 flag2 = compareStored ts1 flag1 ts2 flag2 ↔
      RightlyDecoded ts1 flag1 ts2 flag2) ∧
    compareStored ts1 flag1 ts2 flag2 = compareTyped ts1 flag1 ts2 flag2 ∧
    OneOrder ∧ compareTsGeneric ts1 flag1 ts2 flag2 ≠ .error ∧
    (RightlyDecoded ts1 flag1 ts2 flag2 → RightlyDecoded ts2 flag2 ts1 flag1 →
      compareTsGeneric ts2 flag2 ts1 flag1 = (compareTsGeneric ts1 flag1 ts2 flag2).swap) := by
  have hflat := oneOrder.flat
  have hiff : ∀ (ts1 : TsBytes) (flag1 : TsFlag) (ts2 : TsBytes) (flag2 : TsFlag),
      compareTsGeneric ts1 flag1 ts2 flag2 = compareStored ts1 flag1 ts2 flag2 ↔
      RightlyDecoded ts1 flag1 ts2 flag2 := by
    intro ts1 flag1 ts2 flag2
    rw [compareTsGeneric_eq]
    cases flag2 with
    | netwTs => exact ⟨fun _ => trivial, fun _ => rfl⟩
    | metaTs => exact ⟨fun _ => trivial, fun _ => rfl⟩
    | regularTs =>
      have hsides := hflat.eq_iff hflat
        ((ts1.stored flag1).1.toUInt64, (ts1.stored flag1).2)
        ((ts1.stored .regularTs).1.toUInt64, (ts1.stored .regularTs).2)
        ((ts1.stored flag1).1.toUInt64, (ts1.stored flag1).2)
        ((ts2.stored .regularTs).1.toUInt64, (ts2.stored .regularTs).2)
      refine hsides.trans ?_
      cases flag1 with
      | netwTs => exact Iff.rfl
      | metaTs => exact Iff.rfl
      | regularTs =>
        show (ts1.key .regularTs < ts1.key .regularTs ↔ ts1.key .regularTs < ts2.key .regularTs) ∧
          (ts1.key .regularTs < ts1.key .regularTs ↔ ts2.key .regularTs < ts1.key .regularTs) ↔ _
        rw [RightlyDecoded, ← key_inj]
        constructor
        · rintro ⟨hlt, hgt⟩
          refine le_antisymm ?_ ?_
          · exact not_lt.mp fun h => absurd (hgt.mpr h) (lt_irrefl _)
          · exact not_lt.mp fun h => absurd (hlt.mpr h) (lt_irrefl _)
        · intro heq
          rw [heq]
          exact ⟨Iff.rfl, Iff.rfl⟩
  refine ⟨hiff ts1 flag1 ts2 flag2, compareStored_typed ts1 flag1 ts2 flag2, oneOrder, ?_, ?_⟩
  · rw [compareTsGeneric_eq]
    exact hflat.ne_error ((ts1.stored flag1).1.toUInt64, (ts1.stored flag1).2)
      ((secondPair ts1 ts2 flag2).1.toUInt64, (secondPair ts1 ts2 flag2).2)
  · intro h h'
    rw [(hiff ts1 flag1 ts2 flag2).mpr h, (hiff ts2 flag2 ts1 flag1).mpr h']
    exact hflat.swap hflat ((ts1.stored flag1).1.toUInt64, (ts1.stored flag1).2)
      ((ts2.stored flag2).1.toUInt64, (ts2.stored flag2).2)

/-- Versions 5 and 7 are equal. -/
theorem compare_ts_generic_blind :
    let ts1 : TsBytes := (TsTuple.mk 1 5).bytes fun _ => 0
    let ts2 : TsBytes := (TsTuple.mk 2 7).bytes fun _ => 0
    compareTsGeneric ts1 .regularTs ts2 .regularTs = .equal ∧
    compareStored ts1 .regularTs ts2 .regularTs = .smaller := by
  decide

end Odyssey
