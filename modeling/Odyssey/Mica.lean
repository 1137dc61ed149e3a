/-
  MICA: THE KEY-VALUE STORE.

  An index of buckets with eight slots each, and a log of fixed-size entries.  A key has a bucket
  and a tag; a slot that is in use holds the tag of a key and the place of its entry in the log.
  The log head only grows: it counts bytes in a virtual log, of which `ht_log` is a window of
  `log_cap` bytes.

  `struct mica_op` is chosen by the protocol that is compiled in, outside this repository.  What
  the store relies on is its size, where its key is, and the macro `MICA_OP_SIZE`; they are an
  `OpLayout`, and an op is its bytes.

  A pointer to an entry is the place of its first byte in `ht_log`, a null pointer is `none`, and a
  pointer to a bucket is its number.  Where the program asserts, the call fails; the code below an
  `assert(false)`, which evicts an entry or wraps the log around, is never reached.
-/
import Odyssey.Lib.Memory
import Odyssey.Lib.Outcome
import Mathlib.Logic.Function.Basic

namespace Odyssey

open Lib

/-! ## Keys and ops -/

/-- `struct key` -/
structure MicaKey where
  bkt : Nat
  server : Nat
  tag : Nat
  deriving Repr, DecidableEq

/-- The key in eight bytes. -/
def MicaKey.ofBytes (bs : List UInt8) : MicaKey where
  bkt := leNat (slice bs 0 4)
  server := leNat (slice bs 4 2)
  tag := leNat (slice bs 6 2)

/-- The key in a hash, stored as an `unsigned long`. -/
def MicaKey.ofHash (hash : Nat) : MicaKey := .ofBytes (leBytes 8 hash)

/-- What the store knows about `struct mica_op`. -/
structure OpLayout where
  /-- `sizeof(mica_op_t)` -/
  size : Nat
  /-- the macro `MICA_OP_SIZE` -/
  micaOpSize : Nat
  /-- where the fields `key` and `key_id` are -/
  keyAt : Nat
  keyIdAt : Nat
  key_fits : keyAt + 8 ≤ size
  keyId_fits : keyIdAt + 4 ≤ size
  apart : keyAt + 8 ≤ keyIdAt ∨ keyIdAt + 4 ≤ keyAt

namespace OpLayout

/-- The field `key` of some bytes that are an op. -/
def keyOf (L : OpLayout) (bytes : List UInt8) : MicaKey := .ofBytes (slice bytes L.keyAt 8)

/-- The field `key_id` of some bytes that are an op. -/
def keyIdOf (L : OpLayout) (bytes : List UInt8) : Nat := leNat (slice bytes L.keyIdAt 4)

end OpLayout

/-- A `mica_op_t`. -/
def MicaOp (L : OpLayout) : Type := { bytes : List UInt8 // bytes.length = L.size }

namespace MicaOp

variable {L : OpLayout}

def key (op : MicaOp L) : MicaKey := L.keyOf op.1

def keyId (op : MicaOp L) : Nat := L.keyIdOf op.1

/-- `calloc` -/
def zero (L : OpLayout) : MicaOp L := ⟨List.replicate L.size 0, List.length_replicate⟩

/-- `*op_key = hash` -/
def setKey (op : MicaOp L) (hash : Nat) : MicaOp L :=
  ⟨setSlice op.1 L.keyAt (leBytes 8 hash), by
    rw [length_setSlice (by rw [length_leBytes, op.2]; exact L.key_fits), op.2]⟩

/-- `op->key_id = key_id` -/
def setKeyId (op : MicaOp L) (keyId : Nat) : MicaOp L :=
  ⟨setSlice op.1 L.keyIdAt (leBytes 4 keyId), by
    rw [length_setSlice (by rw [length_leBytes, op.2]; exact L.keyId_fits), op.2]⟩

/-- Both fields read back. -/
theorem setKeyId_setKey_key (op : MicaOp L) (hash keyId : Nat) :
    ((op.setKey hash).setKeyId keyId).key = .ofHash hash := by
  have hfits : L.keyAt + (leBytes 8 hash).length ≤ op.1.length := by
    rw [length_leBytes, op.2]
    exact L.key_fits
  have hfits' : L.keyIdAt + (leBytes 4 keyId).length ≤ (op.setKey hash).1.length := by
    rw [length_leBytes, (op.setKey hash).2]
    exact L.keyId_fits
  have hself := slice_setSlice_self hfits
  rw [length_leBytes] at hself
  unfold key OpLayout.keyOf MicaKey.ofHash
  congr 1
  refine (slice_setSlice_disjoint hfits' ?_).trans hself
  rw [length_leBytes]
  exact L.apart

theorem setKeyId_keyId (op : MicaOp L) {keyId : Nat} (h : keyId < 2 ^ 32) :
    (op.setKeyId keyId).keyId = keyId := by
  have hfits : L.keyIdAt + (leBytes 4 keyId).length ≤ op.1.length := by
    rw [length_leBytes, op.2]
    exact L.keyId_fits
  have hself := slice_setSlice_self hfits
  rw [length_leBytes] at hself
  unfold MicaOp.keyId OpLayout.keyIdOf
  exact (congrArg leNat hself).trans (leNat_leBytes h)

end MicaOp

/-! ## The store -/

/-- `MICA_LOG_BITS` -/
def micaLogBits : Nat := 40

/-- `struct mica_slot`: a bit, 23 bits and 40 bits -/
structure MicaSlot where
  inUse : Bool
  tag : Nat
  offset : Nat

/-- `mica_kv_t`, without the statistics that only the client reads -/
structure MicaKv where
  /-- the slots of each bucket -/
  htIndex : Nat → Nat → MicaSlot
  htLog : Nat → UInt8
  numBkts : Nat
  bktMask : Nat
  logCap : Nat
  logMask : Nat
  logHead : Nat
  numInsertOp : Nat
  numIndexEvictions : Nat

/-- What `shmget` hands out: memory with anything in it. -/
structure RawMemory where
  index : Nat → Nat → MicaSlot
  log : Nat → UInt8

/-- `is_power_of_2`, which compares with each power of two an `int` can hold -/
def isPowerOf2 (x : Nat) : Bool := (List.range 31).any fun i => x == 2 ^ i

/-- `hrd_malloc_socket`: no shared segment has a size that is not positive, or, since it becomes
    a `size_t`, negative. -/
def hrdMallocSocket (size : Int) : Outcome Unit :=
  if 0 < size then .ok () else .error .undefined

def clearInUse (index : Nat → Nat → MicaSlot) (i j : Nat) : Nat → Nat → MicaSlot :=
  Function.update index i (Function.update (index i) j { index i j with inUse := false })

/-- `mica_init` -/
def micaInit (L : OpLayout) (mem : RawMemory) (nodeId : Int) (numBkts logCap : Nat) :
    Outcome MicaKv := do
  if L.size % 64 ≠ 0 then .error .undefined
  if nodeId ≠ 0 ∧ nodeId ≠ 1 then .error .undefined
  if isPowerOf2 numBkts = false ∨ 16777216 < numBkts then .error .undefined
  hrdMallocSocket (toInt (numBkts * 64))
  let htIndex ← forLoop 31 numBkts (fun index i =>
    forPure 31 8 (fun index j => clearInUse index i j) index) mem.index
  hrdMallocSocket (toInt logCap)
  return {
    htIndex := htIndex, htLog := mem.log
    numBkts := numBkts, bktMask := numBkts - 1
    logCap := logCap, logMask := logCap - 1, logHead := 0
    numInsertOp := 0, numIndexEvictions := 0 }

/-! ## Inserting -/

namespace MicaKv

def bucket (kvs : MicaKv) (key : MicaKey) : Nat := key.bkt &&& kvs.bktMask

def setSlot (kvs : MicaKv) (bkt slot : Nat) (s : MicaSlot) : MicaKv :=
  { kvs with
    htIndex := Function.update kvs.htIndex bkt (Function.update (kvs.htIndex bkt) slot s) }

/-- The loop of `mica_insert_one` over the slots of a bucket; it takes the last free slot, and
    `none` is `-1`. -/
def slotToUse (kvs : MicaKv) (bkt tag : Nat) : Outcome (Option Nat) :=
  forLoop 31 8 (fun slot i =>
    if (kvs.htIndex bkt i).tag = tag ∨ (kvs.htIndex bkt i).inUse = false then
      -- a key with the same tag would be overwritten: `assert(false)`
      if (kvs.htIndex bkt i).inUse = true then .error .undefined else .ok (some i)
    else .ok slot) none

/-- The log head after an entry of `len` bytes, 8-byte aligned. -/
def advanceHead (kvs : MicaKv) (len : Nat) : Nat :=
  u64 (u64 (kvs.logHead + len) + 7) &&& (2 ^ 64 - 8)

end MicaKv

/-- `mica_insert_one` -/
def micaInsertOne (L : OpLayout) (kvs : MicaKv) (op : MicaOp L) : Outcome MicaKv := do
  let bkt := kvs.bucket op.key
  let tag := op.key.tag
  let kvs := { kvs with numInsertOp := kvs.numInsertOp + 1 }
  match ← kvs.slotToUse bkt tag with
  | none => .error .undefined
  | some slot =>
    let kvs := kvs.setSlot bkt slot ⟨true, tag % 2 ^ 23, kvs.logHead % 2 ^ micaLogBits⟩
    let logPtr := kvs.logHead &&& kvs.logMask
    let lenToCopy := L.size
    if u64 (lenToCopy + 8) < sub64 (2 ^ micaLogBits) kvs.logHead then
      let kvs := { kvs with htLog := writeAt kvs.htLog logPtr op.1 }
      let kvs := { kvs with logHead := kvs.advanceHead lenToCopy }
      -- the physical log is full: `assert(false)`
      if sub64 kvs.logCap kvs.logHead ≤ L.micaOpSize + 32 then .error .undefined
      else .ok kvs
    else .error .undefined

/-- `custom_mica_populate_fixed_len`, with `KVS_NUM_KEYS` keys and the second half of the
    `CityHash128` of a key id -/
def customMicaPopulateFixedLen (L : OpLayout) (cityHash : Nat → Nat) (kvsNumKeys : Nat)
    (kvs : MicaKv) (n : Int) : Outcome MicaKv := do
  if n ≤ 0 then .error .undefined
  if kvs.numInsertOp ≠ 0 ∨ kvs.numIndexEvictions ≠ 0 then .error .undefined
  let (kvs, _) ← forLoop 32 kvsNumKeys (fun (kvs, op) keyId => do
    let op := (op.setKey (cityHash keyId)).setKeyId keyId
    let kvs ← micaInsertOne L kvs op
    return (kvs, op)) (kvs, MicaOp.zero L)
  if (kvs.numInsertOp : Int) ≠ n then .error .undefined
  return kvs

/-! ## Looking up -/

/-- The arrays in which a batch of look-ups keeps its state. -/
structure Located where
  bkt : Nat → Nat
  /-- the bucket of each key -/
  bktPtr : Nat → Nat
  tag : Nat → Nat
  kvPtr : Nat → Option Nat

def Located.blank : Located := ⟨fun _ => 0, fun _ => 0, fun _ => 0, fun _ => none⟩

namespace MicaKv

/-- `KVS_locate_one_bucket` -/
def locateOneBucket (kvs : MicaKv) (opI : Nat) (opKey : MicaKey) (l : Located) : Located where
  bkt := Function.update l.bkt opI (opKey.bkt &&& kvs.bktMask)
  bktPtr := Function.update l.bktPtr opI (opKey.bkt &&& kvs.bktMask)
  tag := Function.update l.tag opI opKey.tag
  kvPtr := Function.update l.kvPtr opI none

section

variable (kvs : MicaKv) (i : Nat) (key : MicaKey) (l : Located)

@[simp] theorem locateOneBucket_bktPtr_self :
    (kvs.locateOneBucket i key l).bktPtr i = kvs.bucket key := by
  simp [locateOneBucket, bucket]

@[simp] theorem locateOneBucket_tag_self : (kvs.locateOneBucket i key l).tag i = key.tag := by
  simp [locateOneBucket]

@[simp] theorem locateOneBucket_kvPtr_self : (kvs.locateOneBucket i key l).kvPtr i = none := by
  simp [locateOneBucket]

/-- The state of the other look-ups is left alone. -/
theorem locateOneBucket_of_ne {i' : Nat} (h : i' ≠ i) :
    (kvs.locateOneBucket i key l).bktPtr i' = l.bktPtr i' ∧
      (kvs.locateOneBucket i key l).tag i' = l.tag i' ∧
      (kvs.locateOneBucket i key l).kvPtr i' = l.kvPtr i' := by
  simp [locateOneBucket, h]

end

/-- The entry of a slot, unless the log has wrapped around since. -/
def entryOf (kvs : MicaKv) (s : MicaSlot) : Option Nat :=
  if kvs.logCap ≤ sub64 kvs.logHead s.offset then none else some (s.offset &&& kvs.logMask)

/-- `KVS_locate_one_kv_pair`: the first slot that matches decides. -/
def locateOneKvPair (kvs : MicaKv) (opI : Nat) (l : Located) : Located :=
  match (List.range 8).find? (fun j => (kvs.htIndex (l.bktPtr opI) j).inUse &&
      (kvs.htIndex (l.bktPtr opI) j).tag == l.tag opI) with
  | none => l
  | some j =>
    { l with kvPtr := Function.update l.kvPtr opI (kvs.entryOf (kvs.htIndex (l.bktPtr opI) j)) }

section

variable (kvs : MicaKv) (i : Nat) (l : Located)

@[simp] theorem locateOneKvPair_bktPtr : (kvs.locateOneKvPair i l).bktPtr = l.bktPtr := by
  unfold locateOneKvPair
  split <;> rfl

@[simp] theorem locateOneKvPair_tag : (kvs.locateOneKvPair i l).tag = l.tag := by
  unfold locateOneKvPair
  split <;> rfl

theorem locateOneKvPair_kvPtr_of_ne {i' : Nat} (h : i' ≠ i) :
    (kvs.locateOneKvPair i l).kvPtr i' = l.kvPtr i' := by
  unfold locateOneKvPair
  split
  · rfl
  · exact Function.update_of_ne h ..

/-- The result of a look-up. -/
theorem locateOneKvPair_kvPtr_self : (kvs.locateOneKvPair i l).kvPtr i =
    match (List.range 8).find? (fun j => (kvs.htIndex (l.bktPtr i) j).inUse &&
      (kvs.htIndex (l.bktPtr i) j).tag == l.tag i) with
    | none => l.kvPtr i
    | some j => kvs.entryOf (kvs.htIndex (l.bktPtr i) j) := by
  unfold locateOneKvPair
  split
  · rfl
  · exact Function.update_self ..

end

/-- `KVS_locate_all_kv_pairs` -/
def locateAllKvPairs (kvs : MicaKv) (opNum : Nat) (l : Located) : Outcome Located :=
  forPure 16 opNum (fun l opI => kvs.locateOneKvPair opI l) l

/-- One look-up: `KVS_locate_one_bucket`, then `KVS_locate_one_kv_pair`. -/
def locate (kvs : MicaKv) (key : MicaKey) : Option Nat :=
  (kvs.locateOneKvPair 0 (kvs.locateOneBucket 0 key .blank)).kvPtr 0

/-- The look-ups of a batch: the buckets of all keys, then all entries. -/
def locateBatch (kvs : MicaKv) (keys : List MicaKey) (l : Located) : Outcome Located :=
  kvs.locateAllKvPairs keys.length
    (keys.zipIdx.foldl (fun l p => kvs.locateOneBucket p.2 p.1 l) l)

end MicaKv

end Odyssey
