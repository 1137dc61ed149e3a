/-
  COMMITS THAT WAIT IN A FIFO.

  A worker that commits ids, one after the other, broadcasts them as ranges: a commit message has
  the first id and how many.  `ctx_insert_commit` adds a range to the commit that waits in the FIFO,
  or starts one, and `ctx_send_broadcasts` sends the slot at `pull_ptr`.

  Three slots are involved.  The commit is written to the slot before `push_ptr`, its metadata to
  the slot at `push_ptr`, and nothing moves `push_ptr` when a commit starts.  They are one slot only
  where the FIFO has one slot.  Then all is well as long as the ids fit the 16 bits of
  `coalesce_num`, which is what a send takes off `net_capacity` (`commits_sent_iff`).
-/
import Odyssey.Fifo
import Odyssey.Lib.Runs

namespace Odyssey

open Lib

/-! ## The code -/

/-- `ctx_com_mes_t`: the fields that say what is committed. -/
structure CtxComMes where
  lId : UInt64
  comNum : UInt32
  deriving DecidableEq

/-- `CTX_COM_SEND_SIZE`, the bytes of the packed struct -/
def ctxComSendSize : Nat := 16

/-- The commit at an address. -/
def comAt (bytes : Nat → UInt8) (ptr : Nat) : CtxComMes where
  lId := UInt64.ofNat (leNat (readAt bytes ptr 8))
  comNum := UInt32.ofNat (leNat (readAt bytes (ptr + 8) 4))

/-- An assignment to `l_id`. -/
def setComId (bytes : Nat → UInt8) (ptr : Nat) (lId : UInt64) : Nat → UInt8 :=
  writeAt bytes ptr (leBytes 8 lId.toNat)

/-- An assignment to `com_num`. -/
def setComNum (bytes : Nat → UInt8) (ptr : Nat) (comNum : UInt32) : Nat → UInt8 :=
  writeAt bytes (ptr + 8) (leBytes 4 comNum.toNat)

/-- `(N + x - 1) % N` in `uint32_t`. -/
def modDecr (x N : Nat) : Nat := sub32 (u32 (N + x)) 1 % N

namespace Fifo

variable (f : Fifo)

def getFifoPrevSlot (slotNo : Nat) : Nat := f.getFifoSlotPrivate (modDecr slotNo f.maxSize) 0

def getFifoPushPrevSlot : Nat := f.getFifoPrevSlot f.pushPtr

/-- `ctx_insert_commit`, on the commit. -/
def writeCommit (commit : Nat) (comNum : UInt16) (lastCommittedId : UInt64) : Fifo :=
  if 0 < f.capacity then
    { f with fifo := setComNum f.fifo commit ((comAt f.fifo commit).comNum + comNum.toUInt32) }
  else -- otherwise push a new commit
    { f with
      fifo := setComNum (setComId f.fifo commit lastCommittedId) commit comNum.toUInt32
    }.fifoIncremCapacity

/-- `ctx_insert_commit`, on the counters. -/
def countCommit (comNum : UInt16) : Fifo :=
  let f := { f with netCapacity := u32 (f.netCapacity + comNum.toNat) }
  let m := f.getFifoSlotMetaPush
  f.setSlotMetaPush { m with coalesceNum := u16 (m.coalesceNum + comNum.toNat) }

/-- `ctx_insert_commit`.  Behind the allocation the write is undefined. -/
def ctxInsertCommit (comNum : UInt16) (lastCommittedId : UInt64) : Outcome Fifo :=
  let commit := f.getFifoPushPrevSlot
  if commit + ctxComSendSize ≤ f.maxByteSize then
    .ok ((f.writeCommit commit comNum lastCommittedId).countCommit comNum)
  else .error .undefined

end Fifo

/-! ## Runs -/

/-- `n` consecutive ids. -/
def idsFrom (first : UInt64) (n : Nat) : List UInt64 :=
  (List.range n).map fun i => first + UInt64.ofNat i

/-- The ids a commit is for. -/
def CtxComMes.ids (com : CtxComMes) : List UInt64 := idsFrom com.lId com.comNum.toNat

/-- A commit FIFO, and the id that will be committed next. -/
structure Committing where
  fifo : Fifo
  nextId : UInt64

/-- What can happen next. -/
inductive CommitCmd
  /-- at least one id is committed -/
  | ctxInsertCommit (comNum : UInt16) (pos : 0 < comNum)
  /-- one round of the loop of `ctx_send_broadcasts`, which asks for `net_capacity` first -/
  | send

/-- What it shows. -/
inductive CommitEvent
  | inserted (ids : List UInt64)
  /-- the commit at the pull slot went out, and left the FIFO so -/
  | sent (com : CtxComMes) (after : Fifo)
  | nothingToSend

def commitStep (s : Committing) : CommitCmd → Outcome (Committing × CommitEvent)
  | .ctxInsertCommit comNum _ => do
    let f ← s.fifo.ctxInsertCommit comNum s.nextId
    return (⟨f, s.nextId + comNum.toUInt64⟩, .inserted (idsFrom s.nextId comNum.toNat))
  | .send =>
    if 0 < s.fifo.netCapacity then
      let f := s.fifo.fifoSendFromPullSlot
      .ok (⟨f, s.nextId⟩, .sent (comAt s.fifo.fifo s.fifo.getFifoPullSlot) f)
    else .ok (s, .nothingToSend)

/-- A history of steps. -/
abbrev CommitTrace := List (CommitCmd × CommitEvent)

/-- The ids an event committed. -/
def CommitEvent.committed : CommitEvent → List UInt64
  | .inserted ids => ids
  | _ => []

/-- The ids an event broadcast. -/
def CommitEvent.broadcast : CommitEvent → List UInt64
  | .sent com _ => com.ids
  | _ => []

/-- All ids that were committed, in order. -/
def committedIds (tr : CommitTrace) : List UInt64 := tr.flatMap (·.2.committed)

/-- All ids that were broadcast, in order. -/
def broadcastIds (tr : CommitTrace) : List UInt64 := tr.flatMap (·.2.broadcast)

/-- The ids that were committed since the loop last came to the FIFO. -/
def pendingIds (tr : CommitTrace) : List UInt64 :=
  tr.foldl (fun ids p => match p.1 with
    | .ctxInsertCommit _ _ => ids ++ p.2.committed
    | .send => []) []

/-- What a send should do, with `ids` to broadcast. -/
def CommitEvent.SendsAll (ids : List UInt64) : CommitEvent → Prop
  | .inserted _ => True
  | .sent com after =>
    ids.head? = some com.lId ∧ com.comNum.toNat = ids.length ∧
      after.netCapacity = 0 ∧ after.capacity = 0
  | .nothingToSend => ids = []

/-! ## Ids and bytes -/

@[simp] theorem length_idsFrom (first : UInt64) (n : Nat) : (idsFrom first n).length = n := by
  simp [idsFrom]

theorem idsFrom_append (first : UInt64) (m n : Nat) :
    idsFrom first m ++ idsFrom (first + UInt64.ofNat m) n = idsFrom first (m + n) := by
  unfold idsFrom
  rw [List.range_add, List.map_append, List.map_map]
  congr 1
  refine List.map_congr_left fun i _ => ?_
  show first + UInt64.ofNat m + UInt64.ofNat i = first + UInt64.ofNat (m + i)
  rw [UInt64.ofNat_add, UInt64.add_assoc]

theorem head_idsFrom {first : UInt64} {n : Nat} (hn : 0 < n) :
    (idsFrom first n).head? = some first := by
  obtain ⟨k, rfl⟩ : ∃ k, n = k + 1 := ⟨n - 1, by omega⟩
  unfold idsFrom
  rw [List.range_succ_eq_map]
  show some (first + UInt64.ofNat 0) = some first
  rw [show UInt64.ofNat 0 = 0 from rfl, UInt64.add_zero]

theorem pendingIds_concat (tr : CommitTrace) (p : CommitCmd × CommitEvent) :
    pendingIds (tr ++ [p]) = match p.1 with
      | .ctxInsertCommit _ _ => pendingIds tr ++ p.2.committed
      | .send => [] := by
  unfold pendingIds
  rw [List.foldl_append]
  rfl

/-- The fields of a commit that was just written. -/
theorem comAt_setComNum (bytes : Nat → UInt8) (ptr : Nat) (n : UInt32) :
    comAt (setComNum bytes ptr n) ptr = ⟨(comAt bytes ptr).lId, n⟩ := by
  have hid : readAt (setComNum bytes ptr n) ptr 8 = readAt bytes ptr 8 :=
    readAt_writeAt_disjoint (Or.inl (by omega))
  have hnum : readAt (setComNum bytes ptr n) (ptr + 8) 4 = leBytes 4 n.toNat := by
    have h := readAt_writeAt_self bytes (ptr + 8) (leBytes 4 n.toNat)
    rwa [length_leBytes] at h
  unfold comAt
  rw [hid, hnum, leNat_leBytes n.toNat_lt, UInt32.ofNat_toNat]

theorem lId_setComId (bytes : Nat → UInt8) (ptr : Nat) (lId : UInt64) :
    (comAt (setComId bytes ptr lId) ptr).lId = lId := by
  have hid : readAt (setComId bytes ptr lId) ptr 8 = leBytes 8 lId.toNat := by
    have h := readAt_writeAt_self bytes ptr (leBytes 8 lId.toNat)
    rwa [length_leBytes] at h
  unfold comAt
  dsimp only
  rw [hid, leNat_leBytes lId.toNat_lt, UInt64.ofNat_toNat]

/-- A commit somewhere else. -/
theorem comAt_ne {bytes : Nat → UInt8} {ptr ptr' : Nat} (h : ptr + ctxComSendSize ≤ ptr')
    (lId : UInt64) (n : UInt32) :
    comAt (setComId bytes ptr' lId) ptr = comAt bytes ptr ∧
    comAt (setComNum bytes ptr' n) ptr = comAt bytes ptr := by
  have hsize : ctxComSendSize = 16 := rfl
  unfold comAt setComId setComNum
  constructor
  · rw [readAt_writeAt_disjoint (Or.inl (by omega)), readAt_writeAt_disjoint (Or.inl (by omega))]
  · rw [readAt_writeAt_disjoint (Or.inl (by omega)), readAt_writeAt_disjoint (Or.inl (by omega))]

/-! ## What the FIFO holds -/

/-- The FIFO with the `k` ids from `first` on inserted since the last send.  The pull slot has
    their commit if it is the only slot, and else it has what it was allocated with. -/
structure CommitsPending (N slotSize : Nat) (first : UInt64) (k : Nat) (f : Fifo) : Prop where
  maxSize : f.maxSize = N
  slotSize : f.slotSize = slotSize
  push : f.pushPtr = 0
  pull : f.pullPtr = 0
  coalesce : (f.slotMeta 0).coalesceNum = u16 k
  net : f.netCapacity = u32 k
  cap : f.capacity = if k = 0 then 0 else 1
  one : N = 1 → 0 < k → comAt f.fifo 0 = ⟨first, UInt32.ofNat k⟩
  many : N ≠ 1 → comAt f.fifo 0 = ⟨0, 0⟩

namespace CommitsPending

variable {N slotSize k : Nat} {first : UInt64} {f : Fifo}

theorem start (N slotSize : Nat) (mesHeader : UInt16) (first : UInt64) :
    CommitsPending N slotSize first 0 (fifoConstructor N slotSize mesHeader) := by
  have hzero : comAt (fun _ => 0) 0 = ⟨0, 0⟩ := by decide
  exact ⟨rfl, rfl, rfl, rfl, rfl, rfl, rfl, fun _ h => absurd h (Nat.lt_irrefl 0), fun _ => hzero⟩

/-- Where the commit goes: to the last slot. -/
theorem push_prev (h : CommitsPending N slotSize first k f) (hN : 1 ≤ N)
    (hslot : ctxComSendSize ≤ slotSize) (hbytes : N * slotSize < 2 ^ 32) :
    f.getFifoPushPrevSlot = (N - 1) * slotSize := by
  have hsize : ctxComSendSize = 16 := rfl
  have hlt : (N - 1) * slotSize ≤ N * slotSize := Nat.mul_le_mul_right _ (Nat.sub_le N 1)
  have hNlt : N < 2 ^ 32 := by
    have hle : N * 1 ≤ N * slotSize := Nat.mul_le_mul_left N (by omega)
    omega
  have hprev : modDecr 0 N = N - 1 := by
    unfold modDecr
    rw [Nat.add_zero, u32_of_lt hNlt, sub32_of_le hNlt hN, Nat.mod_eq_of_lt (by omega)]
  show u32 (f.slotSize * modDecr f.pushPtr f.maxSize) + 0 = _
  rw [h.slotSize, h.push, h.maxSize, hprev, Nat.mul_comm, u32_of_lt (by omega), Nat.add_zero]

/-- Writing the commit changes its bytes, and the slots in use. -/
theorem writeCommit_eq (h : CommitsPending N slotSize first k f) (commit : Nat) (comNum : UInt16) :
    ∃ bytes, f.writeCommit commit comNum (first + UInt64.ofNat k) =
        { f with fifo := bytes, capacity := 1 } ∧
      (commit = 0 → N = 1 → comAt bytes 0 = ⟨first, UInt32.ofNat (k + comNum.toNat)⟩) ∧
      (ctxComSendSize ≤ commit → comAt bytes 0 = comAt f.fifo 0) := by
  have hcap := h.cap
  have hnum : UInt32.ofNat comNum.toNat = comNum.toUInt32 := by
    rw [← UInt32.toNat_inj, UInt32.toNat_ofNat', UInt16.toNat_toUInt32]
    have hlt := comNum.toNat_lt
    omega
  unfold Fifo.writeCommit
  by_cases hk : k = 0
  · rw [if_pos hk] at hcap
    rw [if_neg (by omega), hk]
    refine ⟨setComNum (setComId f.fifo commit (first + UInt64.ofNat 0)) commit comNum.toUInt32, ?_,
      fun hzero _ => ?_, fun hne => ?_⟩
    · show { f with fifo := _, capacity := u32 (f.capacity + 1) } = _
      rw [hcap]
      rfl
    · rw [hzero, comAt_setComNum, lId_setComId, Nat.zero_add, hnum]
      exact congrArg (CtxComMes.mk · _) (UInt64.add_zero first)
    · rw [(comAt_ne (by omega) 0 _).2, (comAt_ne (by omega) _ 0).1]
  · rw [if_neg hk] at hcap
    rw [if_pos (by omega)]
    refine ⟨setComNum f.fifo commit ((comAt f.fifo commit).comNum + comNum.toUInt32), ?_,
      fun hzero hone => ?_, fun hne => ?_⟩
    · rw [← hcap]
    · rw [hzero, comAt_setComNum, h.one hone (by omega), UInt32.ofNat_add, hnum]
    · exact (comAt_ne (by omega) 0 _).2

/-- **A commit is inserted**, at the end of the ids or as the first. -/
theorem insert (h : CommitsPending N slotSize first k f) (hN : 1 ≤ N)
    (hslot : ctxComSendSize ≤ slotSize) (hbytes : N * slotSize < 2 ^ 32) {comNum : UInt16}
    (hpos : 0 < comNum) {f' : Fifo}
    (hcall : f.ctxInsertCommit comNum (first + UInt64.ofNat k) = .ok f') :
    CommitsPending N slotSize first (k + comNum.toNat) f' := by
  have hpos' : 0 < comNum.toNat := UInt16.lt_iff_toNat_lt.mp hpos
  unfold Fifo.ctxInsertCommit at hcall
  rw [h.push_prev hN hslot hbytes] at hcall
  dsimp only at hcall
  split at hcall
  case isFalse => nomatch hcall
  cases hcall
  obtain ⟨bytes, hwrite, hone, hmany⟩ := h.writeCommit_eq ((N - 1) * slotSize) comNum
  rw [hwrite]
  refine ⟨h.maxSize, h.slotSize, h.push, h.pull, ?_, ?_, ?_, fun hN1 _ => ?_, fun hN1 => ?_⟩
  · show (Function.update f.slotMeta f.pushPtr _ 0).coalesceNum = _
    rw [h.push, Function.update_self]
    show u16 ((f.slotMeta 0).coalesceNum + comNum.toNat) = _
    rw [h.coalesce]
    unfold u16
    omega
  · show u32 (f.netCapacity + comNum.toNat) = _
    rw [h.net]
    unfold u32
    omega
  · rw [if_neg (by omega)]
    rfl
  · refine hone ?_ hN1
    rw [hN1, Nat.sub_self, Nat.zero_mul]
  · have hle : 1 * slotSize ≤ (N - 1) * slotSize := Nat.mul_le_mul_right _ (by omega)
    exact (hmany (by omega)).trans (h.many hN1)

/-- **A send of the only slot**, with no more ids than `coalesce_num` counts. -/
theorem send (h : CommitsPending 1 slotSize first k f) (hk : 0 < k) (hlt : k < 2 ^ 16)
    (first' : UInt64) : CommitsPending 1 slotSize first' 0 f.fifoSendFromPullSlot := by
  have hnet : sub32 f.netCapacity f.getFifoSlotMetaPull.coalesceNum = 0 := by
    show sub32 f.netCapacity (f.slotMeta f.pullPtr).coalesceNum = 0
    rw [h.pull, h.coalesce, h.net, u16_of_lt hlt, u32_of_lt (by omega),
      sub32_of_le (by omega) (Nat.le_refl k), Nat.sub_self]
  have hcap := h.cap
  rw [if_neg (by omega)] at hcap
  unfold Fifo.fifoSendFromPullSlot
  dsimp only
  rw [if_pos hnet]
  have hincr : ∀ x, modIncr x 1 = 0 := fun x => Nat.mod_one _
  refine ⟨h.maxSize, h.slotSize, ?_, ?_, ?_, hnet, ?_, fun _ h => absurd h (Nat.lt_irrefl 0),
    fun h => absurd rfl h⟩
  · show modIncr f.pushPtr f.maxSize = 0
    rw [h.maxSize, hincr]
  · show modIncr f.pullPtr f.maxSize = 0
    rw [h.maxSize, hincr]
  · show (Function.update f.slotMeta (modIncr f.pushPtr f.maxSize) _ 0).coalesceNum = 0
    rw [h.maxSize, hincr, Function.update_self]
  · show sub32 f.capacity 1 = 0
    rw [hcap]
    rfl

/-- **What a send does is right exactly when** there is one slot, and no more ids than
    `coalesce_num` counts. -/
theorem sendsAll_iff (h : CommitsPending N slotSize first k f) :
    (if 0 < f.netCapacity then
        CommitEvent.sent (comAt f.fifo f.getFifoPullSlot) f.fifoSendFromPullSlot
      else .nothingToSend).SendsAll (idsFrom first k) ↔
    (idsFrom first k ≠ [] → N = 1 ∧ (idsFrom first k).length < 2 ^ 16) := by
  have hnil : idsFrom first k = [] ↔ k = 0 := by
    rw [← List.length_eq_zero_iff, length_idsFrom]
  have hpull : f.getFifoPullSlot = 0 := by
    show u32 (f.slotSize * f.pullPtr) + 0 = 0
    rw [h.pull]
    rfl
  rw [ne_eq, hnil, length_idsFrom, h.net, hpull]
  by_cases hk : k = 0
  · rw [hk]
    exact ⟨fun _ hne => absurd rfl hne, fun _ => rfl⟩
  by_cases hzero : u32 k = 0
  · -- a multiple of 2 ^ 32 ids are waiting, and the loop does not see them
    rw [hzero, if_neg (Nat.lt_irrefl 0)]
    unfold u32 at hzero
    constructor
    · exact fun hall => absurd (hnil.mp hall) hk
    · exact fun hall => absurd (hall hk).2 (by omega)
  rw [if_pos (Nat.pos_of_ne_zero hzero)]
  constructor
  · rintro ⟨-, hnum, hnet, -⟩ -
    rw [length_idsFrom] at hnum
    by_cases hN : N = 1
    · refine ⟨hN, ?_⟩
      rw [h.one hN (by omega), UInt32.toNat_ofNat'] at hnum
      by_contra hlarge
      -- the ids fit com_num, and what is left in net_capacity is what coalesce_num lost
      have hleft : f.fifoSendFromPullSlot.netCapacity = sub32 (u32 k) (u16 k) := by
        have hsub : sub32 f.netCapacity f.getFifoSlotMetaPull.coalesceNum =
            sub32 (u32 k) (u16 k) := by
          show sub32 f.netCapacity (f.slotMeta f.pullPtr).coalesceNum = _
          rw [h.pull, h.coalesce, h.net]
        rw [← hsub]
        unfold Fifo.fifoSendFromPullSlot
        dsimp only
        split <;> rfl
      rw [hleft] at hnet
      unfold sub32 u32 u16 at hnet
      omega
    · rw [h.many hN] at hnum
      exact absurd hnum.symm hk
  · intro hall
    obtain ⟨rfl, hlt⟩ := hall hk
    have hafter := h.send (by omega) hlt first
    refine ⟨?_, ?_, hafter.net, hafter.cap⟩
    · rw [h.one rfl (by omega), head_idsFrom (by omega)]
    · rw [h.one rfl (by omega), length_idsFrom, UInt32.toNat_ofNat']
      omega

end CommitsPending

/-! ## Runs -/

section

variable {N slotSize : Nat} {mesHeader : UInt16} {firstId : UInt64}

/-- Is there one slot, and a count that is large enough, when the loop comes to the FIFO? -/
def CommitCmd.Fits (N : Nat) (ids : List UInt64) : CommitCmd → Prop
  | .ctxInsertCommit _ _ => True
  | .send => ids ≠ [] → N = 1 ∧ ids.length < 2 ^ 16

/-- While all sends did what they should, the FIFO holds the pending ids, and the others were
    broadcast. -/
structure CommitInv (N slotSize : Nat) (tr : CommitTrace) (s : Committing) : Prop where
  pending : ∃ first k, pendingIds tr = idsFrom first k ∧ s.nextId = first + UInt64.ofNat k ∧
    CommitsPending N slotSize first k s.fifo
  once : broadcastIds tr ++ pendingIds tr = committedIds tr

/-- A send that does what it should broadcasts all of the pending ids. -/
theorem broadcast_of_sendsAll {first : UInt64} {k : Nat} {e : CommitEvent}
    (h : e.SendsAll (idsFrom first k)) (hsend : ∀ ids, e ≠ .inserted ids) :
    e.broadcast = idsFrom first k := by
  cases e with
  | inserted ids => exact absurd rfl (hsend ids)
  | sent com after =>
    obtain ⟨hid, hnum, -⟩ := h
    rw [length_idsFrom] at hnum
    by_cases hk : k = 0
    · rw [hk] at hid
      nomatch hid
    · rw [head_idsFrom (by omega)] at hid
      cases hid
      show idsFrom com.lId com.comNum.toNat = _
      rw [hnum]
  | nothingToSend => exact h.symm

/-- **One step** does what it should exactly when it fits, and then keeps the invariant. -/
theorem CommitInv.step {tr : CommitTrace} {s s' : Committing} {c : CommitCmd} {e : CommitEvent}
    (h : CommitInv N slotSize tr s) (hN : 1 ≤ N) (hslot : ctxComSendSize ≤ slotSize)
    (hbytes : N * slotSize < 2 ^ 32) (hs : commitStep s c = .ok (s', e)) :
    (e.SendsAll (pendingIds tr) ↔ c.Fits N (pendingIds tr)) ∧
    (e.SendsAll (pendingIds tr) → CommitInv N slotSize (tr ++ [(c, e)]) s') := by
  obtain ⟨⟨first, k, hids, hnext, hpend⟩, honce⟩ := h
  cases c with
  | ctxInsertCommit comNum pos =>
    obtain ⟨f, hcall, hs⟩ := bind_eq_ok.mp hs
    cases hs
    rw [hnext] at hcall
    have hpend' := hpend.insert hN hslot hbytes pos hcall
    have hids' : pendingIds tr ++ idsFrom s.nextId comNum.toNat =
        idsFrom first (k + comNum.toNat) := by
      rw [hids, hnext, idsFrom_append]
    have hconcat := pendingIds_concat tr
      (.ctxInsertCommit comNum pos, .inserted (idsFrom s.nextId comNum.toNat))
    dsimp only at hconcat
    refine ⟨⟨fun _ => trivial, fun _ => trivial⟩, fun _ => ⟨⟨first, k + comNum.toNat, ?_, ?_, hpend'⟩, ?_⟩⟩
    · rw [hconcat]
      exact hids'
    · show s.nextId + comNum.toUInt64 = _
      have hnum : UInt64.ofNat comNum.toNat = comNum.toUInt64 := by
        rw [← UInt64.toNat_inj, UInt64.toNat_ofNat', UInt16.toNat_toUInt64]
        have hlt := comNum.toNat_lt
        omega
      rw [hnext, UInt64.ofNat_add, hnum, UInt64.add_assoc]
    · rw [hconcat, broadcastIds, committedIds, List.flatMap_append, List.flatMap_append]
      show (broadcastIds tr ++ []) ++ _ = committedIds tr ++ _
      rw [List.append_nil, ← List.append_assoc, honce, List.flatMap_singleton]
  | send =>
    have hevent : e = if 0 < s.fifo.netCapacity then
        .sent (comAt s.fifo.fifo s.fifo.getFifoPullSlot) s.fifo.fifoSendFromPullSlot
        else .nothingToSend := by
      unfold commitStep at hs
      dsimp only at hs
      split at hs
      · rename_i hnet
        cases hs
        rw [if_pos hnet]
      · rename_i hnet
        cases hs
        rw [if_neg hnet]
    have hiff := hpend.sendsAll_iff
    rw [← hevent, ← hids] at hiff
    refine ⟨hiff, fun hall => ⟨?_, ?_⟩⟩
    · have hfits := hiff.mp hall
      rw [pendingIds_concat]
      by_cases hk : k = 0
      · -- nothing was pending, and nothing happened
        subst hk
        unfold commitStep at hs
        dsimp only at hs
        rw [hpend.net, if_neg (by decide)] at hs
        cases hs
        exact ⟨first, 0, rfl, hnext, hpend⟩
      · have hne : pendingIds tr ≠ [] := by
          rw [hids, ne_eq, ← List.length_eq_zero_iff, length_idsFrom]
          exact hk
        obtain ⟨rfl, hlt⟩ := hfits hne
        rw [hids, length_idsFrom] at hlt
        unfold commitStep at hs
        dsimp only at hs
        rw [hpend.net, u32_of_lt (by omega), if_pos (by omega)] at hs
        cases hs
        exact ⟨s.nextId, 0, rfl, (UInt64.add_zero _).symm, hpend.send (by omega) hlt _⟩
    · have hsent : ∀ ids, e ≠ .inserted ids := by
        intro ids
        rw [hevent]
        split <;> exact fun h => nomatch h
      have hnone : e.committed = [] := by
        rw [hevent]
        split <;> rfl
      rw [hids] at hall
      rw [pendingIds_concat, broadcastIds, committedIds, List.flatMap_append, List.flatMap_append,
        List.flatMap_singleton, List.flatMap_singleton]
      dsimp only
      rw [hnone, broadcast_of_sendsAll hall hsent, ← hids, List.append_nil, List.append_nil]
      exact honce

/-- **Every commit that is sent is the one that was built, and every id is broadcast once, exactly
    when** the FIFO has one slot, and whenever the loop comes to it, fewer than `2 ^ 16` ids are
    pending. -/
theorem commits_sent_iff {tr : CommitTrace} {s : Committing} (hN : 1 ≤ N)
    (hslot : ctxComSendSize ≤ slotSize) (hbytes : N * slotSize < 2 ^ 32)
    (hrun : Run commitStep ⟨fifoConstructor N slotSize mesHeader, firstId⟩ tr s) :
    ((∀ tr₁ p tr₂, tr = tr₁ ++ p :: tr₂ → p.2.SendsAll (pendingIds tr₁)) ∧
      broadcastIds tr ++ pendingIds tr = committedIds tr) ↔
    ∀ tr₁ e tr₂, tr = tr₁ ++ (.send, e) :: tr₂ → pendingIds tr₁ ≠ [] →
      N = 1 ∧ (pendingIds tr₁).length < 2 ^ 16 := by
  have hall := hrun.invariant (fun tr s =>
    ((∀ tr₁ p tr₂, tr = tr₁ ++ p :: tr₂ → p.2.SendsAll (pendingIds tr₁)) ↔
      ∀ tr₁ p tr₂, tr = tr₁ ++ p :: tr₂ → p.1.Fits N (pendingIds tr₁)) ∧
    ((∀ tr₁ p tr₂, tr = tr₁ ++ p :: tr₂ → p.2.SendsAll (pendingIds tr₁)) →
      CommitInv N slotSize tr s)) ?_ ?_
  · obtain ⟨hiff, hinv⟩ := hall
    constructor
    · rintro ⟨hsends, -⟩ tr₁ e tr₂ heq
      exact hiff.mp hsends tr₁ (.send, e) tr₂ heq
    · intro hfits
      have hsends := hiff.mpr fun tr₁ p tr₂ heq => by
        rcases p with ⟨c, e⟩
        cases c with
        | ctxInsertCommit comNum pos => trivial
        | send => exact hfits tr₁ e tr₂ heq
      exact ⟨hsends, (hinv hsends).once⟩
  · have hnone : ∀ (tr₁ : CommitTrace) p tr₂, [] ≠ tr₁ ++ p :: tr₂ := by simp
    refine ⟨⟨fun _ tr₁ p tr₂ h => absurd h (hnone _ _ _), fun _ tr₁ p tr₂ h => absurd h (hnone _ _ _)⟩,
      fun _ => ⟨⟨firstId, 0, rfl, (UInt64.add_zero _).symm, ?_⟩, rfl⟩⟩
    exact CommitsPending.start ..
  · rintro tr s c s' e - ⟨hiff, hinv⟩ hs
    have hsends := forall_concat (l := tr) (b := (c, e))
      (P := fun tr₁ p => p.2.SendsAll (pendingIds tr₁))
    have hfits := forall_concat (l := tr) (b := (c, e))
      (P := fun tr₁ p => p.1.Fits N (pendingIds tr₁))
    rw [hsends, hfits]
    refine ⟨⟨?_, ?_⟩, ?_⟩
    · rintro ⟨hold, hnew⟩
      exact ⟨hiff.mp hold, ((hinv hold).step hN hslot hbytes hs).1.mp hnew⟩
    · rintro ⟨hold, hnew⟩
      have hold' := hiff.mpr hold
      exact ⟨hold', ((hinv hold').step hN hslot hbytes hs).1.mpr hnew⟩
    · rintro ⟨hold, hnew⟩
      exact ((hinv hold).step hN hslot hbytes hs).2 hnew

end

/-- Two commits in a FIFO of one slot go out as one. -/
theorem commits_sent_two : ∃ tr s,
    Run commitStep ⟨fifoConstructor 1 16 16, 5⟩ tr s ∧ broadcastIds tr = [5, 6, 7] ∧
    broadcastIds tr ++ pendingIds tr = committedIds tr := by
  let insertTwo : CommitCmd := .ctxInsertCommit 2 (by decide)
  let insertOne : CommitCmd := .ctxInsertCommit 1 (by decide)
  obtain ⟨s, com, after, hexec, hids⟩ : ∃ s com after,
      exec commitStep ⟨fifoConstructor 1 16 16, 5⟩ [insertTwo, insertOne, .send] =
        .ok ([(insertTwo, .inserted (idsFrom 5 2)), (insertOne, .inserted (idsFrom 7 1)),
          (.send, .sent com after)], s) ∧ com.ids = [5, 6, 7] :=
    ⟨_, _, _, rfl, by decide +kernel⟩
  have hrun := run_of_exec hexec
  refine ⟨_, s, hrun, ?_, ((commits_sent_iff (by decide) (by decide) (by decide) hrun).mpr ?_).2⟩
  · show [] ++ ([] ++ (com.ids ++ [])) = _
    rw [hids]
    rfl
  · intro tr₁ e tr₂ heq _
    refine ⟨rfl, ?_⟩
    rcases tr₁ with _ | ⟨p, _ | ⟨q, _ | ⟨r, tr₁⟩⟩⟩
    · decide
    · simp [insertOne] at heq
    · cases heq
      decide
    · cases tr₁ <;> cases heq

/-- In a FIFO of two slots the commit is written to the second, and the first is sent, which is
    empty. -/
theorem commits_not_sent : ∃ tr s com after,
    Run commitStep ⟨fifoConstructor 2 16 16, 5⟩ (tr ++ [(.send, .sent com after)]) s ∧
    pendingIds tr = [5] ∧ com = ⟨0, 0⟩ ∧
    ¬ (CommitEvent.sent com after).SendsAll (pendingIds tr) := by
  let insertOne : CommitCmd := .ctxInsertCommit 1 (by decide)
  refine ⟨[(insertOne, .inserted (idsFrom 5 1))], _, _, _, .snoc (.single rfl) rfl, by decide,
    by decide +kernel, ?_⟩
  rintro ⟨hid, -⟩
  revert hid
  decide +kernel

end Odyssey
