/-
  ACKS THAT POINT INTO A REORDER BUFFER.

  A sender keeps its unacked messages in a FIFO, the `rob`: `capacity` entries from `pullPtr` on,
  with the consecutive ids `pull_lid`, `pull_lid + 1`, ….  A coalesced ack covers the ids from
  `l_id` on, `ack_num` of them, and may be late: some or all of its ids may have left the rob.

  * `odIsAckTooOld` asks whether all of them have;
  * `ctxFindWhenTheAckPointsAcked` finds the slot of the first that has not, and takes those that
    have off the count the caller walks by.

  The ids are `uint64_t`s, and the count and the slots `uint32_t`s; all sums are computed in C's
  mix of the two.
-/
import Odyssey.Context
import Odyssey.Lib.Cyclic

namespace Odyssey

open Lib

/-- `od_is_ack_too_old` -/
def odIsAckTooOld (ack : CtxAckMes) (rob : Fifo) (pullLid : UInt64) : Bool :=
  rob.capacity == 0 ||
    (ack.lId ≤ pullLid && ack.ackNum.toUInt64 ≤ pullLid - ack.lId)

/-- `ctx_find_when_the_ack_points_acked`: a slot, and what is left of the caller's `ackNum`. -/
def ctxFindWhenTheAckPointsAcked (enableAssertions : Bool) (ack : CtxAckMes) (rob : Fifo)
    (pullLid : UInt64) (ackNum : UInt32) : Outcome (Nat × UInt32) :=
  if ack.lId ≤ pullLid then
    let ackNum := (ackNum.toUInt64 - (pullLid - ack.lId)).toUInt32
    if enableAssertions && !(0 < ackNum && ackNum.toNat ≤ rob.maxSize) then .error .undefined
    else .ok (rob.pullPtr, ackNum)
  else
    .ok (u32 (UInt64.ofNat rob.pullPtr + (ack.lId - pullLid)).toNat % rob.maxSize, ackNum)

/-! ## What the rob holds, and what the ack covers -/

/-- A reorder buffer whose oldest id is `pullLid`. -/
structure Rob (rob : Fifo) (pullLid : UInt64) : Prop where
  pull_lt : rob.pullPtr < rob.maxSize
  size_le : rob.maxSize ≤ 2 ^ 31
  fits : rob.capacity ≤ rob.maxSize
  /-- its ids are `uint64_t`s -/
  ids_lt : pullLid.toNat + rob.capacity ≤ 2 ^ 64

/-- The ids in a rob. -/
def robIds (rob : Fifo) (pullLid : UInt64) : List Nat := List.range' pullLid.toNat rob.capacity

/-- The slot of an id in a rob. -/
def robSlot (rob : Fifo) (pullLid : UInt64) (id : Nat) : Nat :=
  slot rob.maxSize rob.pullPtr (id - pullLid.toNat)

/-- The ids an ack covers. -/
def ackedIds (ack : CtxAckMes) : List Nat := List.range' ack.lId.toNat ack.ackNum.toNat

/-- The acked ids that are still in the rob, in order. -/
def ackedInRob (ack : CtxAckMes) (rob : Fifo) (pullLid : UInt64) : List Nat :=
  (ackedIds ack).filter (· ∈ robIds rob pullLid)

section

variable {ack : CtxAckMes} {rob : Fifo} {pullLid : UInt64}

/-- No ack is for an id that was not given out, so only ids from before the rob are missing. -/
theorem mem_robIds_of_acked (hack : ack.lId.toNat + ack.ackNum.toNat ≤ pullLid.toNat + rob.capacity)
    {id : Nat} (hid : id ∈ ackedIds ack) : id ∈ robIds rob pullLid ↔ pullLid.toNat ≤ id := by
  rw [ackedIds, List.mem_range'_1] at hid
  rw [robIds, List.mem_range'_1]
  omega

/-- The difference of two ids. -/
theorem toNat_sub_id {a b : UInt64} (h : b ≤ a) : (a - b).toNat = a.toNat - b.toNat :=
  UInt64.toNat_sub_of_le a b h

/-- **An ack that starts before the rob** covers its first ids. -/
theorem ackedInRob_straddle
    (hack : ack.lId.toNat + ack.ackNum.toNat ≤ pullLid.toNat + rob.capacity)
    (hold : ack.lId.toNat ≤ pullLid.toNat)
    (hnew : pullLid.toNat ≤ ack.lId.toNat + ack.ackNum.toNat) :
    ackedInRob ack rob pullLid =
      List.range' pullLid.toNat (ack.ackNum.toNat - (pullLid.toNat - ack.lId.toNat)) := by
  have hmem : ∀ id ∈ ackedIds ack, (id ∈ robIds rob pullLid ↔ pullLid.toNat ≤ id) :=
    fun id hid => mem_robIds_of_acked hack hid
  -- the ids before the rob, then those in it
  have hsplit : ackedIds ack = List.range' ack.lId.toNat (pullLid.toNat - ack.lId.toNat) ++
      List.range' pullLid.toNat (ack.ackNum.toNat - (pullLid.toNat - ack.lId.toNat)) := by
    have hfirst : ack.lId.toNat + 1 * (pullLid.toNat - ack.lId.toNat) = pullLid.toNat := by omega
    have hadd : ack.ackNum.toNat = (pullLid.toNat - ack.lId.toNat)
        + (ack.ackNum.toNat - (pullLid.toNat - ack.lId.toNat)) := by omega
    unfold ackedIds
    conv_lhs => rw [hadd]
    rw [← List.range'_append, hfirst]
  unfold ackedInRob
  rw [hsplit] at hmem ⊢
  rw [List.filter_append, List.filter_eq_nil_iff.mpr, List.filter_eq_self.mpr, List.nil_append]
  · intro id hid
    have hin := (hmem id (List.mem_append_right _ hid)).mpr (List.mem_range'_1.mp hid).1
    exact decide_eq_true hin
  · intro id hid hin
    have hge := (hmem id (List.mem_append_left _ hid)).mp (of_decide_eq_true hin)
    have hlt := (List.mem_range'_1.mp hid).2
    omega

/-- **An ack that starts in the rob** covers ids of the rob only. -/
theorem ackedInRob_inside
    (hack : ack.lId.toNat + ack.ackNum.toNat ≤ pullLid.toNat + rob.capacity)
    (hnew : pullLid.toNat ≤ ack.lId.toNat) : ackedInRob ack rob pullLid = ackedIds ack := by
  refine List.filter_eq_self.mpr fun id hid => decide_eq_true ?_
  have hge := (List.mem_range'_1.mp hid).1
  exact (mem_robIds_of_acked hack hid).mpr (by omega)

/-- **An ack from before the rob** covers nothing in it. -/
theorem ackedInRob_old
    (hack : ack.lId.toNat + ack.ackNum.toNat ≤ pullLid.toNat + rob.capacity)
    (hold : ack.lId.toNat + ack.ackNum.toNat ≤ pullLid.toNat) : ackedInRob ack rob pullLid = [] := by
  refine List.filter_eq_nil_iff.mpr fun id hid hin => ?_
  have hge := (mem_robIds_of_acked hack hid).mp (of_decide_eq_true hin)
  have hlt := (List.mem_range'_1.mp hid).2
  omega

/-- `od_is_ack_too_old`, in numbers. -/
theorem odIsAckTooOld_iff : odIsAckTooOld ack rob pullLid = true ↔
    rob.capacity = 0 ∨ ack.lId.toNat + ack.ackNum.toNat ≤ pullLid.toNat := by
  unfold odIsAckTooOld
  rw [Bool.or_eq_true, beq_iff_eq, Bool.and_eq_true, decide_eq_true_eq, decide_eq_true_eq,
    UInt64.le_iff_toNat_le]
  constructor
  · rintro (hzero | ⟨hle, hnum⟩)
    · exact Or.inl hzero
    · rw [UInt64.le_iff_toNat_le, toNat_sub_id (UInt64.le_iff_toNat_le.mpr hle),
        UInt32.toNat_toUInt64] at hnum
      exact Or.inr (by omega)
  · rintro (hzero | hold)
    · exact Or.inl hzero
    · have hle : ack.lId.toNat ≤ pullLid.toNat := by omega
      refine Or.inr ⟨hle, ?_⟩
      rw [UInt64.le_iff_toNat_le, toNat_sub_id (UInt64.le_iff_toNat_le.mpr hle),
        UInt32.toNat_toUInt64]
      omega

/-- Walking from the slot of an id visits the slots of the next ids. -/
theorem map_robSlot_range' {first num : Nat} (hfirst : pullLid.toNat ≤ first) :
    (List.range' first num).map (robSlot rob pullLid) =
      window rob.maxSize (robSlot rob pullLid first) num := by
  unfold window
  rw [List.range'_eq_map_range, List.map_map]
  refine List.map_congr_left fun i _ => ?_
  show slot rob.maxSize rob.pullPtr (first + i - pullLid.toNat) = slot _ (slot _ _ _) i
  rw [slot_slot]
  congr 1
  omega

/-- **What the slot and the count are**, for an ack that is not too old. -/
theorem ctxFind_spec (hrob : Rob rob pullLid) (enableAssertions : Bool)
    (hack : ack.lId.toNat + ack.ackNum.toNat ≤ pullLid.toNat + rob.capacity)
    (hnum : 1 ≤ ack.ackNum.toNat) (hnew : odIsAckTooOld ack rob pullLid = false) :
    ∃ start num, ctxFindWhenTheAckPointsAcked enableAssertions ack rob pullLid ack.ackNum =
      .ok (start, num) ∧ num.toNat ≤ rob.capacity ∧ start < rob.maxSize ∧
      window rob.maxSize start num.toNat = (ackedInRob ack rob pullLid).map (robSlot rob pullLid) := by
  have hcover : rob.capacity ≠ 0 ∧ pullLid.toNat < ack.lId.toNat + ack.ackNum.toNat := by
    have hno : ¬ (rob.capacity = 0 ∨ ack.lId.toNat + ack.ackNum.toNat ≤ pullLid.toNat) := by
      rw [← odIsAckTooOld_iff, hnew]
      exact Bool.false_ne_true
    omega
  obtain ⟨hcap, hlast⟩ := hcover
  have hpull := hrob.pull_lt
  have hsize := hrob.size_le
  have hfits := hrob.fits
  unfold ctxFindWhenTheAckPointsAcked
  by_cases hle : ack.lId ≤ pullLid
  · -- the rob starts inside the ack, or at its first id
    have hle' := UInt64.le_iff_toNat_le.mp hle
    rw [if_pos hle]
    have hleft : (ack.ackNum.toUInt64 - (pullLid - ack.lId)).toUInt32.toNat =
        ack.ackNum.toNat - (pullLid.toNat - ack.lId.toNat) := by
      have hlt := ack.ackNum.toNat_lt
      have hsub : pullLid - ack.lId ≤ ack.ackNum.toUInt64 := by
        rw [UInt64.le_iff_toNat_le, toNat_sub_id hle, UInt32.toNat_toUInt64]
        omega
      rw [UInt64.toNat_toUInt32, toNat_sub_id hsub, toNat_sub_id hle, UInt32.toNat_toUInt64]
      omega
    refine ⟨rob.pullPtr, (ack.ackNum.toUInt64 - (pullLid - ack.lId)).toUInt32, ?_, ?_, hpull, ?_⟩
    · dsimp only
      rw [if_neg]
      intro hbad
      rw [Bool.and_eq_true, Bool.not_eq_true', Bool.and_eq_false_iff, decide_eq_false_iff_not,
        decide_eq_false_iff_not] at hbad
      rcases hbad.2 with hpos | hmax
      · rw [UInt32.lt_iff_toNat_lt, hleft] at hpos
        exact hpos (show 0 < _ by omega)
      · rw [hleft] at hmax
        omega
    · rw [hleft]
      omega
    · rw [hleft, ackedInRob_straddle hack hle' (by omega), map_robSlot_range' (Nat.le_refl _)]
      have hzero : robSlot rob pullLid pullLid.toNat = rob.pullPtr := by
        unfold robSlot
        rw [Nat.sub_self, slot_zero hpull]
      rw [hzero]
  · -- the ack starts inside the rob
    have hlt : pullLid.toNat < ack.lId.toNat := by
      rw [UInt64.le_iff_toNat_le] at hle
      omega
    rw [if_neg hle]
    have hstart : u32 (UInt64.ofNat rob.pullPtr + (ack.lId - pullLid)).toNat % rob.maxSize =
        robSlot rob pullLid ack.lId.toNat := by
      have hsum : (UInt64.ofNat rob.pullPtr + (ack.lId - pullLid)).toNat =
          rob.pullPtr + (ack.lId.toNat - pullLid.toNat) := by
        rw [UInt64.toNat_add, toNat_sub_id (UInt64.le_iff_toNat_le.mpr (Nat.le_of_lt hlt)),
          UInt64.toNat_ofNat_of_lt' (by show _ < 2 ^ 64; omega)]
        exact Nat.mod_eq_of_lt (by omega)
      rw [hsum, u32_of_lt (by omega)]
      rfl
    refine ⟨_, ack.ackNum, rfl, by omega, Nat.mod_lt _ (by omega), ?_⟩
    rw [hstart, ackedInRob_inside hack (Nat.le_of_lt hlt), ackedIds,
      map_robSlot_range' (Nat.le_of_lt hlt)]

end

/-- **The two functions agree on what an ack still covers**: it is too old exactly when it covers
    nothing in the rob, and otherwise the walk from the slot, for the count that is left, visits
    the slots of what it covers, each once and in order. -/
theorem ack_points_acked {ack : CtxAckMes} {rob : Fifo} {pullLid : UInt64}
    (enableAssertions : Bool) (hrob : Rob rob pullLid) (hnum : 1 ≤ ack.ackNum.toNat)
    (hack : ack.lId.toNat + ack.ackNum.toNat ≤ pullLid.toNat + rob.capacity) :
    (odIsAckTooOld ack rob pullLid = true ↔ ackedInRob ack rob pullLid = []) ∧
    (odIsAckTooOld ack rob pullLid = false → ∃ start num,
      ctxFindWhenTheAckPointsAcked enableAssertions ack rob pullLid ack.ackNum = .ok (start, num) ∧
      window rob.maxSize start num.toNat =
        (ackedInRob ack rob pullLid).map (robSlot rob pullLid) ∧
      (window rob.maxSize start num.toNat).Nodup) := by
  refine ⟨⟨fun hold => ?_, fun hnil => ?_⟩, fun hnew => ?_⟩
  · rcases odIsAckTooOld_iff.mp hold with hzero | hold
    · exact ackedInRob_old hack (by omega)
    · exact ackedInRob_old hack hold
  · by_contra hnew
    rw [Bool.not_eq_true] at hnew
    obtain ⟨hcap, hlast⟩ : rob.capacity ≠ 0 ∧ pullLid.toNat < ack.lId.toNat + ack.ackNum.toNat := by
      have hno := mt odIsAckTooOld_iff.mpr (by rw [hnew]; exact Bool.false_ne_true)
      omega
    -- the last acked id is in the rob
    have hin : ack.lId.toNat + ack.ackNum.toNat - 1 ∈ ackedInRob ack rob pullLid := by
      have hacked : ack.lId.toNat + ack.ackNum.toNat - 1 ∈ ackedIds ack :=
        List.mem_range'_1.mpr (by omega)
      refine List.mem_filter.mpr ⟨hacked, decide_eq_true ?_⟩
      exact (mem_robIds_of_acked hack hacked).mpr (by omega)
    rw [hnil] at hin
    nomatch hin
  · obtain ⟨start, num, hfind, hle, hlt, hwalk⟩ := ctxFind_spec hrob enableAssertions hack hnum hnew
    have hfits := hrob.fits
    exact ⟨start, num, hfind, hwalk, window_nodup hlt (by omega)⟩

/-- A rob of four slots with the ids 10, 11 and 12 from slot 3 on, and an ack for 8 to 11. -/
theorem ack_points_acked_wrap : ∃ start num,
    ctxFindWhenTheAckPointsAcked true ⟨8, 4, 4, 1, opAck⟩
      { fifoConstructor 4 64 0 with pullPtr := 3, capacity := 3 } 10 4 = .ok (start, num) ∧
    window 4 start num.toNat = [3, 0] ∧ (window 4 start num.toNat).Nodup := by
  have hrob : Rob { fifoConstructor 4 64 0 with pullPtr := 3, capacity := 3 } 10 :=
    ⟨by decide, by decide, by decide, by decide⟩
  let ack : CtxAckMes := ⟨8, 4, 4, 1, opAck⟩
  have hnum : 1 ≤ ack.ackNum.toNat := by decide
  obtain ⟨start, num, hfind, hwalk, hnodup⟩ :=
    (ack_points_acked true hrob hnum (by decide)).2 (by decide)
  exact ⟨start, num, hfind, hwalk.trans (by decide), hnodup⟩

end Odyssey
