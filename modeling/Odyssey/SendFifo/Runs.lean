/-
  RUNS OF A SEND FIFO.

  `SendFifoCorrect` is what a user of the FIFO relies on after any sequence of calls: nothing is
  lost, repeated or reordered, every message is what its metadata say, and the counters count.
  `sendFifo_correct` is the induction over the run, one refinement step each.  The two bounds it
  needs on the dimensions are both needed: `sendFifo_incorrect` runs the FIFO into each of them.
-/
import Odyssey.SendFifo.Refinement
import Odyssey.Lib.Runs

namespace Odyssey

open Lib

/-! ## Runs -/

/-- The calls on a send FIFO. -/
inductive SendFifoCmd
  | odInsertMes (req : Request) (recvSize : Nat) (breakMessage : Bool) (hdr : List UInt8)
  | fifoSendFromPullSlot

/-- What a send posts. -/
structure Sent where
  slotMeta : SlotMeta
  bytes : List UInt8

open SendFifoCmd in
/-- One call.  The callers insert a request of one message at most, and open a message only when
    a slot is free; they send only what is counted. -/
def sendFifoStep (f : Fifo) : SendFifoCmd → Outcome (Fifo × Option Sent)
  | odInsertMes req recvSize brk hdr =>
      if 0 < req.length ∧ req.length ≤ f.slotSize - f.mesHeader ∧ recvSize ≤ mtu ∧
          (f.startsMessage req.length recvSize brk = true → f.capacity < f.maxSize) then do
        let f' ← f.odInsertMes req recvSize brk hdr
        return (f', none)
      else .error .disabled
  | fifoSendFromPullSlot =>
      if 0 < f.netCapacity then
        .ok (f.fifoSendFromPullSlot, some ⟨f.getFifoSlotMetaPull, f.messageAtPull⟩)
      else .error .disabled

/-- The inserted requests, in order. -/
def inserted : List (SendFifoCmd × Option Sent) → List Request :=
  List.filterMap fun
    | (.odInsertMes req _ _ _, _) => some req
    | (.fifoSendFromPullSlot, _) => none

/-- What was sent, in order. -/
def allSent : List (SendFifoCmd × Option Sent) → List Sent := List.filterMap Prod.snd

/-- What was sent is the message `m`: a header and the requests behind it, back to back. -/
structure Sent.Carries (mesHeader slotSize : Nat) (s : Sent) (m : Message) : Prop where
  nonempty : m ≠ []
  byteSize : s.slotMeta.byteSize = mesHeader + m.flatten.length
  fits : s.slotMeta.byteSize ≤ slotSize
  length : s.bytes.length = s.slotMeta.byteSize
  requests : s.bytes.drop mesHeader = m.flatten

/-- The slots from `pullPtr` to `pushPtr` hold the messages of `l`. -/
structure Unsent (f : Fifo) (l : List Message) : Prop where
  length_le : l.length ≤ f.maxSize
  push : f.pushPtr = slot f.maxSize f.pullPtr (l.length - 1)
  holds : ∀ k (h : k < l.length), HoldsMessage f (slot f.maxSize f.pullPtr k) l[k]
  nonempty : ∀ m ∈ l, m ≠ []

/-- What is promised of a send FIFO after any calls: no call is undefined, and the inserted
    requests are the sent ones followed by the unsent ones, both cut into messages. -/
def SendFifoCorrect (maxSize slotSize : Nat) (mesHeader : UInt16) : Prop :=
  ∀ tr f, Run sendFifoStep (fifoConstructor maxSize slotSize mesHeader) tr f →
    (∀ k, sendFifoStep f k ≠ .error .undefined) ∧
    ∃ sent pending : List Message,
      List.Forall₂ (Sent.Carries mesHeader.toNat slotSize) (allSent tr) sent ∧
      Unsent f pending ∧
      sent.flatten ++ pending.flatten = inserted tr ∧
      f.netCapacity = pending.flatten.length ∧ f.capacity = pending.length

theorem represents_fifoConstructor {maxSize slotSize : Nat} {mesHeader : UInt16}
    (hN : 1 ≤ maxSize) (hhdr : mesHeader.toNat < slotSize)
    (hreq : slotSize - mesHeader.toNat < 2 ^ 16) (hbytes : maxSize * slotSize < 2 ^ 32) :
    Represents (fifoConstructor maxSize slotSize mesHeader) Coalesced.empty := by
  refine ⟨⟨hhdr, mesHeader.toNat_lt, hreq, hbytes, u32_of_lt hbytes⟩, ?_, rfl, rfl, fun _ => rfl⟩
  have hslot : slot maxSize 0 0 = 0 := slot_zero (by omega)
  refine ⟨hN, by simp [Coalesced.slots], hN, hslot.symm, fun k hk => ?_⟩
  have hk0 : k = 0 := by simpa [Coalesced.slots, Coalesced.empty] using hk
  subst hk0
  show HoldsMessage _ (slot maxSize 0 0) []
  rw [hslot]
  exact holdsMessage_nil rfl rfl (Nat.le_of_lt hhdr)

/-- The message at the pull slot, as it is sent. -/
theorem Represents.carries {f : Fifo} {c : Coalesced} (rep : Represents f c)
    (h : 0 < f.netCapacity) :
    Sent.Carries f.mesHeader f.slotSize ⟨f.getFifoSlotMetaPull, f.messageAtPull⟩ c.send.1 := by
  have hold := rep.oldest
  have hby : f.getFifoSlotMetaPull.byteSize = f.mesHeader + c.send.1.flatten.length :=
    hold.byteSize
  have hne : c.send.1 ≠ [] := by
    apply c.messages_ne
    rw [c.send_flatten (rep.messages_ne h)]
    exact List.mem_cons_self
  refine ⟨hne, hby, ?_, length_readAt .., ?_⟩
  · show f.getFifoSlotMetaPull.byteSize ≤ f.slotSize
    rw [hby]
    exact hold.fits
  · have haddr : f.getFifoPullSlot = f.slotSize * f.pullPtr :=
      rep.geometry.slot_addr rep.window.pull_lt 0
    show f.messageAtPull.drop f.mesHeader = c.send.1.flatten
    rw [Fifo.messageAtPull, hby, readAt_add, haddr, hold.bytes,
      List.drop_left' (length_readAt ..)]

/-- The messages that are not sent are in the slots from `pullPtr` to `pushPtr`. -/
theorem Represents.unsent {f : Fifo} {c : Coalesced} (rep : Represents f c) :
    Unsent f c.messages := by
  have w := rep.window
  by_cases hb : c.building = []
  · have hmes : c.messages = [] := if_pos hb
    have hslots : c.slots.length = 1 := by simp [Coalesced.slots, c.closed_nil hb]
    have hpush := w.push
    rw [hslots] at hpush
    rw [hmes]
    exact ⟨Nat.zero_le _, hpush, fun k hk => absurd hk (Nat.not_lt_zero k), fun _ h => by cases h⟩
  · have hmes : c.messages = c.slots := if_neg hb
    rw [hmes]
    exact ⟨w.length_le, w.push, w.holds, fun m hm => c.messages_ne m (by rwa [hmes])⟩

/-- The history of a run: what was sent, and the queue that is left. -/
structure SendFifoInv (maxSize slotSize : Nat) (mesHeader : UInt16)
    (tr : List (SendFifoCmd × Option Sent)) (f : Fifo) : Prop where
  slotSize_eq : f.slotSize = slotSize
  mesHeader_eq : f.mesHeader = mesHeader.toNat
  history : ∃ sent : List Message, ∃ c : Coalesced,
    List.Forall₂ (Sent.Carries mesHeader.toNat slotSize) (allSent tr) sent ∧
    Represents f c ∧ sent.flatten ++ c.messages.flatten = inserted tr

/-- Insertion keeps the dimensions. -/
theorem Fifo.odInsertMes_dims {f f' : Fifo} {req hdr : List UInt8} {recvSize : Nat} {brk : Bool}
    (h : f.odInsertMes req recvSize brk hdr = .ok f') :
    f'.slotSize = f.slotSize ∧ f'.mesHeader = f.mesHeader := by
  rw [Fifo.odInsertMes_eq] at h
  simp only at h
  split at h
  · cases h
    rw [countRequest_eq]
    show (f.openSlot _ _ _).slotSize = f.slotSize ∧ (f.openSlot _ _ _).mesHeader = f.mesHeader
    unfold Fifo.openSlot
    split <;> exact ⟨rfl, rfl⟩
  · nomatch h

theorem Fifo.fifoSendFromPullSlot_dims (f : Fifo) :
    f.fifoSendFromPullSlot.slotSize = f.slotSize ∧
      f.fifoSendFromPullSlot.mesHeader = f.mesHeader := by
  simp only [Fifo.fifoSendFromPullSlot]
  split <;> exact ⟨rfl, rfl⟩

/-- One call keeps the history right. -/
theorem SendFifoInv.step {maxSize slotSize : Nat} {mesHeader : UInt16}
    {tr : List (SendFifoCmd × Option Sent)} {f f' : Fifo} {k : SendFifoCmd} {e : Option Sent}
    (inv : SendFifoInv maxSize slotSize mesHeader tr f) (h : sendFifoStep f k = .ok (f', e)) :
    SendFifoInv maxSize slotSize mesHeader (tr ++ [(k, e)]) f' := by
  obtain ⟨hsize, hmes, sent, c, hsent, rep, hins⟩ := inv
  cases k with
  | odInsertMes req recvSize brk hdr =>
    simp only [sendFifoStep] at h
    split at h
    · rename_i hguard
      obtain ⟨hpos, hle, hrecv, hfree⟩ := hguard
      obtain ⟨g, hg, rep'⟩ :=
        rep.insert hdr (List.length_pos_iff.mp hpos) hle hrecv hfree
      rw [hg] at h
      cases h
      have hdims := Fifo.odInsertMes_dims hg
      refine ⟨hdims.1.trans hsize, hdims.2.trans hmes, sent, _, ?_, rep', ?_⟩
      · simpa [allSent] using hsent
      · rw [Coalesced.insert_flatten, ← List.append_assoc, hins]
        simp [inserted]
    · nomatch h
  | fifoSendFromPullSlot =>
    simp only [sendFifoStep] at h
    split at h
    · rename_i hguard
      cases h
      have hdims := Fifo.fifoSendFromPullSlot_dims f
      have hcar := rep.carries hguard
      rw [hsize, hmes] at hcar
      refine ⟨hdims.1.trans hsize, hdims.2.trans hmes, sent ++ [c.send.1], c.send.2, ?_,
        rep.send hguard, ?_⟩
      · simp only [allSent, List.filterMap_append, List.filterMap_cons, List.filterMap_nil]
        exact List.rel_append hsent (.cons hcar .nil)
      · have hsplit := c.send_flatten (rep.messages_ne hguard)
        rw [hsplit] at hins
        simpa [inserted] using hins
    · nomatch h

/-- **A send FIFO loses, repeats and reorders nothing**, and its counters count, in every run, as
    long as a message has fewer than `2 ^ 16` bytes of requests and the FIFO fewer than `2 ^ 32`
    bytes. -/
theorem sendFifo_correct {maxSize slotSize : Nat} {mesHeader : UInt16}
    (hN : 1 ≤ maxSize) (hhdr : mesHeader.toNat < slotSize)
    (hreq : slotSize - mesHeader.toNat < 2 ^ 16) (hbytes : maxSize * slotSize < 2 ^ 32) :
    SendFifoCorrect maxSize slotSize mesHeader := by
  intro tr f hrun
  have inv : SendFifoInv maxSize slotSize mesHeader tr f := by
    refine hrun.invariant (SendFifoInv maxSize slotSize mesHeader) ?_ ?_
    · exact ⟨rfl, rfl, [], Coalesced.empty, .nil,
        represents_fifoConstructor hN hhdr hreq hbytes, rfl⟩
    · intro tr f k f' e _ inv hstep
      exact inv.step hstep
  obtain ⟨-, -, sent, c, hsent, rep, hins⟩ := inv
  refine ⟨fun k hk => ?_, sent, c.messages, hsent, rep.unsent, hins, rep.netCapacity,
    rep.capacity⟩
  cases k with
  | odInsertMes req recvSize brk hdr =>
    simp only [sendFifoStep] at hk
    split at hk
    · rename_i hguard
      obtain ⟨hpos, hle, hrecv, hfree⟩ := hguard
      obtain ⟨g, hg, -⟩ := rep.insert hdr (List.length_pos_iff.mp hpos) hle hrecv hfree
      rw [hg] at hk
      nomatch hk
    · nomatch hk
  | fifoSendFromPullSlot =>
    simp only [sendFifoStep] at hk
    split at hk <;> nomatch hk

/-- The dimensions of a FIFO of 4 messages of one MTU, with a header of 16 bytes. -/
theorem sendFifo_correct_mtu : SendFifoCorrect 4 4096 16 :=
  sendFifo_correct (by decide) (by decide) (by decide) (by decide)

/-! ## Both bounds are needed -/

/-- One slot of `2 ^ 16` bytes without a header, and `k` requests of one byte in it. -/
structure Burst (k : Nat) (f : Fifo) : Prop where
  maxSize : f.maxSize = 1
  slotSize : f.slotSize = 65536
  mesHeader : f.mesHeader = 0
  maxByteSize : f.maxByteSize = 65536
  pushPtr : f.pushPtr = 0
  pullPtr : f.pullPtr = 0
  netCapacity : f.netCapacity = k
  slotMeta : f.slotMeta 0 = ⟨u16 k, k, 0, 0⟩

/-- One more request of one byte. -/
theorem Burst.step {k : Nat} {f : Fifo} (b : Burst k f) (hk : k < 65536) :
    ∃ f', sendFifoStep f (.odInsertMes [0] 0 false []) = .ok (f', none) ∧ Burst (k + 1) f' := by
  have hmeta : f.getFifoSlotMetaPush = ⟨u16 k, k, 0, 0⟩ := by
    rw [Fifo.getFifoSlotMetaPush, b.pushPtr]
    exact b.slotMeta
  have hold : f.startsMessage 1 0 false = false := by
    have hu : u32 (k + 1) = k + 1 := u32_of_lt (by omega)
    have hmtu : u32 (0 + 0) ≤ mtu := by decide
    simp only [Fifo.startsMessage, Fifo.newMessage, hmeta, hu, b.slotSize, Bool.false_and,
      Bool.or_false, Bool.or_eq_false_iff, decide_eq_false_iff_not]
    omega
  have hopen : f.openSlot 1 0 false = f.setSlotMetaPush ⟨u16 k, k, 0, 0⟩ := by
    simp only [Fifo.openSlot, hold, hmeta]
    rfl
  have hmeta' : (f.setSlotMetaPush ⟨u16 k, k, 0, 0⟩).getFifoSlotMetaPush = ⟨u16 k, k, 0, 0⟩ :=
    f.slotMeta_setSlotMetaPush_self _
  have hat : (f.setSlotMetaPush ⟨u16 k, k, 0, 0⟩).getFifoSlotPrivate
      (f.setSlotMetaPush ⟨u16 k, k, 0, 0⟩).pushPtr k = k := by
    show u32 (f.slotSize * f.pushPtr) + k = k
    rw [b.pushPtr, Nat.mul_zero]
    exact Nat.zero_add k
  have hin : k + 1 ≤ (f.setSlotMetaPush ⟨u16 k, k, 0, 0⟩).maxByteSize := by
    show k + 1 ≤ f.maxByteSize
    rw [b.maxByteSize]
    omega
  have hins : f.odInsertMes [0] 0 false []
      = .ok ((f.setSlotMetaPush ⟨u16 k, k, 0, 0⟩).fillSlot [0] []).countRequest := by
    rw [Fifo.odInsertMes_eq]
    simp only [List.length_singleton, hopen, hmeta', hat, if_pos hin]
  refine ⟨((f.setSlotMetaPush ⟨u16 k, k, 0, 0⟩).fillSlot [0] []).countRequest, ?_, ?_⟩
  · have hguard : 0 < 1 ∧ 1 ≤ f.slotSize - f.mesHeader ∧ 0 ≤ mtu ∧
        (f.startsMessage 1 0 false = true → f.capacity < f.maxSize) := by
      rw [b.slotSize, b.mesHeader, hold]
      exact ⟨by decide, by decide, by decide, fun h => by cases h⟩
    simp only [sendFifoStep, List.length_singleton, if_pos hguard, hins]
    rfl
  · rw [countRequest_eq]
    refine ⟨b.maxSize, b.slotSize, b.mesHeader, b.maxByteSize, b.pushPtr, b.pullPtr, ?_, ?_⟩
    · show u32 (f.netCapacity + 1) = k + 1
      rw [b.netCapacity]
      exact u32_of_lt (by omega)
    · show ((f.setSlotMetaPush ⟨u16 k, k, 0, 0⟩).fillSlot [0] []).slotMeta 0 = _
      have hself : ((f.setSlotMetaPush ⟨u16 k, k, 0, 0⟩).fillSlot [0] []).slotMeta f.pushPtr
          = ⟨u16 (u16 k + 1), u32 (k + 1), 0, 0⟩ := by
        have h := (f.setSlotMetaPush ⟨u16 k, k, 0, 0⟩).fillSlot_slotMeta [0] []
        rwa [hmeta'] at h
      rw [b.pushPtr] at hself
      have hco : u16 (u16 k + 1) = u16 (k + 1) := by unfold u16; omega
      have hby : u32 (k + 1) = k + 1 := u32_of_lt (by omega)
      rw [hself, hco, hby]

/-- A burst of any length up to `2 ^ 16`. -/
theorem burst_run {k : Nat} (hk : k ≤ 65536) : ∃ f tr,
    Run sendFifoStep (fifoConstructor 1 65536 0) tr f ∧ Burst k f ∧
      inserted tr = List.replicate k [0] ∧ allSent tr = [] := by
  induction k with
  | zero => exact ⟨_, [], .start, ⟨rfl, rfl, rfl, rfl, rfl, rfl, rfl, rfl⟩, rfl, rfl⟩
  | succ k ih =>
    obtain ⟨f, tr, hrun, hb, hins, hsent⟩ := ih (by omega)
    obtain ⟨f', hstep, hb'⟩ := hb.step (by omega)
    refine ⟨f', _, .snoc hrun hstep, hb', ?_, ?_⟩
    · rw [List.replicate_succ', ← hins]
      simp [inserted]
    · rw [← hsent]
      simp [allSent]

/-- A message of `2 ^ 16` requests: `coalesce_num` wraps to 0, so sending it takes nothing off
    `net_capacity`, though nothing is left to send. -/
theorem not_correct_coalesce : ¬ SendFifoCorrect 1 65536 0 := by
  intro hcorrect
  obtain ⟨f, tr, hrun, hb, hins, hsent⟩ := burst_run (Nat.le_refl 65536)
  have hnet : 0 < f.netCapacity := by
    rw [hb.netCapacity]
    decide
  have hstep : sendFifoStep f .fifoSendFromPullSlot
      = .ok (f.fifoSendFromPullSlot, some ⟨f.getFifoSlotMetaPull, f.messageAtPull⟩) := if_pos hnet
  obtain ⟨-, sent, pending, hcar, hpend, hsplit, hcount, -⟩ := hcorrect _ _ (.snoc hrun hstep)
  have hall : allSent (tr ++ [(.fifoSendFromPullSlot,
      some ⟨f.getFifoSlotMetaPull, f.messageAtPull⟩)])
      = [⟨f.getFifoSlotMetaPull, f.messageAtPull⟩] := by
    simp only [allSent, List.filterMap_append] at hsent ⊢
    rw [hsent]
    rfl
  have hmeta : f.getFifoSlotMetaPull = ⟨0, 65536, 0, 0⟩ := by
    rw [Fifo.getFifoSlotMetaPull, hb.pullPtr]
    exact hb.slotMeta
  rw [hall] at hcar
  obtain ⟨m, hm, rfl⟩ : ∃ m, Sent.Carries 0 65536 ⟨f.getFifoSlotMetaPull, f.messageAtPull⟩ m ∧
      sent = [m] := by
    cases hcar with
    | cons h hnil =>
      cases hnil
      exact ⟨_, h, rfl⟩
  have hins' : m ++ pending.flatten = List.replicate 65536 [0] := by
    have hend : inserted (tr ++ [(.fifoSendFromPullSlot,
        some ⟨f.getFifoSlotMetaPull, f.messageAtPull⟩)]) = inserted tr := by simp [inserted]
    have hone : [m].flatten = m := by simp
    rwa [hend, hins, hone] at hsplit
  -- every byte was sent, so every request was
  have hbytes : m.flatten.length = 65536 := by
    have h := hm.byteSize
    rw [hmeta] at h
    simpa using h.symm
  have hone : ∀ r ∈ m, r.length = 1 := by
    intro r hr
    have hmem : r ∈ List.replicate 65536 ([0] : Request) := by
      rw [← hins']
      exact List.mem_append_left _ hr
    rw [List.eq_of_mem_replicate hmem]
    rfl
  have hlen : m.flatten.length = m.length := by
    rw [List.length_flatten, List.map_congr_left (g := fun _ => 1) hone]
    simp
  have htotal : m.length + pending.flatten.length = 65536 := by
    rw [← List.length_append, hins', List.length_replicate]
  have hleft : f.fifoSendFromPullSlot.netCapacity = 65536 := by
    have hsub : sub32 f.netCapacity f.getFifoSlotMetaPull.coalesceNum = 65536 := by
      rw [hb.netCapacity, hmeta]
      decide
    show (if sub32 f.netCapacity f.getFifoSlotMetaPull.coalesceNum = 0 then _ else _ :
      Fifo).fifoDecremCapacity.fifoIncrPullPtr.netCapacity = 65536
    rw [if_neg (by omega)]
    exact hsub
  omega

/-- An allocation of `2 ^ 32` bytes: `max_byte_size` wraps to 0, and the first insertion writes
    outside. -/
theorem not_correct_alloc : ¬ SendFifoCorrect (2 ^ 31) 2 0 := by
  intro hcorrect
  obtain ⟨hdefined, -⟩ := hcorrect [] _ .start
  exact hdefined (.odInsertMes [0] 0 false []) rfl

/-- Neither bound of `sendFifo_correct` can be dropped. -/
theorem sendFifo_incorrect : ¬ SendFifoCorrect 1 65536 0 ∧ ¬ SendFifoCorrect (2 ^ 31) 2 0 :=
  ⟨not_correct_coalesce, not_correct_alloc⟩

end Odyssey
