/-
  THE COUNTERS OF A SEND FIFO, AND THE REFINEMENT.

  `Represents f c`: the slots of `f` lay out the queue `c`, `capacity` counts its messages and
  `netCapacity` its requests.  An insertion is cut in two, `openSlot` (which slot) and `fillSlot`
  (into it), and `odInsertMes` and `fifoSendFromPullSlot` refine `Coalesced.insert` and
  `Coalesced.send`: `Represents.insert`, `Represents.send`.

  Two conditions on the FIFO are needed for the C counters to hold what they count (`Geometry`):
  a message must have room for fewer than `2 ^ 16` bytes of requests (`coalesce_num` is a
  `uint16_t`), and the allocation must have fewer than `2 ^ 32` bytes (`max_byte_size`, the byte
  offsets and `net_capacity` are `uint32_t`s).  The code asks for much smaller messages: it
  asserts `byte_size <= MTU`.
-/
import Odyssey.SendFifo.Layout

namespace Odyssey

open Lib

/-! ## An insertion in two halves -/

/-- Does the next request open a new message? -/
def Fifo.startsMessage (f : Fifo) (newSize respSize : Nat) (createNewMes : Bool) : Bool :=
  let m := f.getFifoSlotMetaPush
  f.newMessage { m with respSize := u32 (m.respSize + respSize) } newSize createNewMes

/-- The first half of an insertion: count the reply, and open a slot if the request needs one. -/
def Fifo.openSlot (f : Fifo) (newSize respSize : Nat) (createNewMes : Bool) : Fifo :=
  let m := f.getFifoSlotMetaPush
  let counted := f.setSlotMetaPush { m with respSize := u32 (m.respSize + respSize) }
  if f.startsMessage newSize respSize createNewMes then counted.resetFifoSlot else counted

/-- Count the request in. -/
def Fifo.countRequest (f : Fifo) : Fifo :=
  (if f.getFifoSlotMetaPush.coalesceNum = 1 then f.fifoIncremCapacity else f).fifoIncrNetCapacity

/-- The code counts the reply in place and then reads it back. -/
theorem Fifo.getSendFifoPtr_openSlot (f : Fifo) (newSize respSize : Nat) (createNewMes : Bool) :
    f.getSendFifoPtr newSize respSize createNewMes =
      (let f' := f.openSlot newSize respSize createNewMes
       let m := f'.getFifoSlotMetaPush
       (f'.setSlotMetaPush
         { m with coalesceNum := u16 (m.coalesceNum + 1), byteSize := u32 (m.byteSize + newSize) },
        f'.getFifoSlotPrivate f'.pushPtr m.byteSize)) := by
  have hback : ∀ m, (f.setSlotMetaPush m).getFifoSlotMetaPush = m :=
    f.slotMeta_setSlotMetaPush_self
  have htest : ∀ m, (f.setSlotMetaPush m).newMessage = f.newMessage := fun _ => rfl
  simp only [Fifo.getSendFifoPtr, Fifo.openSlot, Fifo.startsMessage, hback, htest]
  rfl

theorem Fifo.odInsertMes_eq (f : Fifo) (req hdr : List UInt8) (recvSize : Nat) (brk : Bool) :
    f.odInsertMes req recvSize brk hdr =
      (let f' := f.openSlot req.length recvSize brk
       if f'.getFifoSlotPrivate f'.pushPtr f'.getFifoSlotMetaPush.byteSize + req.length
          ≤ f'.maxByteSize then .ok (f'.fillSlot req hdr).countRequest else .error .undefined) := by
  simp only [Fifo.odInsertMes, Fifo.getSendFifoPtr_openSlot]
  rfl

/-- The FIFO `f` keeps the queue `c`. -/
structure Represents (f : Fifo) (c : Coalesced) : Prop where
  geometry : Geometry f
  window : Window f c.slots
  capacity : f.capacity = c.messages.length
  netCapacity : f.netCapacity = c.messages.flatten.length
  /-- no reply is counted for an empty message -/
  respSize : c.building = [] → f.getFifoSlotMetaPush.respSize = 0

/-- Requests are no more than the bytes they take. -/
theorem flatten_length_le {l : List Message} {n : Nat} (hne : ∀ m ∈ l, ∀ r ∈ m, r ≠ [])
    (hle : ∀ m ∈ l, m.flatten.length ≤ n) : l.flatten.length ≤ l.length * n := by
  induction l with
  | nil => simp
  | cons m l ih =>
    have hm : m.length ≤ m.flatten.length := length_le_flatten (hne m (by simp))
    have hn : m.flatten.length ≤ n := hle m (by simp)
    have ih' := ih (fun m' h' => hne m' (by simp [h'])) (fun m' h' => hle m' (by simp [h']))
    rw [List.flatten_cons, List.length_append, List.length_cons, Nat.add_mul, Nat.one_mul]
    omega

/-- The unsent requests fit the counter `netCapacity`. -/
theorem Window.requests_lt {f : Fifo} {l : List Message} (w : Window f l) (g : Geometry f) :
    l.flatten.length < 2 ^ 32 := by
  have hmem : ∀ m ∈ l, ∃ k, HoldsMessage f k m := by
    intro m hm
    obtain ⟨k, hk, rfl⟩ := List.getElem_of_mem hm
    exact ⟨_, w.holds k hk⟩
  have hle : l.flatten.length ≤ l.length * f.slotSize := by
    apply flatten_length_le
    · intro m hm
      obtain ⟨k, hk⟩ := hmem m hm
      exact hk.nonempty
    · intro m hm
      obtain ⟨k, hk⟩ := hmem m hm
      have hfits := hk.fits
      omega
  have hbytes : l.length * f.slotSize ≤ f.maxSize * f.slotSize :=
    Nat.mul_le_mul_right _ w.length_le
  have h32 := g.bytes32
  omega

theorem Fifo.geometry_openSlot {f : Fifo} (g : Geometry f) (n r : Nat) (b : Bool) :
    Geometry (f.openSlot n r b) := by
  unfold Fifo.openSlot
  split <;> exact ⟨g.header_lt, g.header16, g.requests16, g.bytes32, g.alloc⟩

/-- Counting a request in. -/
theorem countRequest_eq (f : Fifo) : f.countRequest =
    { f with
      capacity := if f.getFifoSlotMetaPush.coalesceNum = 1 then u32 (f.capacity + 1) else f.capacity
      netCapacity := u32 (f.netCapacity + 1) } := by
  unfold Fifo.countRequest
  split <;> rfl

namespace Represents

variable {f : Fifo} {c : Coalesced}

/-- The message under construction and the closed ones, split as the layout lemmas want them. -/
theorem building (rep : Represents f c) : HoldsMessage f f.pushPtr c.building :=
  Window.building (l := c.closed) rep.window

/-- An empty message takes any request the caller may insert. -/
theorem startsMessage_ne (rep : Represents f c) {req : Request} {recvSize : Nat} {brk : Bool}
    (hsize : req.length ≤ f.slotSize - f.mesHeader) (hrecv : recvSize ≤ mtu)
    (hnew : f.startsMessage req.length recvSize brk = true) : c.building ≠ [] := by
  intro hb
  have g := rep.geometry
  have hhdr := g.header_lt
  have h16 := g.header16
  have hreq16 := g.requests16
  have hresp : f.getFifoSlotMetaPush.respSize = 0 := rep.respSize hb
  have hco : f.getFifoSlotMetaPush.coalesceNum = 0 := by
    have h := rep.building.coalesce
    rwa [hb] at h
  have hby : f.getFifoSlotMetaPush.byteSize = f.mesHeader := by
    have h := rep.building.byteSize
    rwa [hb] at h
  have hmtu : mtu = 4096 := rfl
  have hrep : u32 recvSize = recvSize := u32_of_lt (by omega)
  have hsum : u32 (f.mesHeader + req.length) = f.mesHeader + req.length := u32_of_lt (by omega)
  simp only [Fifo.startsMessage, Fifo.newMessage, hresp, hco, hby, Nat.zero_add, hrep, hsum,
    bne_self_eq_false, Bool.and_false, Bool.or_false, Bool.or_eq_true, decide_eq_true_eq] at hnew
  omega

/-- A request that opens no message fits the one under construction. -/
theorem fits_building (rep : Represents f c) {req : Request} {recvSize : Nat} {brk : Bool}
    (hsize : req.length ≤ f.slotSize - f.mesHeader)
    (hold : f.startsMessage req.length recvSize brk = false) :
    f.mesHeader + c.building.flatten.length + req.length ≤ f.slotSize := by
  have g := rep.geometry
  have hhdr := g.header_lt
  have h16 := g.header16
  have hreq16 := g.requests16
  have hfits := rep.building.fits
  have hby : f.getFifoSlotMetaPush.byteSize = f.mesHeader + c.building.flatten.length :=
    rep.building.byteSize
  have hsum : u32 (f.mesHeader + c.building.flatten.length + req.length)
      = f.mesHeader + c.building.flatten.length + req.length := u32_of_lt (by omega)
  simp only [Fifo.startsMessage, Fifo.newMessage, hby, hsum, Bool.or_eq_false_iff,
    decide_eq_false_iff_not] at hold
  omega

/-- Filling the slot under construction, and counting, once the slot is chosen. -/
theorem fill {l : List Message} {m : Message} {req hdr : Request} (g : Geometry f)
    (w : Window f (l ++ [m])) (hcap : f.capacity = if m = [] then l.length else l.length + 1)
    (hnet : f.netCapacity = (l ++ [m]).flatten.length) (hreq : req ≠ [])
    (hfit : f.mesHeader + m.flatten.length + req.length ≤ f.slotSize)
    (hc : c.slots = l ++ [m ++ [req]]) : Represents (f.fillSlot req hdr).countRequest c := by
  have w' := w.append g hdr hreq hfit
  have g' : Geometry (f.fillSlot req hdr) :=
    ⟨g.header_lt, g.header16, g.requests16, g.bytes32, g.alloc⟩
  have hb : c.building = m ++ [req] := by
    have hlast := congrArg List.getLast? hc
    simpa [Coalesced.slots] using hlast
  have hne : c.building ≠ [] := by
    rw [hb]
    simp
  have hmes : c.messages = l ++ [m ++ [req]] := by
    rw [Coalesced.messages, if_neg hne, hc]
  have hco : (f.fillSlot req hdr).getFifoSlotMetaPush.coalesceNum = m.length + 1 := by
    have h := (w.fillSlot_building g hdr hreq hfit).coalesce
    rwa [List.length_append] at h
  have hflat : (l ++ [m ++ [req]]).flatten.length = (l ++ [m]).flatten.length + 1 := by
    simp [Nat.add_assoc]
  rw [countRequest_eq, hco]
  refine ⟨⟨g.header_lt, g.header16, g.requests16, g.bytes32, g.alloc⟩, ?_, ?_, ?_,
    fun h => absurd h hne⟩
  · rw [hc]
    exact w'.counters _ _
  · have hN := g.maxSize_lt
    have hle := w.length_le
    have hfill : (f.fillSlot req hdr).capacity = f.capacity := rfl
    rw [List.length_append, List.length_singleton] at hle
    simp only [hmes, hfill, hcap, List.length_append, List.length_singleton]
    by_cases hm : m = []
    · rw [if_pos (by simp [hm]), if_pos hm, u32_of_lt (by omega)]
    · have hpos : 0 < m.length := List.length_pos_iff.mpr hm
      rw [if_neg (by omega), if_neg hm]
  · have hlt := w'.requests_lt g'
    have hfill : (f.fillSlot req hdr).netCapacity = f.netCapacity := rfl
    rw [hflat] at hlt
    simp only [hmes, hfill, hnet, hflat]
    exact u32_of_lt hlt

/-- The write of a request that fits stays in the allocation. -/
theorem write_in {l : List Message} {m : Message} {req : Request} (g : Geometry f)
    (w : Window f (l ++ [m])) (hfit : f.mesHeader + m.flatten.length + req.length ≤ f.slotSize) :
    f.getFifoSlotPrivate f.pushPtr f.getFifoSlotMetaPush.byteSize + req.length
      ≤ f.maxByteSize := by
  have hpush := w.push_lt
  have hby : f.getFifoSlotMetaPush.byteSize = f.mesHeader + m.flatten.length :=
    w.building.byteSize
  have hin := g.slot_in hpush
  rw [g.slot_addr hpush, hby]
  omega

/-- **Insertion refines.**  `od_insert_mes` returns, and the FIFO then keeps the queue with the
    request at its end. -/
theorem insert (rep : Represents f c) {req : Request} {recvSize : Nat} {brk : Bool}
    (hdr : List UInt8) (hreq : req ≠ []) (hsize : req.length ≤ f.slotSize - f.mesHeader)
    (hrecv : recvSize ≤ mtu)
    (hfree : f.startsMessage req.length recvSize brk = true → f.capacity < f.maxSize) :
    ∃ f', f.odInsertMes req recvSize brk hdr = .ok f' ∧
      Represents f' (c.insert req (f.startsMessage req.length recvSize brk)) := by
  have g := rep.geometry
  have hhdr := g.header_lt
  have w := rep.window.setResp (u32 (f.getFifoSlotMetaPush.respSize + recvSize))
  have g' := Fifo.geometry_openSlot g req.length recvSize brk
  have hcapacity := rep.capacity
  have hnetcap := rep.netCapacity
  rw [Fifo.odInsertMes_eq]
  by_cases hnew : f.startsMessage req.length recvSize brk = true
  · -- a new slot, and the request alone in it
    have hb := rep.startsMessage_ne hsize hrecv hnew
    have hmes : c.messages = c.slots := if_neg hb
    rw [hmes] at hcapacity hnetcap
    have hlen : c.slots.length < f.maxSize := by
      have h := hfree hnew
      rwa [hcapacity] at h
    have hopen : f.openSlot req.length recvSize brk = (f.setSlotMetaPush
        { f.getFifoSlotMetaPush with
          respSize := u32 (f.getFifoSlotMetaPush.respSize + recvSize) }).resetFifoSlot := by
      simp only [Fifo.openSlot, hnew, if_true]
    have w' := w.reset ⟨g.header_lt, g.header16, g.requests16, g.bytes32, g.alloc⟩ hlen
    rw [← hopen] at w'
    have hfit : (f.openSlot req.length recvSize brk).mesHeader + ([] : Message).flatten.length
        + req.length ≤ (f.openSlot req.length recvSize brk).slotSize := by
      rw [hopen]
      show f.mesHeader + 0 + req.length ≤ f.slotSize
      omega
    refine ⟨_, if_pos (write_in g' w' hfit), ?_⟩
    refine fill g' w' ?_ ?_ hreq hfit ?_
    · rw [hopen, if_pos rfl]
      exact hcapacity
    · rw [hopen]
      show f.netCapacity = _
      simpa using hnetcap
    · rw [hnew]
      simp [Coalesced.insert, Coalesced.slots, hb]
  · have hold : f.startsMessage req.length recvSize brk = false := by simpa using hnew
    have hfit := rep.fits_building hsize hold
    have hopen : f.openSlot req.length recvSize brk = f.setSlotMetaPush
        { f.getFifoSlotMetaPush with
          respSize := u32 (f.getFifoSlotMetaPush.respSize + recvSize) } := by
      simp [Fifo.openSlot, hold]
    rw [← hopen] at w
    have hfit' : (f.openSlot req.length recvSize brk).mesHeader + c.building.flatten.length
        + req.length ≤ (f.openSlot req.length recvSize brk).slotSize := by
      rw [hopen]
      exact hfit
    refine ⟨_, if_pos (write_in (l := c.closed) g' w hfit'), ?_⟩
    refine fill (l := c.closed) g' w ?_ ?_ hreq hfit' ?_
    · have hcap' : (f.openSlot req.length recvSize brk).capacity = f.capacity := by
        rw [hopen]
        rfl
      rw [hcap', hcapacity]
      by_cases hb : c.building = []
      · simp [Coalesced.messages, hb, c.closed_nil hb]
      · simp [Coalesced.messages, hb, Coalesced.slots]
    · have hnet' : (f.openSlot req.length recvSize brk).netCapacity = f.netCapacity := by
        rw [hopen]
        rfl
      rw [hnet', hnetcap, ← Coalesced.slots_flatten]
      rfl
    · rw [hold]
      simp [Coalesced.insert, Coalesced.slots]

/-- What there is to send is the message at the pull slot. -/
theorem oldest (rep : Represents f c) : HoldsMessage f f.pullPtr c.send.1 := by
  have hpos := List.length_pos_iff.mpr rep.window.ne_nil
  have h := rep.window.holds 0 hpos
  rw [slot_zero rep.window.pull_lt] at h
  have hhead : c.slots[0] = c.send.1 := by
    by_cases hc : c.closed = []
    · simp only [(c.send_drain hc).1, List.getElem_cons_zero]
    · simp only [(c.send_pull hc).1, List.getElem_cons_zero]
  rwa [hhead] at h

/-- Something is counted, so there is something to send. -/
theorem messages_ne (rep : Represents f c) (h : 0 < f.netCapacity) : c.messages ≠ [] := by
  intro hnil
  have hnet := rep.netCapacity
  rw [hnil] at hnet
  have hzero : f.netCapacity = 0 := hnet
  omega

/-- **Sending refines.**  `fifo_send_from_pull_slot` drops the oldest message. -/
theorem send (rep : Represents f c) (h : 0 < f.netCapacity) :
    Represents f.fifoSendFromPullSlot c.send.2 := by
  have g := rep.geometry
  have w := rep.window
  have hsplit := c.send_flatten (rep.messages_ne h)
  have hnet : f.netCapacity = c.send.1.length + c.send.2.messages.flatten.length := by
    rw [rep.netCapacity, hsplit, List.flatten_cons, List.length_append]
  have hlt : f.netCapacity < 2 ^ 32 := by
    have hlt := w.requests_lt g
    rwa [Coalesced.slots_flatten, ← rep.netCapacity] at hlt
  have hleft : sub32 f.netCapacity f.getFifoSlotMetaPull.coalesceNum
      = c.send.2.messages.flatten.length := by
    have hco : f.getFifoSlotMetaPull.coalesceNum = c.send.1.length := rep.oldest.coalesce
    rw [hco, sub32_of_le hlt (by omega)]
    omega
  have hcap : sub32 f.capacity 1 = c.send.2.messages.length := by
    have hmes : c.messages.length ≤ c.slots.length := by
      unfold Coalesced.messages
      split <;> simp
    have hlen := congrArg List.length hsplit
    have hN := g.maxSize_lt
    have hle := w.length_le
    rw [List.length_cons] at hlen
    rw [rep.capacity, hlen, sub32_of_le (by omega) (by omega), Nat.add_sub_cancel]
  by_cases hc : c.closed = []
  · -- the FIFO drains, and the push pointer moves on
    obtain ⟨hslots, hempty⟩ := c.send_drain hc
    rw [hempty] at hleft hcap ⊢
    have hzero : sub32 f.netCapacity f.getFifoSlotMetaPull.coalesceNum = 0 := hleft
    have hsend : f.fifoSendFromPullSlot = { f.resetFifoSlot.fifoIncrPullPtr with
        capacity := sub32 f.capacity 1, netCapacity := 0 } := by
      simp only [Fifo.fifoSendFromPullSlot, hzero, if_true]
      rfl
    rw [hslots] at w
    have w' := (w.drain g).counters (sub32 f.capacity 1) 0
    rw [hsend]
    refine ⟨⟨g.header_lt, g.header16, g.requests16, g.bytes32, g.alloc⟩, w', hcap, rfl, ?_⟩
    intro _
    have hmeta : f.resetFifoSlot.slotMeta f.resetFifoSlot.pushPtr = _ :=
      Fifo.slotMeta_setSlotMetaPush_self ..
    show (f.resetFifoSlot.slotMeta f.resetFifoSlot.pushPtr).respSize = 0
    rw [hmeta]
  · -- a newer message remains
    obtain ⟨hslots, hb⟩ := c.send_pull hc
    have hne : c.send.2.slots ≠ [] := by simp [Coalesced.slots]
    have hbuild : c.building ≠ [] := fun hb => hc (c.closed_nil hb)
    have hpos : c.send.2.messages.flatten.length ≠ 0 := by
      rw [← Coalesced.slots_flatten, Coalesced.slots, hb]
      simp [hbuild]
    have hsend : f.fifoSendFromPullSlot = { f.fifoIncrPullPtr with
        capacity := sub32 f.capacity 1
        netCapacity := c.send.2.messages.flatten.length } := by
      simp only [Fifo.fifoSendFromPullSlot, hleft, if_neg hpos, Fifo.fifoDecremCapacity,
        Fifo.fifoIncrPullPtr]
    rw [hslots] at w
    have w' := (w.pull g hne).counters (sub32 f.capacity 1) c.send.2.messages.flatten.length
    rw [hsend]
    refine ⟨⟨g.header_lt, g.header16, g.requests16, g.bytes32, g.alloc⟩, w', hcap, rfl, ?_⟩
    intro hnil
    rw [hb] at hnil
    exact absurd hnil hbuild

end Represents

end Odyssey
