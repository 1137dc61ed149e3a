/-
  A SEND FIFO IS A COALESCING QUEUE: the queue, and how the slots lay it out.

  What a send FIFO is for: requests go in one by one, messages come out, and the messages are the
  requests in insertion order, cut into non-empty pieces that fit a slot.  `Coalesced` is that
  purpose on its own: the messages already closed, oldest first, and the one under construction.

  The code keeps the same thing in a ring of slots, two pointers, two counters and per-slot
  metadata.  `Window f l` is the layout: the messages of `l` lie in consecutive slots from
  `pullPtr` on, the last of them in the slot at `pushPtr`.  Each primitive does one thing to it:

  * `Window.reset`   opens one more slot, empty (needs a free slot);
  * `Window.append`  adds a request to the message under construction;
  * `Window.pull`    drops the oldest message, when a newer one is there;
  * `Window.drain`   drops the only message.  The push pointer then advances behind the caller's
    back, which is what keeps the two pointers together, at any number of slots, 1 included.
-/
import Odyssey.Fifo
import Odyssey.Lib.Cyclic

namespace Odyssey

open Lib

/-! ## The abstract queue -/

/-- A request, as its bytes. -/
abbrev Request := List UInt8
/-- A message, as its requests. -/
abbrev Message := List Request

/-- The unsent messages: those closed, oldest first, and the one under construction.  A message
    is closed only when another request follows, so nothing closed is empty, and nothing is closed
    while the message under construction is. -/
structure Coalesced where
  closed : List Message
  building : Message
  closed_ne : ∀ m ∈ closed, m ≠ []
  closed_nil : building = [] → closed = []

namespace Coalesced

variable (c : Coalesced)

def empty : Coalesced := ⟨[], [], fun _ h => (nomatch h), fun _ => rfl⟩

/-- One message per slot in use, the slot under construction included even if empty. -/
def slots : List Message := c.closed ++ [c.building]

/-- The unsent messages. -/
def messages : List Message := if c.building = [] then [] else c.slots

/-- Insert a request; `fresh` asks for a new message. -/
def insert (req : Request) (fresh : Bool) : Coalesced :=
  if h : fresh = true ∧ c.building ≠ [] then
    ⟨c.closed ++ [c.building], [req], by
      intro m hm
      rcases List.mem_append.mp hm with hm | hm
      · exact c.closed_ne m hm
      · rw [List.mem_singleton.mp hm]
        exact h.2, fun hnil => (nomatch hnil)⟩
  else ⟨c.closed, c.building ++ [req], c.closed_ne, fun hnil => by simp at hnil⟩

/-- Send the oldest message. -/
def send : Message × Coalesced :=
  match h : c.closed with
  | [] => (c.building, empty)
  | m :: rest => (m, ⟨rest, c.building, fun m' hm' => c.closed_ne m' (by rw [h]; simp [hm']),
      fun hb => absurd (c.closed_nil hb) (by rw [h]; simp)⟩)

theorem slots_flatten : c.slots.flatten = c.messages.flatten := by
  unfold messages
  split
  · rename_i h
    simp [slots, h, c.closed_nil h]
  · rfl

theorem messages_ne : ∀ m ∈ c.messages, m ≠ [] := by
  intro m hm
  unfold messages at hm
  split at hm
  · nomatch hm
  · rename_i h
    rcases List.mem_append.mp hm with hm | hm
    · exact c.closed_ne m hm
    · rw [List.mem_singleton.mp hm]
      exact h

/-- Inserting appends one request. -/
theorem insert_flatten (req : Request) (fresh : Bool) :
    (c.insert req fresh).messages.flatten = c.messages.flatten ++ [req] := by
  rw [← slots_flatten, ← slots_flatten]
  unfold insert
  split <;> simp [slots]

/-- A fresh message closes the one under construction. -/
theorem insert_fresh (req : Request) (hb : c.building ≠ []) :
    (c.insert req true).closed = c.closed ++ [c.building] ∧ (c.insert req true).building = [req] := by
  unfold insert
  rw [dif_pos ⟨rfl, hb⟩]
  exact ⟨rfl, rfl⟩

/-- Without one the request joins it. -/
theorem insert_join (req : Request) :
    (c.insert req false).closed = c.closed ∧
      (c.insert req false).building = c.building ++ [req] := by
  unfold insert
  rw [dif_neg fun h => Bool.false_ne_true h.1]
  exact ⟨rfl, rfl⟩

/-- Sending takes the requests of the sent message off the front. -/
theorem send_flatten (hne : c.messages ≠ []) :
    c.messages = c.send.1 :: c.send.2.messages := by
  have hb : c.building ≠ [] := by
    intro hb
    exact hne (by simp [messages, hb])
  unfold send
  split
  · rename_i h
    simp [messages, slots, empty, hb, h]
  · rename_i m rest h
    simp [messages, slots, hb, h]

/-- The sent message was the only one. -/
theorem send_drain (h : c.closed = []) : c.slots = [c.send.1] ∧ c.send.2 = empty := by
  unfold send slots
  split
  · exact ⟨by rw [h]; rfl, rfl⟩
  · rename_i m rest h'
    rw [h] at h'
    nomatch h'

/-- The sent message was a closed one. -/
theorem send_pull (h : c.closed ≠ []) :
    c.slots = c.send.1 :: c.send.2.slots ∧ c.send.2.building = c.building := by
  unfold send
  split
  · rename_i h'
    exact absurd h' h
  · rename_i m rest h'
    exact ⟨by simp [slots, h'], rfl⟩

end Coalesced

/-! ## The layout: messages in consecutive slots -/

/-- The slot `sl` holds the message `m`: the metadata count it, the bytes behind the header are
    its requests. -/
structure HoldsMessage (f : Fifo) (sl : Nat) (m : Message) : Prop where
  coalesce : (f.slotMeta sl).coalesceNum = m.length
  byteSize : (f.slotMeta sl).byteSize = f.mesHeader + m.flatten.length
  fits : f.mesHeader + m.flatten.length ≤ f.slotSize
  bytes : readAt f.fifo (f.slotSize * sl + f.mesHeader) m.flatten.length = m.flatten
  nonempty : ∀ r ∈ m, r ≠ []

/-- The dimensions of a FIFO whose counters are wide enough. -/
structure Geometry (f : Fifo) : Prop where
  header_lt : f.mesHeader < f.slotSize
  header16 : f.mesHeader < 2 ^ 16
  requests16 : f.slotSize - f.mesHeader < 2 ^ 16
  bytes32 : f.maxSize * f.slotSize < 2 ^ 32
  alloc : f.maxByteSize = f.maxSize * f.slotSize

/-- The messages of `l` lie in consecutive slots from `pullPtr` on, the last at `pushPtr`. -/
structure Window (f : Fifo) (l : List Message) : Prop where
  pull_lt : f.pullPtr < f.maxSize
  ne_nil : l ≠ []
  length_le : l.length ≤ f.maxSize
  push : f.pushPtr = slot f.maxSize f.pullPtr (l.length - 1)
  holds : ∀ k (h : k < l.length), HoldsMessage f (slot f.maxSize f.pullPtr k) l[k]

/-- Two slots do not share a byte. -/
theorem slots_disjoint {a b : Nat} (s : Nat) (h : a ≠ b) :
    s * a + s ≤ s * b ∨ s * b + s ≤ s * a := by
  rcases Nat.lt_or_gt_of_ne h with h | h
  · left
    calc s * a + s = s * (a + 1) := rfl
      _ ≤ s * b := Nat.mul_le_mul_left s h
  · right
    calc s * b + s = s * (b + 1) := rfl
      _ ≤ s * a := Nat.mul_le_mul_left s h

/-- A message of non-empty requests has no more requests than bytes. -/
theorem length_le_flatten {m : Message} (h : ∀ r ∈ m, r ≠ []) : m.length ≤ m.flatten.length := by
  induction m with
  | nil => simp
  | cons r m ih =>
    have hr : 0 < r.length := List.length_pos_iff.mpr (h r (by simp))
    have ih' := ih (fun r' hr' => h r' (by simp [hr']))
    simp only [List.flatten_cons, List.length_append, List.length_cons]
    omega

section Layout

variable {f : Fifo} (g : Geometry f)

include g

theorem Geometry.slot_addr {sl : Nat} (h : sl < f.maxSize) (off : Nat) :
    f.getFifoSlotPrivate sl off = f.slotSize * sl + off := by
  have hbytes : f.slotSize * sl < 2 ^ 32 := by
    calc f.slotSize * sl ≤ f.slotSize * f.maxSize := Nat.mul_le_mul_left _ (by omega)
      _ = f.maxSize * f.slotSize := Nat.mul_comm _ _
      _ < 2 ^ 32 := g.bytes32
  unfold Fifo.getFifoSlotPrivate
  rw [u32_of_lt hbytes]

/-- The slots lie inside the allocation. -/
theorem Geometry.slot_in {sl : Nat} (h : sl < f.maxSize) :
    f.slotSize * sl + f.slotSize ≤ f.maxByteSize := by
  rw [g.alloc]
  calc f.slotSize * sl + f.slotSize = f.slotSize * (sl + 1) := rfl
    _ ≤ f.slotSize * f.maxSize := Nat.mul_le_mul_left _ h
    _ = f.maxSize * f.slotSize := Nat.mul_comm _ _

theorem Geometry.slotSize_lt (hN : 0 < f.maxSize) : f.slotSize < 2 ^ 32 := by
  calc f.slotSize = 1 * f.slotSize := (Nat.one_mul _).symm
    _ ≤ f.maxSize * f.slotSize := Nat.mul_le_mul_right _ hN
    _ < 2 ^ 32 := g.bytes32

theorem Geometry.maxSize_lt : f.maxSize < 2 ^ 32 := by
  have hpos : 0 < f.slotSize := by have := g.header_lt; omega
  calc f.maxSize = f.maxSize * 1 := (Nat.mul_one _).symm
    _ ≤ f.maxSize * f.slotSize := Nat.mul_le_mul_left _ hpos
    _ < 2 ^ 32 := g.bytes32

/-- Advancing a pointer of the FIFO is one step around the ring. -/
theorem Geometry.modIncr_slot (hp : f.pullPtr < f.maxSize) (k : Nat) :
    modIncr (slot f.maxSize f.pullPtr k) f.maxSize = slot f.maxSize f.pullPtr (k + 1) := by
  have hlt : slot f.maxSize f.pullPtr k < f.maxSize := slot_lt (by omega)
  have hN := g.maxSize_lt
  unfold modIncr
  rw [u32_of_lt (by omega), succ_mod_slot]

end Layout

/-! ## What the primitives do to the layout -/

/-- A slot keeps its message when its counts and its bytes are kept. -/
theorem HoldsMessage.congr {f f' : Fifo} {sl : Nat} {m : Message} (h : HoldsMessage f sl m)
    (hhdr : f'.mesHeader = f.mesHeader) (hsize : f'.slotSize = f.slotSize)
    (hco : (f'.slotMeta sl).coalesceNum = (f.slotMeta sl).coalesceNum)
    (hby : (f'.slotMeta sl).byteSize = (f.slotMeta sl).byteSize)
    (hbytes : ∀ i, i < f.slotSize → f'.fifo (f.slotSize * sl + i) = f.fifo (f.slotSize * sl + i)) :
    HoldsMessage f' sl m := by
  refine ⟨hco.trans h.coalesce, ?_, ?_, ?_, h.nonempty⟩
  · rw [hby, hhdr]
    exact h.byteSize
  · rw [hhdr, hsize]
    exact h.fits
  · rw [hhdr, hsize, ← h.bytes]
    have hfits := h.fits
    rw [length_readAt]
    apply List.map_congr_left
    intro i hi
    have hlt := List.mem_range.mp hi
    rw [Nat.add_assoc]
    exact hbytes _ (by omega)

/-- The counters are not part of the layout. -/
theorem Window.counters {f : Fifo} {l : List Message} (w : Window f l) (cap net : Nat) :
    Window { f with capacity := cap, netCapacity := net } l := by
  refine ⟨w.pull_lt, w.ne_nil, w.length_le, w.push, fun k hk => ?_⟩
  exact (w.holds k hk).congr rfl rfl rfl rfl (fun _ _ => rfl)

/-- An empty message. -/
theorem holdsMessage_nil {f : Fifo} {sl : Nat} (hco : (f.slotMeta sl).coalesceNum = 0)
    (hby : (f.slotMeta sl).byteSize = f.mesHeader) (hfits : f.mesHeader ≤ f.slotSize) :
    HoldsMessage f sl [] :=
  ⟨hco, by simpa using hby, by simpa using hfits, rfl, fun _ h => nomatch h⟩

/-- Counting the reply of a request does not move the window. -/
theorem Window.setResp {f : Fifo} {l : List Message} (w : Window f l) (n : Nat) :
    Window (f.setSlotMetaPush { f.getFifoSlotMetaPush with respSize := n }) l := by
  refine ⟨w.pull_lt, w.ne_nil, w.length_le, w.push, fun k hk => ?_⟩
  by_cases hsl : slot f.maxSize f.pullPtr k = f.pushPtr
  · refine (w.holds k hk).congr rfl rfl ?_ ?_ (fun _ _ => rfl)
    · show ((f.setSlotMetaPush _).slotMeta (slot f.maxSize f.pullPtr k)).coalesceNum = _
      rw [hsl, Fifo.slotMeta_setSlotMetaPush_self]
      rfl
    · show ((f.setSlotMetaPush _).slotMeta (slot f.maxSize f.pullPtr k)).byteSize = _
      rw [hsl, Fifo.slotMeta_setSlotMetaPush_self]
      rfl
  · have hmeta := f.slotMeta_setSlotMetaPush_ne { f.getFifoSlotMetaPush with respSize := n } hsl
    exact (w.holds k hk).congr rfl rfl (congrArg _ hmeta) (congrArg _ hmeta) (fun _ _ => rfl)

/-- What a reset leaves at the new push slot. -/
theorem resetFifoSlot_push {f : Fifo} (g : Geometry f) (hp : f.pullPtr < f.maxSize) {k : Nat}
    (hpush : f.pushPtr = slot f.maxSize f.pullPtr k) :
    f.resetFifoSlot.pushPtr = slot f.maxSize f.pullPtr (k + 1) := by
  show modIncr f.pushPtr f.maxSize = _
  rw [hpush, g.modIncr_slot hp]

theorem resetFifoSlot_holds {f : Fifo} (g : Geometry f) :
    HoldsMessage f.resetFifoSlot f.resetFifoSlot.pushPtr [] := by
  have hmeta : f.resetFifoSlot.slotMeta f.resetFifoSlot.pushPtr
      = { f.fifoIncrPushPtr.getFifoSlotMetaPush with
          byteSize := u16 f.mesHeader, respSize := 0, coalesceNum := 0 } :=
    Fifo.slotMeta_setSlotMetaPush_self ..
  refine holdsMessage_nil ?_ ?_ (Nat.le_of_lt g.header_lt)
  · rw [hmeta]
  · rw [hmeta]
    exact u16_of_lt g.header16

/-- **Reset** opens one more slot. -/
theorem Window.reset {f : Fifo} {l : List Message} (w : Window f l) (g : Geometry f)
    (hfree : l.length < f.maxSize) : Window f.resetFifoSlot (l ++ [[]]) := by
  have hlen : 0 < l.length := List.length_pos_iff.mpr w.ne_nil
  have hlen' : (l ++ [[]]).length = l.length + 1 := by simp
  have hpush : f.resetFifoSlot.pushPtr = slot f.maxSize f.pullPtr l.length := by
    rw [resetFifoSlot_push g w.pull_lt w.push]
    congr 1
    omega
  refine ⟨w.pull_lt, by simp, ?_, ?_, fun k hk => ?_⟩
  · show (l ++ [[]]).length ≤ f.maxSize
    omega
  · show f.resetFifoSlot.pushPtr = slot f.maxSize f.pullPtr ((l ++ [[]]).length - 1)
    rw [hpush, hlen']
    rfl
  · show HoldsMessage f.resetFifoSlot (slot f.maxSize f.pullPtr k) (l ++ [[]])[k]
    by_cases hold : k < l.length
    · rw [List.getElem_append_left hold]
      have hne : slot f.maxSize f.pullPtr k ≠ f.fifoIncrPushPtr.pushPtr := by
        show _ ≠ f.resetFifoSlot.pushPtr
        rw [hpush]
        exact slot_ne w.pull_lt (by omega) hfree (by omega)
      have hmeta : f.resetFifoSlot.slotMeta (slot f.maxSize f.pullPtr k)
          = f.slotMeta (slot f.maxSize f.pullPtr k) :=
        f.fifoIncrPushPtr.slotMeta_setSlotMetaPush_ne _ hne
      exact (w.holds k hold).congr rfl rfl (congrArg _ hmeta) (congrArg _ hmeta) (fun _ _ => rfl)
    · have hk' : k = l.length := by omega
      subst hk'
      have hlast : (l ++ [[]])[l.length] = ([] : Message) := by simp
      rw [hlast, ← hpush]
      exact resetFifoSlot_holds g

/-- **Drain**: the only message goes, and the push pointer moves on with the pull pointer.  With
    one slot both stay where they are, and the slot is made empty again. -/
theorem Window.drain {f : Fifo} {m : Message} (w : Window f [m]) (g : Geometry f) :
    Window f.resetFifoSlot.fifoIncrPullPtr [[]] := by
  have hpos : 0 < f.maxSize := by have := w.pull_lt; omega
  have hpush : f.resetFifoSlot.pushPtr = slot f.maxSize f.pullPtr 1 :=
    resetFifoSlot_push g w.pull_lt w.push
  have hpull : f.resetFifoSlot.fifoIncrPullPtr.pullPtr = slot f.maxSize f.pullPtr 1 := by
    have h := g.modIncr_slot w.pull_lt 0
    rwa [slot_zero w.pull_lt] at h
  have hslot : slot f.maxSize (slot f.maxSize f.pullPtr 1) 0 = slot f.maxSize f.pullPtr 1 :=
    slot_zero (slot_lt hpos)
  refine ⟨?_, by simp, hpos, ?_, fun k hk => ?_⟩
  · rw [hpull]
    exact slot_lt hpos
  · show f.resetFifoSlot.pushPtr = slot f.maxSize f.resetFifoSlot.fifoIncrPullPtr.pullPtr 0
    rw [hpull, hpush, hslot]
  · have hk0 : k = 0 := by simpa using hk
    subst hk0
    have h := resetFifoSlot_holds g
    rw [hpush, ← hslot, ← hpull] at h
    exact h.congr rfl rfl rfl rfl (fun _ _ => rfl)

/-- **Pull**: the oldest message goes, a newer one is there. -/
theorem Window.pull {f : Fifo} {m : Message} {l : List Message} (w : Window f (m :: l))
    (g : Geometry f) (hl : l ≠ []) : Window f.fifoIncrPullPtr l := by
  have hpos : 0 < f.maxSize := by have := w.pull_lt; omega
  have hlen : 0 < l.length := List.length_pos_iff.mpr hl
  have hpull : f.fifoIncrPullPtr.pullPtr = slot f.maxSize f.pullPtr 1 := by
    have h := g.modIncr_slot w.pull_lt 0
    rwa [slot_zero w.pull_lt] at h
  have hshift : ∀ k, slot f.maxSize f.fifoIncrPullPtr.pullPtr k = slot f.maxSize f.pullPtr (k + 1) := by
    intro k
    rw [hpull, slot_slot, Nat.add_comm]
  refine ⟨?_, hl, ?_, ?_, fun k hk => ?_⟩
  · rw [hpull]
    exact slot_lt hpos
  · have hle : l.length + 1 ≤ f.maxSize := w.length_le
    show l.length ≤ f.maxSize
    omega
  · show f.pushPtr = slot f.maxSize f.fifoIncrPullPtr.pullPtr (l.length - 1)
    have hpush : f.pushPtr = slot f.maxSize f.pullPtr l.length := w.push
    rw [hshift, hpush]
    congr 1
    omega
  · show HoldsMessage f.fifoIncrPullPtr (slot f.maxSize f.fifoIncrPullPtr.pullPtr k) l[k]
    rw [hshift]
    exact (w.holds (k + 1) (by simpa using hk)).congr rfl rfl rfl rfl (fun _ _ => rfl)

/-- The second half of an insertion: count the request, write the header of the message and the
    request behind what the message holds so far. -/
def Fifo.fillSlot (f : Fifo) (req hdr : List UInt8) : Fifo :=
  let m := f.getFifoSlotMetaPush
  let ptr := f.getFifoSlotPrivate f.pushPtr m.byteSize
  let bytes := writeAt f.fifo f.getFifoPushSlot (hdr.take f.mesHeader)
  let f := f.setSlotMetaPush
    { m with coalesceNum := u16 (m.coalesceNum + 1), byteSize := u32 (m.byteSize + req.length) }
  { f with fifo := writeAt bytes ptr req }

theorem Fifo.fillSlot_slotMeta (f : Fifo) (req hdr : List UInt8) :
    (f.fillSlot req hdr).slotMeta f.pushPtr = { f.getFifoSlotMetaPush with
      coalesceNum := u16 (f.getFifoSlotMetaPush.coalesceNum + 1)
      byteSize := u32 (f.getFifoSlotMetaPush.byteSize + req.length) } :=
  f.slotMeta_setSlotMetaPush_self _

section Append

variable {f : Fifo} {l : List Message} {m : Message} (w : Window f (l ++ [m])) (g : Geometry f)

include w

theorem Window.push_last : f.pushPtr = slot f.maxSize f.pullPtr l.length := by
  have hpush := w.push
  rwa [List.length_append, List.length_singleton, Nat.add_sub_cancel] at hpush

theorem Window.push_lt : f.pushPtr < f.maxSize := by
  have hpull := w.pull_lt
  rw [w.push_last]
  exact slot_lt (by omega)

/-- The message under construction is at the push slot. -/
theorem Window.building : HoldsMessage f f.pushPtr m := by
  have h := w.holds l.length (by simp)
  rw [← w.push_last] at h
  simpa using h

include g

/-- A message has as many requests as a `uint16_t` counts. -/
theorem Window.coalesce_lt {req : Request} (hreq : req ≠ [])
    (hfit : f.mesHeader + m.flatten.length + req.length ≤ f.slotSize) : m.length + 1 < 2 ^ 16 := by
  have hone : 0 < req.length := List.length_pos_iff.mpr hreq
  have hm : m.length ≤ m.flatten.length := length_le_flatten w.building.nonempty
  have h16 := g.requests16
  omega

/-- What `fillSlot` leaves in the slot under construction. -/
theorem Window.fillSlot_building {req : Request} (hdr : List UInt8) (hreq : req ≠ [])
    (hfit : f.mesHeader + m.flatten.length + req.length ≤ f.slotSize) :
    HoldsMessage (f.fillSlot req hdr) f.pushPtr (m ++ [req]) := by
  have hb := w.building
  have hpush := w.push_lt
  have hmeta := f.fillSlot_slotMeta req hdr
  have hco : f.getFifoSlotMetaPush.coalesceNum = m.length := hb.coalesce
  have hby : f.getFifoSlotMetaPush.byteSize = f.mesHeader + m.flatten.length := hb.byteSize
  have hflat : (m ++ [req]).flatten = m.flatten ++ req := by simp
  have hlen : (m ++ [req]).flatten.length = m.flatten.length + req.length := by
    rw [hflat, List.length_append]
  refine ⟨?_, ?_, ?_, ?_, ?_⟩
  · rw [hmeta, hco, List.length_append, List.length_singleton]
    exact u16_of_lt (w.coalesce_lt g hreq hfit)
  · have hsize := g.slotSize_lt (by omega)
    rw [hmeta, hby, hlen, ← Nat.add_assoc]
    exact u32_of_lt (by omega)
  · rw [hlen, ← Nat.add_assoc]
    exact hfit
  · -- the requests so far lie before the new one, and behind the header
    have hat : f.getFifoSlotPrivate f.pushPtr f.getFifoSlotMetaPush.byteSize
        = f.slotSize * f.pushPtr + f.mesHeader + m.flatten.length := by
      rw [g.slot_addr hpush, hby, Nat.add_assoc]
    have hslot : f.getFifoPushSlot = f.slotSize * f.pushPtr := g.slot_addr hpush 0
    have hhdr : (hdr.take f.mesHeader).length ≤ f.mesHeader := List.length_take_le ..
    show readAt (writeAt (writeAt f.fifo f.getFifoPushSlot (hdr.take f.mesHeader))
        (f.getFifoSlotPrivate f.pushPtr f.getFifoSlotMetaPush.byteSize) req)
      (f.slotSize * f.pushPtr + f.mesHeader) (m ++ [req]).flatten.length = (m ++ [req]).flatten
    rw [hlen, hflat, hat, hslot, readAt_add, readAt_writeAt_self,
      readAt_writeAt_disjoint (Or.inl (by omega)), readAt_writeAt_disjoint (Or.inr (by omega)),
      hb.bytes]
  · intro r hr
    rcases List.mem_append.mp hr with hr | hr
    · exact hb.nonempty r hr
    · rw [List.mem_singleton.mp hr]
      exact hreq

/-- `fillSlot` stays inside the slot under construction. -/
theorem Window.fillSlot_other {req : Request} (hdr : List UInt8) {sl : Nat} {m' : Message}
    (hfit : f.mesHeader + m.flatten.length + req.length ≤ f.slotSize)
    (hne : sl ≠ f.pushPtr) (h : HoldsMessage f sl m') :
    HoldsMessage (f.fillSlot req hdr) sl m' := by
  have hpush := w.push_lt
  have hby : f.getFifoSlotMetaPush.byteSize = f.mesHeader + m.flatten.length :=
    w.building.byteSize
  have hmeta : (f.fillSlot req hdr).slotMeta sl = f.slotMeta sl :=
    f.slotMeta_setSlotMetaPush_ne _ hne
  refine h.congr rfl rfl (congrArg _ hmeta) (congrArg _ hmeta) (fun i hi => ?_)
  have hat : f.getFifoSlotPrivate f.pushPtr f.getFifoSlotMetaPush.byteSize
      = f.slotSize * f.pushPtr + (f.mesHeader + m.flatten.length) := by
    rw [g.slot_addr hpush, hby]
  have hslot : f.getFifoPushSlot = f.slotSize * f.pushPtr := g.slot_addr hpush 0
  have hhdr : (hdr.take f.mesHeader).length ≤ f.mesHeader := List.length_take_le ..
  show writeAt (writeAt f.fifo f.getFifoPushSlot (hdr.take f.mesHeader))
      (f.getFifoSlotPrivate f.pushPtr f.getFifoSlotMetaPush.byteSize) req (f.slotSize * sl + i)
    = f.fifo (f.slotSize * sl + i)
  rw [hat, hslot]
  rcases slots_disjoint f.slotSize hne with hbelow | habove
  · rw [writeAt_of_lt (by omega), writeAt_of_lt (by omega)]
  · rw [writeAt_of_ge (by omega), writeAt_of_ge (by omega)]

/-- **Append** adds a request to the message under construction. -/
theorem Window.append {req : Request} (hdr : List UInt8) (hreq : req ≠ [])
    (hfit : f.mesHeader + m.flatten.length + req.length ≤ f.slotSize) :
    Window (f.fillSlot req hdr) (l ++ [m ++ [req]]) := by
  have hpush := w.push_last
  have hlen : (l ++ [m ++ [req]]).length = (l ++ [m]).length := by simp
  have hle := w.length_le
  refine ⟨w.pull_lt, by simp, ?_, ?_, fun k hk => ?_⟩
  · rw [hlen]
    exact w.length_le
  · rw [hlen]
    exact w.push
  · show HoldsMessage (f.fillSlot req hdr) (slot f.maxSize f.pullPtr k) (l ++ [m ++ [req]])[k]
    rw [List.length_append, List.length_singleton] at hle
    by_cases hold : k < l.length
    · have hother := w.holds k (by omega)
      rw [List.getElem_append_left hold] at hother ⊢
      refine w.fillSlot_other g hdr hfit ?_ hother
      rw [hpush]
      exact slot_ne w.pull_lt (by omega) (by omega) (by omega)
    · have hk' : k = l.length := by
        rw [List.length_append, List.length_singleton] at hk
        omega
      subst hk'
      have hlast : (l ++ [m ++ [req]])[l.length] = m ++ [req] := by simp
      rw [hlast, ← hpush]
      exact w.fillSlot_building g hdr hreq hfit

end Append

end Odyssey
