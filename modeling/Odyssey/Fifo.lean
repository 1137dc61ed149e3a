/-
  THE FIFO of `od_fifo.h`, and the insertion of requests into a send FIFO.

  A FIFO is `maxSize` slots of `slotSize` bytes in one allocation, a `pushPtr`, a `pullPtr` and
  two counters: `capacity` counts the slots in use (for a send FIFO, the messages), and
  `netCapacity` the requests in them.  A send FIFO coalesces requests: the slot at `pushPtr` holds
  the message under construction, `slotMeta` describes it, and

  * `getSendFifoPtr` decides whether the next request still fits in it (by the bytes of the
    message, by the bytes of its reply, or because the caller asks for a new message), advances
    to a fresh slot if not, and returns the address to write the request to;
  * `odInsertMes` calls it, lets the protocol's `insert_helper` write there, and counts;
  * `fifoSendFromPullSlot` drops the oldest message.  When it drops the last request it also
    advances `pushPtr` to a fresh slot, so that `pushPtr` and `pullPtr` meet.

  All counters compute in the width of the C fields.  The assertions of `check_fifo` are compiled
  out (`ENABLE_ASSERTIONS` 0).
-/
import Odyssey.Top
import Odyssey.Lib.Memory
import Mathlib.Logic.Function.Basic

namespace Odyssey

open Lib

/-! ## The data -/

/-- `slot_meta_t`: the message in a slot.  (`backward_ptr` belongs to the protocols.) -/
structure SlotMeta where
  /-- `uint16_t`: requests in the message -/
  coalesceNum : Nat
  /-- `uint32_t`: bytes of the message, header included -/
  byteSize : Nat
  /-- `uint32_t`: bytes of the reply, as far as it was counted -/
  respSize : Nat
  /-- machine to send this message, if unicast -/
  rmId : Nat
  deriving DecidableEq

/-- `fifo_t`. -/
structure Fifo where
  /-- the bytes of the allocation -/
  fifo : Nat → UInt8
  slotMeta : Nat → SlotMeta
  pushPtr : Nat
  pullPtr : Nat
  /-- in slots -/
  maxSize : Nat
  maxByteSize : Nat
  capacity : Nat
  netCapacity : Nat
  slotSize : Nat
  mesHeader : Nat

/-- `(x + 1) % N` in `uint32_t`. -/
def modIncr (x N : Nat) : Nat := u32 (x + 1) % N

/-- `fifo_constructor`, one FIFO with slot metadata: everything is zero but the header of the
    first message.  `mes_header` is a `uint16_t`. -/
def fifoConstructor (maxSize slotSize : Nat) (mesHeader : UInt16) : Fifo where
  fifo := fun _ => 0
  slotMeta := Function.update (fun _ => ⟨0, 0, 0, 0⟩) 0 ⟨0, mesHeader.toNat, 0, 0⟩
  pushPtr := 0
  pullPtr := 0
  maxSize := maxSize
  maxByteSize := u32 (maxSize * slotSize)
  capacity := 0
  netCapacity := 0
  slotSize := slotSize
  mesHeader := mesHeader.toNat

namespace Fifo

variable (f : Fifo)

/-! ## Slots -/

/-- `get_fifo_slot_private`, as an offset into the allocation: `slot_size * slot` is computed in
    `uint32_t`. -/
def getFifoSlotPrivate (slotNo offset : Nat) : Nat := u32 (f.slotSize * slotNo) + offset

def getFifoPullSlot : Nat := f.getFifoSlotPrivate f.pullPtr 0

def getFifoPushSlot : Nat := f.getFifoSlotPrivate f.pushPtr 0

def getFifoSlotMetaPush : SlotMeta := f.slotMeta f.pushPtr

def getFifoSlotMetaPull : SlotMeta := f.slotMeta f.pullPtr

/-- A write through `get_fifo_slot_meta_push`. -/
def setSlotMetaPush (m : SlotMeta) : Fifo :=
  { f with slotMeta := Function.update f.slotMeta f.pushPtr m }

@[simp] theorem slotMeta_setSlotMetaPush_self (m : SlotMeta) :
    (f.setSlotMetaPush m).slotMeta f.pushPtr = m := Function.update_self ..

theorem slotMeta_setSlotMetaPush_ne (m : SlotMeta) {sl : Nat} (h : sl ≠ f.pushPtr) :
    (f.setSlotMetaPush m).slotMeta sl = f.slotMeta sl := Function.update_of_ne h ..

def fifoIncrPushPtr : Fifo := { f with pushPtr := modIncr f.pushPtr f.maxSize }

def fifoIncrPullPtr : Fifo := { f with pullPtr := modIncr f.pullPtr f.maxSize }

def fifoIncremCapacity : Fifo := { f with capacity := u32 (f.capacity + 1) }

def fifoDecremCapacity : Fifo := { f with capacity := sub32 f.capacity 1 }

def fifoIncrNetCapacity : Fifo := { f with netCapacity := u32 (f.netCapacity + 1) }

/-! ## Building and sending messages -/

/-- Set up a fresh message to coalesce requests. -/
def resetFifoSlot : Fifo :=
  let f := f.fifoIncrPushPtr
  f.setSlotMetaPush
    { f.getFifoSlotMetaPush with byteSize := u16 f.mesHeader, respSize := 0, coalesceNum := 0 }

/-- The test of `get_send_fifo_ptr`: does the request start a new slot?  `respSize` already
    counts the reply of the new request. -/
def newMessage (m : SlotMeta) (newSize : Nat) (createNewMes : Bool) : Bool :=
  m.respSize > mtu || u32 (m.byteSize + newSize) > f.slotSize ||
    (createNewMes && m.coalesceNum != 0)

/-- `get_send_fifo_ptr`: the address to write the next request to. -/
def getSendFifoPtr (newSize respSize : Nat) (createNewMes : Bool) : Fifo × Nat :=
  let m := f.getFifoSlotMetaPush
  let f := f.setSlotMetaPush { m with respSize := u32 (m.respSize + respSize) }
  let f := if f.newMessage f.getFifoSlotMetaPush newSize createNewMes then f.resetFifoSlot else f
  let m := f.getFifoSlotMetaPush
  let insideRPtr := m.byteSize
  let f := f.setSlotMetaPush
    { m with coalesceNum := u16 (m.coalesceNum + 1), byteSize := u32 (m.byteSize + newSize) }
  (f, f.getFifoSlotPrivate f.pushPtr insideRPtr)

/-- `od_insert_mes`.  `insert_helper` is the protocol's: it writes the request `req` to the
    address it gets, and may write the header `hdr` of the message.  Behind the allocation the
    write is undefined. -/
def odInsertMes (req : List UInt8) (recvSize : Nat) (breakMessage : Bool)
    (hdr : List UInt8) : Outcome Fifo :=
  let (f, ptr) := f.getSendFifoPtr req.length recvSize breakMessage
  if ptr + req.length ≤ f.maxByteSize then
    let bytes := writeAt f.fifo f.getFifoPushSlot (hdr.take f.mesHeader)
    let f := { f with fifo := writeAt bytes ptr req }
    let f := if f.getFifoSlotMetaPush.coalesceNum = 1 then f.fifoIncremCapacity else f
    .ok f.fifoIncrNetCapacity
  else .error .undefined

/-- Drop the message at `pullPtr`. -/
def fifoSendFromPullSlot : Fifo :=
  let f := { f with netCapacity := sub32 f.netCapacity f.getFifoSlotMetaPull.coalesceNum }
  let f := if f.netCapacity = 0 then f.resetFifoSlot else f
  f.fifoDecremCapacity.fifoIncrPullPtr

/-- The bytes a send of the pull slot posts: `byteSize` bytes from the slot on, as
    `ctx_forge_bcast_wr` and `ctx_forge_unicast_wr` set up their scatter-gather entry. -/
def messageAtPull : List UInt8 :=
  readAt f.fifo f.getFifoPullSlot f.getFifoSlotMetaPull.byteSize

end Fifo

end Odyssey
