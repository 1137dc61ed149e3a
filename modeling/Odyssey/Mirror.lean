/-
  MIRRORING THE RECEIVE BUFFER OF A REMOTE MACHINE.

  Credits are not always sent: a machine can infer them from what the remote machine must have
  received and handled.  To do so it mirrors the remote receive FIFO.  A mirror is a FIFO whose
  slots hold one `uint16_t`, the requests of a message that are not handled yet:

  * `addToTheMirroredBuffer` appends a message of `coalesce_num` requests to the mirrors of all
    machines;
  * `removeFromTheMirroredBuffer` handles `remove_num` requests of one machine, in order.  Every
    message it finishes gives a credit back; the one it ends in is only reduced, in place.

  Nothing clears a slot, and the loop of a removal is driven by what it reads from the slots, so
  that it ends is a fact about all the calls before it: the live slots, from `pullPtr` on, are
  the messages not fully handled, and none of these is empty.

  The remote machine is modelled by what it received and how many requests of it are handled
  (`Remote`).  `MirrorState` puts the mirrors next to the machines they are mirrors of, and
  `MirrorInv` is the simulation between the two.

  The allocation has `max_size * 2` bytes, computed in `uint32_t`: from `2 ^ 31` slots on it is
  shorter than its slots.
-/
import Odyssey.ReceiveRing
import Odyssey.Lib.Counts

namespace Odyssey

open Lib

/-! ## The mirrors -/

/-- `fifo_t`, of a mirror. -/
structure MirrorFifo where
  /-- the allocation, as `uint16_t`s -/
  fifo : Nat → Nat
  pushPtr : Nat
  pullPtr : Nat
  /-- in slots -/
  maxSize : Nat
  maxByteSize : Nat
  capacity : Nat

/-- `ctx_qp_meta_mirror_buffers`: all mirrors are alike. -/
def ctxQpMetaMirrorBuffers (maxSize : UInt32) : Nat → MirrorFifo := fun _ =>
  { fifo := fun _ => 0
    pushPtr := 0
    pullPtr := 0
    maxSize := maxSize.toNat
    maxByteSize := u32 (maxSize.toNat * 2)
    capacity := 0 }

namespace MirrorFifo

variable (f : MirrorFifo)

/-- The slot is inside the allocation. -/
def allocated (sl : Nat) : Bool := sl * 2 + 2 ≤ f.maxByteSize

/-- One round of `add_to_the_mirrored_buffer`.  `qInfo` is `q_info->missing_num`, or `none` where
    `q_info` is NULL: a mirror that overflows is an error unless a machine has failed. -/
def addMirrored (coalesceNum : Nat) (qInfo : Option Nat) : Outcome MirrorFifo :=
  if f.allocated f.pushPtr then
    let f :=
      { f with
        fifo := Function.update f.fifo f.pushPtr (u16 coalesceNum)
        pushPtr := modIncr f.pushPtr f.maxSize
        capacity := u32 (f.capacity + 1) }
    if f.maxSize < f.capacity ∧ qInfo.getD 0 = 0 then .error .undefined else .ok f
  else .error .undefined

/-- The loop of `remove_from_the_mirrored_buffer`, over at most `n` rounds. -/
def removeLoop : Nat → MirrorFifo → Nat → Nat → Outcome (MirrorFifo × Nat)
  | 0, _, _, _ => .error .endless
  | n + 1, f, removeNum, newCredits =>
    if removeNum = 0 then .ok (f, newCredits)
    else if f.allocated f.pullPtr then
      if f.fifo f.pullPtr ≤ removeNum then
        removeLoop n
          { f with
            pullPtr := modIncr f.pullPtr f.maxSize
            capacity := sub32 f.capacity 1 }
          (removeNum - f.fifo f.pullPtr) (u16 (newCredits + 1))
      else
        removeLoop n
          { f with fifo := Function.update f.fifo f.pullPtr (f.fifo f.pullPtr - removeNum) }
          0 newCredits
    else .error .undefined

/-- `remove_from_the_mirrored_buffer`, on the mirror of one machine.  A loop that passes all slots
    without a request to remove in them passes them for ever. -/
def removeMirrored (removeNum : Nat) : Outcome (MirrorFifo × Nat) :=
  removeLoop ((removeNum + 1) * (f.maxSize + 1)) f removeNum 0

/-- The live slots, from `pullPtr` on. -/
def contents : List Nat := (window f.maxSize f.pullPtr f.capacity).map f.fifo

end MirrorFifo

/-- `add_to_the_mirrored_buffer`. -/
def addToTheMirroredBuffer (mirrorBuf : Nat → MirrorFifo) (coalesceNum : UInt8)
    (numberOfFifos : UInt16) (qInfo : Option Nat) : Outcome (Nat → MirrorFifo) :=
  forLoop 16 numberOfFifos.toNat (fun bufs i => do
    let f ← (bufs i).addMirrored coalesceNum.toNat qInfo
    return Function.update bufs i f) mirrorBuf

/-- `remove_from_the_mirrored_buffer`. -/
def removeFromTheMirroredBuffer (mirrorBuf : Nat → MirrorFifo) (removeNum : UInt16)
    (fifoId : UInt8) : Outcome ((Nat → MirrorFifo) × Nat) := do
  let (f, newCredits) ← (mirrorBuf fifoId.toNat).removeMirrored removeNum.toNat
  return (Function.update mirrorBuf fifoId.toNat f, newCredits)

/-! ## The machines they mirror -/

/-- A remote receive FIFO: the requests of each message received, and how many requests of them
    all are handled. -/
structure Remote where
  received : List Nat
  handled : Nat

namespace Remote

/-- The messages not fully handled. -/
def pending (r : Remote) : List Nat := unconsumed r.received r.handled

/-- How many messages are handled. -/
def done (r : Remote) : Nat := finished r.received r.handled

/-- A message arrives. -/
def receive (r : Remote) (c : Nat) : Remote := { r with received := r.received ++ [c] }

/-- Requests are handled. -/
def handle (r : Remote) (n : Nat) : Remote := { r with handled := r.handled + n }

theorem pending_handle (r : Remote) (n : Nat) : (r.handle n).pending = unconsumed r.pending n :=
  (unconsumed_unconsumed r.received r.handled n).symm

theorem done_handle (r : Remote) (n : Nat) : (r.handle n).done = r.done + finished r.pending n :=
  finished_add r.received r.handled n

end Remote

/-- The mirrors, next to the machines they are mirrors of. -/
structure MirrorState where
  fifoNum : Nat
  bufs : Nat → MirrorFifo
  remotes : Nat → Remote

inductive MirrorCall
  | add (coalesceNum : UInt8) (numberOfFifos : UInt16) (qInfo : Option Nat)
  | remove (removeNum : UInt16) (fifoId : UInt8)

namespace MirrorState

/-- What the callers promise: messages are not empty, they are added to mirrors that have room,
    and no more is removed than the machine has received. -/
def Allowed (s : MirrorState) : MirrorCall → Prop
  | .add coalesceNum numberOfFifos _ =>
    1 ≤ coalesceNum.toNat ∧ numberOfFifos.toNat ≤ s.fifoNum ∧
      ∀ i < numberOfFifos.toNat, (s.bufs i).capacity < (s.bufs i).maxSize
  | .remove removeNum fifoId =>
    fifoId.toNat < s.fifoNum ∧ 1 ≤ removeNum.toNat ∧
      removeNum.toNat ≤ (s.remotes fifoId.toNat).pending.sum

instance (s : MirrorState) : (call : MirrorCall) → Decidable (s.Allowed call)
  | .add coalesceNum numberOfFifos _ =>
    inferInstanceAs (Decidable (1 ≤ coalesceNum.toNat ∧ numberOfFifos.toNat ≤ s.fifoNum ∧
      ∀ i < numberOfFifos.toNat, (s.bufs i).capacity < (s.bufs i).maxSize))
  | .remove removeNum fifoId =>
    inferInstanceAs (Decidable (fifoId.toNat < s.fifoNum ∧ 1 ≤ removeNum.toNat ∧
      removeNum.toNat ≤ (s.remotes fifoId.toNat).pending.sum))

/-- A call, and the credits it returns. -/
def call (s : MirrorState) : MirrorCall → Outcome (MirrorState × Nat)
  | .add coalesceNum numberOfFifos qInfo => do
    let bufs ← addToTheMirroredBuffer s.bufs coalesceNum numberOfFifos qInfo
    return ({ s with
      bufs := bufs
      remotes := fun i =>
        if i < numberOfFifos.toNat then (s.remotes i).receive coalesceNum.toNat
        else s.remotes i }, 0)
  | .remove removeNum fifoId => do
    let (bufs, newCredits) ← removeFromTheMirroredBuffer s.bufs removeNum fifoId
    return ({ s with
      bufs := bufs
      remotes := Function.update s.remotes fifoId.toNat
        ((s.remotes fifoId.toNat).handle removeNum.toNat) }, newCredits)

end MirrorState

/-- One call, by a caller that keeps its promise. -/
def mirrorStep (s : MirrorState) (call : MirrorCall) : Outcome (MirrorState × Nat) :=
  if s.Allowed call then s.call call else .error .disabled

def mirrorStart (maxSize : UInt32) (fifoNum : UInt16) : MirrorState where
  fifoNum := fifoNum.toNat
  bufs := ctxQpMetaMirrorBuffers maxSize
  remotes := fun _ => ⟨[], 0⟩

end Odyssey
