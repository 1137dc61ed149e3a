/-
  THE MICHAEL-SCOTT QUEUES of `od_client.c`: every session enqueues a node that it owns, dequeues
  one from the same queue, and goes on to the next queue with the node it has got.

  A queue is a chain of nodes, of which the first is a dummy.  Its head and its tail are pointers
  in the store, and every node has one to the next node, at a key of its own; all three are of one
  type and carry a counter.  A dequeue moves the head to the second node, and the session takes
  the first.  The pointer of a node is swapped by an enqueue, and overwritten by the session that
  owns the node before it is linked again.  The tail may be one node behind the last; who sees it
  there swaps it forward.

  * A build is as shipped, with `CLIENT_ASSERTIONS` and `MS_NO_CONFLICT` 0: a pointer that is
    overwritten keeps the counter it was read with, and `enqueue_num` and `dequeue_num` are not
    looked at.
  * The store keeps all pointers by their keys, as the code does: tails, heads, nodes.
  * The first client sets the queues up in its session 0, and goes on without waiting for that.
    The other clients wait until they see the flag that it sets last.
  * A client goes round its sessions, and `msStep` keeps that order: the next session is the one at
    `s_i`.  A call that finds no free slot in the ring of its session waits for one, and so does a
    request that is not executed yet when the state machine polls for it; the client waits there
    with all its sessions.  A pass is one turn, the one in which its last request gets a slot.
-/
import Odyssey.SetUp
import Odyssey.ClientRing

namespace Odyssey

open Lib

/-! ## Data -/

/-- `MS_WRITES_NUM` -/
def msWritesNum : Nat := 1

/-- `MS_INIT_DONE_FLAG` -/
def msInitDoneFlag : Nat := 162

/-- `struct ms_ptr` -/
structure MsPtr where
  pushed : Bool
  queueId : Nat
  myKeyId : Nat
  nextKeyId : Nat
  counter : Nat
  deriving DecidableEq

/-- A pointer in memory that is zeroed. -/
def MsPtr.zero : MsPtr := ⟨false, 0, 0, 0, 0⟩

/-- `struct ms_node` -/
structure MsNode where
  nodeId : Nat
  nodePtrKeyId : Nat
  deriving DecidableEq

/-- The part of the store that the queues use. -/
structure MsStore where
  ptr : Nat → MsPtr
  node : Nat → MsNode
  initDone : Nat

/-- `MS_INIT`, `MS_LOOP_START` and so on -/
inductive MsState
  | init
  | loopStart
  | readTail
  | readLastNode
  | readHead
  | readFirstNode
  | potentialSuccess
  deriving DecidableEq

/-- `MS_ENQUEUING` and `MS_DEQUEUING` -/
inductive EnqOrDeq
  | enqueuing
  | dequeuing
  deriving DecidableEq

/-- `struct ms_sess_info`, with the `init_done_flag` of `ms_wait_for_init` -/
structure MsSessInfo where
  state : MsState
  enqOrDeqState : EnqOrDeq
  success : Bool
  advanceTailResult : Bool
  tailLeftBehind : Bool
  lastReqId : Nat
  queueId : Nat
  ownedKey : Nat
  ownedKeyPtr : Nat
  tail : MsPtr
  secondTail : MsPtr
  newTail : MsPtr
  head : MsPtr
  secondHead : MsPtr
  newHead : MsPtr
  newNode : Nat → MsNode
  ownedNodePtr : MsPtr
  lastOrFirstNodeMsPtr : MsPtr
  newLastOrFirstNodeMsPtr : MsPtr
  initDoneFlag : Nat

/-- The pointers of a session that the store writes. -/
inductive MsBuffer
  | tail
  | secondTail
  | head
  | secondHead
  | ownedNodePtr
  | lastNodePtr
  deriving DecidableEq

/-- What a compare-and-swap is of: it expects `last_or_first_node_ms_ptr`, `tail` or `head`, and
    reports to `success`, for the tail to `advance_tail_result`. -/
inductive MsSwap
  | lastNode
  | tail
  | head
  deriving DecidableEq

/-- The requests of a session. -/
inductive MsReq
  /-- `async_acquire_strong` or `async_read_strong` of a pointer -/
  | readPtr (keyId : Nat) (buffer : MsBuffer)
  | writePtr (keyId : Nat) (ptr : MsPtr)
  /-- `async_read_strong` of a node, into `new_node[i]` -/
  | readNode (keyId i : Nat)
  | writeNode (keyId : Nat) (node : MsNode)
  /-- a weak `async_cas_strong` of a pointer -/
  | cas (keyId : Nat) (swap : MsSwap) (ptr : MsPtr)
  /-- `blocking_read` of the flag -/
  | readFlag
  | releaseFlag (flag : Nat)
  deriving DecidableEq

/-- What a step shows. -/
inductive MsEvent
  | moved
  | served
  /-- node `keyId` was linked behind the last of queue `queueId` -/
  | enqueued (queueId keyId : Nat)
  /-- node `keyId` was the first of queue `queueId`, and is not in it any more -/
  | dequeued (queueId keyId : Nat)
  deriving DecidableEq

abbrev MsSession := Issuer MsSessInfo MsReq
abbrev MsSys := Sessions MsStore BenchClient MsSessInfo MsReq

/-! ## Keys -/

namespace Deployment

variable (d : Deployment)

/-- `MS_QUEUES_NUM`, which is also `DUMMY_KEYS_NUM` and `MS_NODE_NUM` -/
def msQueuesNum : Nat := d.globalSessionNum
/-- `MS_HEAD_KEY_ID_OFFSET`; `MS_TAIL_KEY_ID_OFFSET` is 0 -/
def msHeadKeyIdOffset : Nat := d.msQueuesNum
/-- `MS_NODE_PTR_OFFSET` -/
def msNodePtrOffset : Nat := 2 * d.msQueuesNum
/-- `LAST_MS_NODE_PTR` -/
def lastMsNodePtr : Nat := d.msNodePtrOffset + d.msQueuesNum + d.msQueuesNum
/-- `DUMMY_KEY_ID_OFFSET` -/
def dummyKeyIdOffset : Nat := d.lastMsNodePtr + 1
/-- `MS_NODE_KEY_OFFSET` -/
def msNodeKeyOffset : Nat := d.dummyKeyIdOffset + msWritesNum * d.msQueuesNum
/-- `MS_INIT_DONE_FLAG_KEY` -/
def msInitDoneFlagKey : Nat := d.msNodeKeyOffset + msWritesNum * d.msQueuesNum

/-- `ms_get_node_ptr_key_id` -/
def msGetNodePtrKeyId (nodeKeyId : Nat) : Nat :=
  u32 (d.msNodePtrOffset + u32 (nodeKeyId + (2 ^ 32 - d.dummyKeyIdOffset)) / msWritesNum)

end Deployment

/-- `are_ms_ptrs_equal` -/
def areMsPtrsEqual (ptr1 ptr2 : MsPtr) : Outcome Bool :=
  if ptr1.queueId = ptr2.queueId ∧ ptr1.myKeyId = ptr2.myKeyId then
    .ok (ptr1.nextKeyId = ptr2.nextKeyId ∧ ptr1.counter = ptr2.counter : Bool)
  else .error .undefined

/-! ## ms_enqueue_state_machine -/

/-- The pointer after `ptr`: to `nextKeyId`, and counted. -/
def MsPtr.advance (into ptr : MsPtr) (nextKeyId : Nat) : MsPtr :=
  { into with nextKeyId := nextKeyId, counter := u64 (ptr.counter + 1) }

namespace Deployment

variable (d : Deployment)

/-- `MS_LOOP_START` of an enqueue, after the writes of `MS_INIT` if there are any -/
def enqLoopStart (x : MsSession) (info : MsSessInfo) (writes : List MsReq) :
    MsSessInfo × List MsReq :=
  ({ info with lastReqId := lastReqIdAfter x (writes.length + 1), state := .readTail },
    writes ++ [.readPtr info.queueId .tail])

/-- `ms_enqueue_state_machine`; `info` is what the session holds, with `new_tail->my_key_id` set. -/
def msEnqueue (x : MsSession) : Outcome (MsSessInfo × List MsReq) :=
  let info := { x.info with newTail := { x.info.newTail with myKeyId := x.info.queueId } }
  match info.state with
  | .init =>
    let newNode := Function.update info.newNode 0 ⟨info.ownedKey, info.ownedKeyPtr⟩
    let ptr := { info.ownedNodePtr with nextKeyId := 0 }
    .ok (enqLoopStart x { info with newNode := newNode, ownedNodePtr := ptr }
      (((List.range msWritesNum).map fun i => .writeNode (u32 (info.ownedKey + i)) (newNode i)) ++
        [.writePtr info.ownedKeyPtr ptr]))
  | .loopStart => .ok (enqLoopStart x info [])
  | .readTail => do
    pollAReqBlocking x info.lastReqId
    return ({ info with lastReqId := lastReqIdAfter x 2, state := .readLastNode },
      [.readPtr (d.msGetNodePtrKeyId info.tail.nextKeyId) .lastNodePtr,
        .readPtr info.queueId .secondTail])
  | .readLastNode => do
    pollAReqBlocking x info.lastReqId
    let equal ← areMsPtrsEqual info.tail info.secondTail
    if equal = false then return ({ info with state := .loopStart }, [])
    else if info.lastOrFirstNodeMsPtr.nextKeyId = 0 then
      let ptr := info.newLastOrFirstNodeMsPtr.advance info.lastOrFirstNodeMsPtr info.ownedKey
      return ({ info with
          newLastOrFirstNodeMsPtr := ptr
          lastReqId := lastReqIdAfter x 1, state := .potentialSuccess },
        [.cas (d.msGetNodePtrKeyId info.tail.nextKeyId) .lastNode ptr])
    else
      let ptr := info.newTail.advance info.tail info.lastOrFirstNodeMsPtr.nextKeyId
      return ({ info with
          newTail := ptr, advanceTailResult := false, tailLeftBehind := true
          lastReqId := lastReqIdAfter x 1, state := .loopStart },
        [.cas info.queueId .tail ptr])
  | .potentialSuccess => do
    pollAReqBlocking x info.lastReqId
    if info.success = true then
      let ptr := info.newTail.advance info.tail info.ownedKey
      return ({ info with
          newTail := ptr, success := false, enqOrDeqState := .dequeuing, state := .init },
        [.cas info.queueId .tail ptr])
    else return ({ info with state := .loopStart }, [])
  | .readHead => .ok (info, [])
  | .readFirstNode => .ok (info, [])

/-! ## ms_dequeue_state_machine -/

/-- `ms_dequeue_state_machine`, with `queue_id_cntr` -/
def msDequeue (cntr : Nat) (x : MsSession) : Outcome (Nat × MsSessInfo × List MsReq) :=
  let headKeyId := u32 (x.info.queueId + d.msHeadKeyIdOffset)
  let info := { x.info with
    newTail := { x.info.newTail with myKeyId := x.info.queueId }
    newHead := { x.info.newHead with myKeyId := headKeyId } }
  match info.state with
  | .init | .loopStart =>
    .ok (cntr, { info with lastReqId := lastReqIdAfter x 1, state := .readHead },
      [.readPtr headKeyId .head, .readPtr info.queueId .tail])
  | .readHead => do
    pollAReqBlocking x info.lastReqId
    return (cntr, { info with lastReqId := lastReqIdAfter x 2, state := .readFirstNode },
      [.readPtr (d.msGetNodePtrKeyId info.head.nextKeyId) .ownedNodePtr,
        .readPtr headKeyId .secondHead])
  | .readFirstNode => do
    pollAReqBlocking x info.lastReqId
    let equal ← areMsPtrsEqual info.head info.secondHead
    if equal = false then return (cntr, { info with state := .loopStart }, [])
    else if info.head.nextKeyId = info.tail.nextKeyId then
      let ptr := info.newTail.advance info.tail info.ownedNodePtr.nextKeyId
      return (cntr, { info with
          newTail := ptr, advanceTailResult := false, tailLeftBehind := true
          lastReqId := lastReqIdAfter x 1, state := .loopStart },
        [.cas info.queueId .tail ptr])
    else
      let ptr := info.newHead.advance info.head info.ownedNodePtr.nextKeyId
      return (cntr, { info with
          newHead := ptr, lastReqId := lastReqIdAfter x (msWritesNum + 1)
          state := .potentialSuccess },
        ((List.range msWritesNum).map fun i => .readNode (u32 (info.head.nextKeyId + i)) i) ++
          [.cas headKeyId .head ptr])
  | .potentialSuccess => do
    pollAReqBlocking x info.lastReqId
    if info.success = true then
      return (d.incrQueueId cntr, { info with
        ownedKey := info.head.nextKeyId
        ownedKeyPtr := d.msGetNodePtrKeyId info.head.nextKeyId
        success := false, queueId := cntr, enqOrDeqState := .enqueuing, state := .init }, [])
    else return (cntr, { info with state := .loopStart }, [])
  | .readTail => .ok (cntr, info, [])
  | .readLastNode => .ok (cntr, info, [])

/-! ## ms_enqueue_dequeue_multi_session -/

/-- What `ms_set_up_tail_and_head` writes for a queue.  `tail` and `head` are locals of which it
    sets three fields only. -/
def setUpQueue (tail head : MsPtr) (queue : Nat) : List MsReq :=
  let dummyKey := u32 (d.dummyKeyIdOffset + queue * msWritesNum)
  let dummyPtrKey := d.msGetNodePtrKeyId dummyKey
  [.writePtr queue { tail with nextKeyId := dummyKey, counter := 0, myKeyId := queue },
    .writePtr (u32 (d.msHeadKeyIdOffset + queue))
      { head with nextKeyId := dummyKey, counter := 0, myKeyId := u32 (d.msHeadKeyIdOffset + queue) },
    .writePtr dummyPtrKey ⟨true, queue, dummyPtrKey, 0, 1⟩]

/-- `ms_set_up_tail_and_head`: the requests that it issues in session 0. -/
def msSetUp (tail head : MsPtr) : List MsReq :=
  (List.range d.msQueuesNum).flatMap (d.setUpQueue tail head) ++ [.releaseFlag msInitDoneFlag]

/-- What `ms_enqueue_dequeue_multi_session` sets up for a session. -/
def msSessInfo (g : Nat) : MsSessInfo where
  state := .init
  enqOrDeqState := .enqueuing
  success := false
  advanceTailResult := false
  tailLeftBehind := false
  lastReqId := 0
  queueId := d.globSessI g
  ownedKey := u32 (d.msNodeKeyOffset + d.globSessI g * msWritesNum)
  ownedKeyPtr := d.msGetNodePtrKeyId (u32 (d.msNodeKeyOffset + d.globSessI g * msWritesNum))
  tail := .zero
  secondTail := .zero
  newTail := .zero
  head := .zero
  secondHead := .zero
  newHead := .zero
  newNode _ := ⟨0, 0⟩
  ownedNodePtr := .zero
  lastOrFirstNodeMsPtr := .zero
  newLastOrFirstNodeMsPtr := .zero
  initDoneFlag := 0

/-- `queue_id_cntr` of a client, at first -/
def msQueueIdCntr (client : Nat) : Nat :=
  let machineId := client / d.clientsPerMachine
  let keyOffset := u32 (d.msNodeKeyOffset + msWritesNum * (d.sessionsPerMachine * machineId))
  let sessOffset := u16 (client % d.clientsPerMachine * d.sessionsPerClient)
  let lastKey := u32 (keyOffset + (sessOffset + (d.sessionsPerClient - 1)) * msWritesNum)
  u32 (machineId * 100 + lastKey) % d.msQueuesNum

/-- A pass over a session, in the loop. -/
def msLoopPass (cntr : Nat) (x : MsSession) : Outcome (Nat × MsSessInfo × List MsReq) :=
  match x.info.enqOrDeqState with
  | .enqueuing => do
    let (info, requests) ← d.msEnqueue x
    return (cntr, info, requests)
  | .dequeuing => d.msDequeue cntr x

/-- `ms_wait_for_init` -/
def msWaitForInit (g : Nat) (client : BenchClient) (x : MsSession) :
    Outcome (BenchClient × MsSessInfo × List MsReq) :=
  d.waitForInit .readFlag x.info.initDoneFlag msInitDoneFlag g client x

/-- What a client does in a session. -/
def msPass (g : Nat) (client : BenchClient) (x : MsSession) :
    Outcome (BenchClient × MsSessInfo × List MsReq) :=
  if client.phase = .running then do
    let (cntr, info, requests) ← d.msLoopPass client.queueIdCntr x
    return ({ client with queueIdCntr := cntr }, info, requests)
  else d.msWaitForInit g client x

end Deployment

/-! ## The store -/

/-- Writes one of the pointers of a session. -/
def MsSessInfo.fill (info : MsSessInfo) (ptr : MsPtr) : MsBuffer → MsSessInfo
  | .tail => { info with tail := ptr }
  | .secondTail => { info with secondTail := ptr }
  | .head => { info with head := ptr }
  | .secondHead => { info with secondHead := ptr }
  | .ownedNodePtr => { info with ownedNodePtr := ptr }
  | .lastNodePtr => { info with lastOrFirstNodeMsPtr := ptr }

/-- The pointer that a compare-and-swap expects. -/
def MsSessInfo.expected (info : MsSessInfo) : MsSwap → MsPtr
  | .lastNode => info.lastOrFirstNodeMsPtr
  | .tail => info.tail
  | .head => info.head

/-- The result of a compare-and-swap; one that fails stores the current pointer where it expects. -/
def MsSessInfo.swapped (info : MsSessInfo) (old : MsPtr) (result : Bool) : MsSwap → MsSessInfo
  | .lastNode => { info with lastOrFirstNodeMsPtr := old, success := result }
  | .tail => { info with tail := old, advanceTailResult := result }
  | .head => { info with head := old, success := result }

/-- What a compare-and-swap that succeeds shows. -/
def MsSessInfo.swapEvent (info : MsSessInfo) (ptr : MsPtr) : MsSwap → MsEvent
  | .lastNode => .enqueued info.queueId ptr.nextKeyId
  | .tail => .served
  | .head => .dequeued info.queueId info.head.nextKeyId

/-- The store executes a request. -/
def msServe (spurious : Bool) (store : MsStore) (info : MsSessInfo) :
    MsReq → MsStore × MsSessInfo × MsEvent
  | .readPtr keyId buffer => (store, info.fill (store.ptr keyId) buffer, .served)
  | .writePtr keyId ptr => ({ store with ptr := Function.update store.ptr keyId ptr }, info, .served)
  | .readNode keyId i =>
    (store, { info with newNode := Function.update info.newNode i (store.node keyId) }, .served)
  | .writeNode keyId node =>
    ({ store with node := Function.update store.node keyId node }, info, .served)
  | .cas keyId swap ptr =>
    if store.ptr keyId = info.expected swap ∧ spurious = false then
      ({ store with ptr := Function.update store.ptr keyId ptr },
        info.swapped (info.expected swap) true swap, info.swapEvent ptr swap)
    else (store, info.swapped (store.ptr keyId) false swap, .served)
  | .readFlag => (store, { info with initDoneFlag := store.initDone }, .served)
  | .releaseFlag flag => ({ store with initDone := flag }, info, .served)

namespace Deployment

variable (d : Deployment)

/-- What a pass over a session does, and what the store does; `msStep` is when a pass is made. -/
def msService : Service MsStore BenchClient MsSessInfo MsReq MsEvent where
  clientOf := d.clientOf
  pass g client x :=
    if g < d.globalSessionNum then do
      let (client, info, requests) ← d.msPass g client x
      return (client, info, requests, .moved)
    else .error .disabled
  serve := msServe

/-- The queues when the first client has issued the set-up: the store is zeroed. -/
def msStart (tail head : MsPtr) : MsSys where
  store := ⟨fun _ => .zero, fun _ => ⟨0, 0⟩, 0⟩
  shared c := ⟨if c = 0 then .running else .waiting, d.msQueueIdCntr c⟩
  session g :=
    if g = 0 then ⟨d.msSessInfo g, d.msSetUp tail head, (d.msSetUp tail head).length⟩
    else ⟨d.msSessInfo g, [], 0⟩

end Deployment

/-! ## The loops over the sessions -/

/-- `PER_SESSION_REQ_NUM` -/
def perSessionReqNum : Nat := 5

/-- The queues, with `s_i` of every client. -/
structure MsRounds where
  sys : MsSys
  sI : Nat → Nat

namespace Deployment

variable (d : Deployment)

/-- **A turn.**  A client that is in its loop makes a pass over the session at `s_i` and no other,
    and not before there is a slot for all that it issues. -/
def msStep (s : MsRounds) : Turn → Outcome (MsRounds × MsEvent)
  | .client g =>
    let c := d.clientOf g
    if (s.sys.shared c).phase = .running then
      if g = d.firstSession c + s.sI c then do
        let (sys, e) ← d.msService.step s.sys (.client g)
        if (sys.session g).queue.length ≤ perSessionReqNum then
          return (⟨sys, Function.update s.sI c (modIncr16 (s.sI c) d.sessionsPerClient)⟩, e)
        else .error .waiting
      else .error .disabled
    else do
      let (sys, e) ← d.msService.step s.sys (.client g)
      return (⟨sys, s.sI⟩, e)
  | .store g spurious => do
    let (sys, e) ← d.msService.step s.sys (.store g spurious)
    return (⟨sys, s.sI⟩, e)

/-- The queues when the first client is about to make its first pass.  The requests of its set-up
    are issued; those that have no slot yet are in the queue with the others, since it makes no
    pass before the last of them has one. -/
def msRounds (tail head : MsPtr) : MsRounds := ⟨d.msStart tail head, fun _ => 0⟩

end Deployment

end Odyssey
