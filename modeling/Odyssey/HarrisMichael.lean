/-
  THE HARRIS-MICHAEL LISTS of `od_client.c`: every session inserts the node that it owns in a list,
  deletes it from there again, and goes on to the next list.

  A list is a chain of nodes in the order of the keys of their pointers, behind a head.  A node is
  inserted by a swap of the pointer before it.  It is deleted in two steps: its own pointer is
  marked, and then the pointer before it is swapped past it, by the owner or by another session
  that meets it in a search.  The owner overwrites the pointer of its node before it inserts the
  node again.

  * A build is as shipped, with `CLIENT_ASSERTIONS` 0: `insert_num`, `delete_num` and
    `search_found` are not looked at, and a pointer that is read is not checked to be of the list.
  * `HM_TRY_INSERT` and `HM_CL_AFTER_SEARCH` are one number in the source; the first is a state of
    an insert only, the second of a delete only.
  * The three state machines share the buffers of a session, and a compare-and-swap writes the
    pointer that it found where it expected another.
-/
import Odyssey.SetUp

namespace Odyssey

open Lib

/-! ## Data -/

/-- `HM_WRITES_NUM` -/
def hmWritesNum : Nat := 4

/-- `HM_INIT_DONE_FLAG` -/
def hmInitDoneFlag : Nat := 162

/-- `HM_MAX_WAIT_LOOPS` -/
def hmMaxWaitLoops : Nat := 100

/-- `struct hm_ptr` -/
structure HmPtr where
  pushed : Bool
  marked : Bool
  listId : Nat
  myKeyId : Nat
  nextKeyId : Nat
  counter : Nat
  deriving DecidableEq

/-- A pointer in memory that is zeroed. -/
def HmPtr.zero : HmPtr := ⟨false, false, 0, 0, 0, 0⟩

/-- `struct hm_node` -/
structure HmNode where
  nodeId : Nat
  nodePtrKeyId : Nat
  deriving DecidableEq

/-- The part of the store that the lists use. -/
structure HmStore where
  ptr : Nat → HmPtr
  node : Nat → HmNode
  initDone : Nat

/-- `HM_INIT`, `HM_SEARCH_INNER_LOOP` and so on -/
inductive HmState
  | init
  | searchInnerLoop
  | tryInsert
  | tryDelete
  | readCurrPtrAgain
  | potentialSuccess
  | searchInnerLoopAfterCopyingPtrs
  | markedPotentialSuccess
  | clAfterSearch
  deriving DecidableEq

/-- `HM_INSERTING`, `HM_DELETING` and so on -/
inductive InsOrDel
  | inserting
  | deleting
  | cleanUp
  | searchingIns
  | searchingDel
  | searchingCl
  deriving DecidableEq

/-- `struct hm_sess_info`, with the `init_done_flag` of `hm_wait_for_init` -/
structure HmSessInfo where
  state : HmState
  insOrDelState : InsOrDel
  success : Bool
  lastReqId : Nat
  listId : Nat
  ownedKey : Nat
  ownedKeyPtr : Nat
  waitCntr : Nat
  newNode : Nat → HmNode
  newNodePtr : HmPtr
  prevPtr : Nat
  currPtr : HmPtr
  newCurrPtr : HmPtr
  nextPtr : HmPtr
  nextNode : HmNode
  initDoneFlag : Nat

/-- The pointers of a session that the store writes. -/
inductive HmBuffer
  | currPtr
  | newCurrPtr
  | nextPtr
  deriving DecidableEq

/-- What a compare-and-swap is for.  It expects `curr_ptr`, to mark a node `next_ptr`. -/
inductive HmSwap
  | insert
  | mark
  | unlink
  deriving DecidableEq

/-- The requests of a session. -/
inductive HmReq
  /-- `async_acquire_strong` of a pointer -/
  | readPtr (keyId : Nat) (buffer : HmBuffer)
  | writePtr (keyId : Nat) (ptr : HmPtr)
  /-- `async_read_strong` into `next_node` -/
  | readNextNode (keyId : Nat)
  /-- `async_read_strong` into `new_node` -/
  | readNewNode (keyId : Nat)
  | writeNode (keyId : Nat) (node : HmNode)
  /-- a weak `async_cas_strong` of a pointer -/
  | cas (keyId : Nat) (swap : HmSwap) (ptr : HmPtr)
  /-- `blocking_read` of the flag -/
  | readFlag
  | releaseFlag (flag : Nat)
  deriving DecidableEq

/-- What a step shows.  The first argument is the key of the pointer that was accessed. -/
inductive HmEvent
  | moved
  | served
  /-- it was read, into `curr_ptr` or `next_ptr` -/
  | read (keyId : Nat)
  /-- it was read again, and is equal to `curr_ptr` -/
  | matched (keyId : Nat)
  /-- it was overwritten -/
  | wrote (keyId : Nat)
  /-- node `nodeKeyId` was inserted behind it, in list `listId` -/
  | inserted (keyId listId nodeKeyId : Nat)
  | marked (keyId : Nat)
  /-- the node behind it was linked out -/
  | unlinked (keyId : Nat)
  deriving DecidableEq

abbrev HmSession := Issuer HmSessInfo HmReq
abbrev HmSys := Sessions HmStore BenchClient HmSessInfo HmReq

/-! ## Keys -/

namespace Deployment

variable (d : Deployment)

/-- `HM_LISTS_NUM`, which is also `HM_PREINSERTED_NODE_NUM` and `HM_FREE_NODE_NUM` -/
def hmListsNum : Nat := d.globalSessionNum
/-- `HM_PREINSERTED_NODE_PTR_OFFSET`; `HM_HEAD_KEY_ID_OFFSET` is 0 -/
def hmPreinsertedNodePtrOffset : Nat := d.hmListsNum
/-- `LAST_HM_NODE_PTR` -/
def lastHmNodePtr : Nat := d.hmPreinsertedNodePtrOffset + (d.hmListsNum + d.hmListsNum)
/-- `HM_PREINSERTED_NODE_KEY_OFFSET` -/
def hmPreinsertedNodeKeyOffset : Nat := d.numOfRmwKeys
/-- `HM_FREE_NODE_KEY_OFFSET` -/
def hmFreeNodeKeyOffset : Nat := d.hmPreinsertedNodeKeyOffset + hmWritesNum * d.hmListsNum
/-- `HM_INIT_DONE_FLAG_KEY` -/
def hmInitDoneFlagKey : Nat := d.hmFreeNodeKeyOffset + hmWritesNum * d.hmListsNum

/-- `hm_get_node_ptr_key_id` -/
def hmGetNodePtrKeyId (nodeKeyId : Nat) : Nat :=
  u32 (d.hmPreinsertedNodePtrOffset +
    u32 (nodeKeyId + (2 ^ 32 - d.hmPreinsertedNodeKeyOffset)) / hmWritesNum)

end Deployment

/-- `hm_ptrs_are_equal` -/
def hmPtrsAreEqual (ptr1 ptr2 : HmPtr) : Bool :=
  ptr1.nextKeyId = ptr2.nextKeyId ∧ ptr1.counter = ptr2.counter ∧ ptr1.marked = ptr2.marked

/-! ## hm_search_state_machine -/

/-- `reset_info_state_after_searching` -/
def resetInfoStateAfterSearching (info : HmSessInfo) : HmSessInfo :=
  match info.insOrDelState with
  | .searchingIns => { info with waitCntr := 0, insOrDelState := .inserting, state := .tryInsert }
  | .searchingDel => { info with waitCntr := 0, insOrDelState := .deleting, state := .tryDelete }
  | _ => { info with waitCntr := 0, insOrDelState := .deleting, state := .clAfterSearch }

/-- What `hm_transition_to_searching` makes of `ins_or_del_state`. -/
def InsOrDel.searching : InsOrDel → InsOrDel
  | .inserting => .searchingIns
  | .deleting => .searchingDel
  | .cleanUp => .searchingCl
  | state => state

/-- `hm_transition_to_searching`, in a pass that has issued `requests` before. -/
def hmTransitionToSearching (x : HmSession) (info : HmSessInfo) (requests : List HmReq) :
    HmSessInfo × List HmReq :=
  ({ info with
      prevPtr := info.listId
      lastReqId := lastReqIdAfter x (requests.length + 1)
      nextPtr := { info.nextPtr with myKeyId := 0, nextKeyId := 0 }
      state := .searchInnerLoop
      insOrDelState := info.insOrDelState.searching },
    requests ++ [.readPtr info.listId .currPtr])

/-- `HM_READ_CURR_PTR_AGAIN` -/
def hmReadCurrPtrAgain (x : HmSession) : HmSessInfo × List HmReq :=
  let info := x.info
  if hmPtrsAreEqual info.currPtr info.newCurrPtr = false then hmTransitionToSearching x info []
  else if info.nextPtr.marked = true then
    if info.nextPtr.myKeyId = info.ownedKeyPtr ∨ hmMaxWaitLoops ≤ info.waitCntr then
      let ptr := { info.newCurrPtr with
        counter := u64 (info.newCurrPtr.counter + 1), nextKeyId := info.nextPtr.nextKeyId }
      hmTransitionToSearching x { info with newCurrPtr := ptr, waitCntr := 0 }
        [.cas info.prevPtr .unlink ptr]
    else hmTransitionToSearching x { info with waitCntr := u32 (info.waitCntr + 1) } []
  else if info.newNodePtr.myKeyId ≤ info.nextNode.nodePtrKeyId then
    (resetInfoStateAfterSearching info, [])
  else
    ({ info with
        prevPtr := info.nextPtr.myKeyId, currPtr := info.nextPtr
        state := .searchInnerLoopAfterCopyingPtrs }, [])

namespace Deployment

variable (d : Deployment)

/-- `HM_SEARCH_INNER_LOOP_AFTER_COPYING_PTRS` -/
def hmSearchInnerLoop (x : HmSession) : HmSessInfo × List HmReq :=
  if x.info.currPtr.nextKeyId = 0 then (resetInfoStateAfterSearching x.info, [])
  else
    ({ x.info with lastReqId := lastReqIdAfter x 3, state := .readCurrPtrAgain },
      [.readPtr (d.hmGetNodePtrKeyId x.info.currPtr.nextKeyId) .nextPtr,
        .readNextNode x.info.currPtr.nextKeyId, .readPtr x.info.prevPtr .newCurrPtr])

/-- `hm_search_state_machine` -/
def hmSearch (x : HmSession) : Outcome (HmSessInfo × List HmReq) :=
  match x.info.state with
  | .init => do
    pollAReqBlocking x x.info.lastReqId
    return hmTransitionToSearching x x.info []
  | .searchInnerLoop => do
    pollAReqBlocking x x.info.lastReqId
    return d.hmSearchInnerLoop x
  | .searchInnerLoopAfterCopyingPtrs => .ok (d.hmSearchInnerLoop x)
  | .readCurrPtrAgain => do
    pollAReqBlocking x x.info.lastReqId
    return hmReadCurrPtrAgain x
  | _ => .ok (x.info, [])

end Deployment

/-! ## hm_insert_state_machine -/

/-- `hm_fill_new_node_ptr_new_curr_ptr` -/
def hmFillNewNodePtrNewCurrPtr (info : HmSessInfo) : HmSessInfo :=
  { info with
    newNodePtr :=
      { pushed := true, marked := false, listId := info.listId, myKeyId := info.ownedKeyPtr
        nextKeyId := info.currPtr.nextKeyId, counter := 0 }
    newCurrPtr :=
      { pushed := true, marked := false, listId := info.listId, myKeyId := info.currPtr.myKeyId
        nextKeyId := info.ownedKey, counter := u64 (info.currPtr.counter + 1) } }

/-- `hm_transition_to_searching`, and `new_node_ptr->my_key_id = owned_key_ptr` -/
def hmSearchOwned (x : HmSession) (info : HmSessInfo) (requests : List HmReq) :
    HmSessInfo × List HmReq :=
  let (info, requests) := hmTransitionToSearching x info requests
  ({ info with newNodePtr := { info.newNodePtr with myKeyId := info.ownedKeyPtr } }, requests)

/-- `HM_INIT` of an insert -/
def hmInsertInit (x : HmSession) : HmSessInfo × List HmReq :=
  let newNode := Function.update x.info.newNode 0 ⟨x.info.ownedKey, x.info.ownedKeyPtr⟩
  hmSearchOwned x { x.info with newNode := newNode }
    ((List.range hmWritesNum).map fun i => .writeNode (u32 (x.info.ownedKey + i)) (newNode i))

/-- `HM_TRY_INSERT` -/
def hmTryInsert (x : HmSession) : HmSessInfo × List HmReq :=
  let info := hmFillNewNodePtrNewCurrPtr x.info
  ({ info with lastReqId := lastReqIdAfter x 2, state := .potentialSuccess },
    [.writePtr info.ownedKeyPtr info.newNodePtr, .cas info.prevPtr .insert info.newCurrPtr])

/-- `hm_insert_state_machine` -/
def hmInsert (x : HmSession) : Outcome (HmSessInfo × List HmReq) :=
  match x.info.state with
  | .init => .ok (hmInsertInit x)
  | .tryInsert => .ok (hmTryInsert x)
  | .potentialSuccess => do
    pollAReqBlocking x x.info.lastReqId
    if x.info.success = true then
      return ({ x.info with state := .init, insOrDelState := .deleting }, [])
    else return hmTransitionToSearching x x.info []
  | _ => .ok (x.info, [])

/-! ## hm_delete_state_machine -/

/-- The node is marked, and the session links it out. -/
def hmLinkOut (x : HmSession) : HmSessInfo × List HmReq :=
  let ptr := { x.info.currPtr with
    counter := u64 (x.info.currPtr.counter + 1), nextKeyId := x.info.nextPtr.nextKeyId }
  ({ x.info with newCurrPtr := ptr, lastReqId := lastReqIdAfter x 1, state := .potentialSuccess },
    [.cas x.info.prevPtr .unlink ptr])

/-- `HM_CLEAN_UP` begins. -/
def hmCleanUp (x : HmSession) : HmSessInfo × List HmReq :=
  hmSearchOwned x { x.info with insOrDelState := .cleanUp } []

namespace Deployment

variable (d : Deployment)

/-- `HM_TRY_DELETE` -/
def hmTryDelete (x : HmSession) : HmSessInfo × List HmReq :=
  let deleteNodePtrId := d.hmGetNodePtrKeyId x.info.currPtr.nextKeyId
  let ptr := { x.info.newNodePtr with
    myKeyId := deleteNodePtrId, pushed := true, nextKeyId := x.info.nextPtr.nextKeyId
    marked := true, listId := x.info.listId }
  ({ x.info with
      newNodePtr := ptr
      lastReqId := lastReqIdAfter x (hmWritesNum + 1), state := .markedPotentialSuccess },
    ((List.range hmWritesNum).map fun i => .readNewNode (u32 (x.info.currPtr.nextKeyId + i))) ++
      [.cas deleteNodePtrId .mark ptr])

/-- The end of a delete.  `noConflict` is `HM_NO_CONFLICT`. -/
def hmDeleted (noConflict : Bool) (cntr : Nat) (info : HmSessInfo) : Nat × HmSessInfo :=
  let info := { info with insOrDelState := .inserting, state := .init }
  if noConflict = true then (cntr, info) else (d.incrQueueId cntr, { info with listId := cntr })

/-- `hm_delete_state_machine`, with `queue_id_cntr` -/
def hmDelete (noConflict : Bool) (cntr : Nat) (x : HmSession) :
    Outcome (Nat × HmSessInfo × List HmReq) :=
  match x.info.state with
  | .init => .ok (cntr, hmSearchOwned x x.info [])
  | .tryDelete => .ok (cntr, d.hmTryDelete x)
  | .markedPotentialSuccess => do
    pollAReqBlocking x x.info.lastReqId
    -- if the node is marked it is linked out, and else it is searched for again
    if x.info.success = true then return (cntr, hmLinkOut x)
    else return (cntr, hmSearchOwned x x.info [])
  | .potentialSuccess => do
    pollAReqBlocking x x.info.lastReqId
    if x.info.success = true then
      let (cntr, info) := d.hmDeleted noConflict cntr x.info
      return (cntr, info, [])
    else return (cntr, hmCleanUp x)
  | .clAfterSearch => do
    pollAReqBlocking x x.info.lastReqId
    let (cntr, info) := d.hmDeleted noConflict cntr x.info
    return (cntr, info, [])
  | _ => .ok (cntr, x.info, [])

/-! ## hm_insert_delete_multi_session -/

/-- What `hm_set_up_lists` writes for a list. -/
def setUpList (list : Nat) : List HmReq :=
  let nodeKey := u32 (d.hmPreinsertedNodeKeyOffset + hmWritesNum * list)
  let nodePtrKey := d.hmGetNodePtrKeyId nodeKey
  [.writePtr list ⟨true, false, list, list, nodeKey, 0⟩,
    .writePtr nodePtrKey ⟨true, false, list, nodePtrKey, 0, 0⟩,
    .writeNode nodeKey ⟨nodeKey, nodePtrKey⟩]

/-- `hm_set_up_lists`: the requests that it issues in session 0. -/
def hmSetUp : List HmReq :=
  (List.range d.hmListsNum).flatMap d.setUpList ++ [.releaseFlag hmInitDoneFlag]

/-- What `hm_insert_delete_multi_session` sets up for a session. -/
def hmSessInfo (g : Nat) : HmSessInfo where
  state := .init
  insOrDelState := .inserting
  success := false
  lastReqId := 0
  listId := d.globSessI g
  ownedKey := u32 (d.hmFreeNodeKeyOffset + d.globSessI g * hmWritesNum)
  ownedKeyPtr := d.hmGetNodePtrKeyId (u32 (d.hmFreeNodeKeyOffset + d.globSessI g * hmWritesNum))
  waitCntr := 0
  newNode _ := ⟨0, 0⟩
  newNodePtr := .zero
  prevPtr := 0
  currPtr := .zero
  newCurrPtr := .zero
  nextPtr := .zero
  nextNode := ⟨0, 0⟩
  initDoneFlag := 0

/-- `queue_id_cntr` of a client, at first -/
def hmQueueIdCntr (client : Nat) : Nat :=
  let machineId := client / d.clientsPerMachine
  let keyOffset := u32 (d.hmFreeNodeKeyOffset + hmWritesNum * (d.sessionsPerMachine * machineId))
  let sessOffset := u16 (client % d.clientsPerMachine * d.sessionsPerClient)
  let lastKey := u32 (keyOffset + (sessOffset + (d.sessionsPerClient - 1)) * hmWritesNum)
  u32 (machineId * 100 + lastKey) % d.hmListsNum

/-- A pass over a session, in the loop. -/
def hmLoopPass (noConflict : Bool) (cntr : Nat) (x : HmSession) :
    Outcome (Nat × HmSessInfo × List HmReq) :=
  match x.info.insOrDelState with
  | .searchingIns | .searchingDel | .searchingCl => do
    let (info, requests) ← d.hmSearch x
    return (cntr, info, requests)
  | .inserting => do
    let (info, requests) ← hmInsert x
    return (cntr, info, requests)
  | .deleting => d.hmDelete noConflict cntr x
  | .cleanUp => .ok (cntr, x.info, [])

/-- `hm_wait_for_init` -/
def hmWaitForInit (g : Nat) (client : BenchClient) (x : HmSession) :
    Outcome (BenchClient × HmSessInfo × List HmReq) :=
  d.waitForInit .readFlag x.info.initDoneFlag hmInitDoneFlag g client x

/-- What a client does in a session. -/
def hmPass (noConflict : Bool) (g : Nat) (client : BenchClient) (x : HmSession) :
    Outcome (BenchClient × HmSessInfo × List HmReq) :=
  if client.phase = .running then do
    let (cntr, info, requests) ← d.hmLoopPass noConflict client.queueIdCntr x
    return ({ client with queueIdCntr := cntr }, info, requests)
  else d.hmWaitForInit g client x

end Deployment

/-! ## The store -/

/-- Writes one of the pointers of a session. -/
def HmSessInfo.fill (info : HmSessInfo) (ptr : HmPtr) : HmBuffer → HmSessInfo
  | .currPtr => { info with currPtr := ptr }
  | .newCurrPtr => { info with newCurrPtr := ptr }
  | .nextPtr => { info with nextPtr := ptr }

/-- What a read of a pointer shows. -/
def HmSessInfo.readEvent (info : HmSessInfo) (keyId : Nat) (ptr : HmPtr) : HmBuffer → HmEvent
  | .newCurrPtr => if hmPtrsAreEqual info.currPtr ptr = true then .matched keyId else .served
  | _ => .read keyId

/-- The pointer that a compare-and-swap expects. -/
def HmSessInfo.expected (info : HmSessInfo) : HmSwap → HmPtr
  | .mark => info.nextPtr
  | _ => info.currPtr

/-- The result of a compare-and-swap; one that fails stores the current pointer where it expects. -/
def HmSessInfo.swapped (info : HmSessInfo) (old : HmPtr) (result : Bool) : HmSwap → HmSessInfo
  | .mark => { info with nextPtr := old, success := result }
  | _ => { info with currPtr := old, success := result }

/-- What a compare-and-swap that succeeds shows. -/
def HmSessInfo.swapEvent (info : HmSessInfo) (keyId : Nat) : HmSwap → HmEvent
  | .insert => .inserted keyId info.listId info.ownedKey
  | .mark => .marked keyId
  | .unlink => .unlinked keyId

/-- Writes a pointer. -/
def HmStore.write (store : HmStore) (key : Nat) (ptr : HmPtr) : HmStore :=
  { store with ptr := Function.update store.ptr key ptr }

/-- The store executes a request. -/
def hmServe (spurious : Bool) (store : HmStore) (info : HmSessInfo) :
    HmReq → HmStore × HmSessInfo × HmEvent
  | .readPtr keyId buffer =>
    (store, info.fill (store.ptr keyId) buffer, info.readEvent keyId (store.ptr keyId) buffer)
  | .writePtr keyId ptr => (store.write keyId ptr, info, .wrote keyId)
  | .readNextNode keyId => (store, { info with nextNode := store.node keyId }, .served)
  | .readNewNode keyId =>
    (store, { info with newNode := Function.update info.newNode 0 (store.node keyId) }, .served)
  | .writeNode keyId node =>
    ({ store with node := Function.update store.node keyId node }, info, .served)
  | .cas keyId swap ptr =>
    if store.ptr keyId = info.expected swap ∧ spurious = false then
      (store.write keyId ptr, info.swapped (info.expected swap) true swap,
        info.swapEvent keyId swap)
    else (store, info.swapped (store.ptr keyId) false swap, .served)
  | .readFlag => (store, { info with initDoneFlag := store.initDone }, .served)
  | .releaseFlag flag => ({ store with initDone := flag }, info, .served)

namespace Deployment

variable (d : Deployment)

def hmService (noConflict : Bool) : Service HmStore BenchClient HmSessInfo HmReq HmEvent where
  clientOf := d.clientOf
  pass g client x :=
    if g < d.globalSessionNum then do
      let (client, info, requests) ← d.hmPass noConflict g client x
      return (client, info, requests, .moved)
    else .error .disabled
  serve := hmServe

/-- The lists when the first client has issued the set-up: the store is zeroed. -/
def hmStart : HmSys where
  store := ⟨fun _ => .zero, fun _ => ⟨0, 0⟩, 0⟩
  shared c := ⟨if c = 0 then .running else .waiting, d.hmQueueIdCntr c⟩
  session g :=
    if g = 0 then ⟨d.hmSessInfo g, d.hmSetUp, d.hmSetUp.length⟩ else ⟨d.hmSessInfo g, [], 0⟩

end Deployment

end Odyssey
