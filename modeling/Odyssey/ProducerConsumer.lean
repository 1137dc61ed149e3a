/-
  THE PRODUCER-CONSUMER BENCHMARK, as `od_client.c` runs it with `PC_IDEAL` 0.

  The sessions with the same number on every machine form a ring: each acquires from the one on the
  machine before it.  A round of a session is to see the flag of its producer raised, read the
  `PC_WRITES_NUM` nodes of the producer, write its own, and raise its own flag.  Machine 0 starts
  without a round of reading (`pc_init_flags`).  None of this is waited for, but for the polling of
  the flag.

  So a ring passes one token around.  `PcInv` says where it is: it is the session that has been
  released to, and not acquired yet.  From this follow both the counters of the whole ring and what
  the store holds: a session has requests of a round waiting only if its consumer is next to get the
  token, hence at most one session of a ring has, and neither its producer nor its consumer is
  writing the nodes it reads (`producer_consumer_correct`).

  All of it computes in `uint64_t`, and holds for any number of rounds; but the number of a session
  is a `uint16_t`, and with more sessions than that two of them share a flag and its nodes
  (`stale_node`).
-/
import Odyssey.ClientSessions

namespace Odyssey

open Lib

/-! ## Data -/

/-- `PC_WRITES_NUM` -/
def pcWritesNum : Nat := 5

/-- `struct pc_ptr` -/
structure PcPtr where
  owner : Nat
  /-- times released -/
  counter : UInt64
  deriving DecidableEq

/-- `struct pc_node` -/
structure PcNode where
  owner : Nat
  timesWritten : UInt64
  deriving DecidableEq

/-- The part of the store that the benchmark uses. -/
structure PcStore where
  flag : Nat → PcPtr
  node : Nat → PcNode

/-- The requests of a session; what they read goes to its `acq_flag` and to its `r_node`. -/
inductive PcReq
  /-- `async_read_strong` or `async_acquire_strong` of a flag -/
  | readFlag (keyId : Nat)
  /-- `async_read_strong` of a node -/
  | readNode (keyId : Nat)
  /-- `async_write_strong` of a node -/
  | writeNode (keyId : Nat) (node : PcNode)
  /-- `async_release_strong` of a flag -/
  | releaseFlag (keyId : Nat) (flag : PcPtr)
  deriving DecidableEq

/-- Where a session is; before anything else, machine 0 is in `pc_init_flags`. -/
inductive PcState
  | initFlags
  | tryToAcquire
  | pollLocalStore
  deriving DecidableEq

/-- `struct pc_sess_info`, but for the fields that `pc_multi_session` sets for good. -/
structure PcSessInfo where
  state : PcState
  lastReqId : Nat
  acqNum : UInt64
  relNum : UInt64
  /-- `node_to_read[0]` and `node_to_write[0]`, the only ones used -/
  nodeToRead : PcNode
  nodeToWrite : PcNode
  relFlag : PcPtr
  acqFlag : PcPtr

/-- What a step shows. -/
inductive PcEvent
  | moved
  /-- a session went through `pc_init_flags` -/
  | initialised
  /-- a session saw the flag raised, and began its next round -/
  | acquired
  /-- the store executed a request, which read `got` if it read a node -/
  | served (req : PcReq) (got : Option PcNode)
  deriving DecidableEq

abbrev PcSession := Issuer PcSessInfo PcReq
abbrev PcSys := Sessions PcStore Unit PcSessInfo PcReq

namespace Deployment

variable (d : Deployment)

/-! ## pc_multi_session -/

/-- `session_to_acquire_from`, which is a `uint16_t` -/
def sessionToAcquireFrom (g : Nat) : Nat :=
  u16 ((d.globalSessionNum + d.globSessI g - d.sessionsPerMachine) % d.globalSessionNum)

/-- `PC_FLAG_KEY_ID_OFFSET` -/
def pcFlagKeyIdOffset : Nat := d.numOfRmwKeys
/-- `PC_NODE_OFFSET` -/
def pcNodeOffset : Nat := d.numOfRmwKeys + d.globalSessionNum

def flagToAcquire (g : Nat) : Nat := u32 (d.pcFlagKeyIdOffset + d.sessionToAcquireFrom g)
def flagToRelease (g : Nat) : Nat := u32 (d.pcFlagKeyIdOffset + d.globSessI g)
def rKey (g : Nat) : Nat := u32 (d.pcNodeOffset + d.sessionToAcquireFrom g * pcWritesNum)
def wKey (g : Nat) : Nat := u32 (d.pcNodeOffset + d.globSessI g * pcWritesNum)

/-- What `pc_multi_session` sets up. -/
def pcSessInfo (g : Nat) : PcSessInfo where
  state := if d.machineId g = 0 then .initFlags else .tryToAcquire
  lastReqId := 0
  acqNum := 0
  relNum := 0
  nodeToRead := ⟨0, 0⟩
  nodeToWrite := ⟨d.globSessI g, 0⟩
  relFlag := ⟨0, 0⟩
  acqFlag := ⟨0, 0⟩

/-! ## pc_init_flags -/

/-- The requests of `pc_init_flags`. -/
def initRequests (g : Nat) (wNode : PcNode) (relFlag : PcPtr) : List PcReq :=
  (List.range pcWritesNum).map (fun i => .writeNode (u32 (d.wKey g + i)) wNode) ++
    [.releaseFlag (d.flagToRelease g) relFlag]

/-- `pc_init_flags`, for one session -/
def pcInitFlags (g : Nat) (info : PcSessInfo) : PcSessInfo × List PcReq :=
  let wNode : PcNode := ⟨d.globSessI g, 1⟩
  let relFlag : PcPtr := ⟨d.globSessI g, 1⟩
  ({ info with nodeToWrite := wNode, relFlag := relFlag, relNum := 1, state := .tryToAcquire },
    d.initRequests g wNode relFlag)

/-! ## pc_per_sess_state_machine -/

/-- The reads and writes of a round, and the release. -/
def roundRequests (g : Nat) (wNode : PcNode) (relFlag : PcPtr) : List PcReq :=
  (List.range pcWritesNum).flatMap (fun i =>
    [.readNode (u32 (d.rKey g + i)), .writeNode (u32 (d.wKey g + i)) wNode]) ++
    [.releaseFlag (d.flagToRelease g) relFlag]

/-- The assertions on the nodes, which are there with `CLIENT_ASSERTIONS`. -/
def nodesChecked (g : Nat) (info : PcSessInfo) : Bool :=
  info.nodeToWrite.timesWritten == info.relNum && info.nodeToWrite.owner == d.globSessI g &&
    (!(decide (0 < info.acqNum)) || (info.nodeToRead.owner == d.sessionToAcquireFrom g &&
      info.nodeToRead.timesWritten == info.acqNum))

/-- `PC_TRY_TO_ACQUIRE`, once the flag is seen raised -/
def beginRound (g : Nat) (info : PcSessInfo) : Outcome (PcSessInfo × List PcReq × PcEvent) :=
  let wNode : PcNode := { info.nodeToWrite with timesWritten := info.nodeToWrite.timesWritten + 1 }
  let relFlag : PcPtr := { info.relFlag with counter := info.relFlag.counter + 1 }
  if d.clientAssertions = true ∧ d.nodesChecked g info = false then .error .undefined
  else if relFlag.counter ≠ info.relNum + 1 then .error .undefined
  else
    .ok ({ info with
        nodeToWrite := wNode, relFlag := relFlag, acqNum := info.acqNum + 1
        relNum := info.relNum + 1, state := .pollLocalStore },
      .readFlag (d.flagToAcquire g) :: d.roundRequests g wNode relFlag, .acquired)

/-- `PC_TRY_TO_ACQUIRE` -/
def tryToAcquire (g : Nat) (x : PcSession) : Outcome (PcSessInfo × List PcReq × PcEvent) := do
  pollAReqBlocking x x.info.lastReqId
  if x.info.acqFlag.counter ≠ x.info.acqNum + 1 then
    return ({ x.info with state := .pollLocalStore }, [], .moved)
  else d.beginRound g x.info

/-- A pass over a session. -/
def pcPass (g : Nat) (x : PcSession) : Outcome (PcSessInfo × List PcReq × PcEvent) :=
  match x.info.state with
  | .initFlags =>
    let (info, requests) := d.pcInitFlags g x.info
    .ok (info, requests, .initialised)
  | .pollLocalStore =>
    .ok ({ x.info with lastReqId := lastReqIdAfter x 1, state := .tryToAcquire },
      [.readFlag (d.flagToAcquire g)], .moved)
  | .tryToAcquire => d.tryToAcquire g x

end Deployment

/-! ## The whole deployment -/

/-- The store executes a request. -/
def pcServe (store : PcStore) (info : PcSessInfo) (req : PcReq) : PcStore × PcSessInfo × PcEvent :=
  match req with
  | .readFlag keyId => (store, { info with acqFlag := store.flag keyId }, .served req none)
  | .readNode keyId =>
    (store, { info with nodeToRead := store.node keyId }, .served req (some (store.node keyId)))
  | .writeNode keyId node =>
    ({ store with node := Function.update store.node keyId node }, info, .served req none)
  | .releaseFlag keyId flag =>
    ({ store with flag := Function.update store.flag keyId flag }, info, .served req none)

namespace Deployment

variable (d : Deployment)

def pcService : Service PcStore Unit PcSessInfo PcReq PcEvent where
  clientOf := d.clientOf
  pass g _ x :=
    if g < d.globalSessionNum then do
      let (info, requests, e) ← d.pcPass g x
      return ((), info, requests, e)
    else .error .disabled
  serve _ := pcServe

/-- The benchmark before anything has happened. -/
def pcStart : PcSys where
  store := ⟨fun _ => ⟨0, 0⟩, fun _ => ⟨0, 0⟩⟩
  shared _ := ()
  session g := ⟨d.pcSessInfo g, [], 0⟩

end Deployment

end Odyssey
