/-
  THE TREIBER STACKS of `od_client.c`: every session pushes a node that it owns to a stack, pops one
  from the same stack, and goes on to the next stack with the node it has popped.

  The top of a stack is one struct in the store, swapped by compare-and-swap; it counts the pushes
  and the pops, which is what keeps a session from taking an old top for a new one.  The nodes are
  recycled: who has popped a node writes it again when it pushes it.

  A build is as shipped, `ENABLE_ASSERTIONS` 0 and `CLIENT_ASSERTIONS` 0; the assertions that are
  left are the ones that stand in the code without a guard.  Of the struct of a node only
  `next_key_id` is ever set.
-/
import Odyssey.ClientSessions

namespace Odyssey

open Lib

/-! ## Data -/

/-- `TREIBER_WRITES_NUM` -/
def treiberWritesNum : Nat := 1

/-- `struct top` -/
structure Top where
  keyId : Nat
  popCounter : Nat
  pushCounter : Nat
  deriving DecidableEq

/-- `struct node` -/
structure TrNode where
  nextKeyId : Nat
  deriving DecidableEq

/-- The part of the store that the stacks use: the tops, and the nodes. -/
structure TrStore where
  top : Nat → Top
  node : Nat → TrNode

/-- `TR_INIT`, `TR_READ_TOP` and `TR_READ_FIRST` -/
inductive TrState
  | init
  | readTop
  | readFirst
  deriving DecidableEq

/-- `PUSHING` and `POPPING` -/
inductive PushOrPull
  | pushing
  | popping
  deriving DecidableEq

/-- `struct tr_sess_info` -/
structure TrSessInfo where
  state : TrState
  pushOrPullState : PushOrPull
  success : Bool
  lastReqId : Nat
  stackId : Nat
  ownedKey : Nat
  top : Top
  newTop : Top
  newNode : Nat → TrNode
  lastPushedCounter : Nat

/-- The requests of a session. -/
inductive TrReq
  /-- `async_read_strong` of a top, into `top` -/
  | readTop (keyId : Nat)
  /-- `async_read_strong` of a node, into `new_node[i]` -/
  | readNode (keyId i : Nat)
  /-- `async_write_strong` of a node -/
  | writeNode (keyId : Nat) (node : TrNode)
  /-- a weak `async_cas_strong` of a top, which expects `top` and reports to `success` -/
  | cas (keyId : Nat) (newTop : Top)
  deriving DecidableEq

/-- What a step shows. -/
inductive TrEvent
  | moved
  | served
  | pushed (stackId keyId : Nat)
  | popped (stackId keyId : Nat)
  deriving DecidableEq

abbrev TrSession := Issuer TrSessInfo TrReq
abbrev TrSys := Sessions TrStore Nat TrSessInfo TrReq

/-! ## treiber_push_state_machine -/

/-- `TR_INIT` of a push, and of a pop without the writes. -/
def trReadTop (x : TrSession) (writes : List TrReq) : TrSessInfo × List TrReq :=
  ({ x.info with lastReqId := lastReqIdAfter x 1, state := .readTop },
    .readTop x.info.stackId :: writes)

/-- The new top that a push attempts. -/
def pushTop (info : TrSessInfo) : Top :=
  ⟨info.ownedKey, info.top.popCounter, u32 (info.top.pushCounter + 1)⟩

/-- `TR_READ_TOP` of a push that has not succeeded yet -/
def tryPush (x : TrSession) : Outcome (TrSessInfo × List TrReq) :=
  let node : TrNode := ⟨x.info.top.keyId⟩
  let newTop := pushTop x.info
  if newTop.popCounter = newTop.pushCounter ∧ newTop.keyId ≠ 0 then .error .undefined
  else
    .ok ({ x.info with
        newNode := Function.update x.info.newNode 0 node, newTop := newTop
        lastReqId := lastReqIdAfter x 2 },
      [.writeNode x.info.ownedKey node, .cas x.info.stackId newTop])

/-- `treiber_push_state_machine` -/
def treiberPush (x : TrSession) : Outcome (TrSessInfo × List TrReq) :=
  match x.info.state with
  | .init =>
    .ok (trReadTop x ((List.range' 1 (treiberWritesNum - 1)).map fun i =>
      .writeNode (u32 (x.info.ownedKey + i)) (x.info.newNode i)))
  | .readTop => do
    pollAReqBlocking x x.info.lastReqId
    if x.info.success = false then tryPush x
    else
      return ({ x.info with
        success := false, pushOrPullState := .popping, state := .init
        lastPushedCounter := x.info.newTop.pushCounter }, [])
  | .readFirst => .ok (x.info, [])

/-! ## treiber_pop_state_machine -/

/-- The new top that a pop attempts. -/
def popTop (info : TrSessInfo) : Top :=
  ⟨(info.newNode 0).nextKeyId, u32 (info.top.popCounter + 1), info.top.pushCounter⟩

/-- A new top that cannot be: it has nodes and is null, or has none and is not. -/
def Top.impossible (t : Top) : Prop :=
  (t.pushCounter = t.popCounter ∧ t.keyId ≠ 0) ∨ (t.popCounter < t.pushCounter ∧ t.keyId = 0)

instance (t : Top) : Decidable t.impossible := by
  unfold Top.impossible
  infer_instance

namespace Deployment

variable (d : Deployment)

/-- `NUMBER_OF_STACKS` -/
def numberOfStacks : Nat := d.globalSessionNum
/-- `TR_KEY_OFFSET` -/
def trKeyOffset : Nat := d.numberOfStacks
/-- `MAX_TR_NODE_KEY` -/
def maxTrNodeKey : Nat := d.globalSessionNum * treiberWritesNum + d.trKeyOffset

/-- `MOD_INCR` of `stack_id_cntr` -/
def incrStackId (cntr : Nat) : Nat := if u32 (cntr + 1) = d.numberOfStacks then 0 else u32 (cntr + 1)

/-- `treiber_pop_state_machine`, with `stack_id_cntr` -/
def treiberPop (noConflicts : Bool) (cntr : Nat) (x : TrSession) :
    Outcome (Nat × TrSessInfo × List TrReq) :=
  match x.info.state with
  | .init => .ok (cntr, trReadTop x [])
  | .readTop => do
    pollAReqBlocking x x.info.lastReqId
    if x.info.top.keyId < d.trKeyOffset ∨ x.info.top.pushCounter < x.info.lastPushedCounter then
      .error .undefined
    else if x.info.success = false then
      return (cntr, { x.info with lastReqId := lastReqIdAfter x treiberWritesNum, state := .readFirst },
        (List.range treiberWritesNum).map fun i => .readNode (u32 (x.info.top.keyId + i)) i)
    else
      return (if noConflicts = true then cntr else d.incrStackId cntr,
        { x.info with
          ownedKey := x.info.top.keyId, success := false
          stackId := if noConflicts = true then x.info.stackId else cntr
          pushOrPullState := .pushing, state := .init }, [])
  | .readFirst => do
    pollAReqBlocking x x.info.lastReqId
    let newTop := popTop x.info
    if newTop.impossible then return (cntr, { x.info with newTop := newTop, state := .init }, [])
    else
      return (cntr, { x.info with newTop := newTop, lastReqId := lastReqIdAfter x 1, state := .readTop },
        [.cas x.info.stackId newTop])

/-! ## treiber_push_pull_multi_session -/

/-- What `treiber_push_pull_multi_session` sets up for a session. -/
def trSessInfo (g : Nat) : TrSessInfo where
  state := .init
  pushOrPullState := .pushing
  success := false
  lastReqId := 0
  stackId := d.globSessI g
  ownedKey := u32 (d.trKeyOffset +
    (d.sessionsPerMachine * d.machineId g + d.realSessI g) * treiberWritesNum)
  top := ⟨0, 0, 0⟩
  newTop := ⟨0, 0, 0⟩
  newNode _ := ⟨0⟩
  lastPushedCounter := 0

/-- `stack_id_cntr` of a client, at first -/
def trStackIdCntr (client : Nat) : Nat :=
  let machineId := client / d.clientsPerMachine
  let keyOffset := u32 (d.trKeyOffset + d.sessionsPerMachine * machineId)
  let sessOffset := u16 (client % d.clientsPerMachine * d.sessionsPerClient)
  let lastKey := u32 (keyOffset + (sessOffset + (d.sessionsPerClient - 1)) * treiberWritesNum)
  u32 (machineId * 100 + lastKey) % d.numberOfStacks

/-- A pass over a session. -/
def trPass (noConflicts : Bool) (cntr : Nat) (x : TrSession) :
    Outcome (Nat × TrSessInfo × List TrReq) :=
  match x.info.pushOrPullState with
  | .pushing => do
    let (info, requests) ← treiberPush x
    return (cntr, info, requests)
  | .popping => d.treiberPop noConflicts cntr x

end Deployment

/-- The store executes a request.  A compare-and-swap that fails stores the current top in `top`. -/
def trServe (spurious : Bool) (store : TrStore) (info : TrSessInfo) :
    TrReq → TrStore × TrSessInfo × TrEvent
  | .readTop keyId => (store, { info with top := store.top keyId }, .served)
  | .readNode keyId i =>
    (store, { info with newNode := Function.update info.newNode i (store.node keyId) }, .served)
  | .writeNode keyId node =>
    ({ store with node := Function.update store.node keyId node }, info, .served)
  | .cas keyId newTop =>
    let old := store.top keyId
    if old = info.top ∧ spurious = false then
      ({ store with top := Function.update store.top keyId newTop }, { info with success := true },
        if newTop.popCounter = old.popCounter then .pushed keyId newTop.keyId
        else .popped keyId old.keyId)
    else (store, { info with top := old, success := false }, .served)

namespace Deployment

variable (d : Deployment)

def trService (noConflicts : Bool) : Service TrStore Nat TrSessInfo TrReq TrEvent where
  clientOf := d.clientOf
  pass g cntr x :=
    if g < d.globalSessionNum then do
      let (cntr, info, requests) ← d.trPass noConflicts cntr x
      return (cntr, info, requests, .moved)
    else .error .disabled
  serve := trServe

/-- The stacks before anything has happened: the store is zeroed. -/
def trStart : TrSys where
  store := ⟨fun _ => ⟨0, 0, 0⟩, fun _ => ⟨0⟩⟩
  shared := d.trStackIdCntr
  session g := ⟨d.trSessInfo g, [], 0⟩

end Deployment

end Odyssey
