/-
  THE CLIENT INTERFACE: one session's ring of requests between a client and a worker.

  A slot of the ring is `INVALID`, then `ACTIVE` once the client has issued a request in it, then
  `IN_PROGRESS` once the worker has picked it up, then `COMPLETED`, and `INVALID` again once the
  client has polled it.  The client owns two pointers, for pushing and for pulling, and the worker
  one; they are `uint16_t`s.  The client counts the requests it has pushed and pulled.

  Both parties run at the same time.  A step of the system is one access to the state of a slot
  with the local work around it, or one call of `poll`; a client inside `access_async` or
  `access_blocking` is at a `Stage` of the call, so that the worker can step in between, also
  while the client spins in `poll_one_req_blocking` or `poll_all_reqs`.

  The build has clients (`ENABLE_CLIENTS`), and `ENABLE_ASSERTIONS` is a parameter; of the
  assertions, those on the contents of an op (`od_check_op`) are left out, those on the ring are
  here.  A pointer into the memory of the client is a number, with the bytes behind it where they
  are read; the `value_to_write` of an op the worker makes points into the slot.
-/
import Odyssey.Mica

namespace Odyssey

open Lib

/-! ## Requests -/

/-- The state of a slot. -/
inductive ReqState
  | invalid
  | active
  | inProgress
  | completed
  deriving Repr, DecidableEq

/-- The API opcodes, and any other number in their place. -/
inductive AccessType
  | rlxdRead
  | rlxdWrite
  | acquire
  | release
  | cas
  | faa
  | other
  deriving Repr, DecidableEq

/-- The macros the client interface depends on. -/
structure ClientConf where
  /-- `PER_SESSION_REQ_NUM` -/
  perSessionReqNum : Nat
  /-- `SESSIONS_PER_MACHINE` -/
  sessionsPerMachine : Nat
  /-- `KVS_NUM_KEYS` -/
  kvsNumKeys : Nat
  /-- `VALUE_SIZE` -/
  valueSize : Nat
  /-- `SHIFT_BITS` -/
  shiftBits : Nat
  /-- `ENABLE_ASSERTIONS` -/
  enableAssertions : Bool
  /-- the second half of the `CityHash128` of a key id -/
  cityHash : Nat → Nat

/-- The arguments of an access. -/
structure AccessArgs where
  keyId : Nat
  valueToRead : Option Nat
  /-- a pointer, with the bytes behind it -/
  valueToWrite : Option (Nat → UInt8)
  valLen : Nat
  casResult : Option Nat
  rmwIsWeak : Bool
  sessionId : Nat
  type : AccessType

/-- `client_op_t` -/
structure ClientOp where
  state : ReqState
  opcode : Nat
  valLen : Nat
  rmwIsSuccessful : Option Nat
  key : MicaKey
  valueToRead : Option Nat
  valueToWrite : Nat → UInt8

/-- `KVS_OP_GET` and the other opcodes of requests -/
def kvsOpGet : Nat := 111
def kvsOpPut : Nat := 112
def opAcquire : Nat := 110
def opRelease : Nat := 109
def compareAndSwapStrong : Nat := 96
def compareAndSwapWeak : Nat := 97
def fetchAndAdd : Nat := 98

/-- `check_inputs`: 1, or the code of an error -/
def checkInputs (conf : ClientConf) (a : AccessArgs) : Int :=
  if conf.sessionsPerMachine ≤ a.sessionId then -3
  else
    let nulls : Int := match a.type with
      | .acquire | .rlxdRead => if a.valueToRead.isNone then -6 else 1
      | .release | .rlxdWrite => if a.valueToWrite.isNone then -7 else 1
      | .cas | .faa =>
        if a.valueToRead.isNone then -6 else if a.valueToWrite.isNone then -7 else 1
      | .other => -8
    if nulls < 0 then nulls
    else if conf.kvsNumKeys ≤ a.keyId then -11
    else if conf.valueSize < a.valLen then -10
    else 1

/-- `memcpy(cl_op->value_to_write, value_to_write, val_len)` -/
def ClientOp.copyValue (clOp : ClientOp) (a : AccessArgs) : Outcome ClientOp :=
  match a.valueToWrite with
  | some mem =>
    .ok { clOp with valueToWrite := writeAt clOp.valueToWrite 0 (readAt mem 0 a.valLen) }
  | none => .error .undefined

/-- `fill_client_op` -/
def fillClientOp (conf : ClientConf) (clOp : ClientOp) (a : AccessArgs) : Outcome ClientOp := do
  let clOp ← match a.type with
    | .rlxdRead => .ok { clOp with valueToRead := a.valueToRead, opcode := kvsOpGet }
    | .acquire => .ok { clOp with valueToRead := a.valueToRead, opcode := opAcquire }
    | .rlxdWrite => ClientOp.copyValue { clOp with opcode := kvsOpPut } a
    | .release => ClientOp.copyValue { clOp with opcode := opRelease } a
    | .cas => do
      let opcode := if a.rmwIsWeak then compareAndSwapWeak else compareAndSwapStrong
      let clOp ← ClientOp.copyValue { clOp with opcode := opcode } a
      pure { clOp with valueToRead := a.valueToRead, rmwIsSuccessful := a.casResult }
    | .faa =>
      ClientOp.copyValue { clOp with opcode := fetchAndAdd, valueToRead := a.valueToRead } a
    | .other => .error .undefined
  return { clOp with valLen := a.valLen, key := .ofHash (conf.cityHash a.keyId) }

/-! ## The ring -/

/-- One session of a `wrk_clt_if`, with its two counters. -/
structure Session where
  reqArray : Nat → ClientOp
  cltPushPtr : Nat
  cltPullPtr : Nat
  wrkrPullPtr : Nat
  lastPushedReq : Nat
  lastPulledReq : Nat

/-- `MOD_INCR` of a `uint16_t` -/
def modIncr16 (x N : Nat) : Nat := if u16 (x + 1) = N then 0 else u16 (x + 1)

/-- `assert`, in a build with `ENABLE_ASSERTIONS` -/
def ClientConf.check (conf : ClientConf) (cond : Bool) : Outcome Unit :=
  if conf.enableAssertions && !cond then .error .undefined else .ok ()

/-- What a step of either party shows. -/
inductive RingEvent
  /-- the client issued a request in slot `i` -/
  | issued (i : Nat) (op : ClientOp)
  /-- the worker picked up the request in slot `i` -/
  | filled (i : Nat) (op : ClientOp)
  /-- the worker completed the request in slot `i` -/
  | completed (i : Nat)
  /-- the client polled slot `i` -/
  | polled (i : Nat)
  /-- an access returned -/
  | returned (blocking : Bool) (r : Int)

namespace Session

def stateAt (s : Session) (i : Nat) : ReqState := (s.reqArray i).state

def setOp (s : Session) (i : Nat) (op : ClientOp) : Session :=
  { s with reqArray := Function.update s.reqArray i op }

def setState (s : Session) (i : Nat) (state : ReqState) : Session :=
  s.setOp i { s.reqArray i with state := state }

/-! ## The client's side -/

/-- One round of the loop of `poll`. -/
def pollRound (conf : ClientConf) (pullPtr : Nat) (s : Session) : Outcome Session := do
  let s := s.setState pullPtr .invalid
  conf.check (s.stateAt s.cltPushPtr == .invalid)
  return { s with
    cltPullPtr := modIncr16 s.cltPullPtr conf.perSessionReqNum
    lastPulledReq := u64 (s.lastPulledReq + 1) }

/-- The loop of `poll`, which tests the slot that was at the pull pointer when it began. -/
def pollLoop (conf : ClientConf) (pullPtr : Nat) :
    Nat → Session → Outcome (Session × List RingEvent)
  | 0, _ => .error .endless
  | fuel + 1, s =>
    if s.stateAt pullPtr = .completed then do
      let s ← s.pollRound conf pullPtr
      let (s, evs) ← pollLoop conf pullPtr fuel s
      return (s, .polled pullPtr :: evs)
    else .ok (s, [])

/-- `poll`, with the number it returns; the slot is `INVALID` after one round, so there is no
    third test. -/
def poll (conf : ClientConf) (s : Session) : Outcome (Session × Nat × List RingEvent) := do
  let (s, evs) ← pollLoop conf s.cltPullPtr 2 s
  return (s, s.lastPulledReq, evs)

/-- `check_push_pull_ptrs` -/
def checkPushPullPtrs (conf : ClientConf) (s : Session) : Outcome Unit :=
  conf.check (sub64 s.lastPushedReq s.lastPulledReq == conf.perSessionReqNum)

/-- Issues the request: fills the slot and activates it. -/
def issue (conf : ClientConf) (a : AccessArgs) (s : Session) :
    Outcome (Session × List RingEvent) := do
  let pushPtr := s.cltPushPtr
  let clOp ← fillClientOp conf (s.reqArray pushPtr) a
  let clOp := { clOp with state := .active }
  let s := s.setOp pushPtr clOp
  return ({ s with
    cltPushPtr := modIncr16 s.cltPushPtr conf.perSessionReqNum
    lastPushedReq := u64 (s.lastPushedReq + 1) }, [.issued pushPtr clOp])

/-! ## The worker's side -/

/-- `is_client_req_active` -/
def isClientReqActive (s : Session) (i : Nat) : Bool := s.stateAt i == .active

/-- `check_client_req_state_when_filling_op`: if the next request is not active, none is, so the
    one before is not. -/
def checkClientReqStateWhenFillingOp (conf : ClientConf) (s : Session) (pullPtr : Nat) :
    Outcome Unit := do
  let N := conf.perSessionReqNum
  conf.check (s.isClientReqActive pullPtr)
  let nextPullPtr := (pullPtr + 1) % N
  let prevPullPtr := (N + pullPtr - 1) % N
  if !s.isClientReqActive nextPullPtr && nextPullPtr != prevPullPtr && prevPullPtr != pullPtr then
    conf.check (!s.isClientReqActive prevPullPtr)

end Session

/-- `ctx_trace_op_t` -/
structure CtxTraceOp where
  key : MicaKey
  /-- the slot whose `value_to_write` it points to -/
  valueToWrite : Nat
  valueToRead : Option Nat
  indexToReqArray : Nat
  realValLen : Nat
  sessionId : Nat
  opcode : Nat
  valLen : Nat

namespace Session

/-- `create_inputs_of_op`, and what `od_fill_trace_op` adds to it -/
def createInputsOfOp (conf : ClientConf) (s : Session) (workingSession : Nat) :
    Outcome CtxTraceOp := do
  let pullPtr := s.wrkrPullPtr
  let ifClOp := s.reqArray pullPtr
  s.checkClientReqStateWhenFillingOp conf pullPtr
  return {
    key := ifClOp.key
    valueToWrite := pullPtr
    valueToRead := ifClOp.valueToRead
    indexToReqArray := pullPtr
    realValLen := ifClOp.valLen
    sessionId := workingSession
    opcode := ifClOp.opcode
    valLen := if ifClOp.opcode = kvsOpPut then u8 (conf.valueSize / 2 ^ conf.shiftBits) else 0 }

/-- `signal_in_progress_to_client` -/
def signalInProgressToClient (conf : ClientConf) (s : Session) (i : Nat) : Outcome Session := do
  conf.check (decide (i < conf.perSessionReqNum))
  let s := if conf.enableAssertions then s.setOp i { s.reqArray i with key := ⟨0, 0, 0⟩ } else s
  conf.check (s.stateAt i == .active)
  return s.setState i .inProgress

/-- `od_fill_trace_op`, without what it asserts of the contents of a request: `od_check_op`, and the
    assertions on `opcode` and `write_ratio`. -/
def odFillTraceOp (conf : ClientConf) (s : Session) (workingSession : Nat) :
    Outcome (Session × CtxTraceOp × List RingEvent) := do
  let op ← s.createInputsOfOp conf workingSession
  let ifClOp := s.reqArray s.wrkrPullPtr
  let s ← s.signalInProgressToClient conf op.indexToReqArray
  conf.check (s.wrkrPullPtr == op.indexToReqArray)
  return ({ s with wrkrPullPtr := modIncr16 s.wrkrPullPtr conf.perSessionReqNum }, op,
    [.filled op.indexToReqArray ifClOp])

/-- `signal_completion_to_client` -/
def signalCompletionToClient (conf : ClientConf) (s : Session) (i : Nat) :
    Outcome (Session × List RingEvent) := do
  conf.check (decide (i < conf.perSessionReqNum))
  conf.check (s.stateAt i == .inProgress)
  return (s.setState i .completed, [.completed i])

end Session

/-! ## Interleavings -/

/-- `access_blocking`, or `access_async` with its argument `strong` -/
inductive AccessKind
  | blocking
  | async (strong : Bool)

/-- Where the client is inside an access. -/
inductive Stage
  /-- about to test the slot at the push pointer -/
  | slotTest
  /-- about to poll for the slot -/
  | firstPoll
  /-- about to test the slot again -/
  | secondTest
  /-- in the loop of `poll_one_req_blocking` -/
  | freeing (largestPolled : Nat)
  /-- about to assert that the slot is free -/
  | freed
  /-- about to issue the request -/
  | issuing
  /-- in the loop of `poll_all_reqs` -/
  | awaiting

/-- A session, and what its client is doing. -/
structure ClientState where
  session : Session
  client : Option (AccessKind × AccessArgs × Stage)

namespace ClientState

variable (conf : ClientConf) (s : ClientState) (kind : AccessKind) (a : AccessArgs)

/-- The client starts an access. -/
def begin : Outcome (ClientState × List RingEvent) :=
  let r := checkInputs conf a
  if r < 0 then
    match kind with
    | .blocking => .ok (s, [.returned true r])
    | .async _ => do
      conf.check false
      return (s, [.returned false r])
  else .ok ({ s with client := some (kind, a, .slotTest) }, [])

/-- The client goes on with an access. -/
def advance : Stage → Outcome (ClientState × List RingEvent)
  | .slotTest =>
    if s.session.stateAt s.session.cltPushPtr = .invalid then
      .ok ({ s with client := some (kind, a, .issuing) }, [])
    else do
      match kind with
      | .blocking => pure ()
      | .async _ => s.session.checkPushPullPtrs conf
      return ({ s with client := some (kind, a, .firstPoll) }, [])
  | .firstPoll => do
    let (session, _, evs) ← s.session.poll conf
    return ({ session := session, client := some (kind, a, .secondTest) }, evs)
  | .secondTest =>
    if s.session.stateAt s.session.cltPushPtr = .invalid then
      .ok ({ s with client := some (kind, a, .issuing) }, [])
    else
      match kind with
      | .async false => .error .undefined
      | .async true | .blocking =>
        .ok ({ s with client := some (kind, a, .freeing s.session.lastPulledReq) }, [])
  | .freeing largestPolled => do
    let (session, r, evs) ← s.session.poll conf
    if r ≤ largestPolled then return ({ s with session := session }, evs)
    else return ({ session := session, client := some (kind, a, .freed) }, evs)
  | .freed => do
    let free := s.session.stateAt s.session.cltPushPtr == .invalid
    match kind with
    | .blocking => if !free then .error .undefined
    | .async _ => conf.check free
    return ({ s with client := some (kind, a, .issuing) }, [])
  | .issuing => do
    match kind with
    | .blocking => pure ()
    | .async _ => conf.check (s.session.stateAt s.session.cltPushPtr == .invalid)
    let (session, evs) ← s.session.issue conf a
    match kind with
    | .blocking => return ({ session := session, client := some (kind, a, .awaiting) }, evs)
    | .async _ => return ({ session := session, client := none },
        evs ++ [.returned false (toInt session.lastPushedReq)])
  | .awaiting => do
    let (session, r, evs) ← s.session.poll conf
    if r < session.lastPushedReq then return ({ s with session := session }, evs)
    else
      conf.check (session.cltPushPtr == session.cltPullPtr)
      return ({ session := session, client := none }, evs ++ [.returned true (checkInputs conf a)])

end ClientState

/-- What can happen at a session. -/
inductive ClientCmd
  /-- the client calls `access_blocking` or `access_async` -/
  | access (kind : AccessKind) (a : AccessArgs)
  /-- the client goes on with its access -/
  | advance
  /-- the client calls `poll` -/
  | poll
  /-- the worker pulls the request at its pull pointer, if it is active -/
  | fill (workingSession : Nat)
  /-- the worker completes a request that is in progress -/
  | complete (i : Nat)

/-- One step of the client or of the worker. -/
def clientStep (conf : ClientConf) (s : ClientState) :
    ClientCmd → Outcome (ClientState × List RingEvent)
  | .access kind a =>
    match s.client with
    | none => s.begin conf kind a
    | some _ => .error .disabled
  | .advance =>
    match s.client with
    | none => .error .disabled
    | some (kind, a, stage) => s.advance conf kind a stage
  | .poll =>
    match s.client with
    | none => do
      let (session, _, evs) ← s.session.poll conf
      return ({ s with session := session }, evs)
    | some _ => .error .disabled
  | .fill workingSession =>
    if s.session.isClientReqActive s.session.wrkrPullPtr then do
      let (session, _, evs) ← s.session.odFillTraceOp conf workingSession
      return ({ s with session := session }, evs)
    else .error .disabled
  | .complete i =>
    if i < conf.perSessionReqNum ∧ s.session.stateAt i = .inProgress then do
      let (session, evs) ← s.session.signalCompletionToClient conf i
      return ({ s with session := session }, evs)
    else .error .disabled

/-- All slots are `INVALID`, with anything else in them, and all pointers are 0. -/
def ClientState.start (ops : Nat → ClientOp) : ClientState where
  session := {
    reqArray := fun i => { ops i with state := .invalid }
    cltPushPtr := 0, cltPullPtr := 0, wrkrPullPtr := 0
    lastPushedReq := 0, lastPulledReq := 0 }
  client := none

end Odyssey
