/-
  THE CLIENTS THAT REPLAY A TRACE: `send_reqs_from_trace` of `od_client.c`.

  A client goes round its sessions twice, again and again: it polls the oldest request of each, and
  then it puts the next request of its trace into each that has a free slot.  It touches the slots
  of the interface itself, without `access_async`, so nothing counts the requests.  All sessions of
  a client go through one trace, which begins anew at its end.

  The pointer of a session is read once for each visit and not again, although the loops over it are
  `while`s: what is tested again is the slot that was just polled, or just filled.

  * `TraceFeed.step` is one step of a client, which is one test of a slot with what follows from it,
    or of a worker, which picks a request up or completes one (`ClientRing`);
  * there are `CLIENTS_PER_MACHINE` clients, each with its sessions and its trace, and they all step
    at the same time as the workers.

  The build does not measure latency, and what is printed is left out, with the counter of the
  passes that found nothing.
-/
import Odyssey.Trace
import Odyssey.RingSafety

namespace Odyssey

open Lib

/-! ## Data -/

/-- The build, and the trace of each client. -/
structure TraceFeed where
  conf : ClientConf
  sessionsPerThread : Nat
  clientsPerMachine : Nat
  /-- the buffer that a client allocates for what one of its workers reads -/
  valuePtr : Nat → Nat → Nat
  trace : Nat → List TraceEntry

/-- `clt_trace_t`, without the latency -/
structure CltTrace where
  sessOffset : Nat
  minSess : Nat
  minWrkr : Nat
  maxSess : Nat
  maxWrkr : Nat
  workerNum : Nat

/-- `interface`: the sessions of every worker -/
abbrev Interface := Nat → Nat → Session

/-- Where a client is; `sessionId` and the pointer are its local variables. -/
inductive TraceLoc
  /-- before `init_clt_trace` -/
  | starting
  /-- in the loop that gets results -/
  | polling (sessionId pullPtr : Nat)
  /-- in the loop that issues requests -/
  | pushing (sessionId pushPtr : Nat)

structure TraceClient where
  trInfo : CltTrace
  tracePtr : Nat
  loc : TraceLoc

structure TraceSys where
  interface : Interface
  client : Nat → TraceClient

inductive TraceCmd
  /-- a step of client `tId` -/
  | client (tId : Nat)
  /-- worker `wrkr` picks up the next request of its session `sI` -/
  | fill (wrkr sI : Nat)
  /-- worker `wrkr` completes the request in slot `i` of its session `sI` -/
  | complete (wrkr sI i : Nat)
  deriving DecidableEq

/-- What a step shows: a worker and its session, and what happens at its ring. -/
abbrev TraceShown := (Nat × Nat) × List RingEvent

namespace Interface

def set (interface : Interface) (wrkr sI : Nat) (s : Session) : Interface :=
  Function.update interface wrkr (Function.update (interface wrkr) sI s)

end Interface

namespace TraceFeed

variable (f : TraceFeed)

/-- `SESSIONS_PER_CLIENT` -/
def sessionsPerClient : Nat := max 1 (f.conf.sessionsPerMachine / f.clientsPerMachine)

/-- `wrkr` of a session, and `s_i` -/
def wrkr (sessionId : Nat) : Nat := u16 (sessionId / f.sessionsPerThread)
def sI (sessionId : Nat) : Nat := u16 (sessionId % f.sessionsPerThread)

/-- The session of the interface with this id. -/
def session (interface : Interface) (sessionId : Nat) : Session :=
  interface (f.wrkr sessionId) (f.sI sessionId)

def setSession (interface : Interface) (sessionId : Nat) (s : Session) : Interface :=
  interface.set (f.wrkr sessionId) (f.sI sessionId) s

/-! ## init_clt_trace -/

/-- The fields of `tr_info`. -/
def cltTrace (tId : Nat) : Outcome CltTrace := do
  let sessOffset := u16 (tId * f.sessionsPerClient)
  if ¬ sessOffset + f.sessionsPerClient ≤ f.conf.sessionsPerMachine then .error .undefined
  let maxSess := u16 (sessOffset + (f.sessionsPerClient - 1))
  let minWrkr := u16 (sessOffset / f.sessionsPerThread)
  let maxWrkr := u16 (maxSess / f.sessionsPerThread)
  return {
    sessOffset := sessOffset
    minSess := sessOffset
    minWrkr := minWrkr
    maxSess := maxSess
    maxWrkr := maxWrkr
    workerNum := u16 (1 + maxWrkr - minWrkr) }

/-- The slots of one session get the buffer of its worker. -/
def initSlots (s : Session) (ptr : Nat) : Session :=
  { s with reqArray := fun i =>
      if i < f.conf.perSessionReqNum then
        { s.reqArray i with
          valLen := u32 f.conf.valueSize
          valueToRead := some ptr
          rmwIsSuccessful := some ptr }
      else s.reqArray i }

/-- One round of the loop over the sessions of a client. -/
def initSession (tId : Nat) (trInfo : CltTrace) (interface : Interface) (sessionId : Nat) :
    Outcome Interface := do
  let wrkr := f.wrkr sessionId
  if ¬ (trInfo.minWrkr ≤ wrkr ∧ wrkr ≤ trInfo.maxWrkr) then .error .undefined
  let modWrkr := wrkr - trInfo.minWrkr
  if ¬ modWrkr < trInfo.workerNum then .error .undefined
  return f.setSession interface sessionId
    (f.initSlots (f.session interface sessionId) (f.valuePtr tId modWrkr))

/-- `init_clt_trace`; the slots are free, so no worker looks at what is written. -/
def initCltTrace (tId : Nat) (interface : Interface) : Outcome (CltTrace × Interface) := do
  let trInfo ← f.cltTrace tId
  let interface ← (List.range' trInfo.minSess (trInfo.maxSess + 1 - trInfo.minSess)).foldlM
    (f.initSession tId trInfo) interface
  return (trInfo, interface)

/-! ## send_reqs_from_trace -/

/-- `trace_ptr++; if (trace[trace_ptr].opcode == NOP) trace_ptr = 0;` -/
def nextPtr (entries : List TraceEntry) (tracePtr : Nat) : Outcome Nat :=
  match entries[u32 (tracePtr + 1)]? with
  | none => .error .undefined
  | some entry => .ok (if entry.opcode = nop then 0 else u32 (tracePtr + 1))

/-- The next visit, of session `sessionId`, to poll it or to push. -/
def pollVisit (interface : Interface) (sessionId : Nat) : TraceLoc :=
  .polling sessionId (f.session interface sessionId).cltPullPtr

def pushVisit (interface : Interface) (sessionId : Nat) : TraceLoc :=
  .pushing sessionId (f.session interface sessionId).cltPushPtr

/-- A request of the trace in the slot of a session. -/
def fillSlot (op : ClientOp) (entry : TraceEntry) : ClientOp :=
  { op with opcode := entry.opcode, key := entry.keyHash, state := .active }

/-- A step of client `tId`. -/
def clientStep (s : TraceSys) (tId : Nat) : Outcome (TraceSys × TraceShown) :=
  let c := s.client tId
  match c.loc with
  | .starting => do
    let (trInfo, interface) ← f.initCltTrace tId s.interface
    return (⟨interface, Function.update s.client tId
      { trInfo := trInfo, tracePtr := 0, loc := f.pollVisit interface trInfo.minSess }⟩,
      (f.wrkr trInfo.minSess, f.sI trInfo.minSess), [])
  | .polling sessionId pullPtr =>
    let x := f.session s.interface sessionId
    let here := (f.wrkr sessionId, f.sI sessionId)
    if x.stateAt pullPtr = .completed then
      let x := x.setState pullPtr .invalid
      let x := { x with cltPullPtr := modIncr16 x.cltPullPtr f.conf.perSessionReqNum }
      .ok ({ s with interface := f.setSession s.interface sessionId x }, here, [.polled pullPtr])
    else
      let loc := if sessionId + 1 ≤ c.trInfo.maxSess then f.pollVisit s.interface (sessionId + 1)
        else f.pushVisit s.interface c.trInfo.minSess
      .ok ({ s with client := Function.update s.client tId { c with loc := loc } }, here, [])
  | .pushing sessionId pushPtr =>
    let x := f.session s.interface sessionId
    let here := (f.wrkr sessionId, f.sI sessionId)
    if x.stateAt pushPtr = .invalid then
      match (f.trace tId)[c.tracePtr]? with
      | none => .error .undefined
      | some entry => do
        let op := fillSlot (x.reqArray pushPtr) entry
        let x := x.setOp pushPtr op
        let x := { x with cltPushPtr := modIncr16 x.cltPushPtr f.conf.perSessionReqNum }
        let tracePtr ← nextPtr (f.trace tId) c.tracePtr
        return (⟨f.setSession s.interface sessionId x,
          Function.update s.client tId { c with tracePtr := tracePtr }⟩, here, [.issued pushPtr op])
    else
      let loc := if sessionId + 1 ≤ c.trInfo.maxSess then f.pushVisit s.interface (sessionId + 1)
        else f.pollVisit s.interface c.trInfo.minSess
      .ok ({ s with client := Function.update s.client tId { c with loc := loc } }, here, [])

/-- A step of a client or of a worker. -/
def step (s : TraceSys) : TraceCmd → Outcome (TraceSys × TraceShown)
  | .client tId => if tId < f.clientsPerMachine then f.clientStep s tId else .error .disabled
  | .fill wrkr sI =>
    let x := s.interface wrkr sI
    if x.isClientReqActive x.wrkrPullPtr then do
      let (x, _, evs) ← x.odFillTraceOp f.conf sI
      return ({ s with interface := s.interface.set wrkr sI x }, (wrkr, sI), evs)
    else .error .disabled
  | .complete wrkr sI i =>
    let x := s.interface wrkr sI
    if i < f.conf.perSessionReqNum ∧ x.stateAt i = .inProgress then do
      let (x, evs) ← x.signalCompletionToClient f.conf i
      return ({ s with interface := s.interface.set wrkr sI x }, (wrkr, sI), evs)
    else .error .disabled

/-- All rings are empty, with anything in their slots, and no client has begun. -/
def start (ops : Nat → Nat → Nat → ClientOp) : TraceSys where
  interface wrkr sI := (ClientState.start (ops wrkr sI)).session
  client _ := ⟨⟨0, 0, 0, 0, 0, 0⟩, 0, .starting⟩

/-! ## What a run shows -/

/-- What has happened at a session of a worker. -/
def eventsAt (wrkr sI : Nat) (tr : List (TraceCmd × TraceShown)) : List RingEvent :=
  tr.flatMap fun p => if p.2.1 = (wrkr, sI) then p.2.2 else []

/-- The requests that a client has issued, to all of its sessions, in order. -/
def issuedBy (tId : Nat) (tr : List (TraceCmd × TraceShown)) : List ClientOp :=
  tr.flatMap fun p => if p.1 = .client tId then issuedOps p.2.2 else []

/-- How many requests a trace has: up to the first `NOP` behind its first entry, which is not
    tested. -/
def period (trace : List TraceEntry) : Nat := 1 + trace.tail.findIdx (·.opcode == nop)

/-- What the build is to be like. -/
structure Sized : Prop where
  ringPos : 0 < f.conf.perSessionReqNum
  ring : f.conf.perSessionReqNum ≤ 2 ^ 16
  sessions : f.conf.sessionsPerMachine < 2 ^ 16
  clients : f.clientsPerMachine ≤ f.conf.sessionsPerMachine

/-- What the build and the traces are to be like. -/
structure Fits : Prop extends f.Sized where
  /-- every trace has an end behind its first entry -/
  ends : ∀ tId < f.clientsPerMachine, period (f.trace tId) < (f.trace tId).length
  short : ∀ tId < f.clientsPerMachine, (f.trace tId).length ≤ 2 ^ 32

end TraceFeed

end Odyssey
