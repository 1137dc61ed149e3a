/-
  SESSIONS OVER THEIR RINGS: what the state machines of the clients rely on, and what carries it.

  The benchmarks of `od_client.c` are written against an asynchronous store: a session issues its
  requests and goes on, and `poll_a_req_blocking` waits for one of them (`Lib.Sessions`).
  Underneath there is a ring of request slots for every session, in which the client and a worker
  step at the same time (`ClientRing`).  Here are both of them, over any program and any store.

  A pass of a client over a session waits for a request, looks at what the session holds, and then
  issues its requests one after another; each of them is an access that may find the ring full and
  poll for a slot, while the worker goes on with the requests of the same pass that are issued.
  The worker picks a request up (`od_fill_trace_op`), the protocol that it runs executes those that
  are picked up of a session in that order and one at a time, and signals some time after it has.

  * `RingProgram` is the program, the interface it calls, and the execution of a request, which sees
    no more of it than the worker does (`ClientRequest`);
  * `RingProgram.step` is one step of a client, of a worker, or of the store, over the rings;
  * `RingProgram.service` is the same program over a store that is atomic.
-/
import Odyssey.ClientRing
import Odyssey.ClientSessions

namespace Odyssey

open Lib

/-! ## What the worker executes -/

/-- Does an op with this opcode have a value to write? -/
def opWrites (opcode : Nat) : Bool :=
  opcode == kvsOpPut || opcode == opRelease || opcode == compareAndSwapStrong ||
    opcode == compareAndSwapWeak || opcode == fetchAndAdd

/-- Does it read a value? -/
def opReads (opcode : Nat) : Bool :=
  opcode == kvsOpGet || opcode == opAcquire || opcode == compareAndSwapStrong ||
    opcode == compareAndSwapWeak || opcode == fetchAndAdd

/-- Is it a compare-and-swap, which says whether it succeeded? -/
def opCompares (opcode : Nat) : Bool :=
  opcode == compareAndSwapStrong || opcode == compareAndSwapWeak

/-- A request to those who execute it; the opcode says which of the pointers of a slot count, the
    others are what an older request has left there. -/
structure ClientRequest where
  opcode : Nat
  key : MicaKey
  valLen : Nat
  /-- the bytes to write -/
  valueToWrite : Option (List UInt8)
  /-- where to put what is read -/
  valueToRead : Option Nat
  /-- where to put whether a compare-and-swap succeeded -/
  rmwIsSuccessful : Option Nat
  deriving DecidableEq

namespace ClientRequest

/-- The fields that count. -/
def ofFields (opcode : Nat) (key : MicaKey) (valLen : Nat) (valueToWrite : Nat → UInt8)
    (valueToRead rmwIsSuccessful : Option Nat) : ClientRequest where
  opcode := opcode
  key := key
  valLen := valLen
  valueToWrite := if opWrites opcode then some (readAt valueToWrite 0 valLen) else none
  valueToRead := if opReads opcode then valueToRead else none
  rmwIsSuccessful := if opCompares opcode then rmwIsSuccessful else none

/-- The request in a slot. -/
def ofSlot (op : ClientOp) : ClientRequest :=
  .ofFields op.opcode op.key op.valLen op.valueToWrite op.valueToRead op.rmwIsSuccessful

/-- The request that was picked up: the value and the result of a compare-and-swap are still in
    the slot. -/
def ofTraceOp (s : Session) (op : CtxTraceOp) : ClientRequest :=
  .ofFields op.opcode op.key op.realValLen (s.reqArray op.valueToWrite).valueToWrite op.valueToRead
    (s.reqArray op.indexToReqArray).rmwIsSuccessful

/-- The opcode of an access. -/
def opcodeOf (a : AccessArgs) : Nat :=
  match a.type with
  | .rlxdRead => kvsOpGet
  | .rlxdWrite => kvsOpPut
  | .acquire => opAcquire
  | .release => opRelease
  | .cas => if a.rmwIsWeak then compareAndSwapWeak else compareAndSwapStrong
  | .faa => fetchAndAdd
  | .other => 0

/-- The request that the caller of an access asks for. -/
def ofArgs (conf : ClientConf) (a : AccessArgs) : ClientRequest :=
  .ofFields (opcodeOf a) (.ofHash (conf.cityHash a.keyId)) a.valLen
    (a.valueToWrite.getD fun _ => 0) a.valueToRead a.casResult

end ClientRequest

/-! ## Programs -/

/-- The program of the clients, with the store. -/
structure RingProgram (S C L R E : Type) where
  conf : ClientConf
  clientOf : Nat → Nat
  /-- the number of the request that the next pass over a session waits for, 0 for none -/
  target : L → Nat
  /-- the rest of the pass: what the session holds and its client shares then, and the requests that
      it issues, given how many were issued before -/
  pass : Nat → C → L → Nat → Outcome (C × L × List R × E)
  /-- the call that issues a request -/
  access : R → AccessKind × AccessArgs
  /-- the execution of a request, which may fail for no reason -/
  serve : Bool → S → L → ClientRequest → S × L × E

/-- A session on its ring. -/
structure RingSession (L R : Type) where
  info : L
  /-- the ring, and where the client is in an access -/
  ring : ClientState
  /-- the requests of the pass that are not issued yet -/
  todo : List R
  /-- what the worker has picked up and not executed, oldest first -/
  pulled : List CtxTraceOp
  /-- the slots of the requests that were executed, and are to be signalled -/
  executed : List Nat

/-- A store, and the rings of the sessions that use it. -/
structure RingSys (S C L R : Type) where
  store : S
  shared : Nat → C
  session : Nat → RingSession L R

/-- What can happen. -/
inductive RingCmd
  /-- the client of session `g` has waited, and begins a pass -/
  | pass (g : Nat)
  /-- the client polls: it is in `poll_a_req_blocking` -/
  | poll (g : Nat)
  /-- the client calls the interface for the next request of the pass -/
  | access (g : Nat)
  /-- the client goes on with its access -/
  | advance (g : Nat)
  /-- the worker picks a request up -/
  | fill (g workingSession : Nat)
  /-- the store executes the oldest request that was picked up -/
  | execute (g : Nat) (spurious : Bool)
  /-- the worker signals a request that was executed -/
  | complete (g i : Nat)
  deriving DecidableEq

variable {S C L R E : Type}

/-- What a step shows: of the program and its store, and of the ring. -/
abbrev RingShown (E : Type) := Option E × List RingEvent

namespace RingSys

def set (s : RingSys S C L R) (g : Nat) (x : RingSession L R) : RingSys S C L R :=
  { s with session := Function.update s.session g x }

end RingSys

namespace RingProgram

variable (p : RingProgram S C L R E)

/-- The arguments of the call that issues a request of session `g`. -/
def args (g : Nat) (r : R) : AccessArgs :=
  { (p.access r).2 with sessionId := g % p.conf.sessionsPerMachine }

/-- Does the interface take the request? -/
def accepted (g : Nat) (r : R) : Bool := decide (0 ≤ checkInputs p.conf (p.args g r))

/-- The request that is asked for. -/
def request (r : R) : ClientRequest := .ofArgs p.conf (p.access r).2

/-! ## Over a store that is atomic -/

/-- The program over a store that executes the requests of a session in the order of their issue. -/
def service : Service S C L R E where
  clientOf := p.clientOf
  pass g c x := do
    pollAReqBlocking x (p.target x.info)
    let (c, info, requests, e) ← p.pass g c x.info x.issued
    return (c, info, requests.filter (p.accepted g), e)
  serve spurious store info r := p.serve spurious store info (p.request r)

/-- Nothing has been issued. -/
def sessions (store : S) (shared : Nat → C) (info : Nat → L) : Sessions S C L R where
  store := store
  shared := shared
  session g := ⟨info g, [], 0⟩

/-! ## Over the rings -/

/-- A step of a client, of a worker, or of the store. -/
def step (s : RingSys S C L R) : RingCmd → Outcome (RingSys S C L R × RingShown E)
  | .pass g => do
    let x := s.session g
    if x.ring.client.isNone && x.todo.isEmpty then
      -- the loop of `poll_a_req_blocking` is left
      if p.target x.info ≤ x.ring.session.lastPulledReq then do
        let (c, info, requests, e) ←
          p.pass g (s.shared (p.clientOf g)) x.info x.ring.session.lastPushedReq
        return ({ s with shared := Function.update s.shared (p.clientOf g) c }.set g
          { x with info := info, todo := requests }, some e, [])
      else .error .waiting
    else .error .disabled
  | .poll g => do
    let x := s.session g
    if x.todo.isEmpty then do
      let (ring, evs) ← clientStep p.conf x.ring .poll
      return (s.set g { x with ring := ring }, none, evs)
    else .error .disabled
  | .access g =>
    let x := s.session g
    match x.todo with
    | [] => .error .disabled
    | r :: todo => do
      let (ring, evs) ← clientStep p.conf x.ring (.access (p.access r).1 (p.args g r))
      return (s.set g { x with ring := ring, todo := todo }, none, evs)
  | .advance g => do
    let x := s.session g
    let (ring, evs) ← clientStep p.conf x.ring .advance
    return (s.set g { x with ring := ring }, none, evs)
  | .fill g workingSession =>
    let x := s.session g
    if x.ring.session.isClientReqActive x.ring.session.wrkrPullPtr then do
      let (session, op, evs) ← x.ring.session.odFillTraceOp p.conf workingSession
      return (s.set g { x with
        ring := { x.ring with session := session }, pulled := x.pulled ++ [op] }, none, evs)
    else .error .disabled
  | .execute g spurious =>
    let x := s.session g
    match x.pulled with
    | [] => .error .disabled
    | op :: pulled =>
      let (store, info, e) := p.serve spurious s.store x.info (.ofTraceOp x.ring.session op)
      .ok ({ s with store := store }.set g { x with
        info := info, pulled := pulled, executed := op.indexToReqArray :: x.executed }, some e, [])
  | .complete g i =>
    let x := s.session g
    if i ∈ x.executed then do
      let (session, evs) ← x.ring.session.signalCompletionToClient p.conf i
      return (s.set g { x with
        ring := { x.ring with session := session }, executed := x.executed.erase i }, none, evs)
    else .error .disabled

/-- Every ring is empty, with anything in its slots. -/
def start (store : S) (shared : Nat → C) (info : Nat → L) (ops : Nat → Nat → ClientOp) :
    RingSys S C L R where
  store := store
  shared := shared
  session g := ⟨info g, .start (ops g), [], [], []⟩

/-- What a step over the rings is over the atomic store: the passes and the executions are steps
    there, and nothing else is. -/
def seen : RingCmd × RingShown E → List (Turn × E)
  | (.pass g, some e, _) => [(.client g, e)]
  | (.execute g spurious, some e, _) => [(.store g spurious, e)]
  | _ => []

/-- The accesses that session `g` has called. -/
def accesses (g : Nat) (tr : List (RingCmd × RingShown E)) : Nat :=
  tr.countP fun p => p.1 == .access g

end RingProgram

end Odyssey
