/-
  THE CIRCULAR TESTS of `od_client.c`: `rel_acq_circular_blocking` and `rel_acq_circular_async`.

  The machines stand in a circle.  A machine waits until the flag of the one before it is 1 (it
  acquires it), checks that the data are what that machine wrote, writes the data anew, resets the
  flag, and releases its own.  So one after another they write the same keys, with relaxed writes,
  and only the flags, released and acquired, keep them apart.  Machine 0 kicks it off.

  The tests are programs over the rings (`RingProgram`), and what is below is a store that need not
  be atomic: it is release consistent (`Lib.ViewStore`), and a relaxed read may return an old value.
  The views of the sessions are what that store knows of them.  Of a value only the first byte is
  looked at, so the store keeps no more.

  * In the one test every call blocks; in the other only the acquires do, the rest is issued at
    once, and the data are checked when the last read was polled.
  * A session that is not the first of its machine does nothing.
-/
import Odyssey.Lib.Views
import Odyssey.RingSafety

namespace Odyssey

open Lib

/-! ## Requests -/

/-- A call of the interface, with the first byte of a value. -/
inductive CircularReq
  | read (keyId buffer : Nat)
  | acquire (keyId buffer : Nat)
  | write (keyId : Nat) (value : UInt8)
  | release (keyId : Nat) (value : UInt8)
  deriving DecidableEq

/-- Where a machine is in its test. -/
inductive CircularLoc
  /-- it issues these requests, to kick the test off or in a round -/
  | issuing (kick : Bool) (todo : List CircularReq)
  /-- it has read this key, and will check what -/
  | reading (keyId : Nat) (todo : List CircularReq)
  | acquiring
  /-- it has acquired the flag, and will look at it -/
  | testing
  /-- it waits for the last read, and will check all -/
  | checking

/-- What a machine holds, and the view that the store has of its session. -/
structure CircularLocal where
  loc : CircularLoc
  /-- the request it waits for, before it goes on -/
  target : Nat
  /-- `last_issued_req` -/
  lastIssuedReq : Nat
  /-- the first byte of `value`, or of `value[i]` -/
  value : Nat → UInt8
  view : View MicaKey

/-- The store, the first bytes. -/
abbrev CircularStore := ViewStore MicaKey UInt8

/-- A request that was executed, with what was read or written; nothing for a pass. -/
abbrev CircularEvent := Option (ClientRequest × UInt8)

/-- One of the tests, and the macros it depends on. -/
structure CircularTest where
  /-- `rel_acq_circular_blocking`, or `rel_acq_circular_async` -/
  blocking : Bool
  conf : ClientConf
  machineNum : Nat
  numOfRmwKeys : Nat

namespace CircularTest

variable (t : CircularTest)

def keyOffset : Nat := u32 t.numOfRmwKeys

def flagOffset : Nat := u32 (2 * t.numOfRmwKeys + t.machineNum * 100)

/-- `key_offset + i` -/
def key (i : Nat) : Nat := u32 (t.keyOffset + i)

/-- `key_flags[m]` -/
def keyFlag (m : Nat) : Nat := u32 (t.flagOffset + m)

/-- `RELAXED_WRITES` -/
def relaxedWrites : Nat := 5

def valLen : Nat := if t.blocking then 20 else 1

def prevMachineId (m : Nat) : Nat := u8 ((t.machineNum + m - 1) % t.machineNum)

/-- `(uint8_t) (10 * machine_id + i)` -/
def byteOf (m i : Nat) : UInt8 := UInt8.ofNat (10 * m + i)

/-- The buffer of the `i`-th read. -/
def buffer (i : Nat) : Nat := if t.blocking then 0 else i

/-- The loops that read, and that write. -/
def reads : List CircularReq := (List.range relaxedWrites).map fun i => .read (t.key i) (t.buffer i)

def writes (m : Nat) : List CircularReq :=
  (List.range relaxedWrites).map fun i => .write (t.key i) (byteOf m i)

/-- Machine 0 kicks things off. -/
def kickOff (m : Nat) : List CircularReq :=
  if m = 0 then t.writes m ++ [.release (t.keyFlag m) 1] else []

/-- What a machine does in a round. -/
def round (m : Nat) : List CircularReq :=
  t.reads ++ t.writes m ++
    [.write (t.keyFlag (t.prevMachineId m)) 0, .release (t.keyFlag m) 1]

/-! ## The program -/

/-- The call that issues a request, of session 0. -/
def access (r : CircularReq) : AccessKind × AccessArgs :=
  let async : AccessKind := if t.blocking then .blocking else .async true
  let desired (value : UInt8) : Nat → UInt8 := fun i => if i = 0 then value else 0
  match r with
  | .read keyId buffer => (async, ⟨keyId, some buffer, none, t.valLen, none, false, 0, .rlxdRead⟩)
  | .acquire keyId buffer =>
    (.blocking, ⟨keyId, some buffer, none, t.valLen, none, false, 0, .acquire⟩)
  | .write keyId value =>
    (async, ⟨keyId, none, some (desired value), t.valLen, none, false, 0, .rlxdWrite⟩)
  | .release keyId value =>
    (async, ⟨keyId, none, some (desired value), t.valLen, none, false, 0, .release⟩)

/-- An `int` as a `uint64_t`. -/
def ofInt (ret : Int) : Nat := if 0 ≤ ret then ret.toNat else 2 ^ 64 - (-ret).toNat

/-- What the call that issues a request returns, when `n` requests were issued before: a call that
    blocks what `check_inputs` does, another one the number of the request. -/
def returned (r : CircularReq) (n : Nat) : Int :=
  let returnInt := checkInputs t.conf (t.access r).2
  match (t.access r).1 with
  | .blocking => returnInt
  | .async _ => if returnInt < 0 then returnInt else toInt (u64 (n + 1))

/-- What is asserted of it.  Nothing is for the reads and the kick-off, nor for a write or a release
    that blocks. -/
def asserts (kick : Bool) (r : CircularReq) (ret : Int) : Bool :=
  match r with
  | .read _ _ => true
  | .acquire _ _ => if t.blocking then 0 < ret else 0 ≤ ret
  | .write _ _ | .release _ _ => t.blocking || kick || decide (0 < ret)

/-- A machine goes on: `n` requests were issued before. -/
def machineStep (m : Nat) (x : CircularLocal) (n : Nat) :
    Outcome (CircularLocal × List CircularReq) :=
  let wait : Nat := if t.blocking then n + 1 else 0
  let acquire : CircularReq := .acquire (t.keyFlag (t.prevMachineId m)) 0
  match x.loc with
  | .issuing kick [] =>
    if kick || t.blocking then .ok ({ x with loc := .acquiring, target := 0 }, [])
    else .ok ({ x with loc := .checking, target := x.lastIssuedReq }, [])
  | .issuing kick (r :: todo) =>
    let ret := t.returned r n
    if t.asserts kick r ret then
      match r with
      | .read keyId _ =>
        let loc := if t.blocking then .reading keyId todo else .issuing kick todo
        .ok ({ x with loc := loc, target := wait, lastIssuedReq := ofInt ret }, [r])
      | _ => .ok ({ x with loc := .issuing kick todo, target := wait }, [r])
    else .error .undefined
  | .reading keyId todo =>
    if (x.value 0).toNat = 10 * t.prevMachineId m + (keyId - t.keyOffset) then
      .ok ({ x with loc := .issuing false todo, target := 0 }, [])
    else .error .undefined
  | .acquiring => .ok ({ x with loc := .testing, target := n + 1 }, [acquire])
  | .testing =>
    if t.asserts false acquire (t.returned acquire n) then
      if x.value 0 = 1 then .ok ({ x with loc := .issuing false (t.round m), target := 0 }, [])
      else .ok ({ x with loc := .acquiring, target := 0 }, [])
    else .error .undefined
  | .checking =>
    if ∀ i ∈ List.range relaxedWrites, (x.value i).toNat = 10 * t.prevMachineId m + i then
      .ok ({ x with loc := .acquiring, target := 0 }, [])
    else .error .undefined

def machineOf (g : Nat) : Nat := g / t.conf.sessionsPerMachine

/-- The pass of a session. -/
def pass (g : Nat) (_ : Unit) (x : CircularLocal) (n : Nat) :
    Outcome (Unit × CircularLocal × List CircularReq × CircularEvent) :=
  if g % t.conf.sessionsPerMachine = 0 ∧ t.machineOf g < t.machineNum then do
    let (x, requests) ← t.machineStep (t.machineOf g) x n
    return ((), x, requests, none)
  else .error .disabled

/-- The store executes a request. -/
def serve (_ : Bool) (s : CircularStore) (x : CircularLocal) (r : ClientRequest) :
    CircularStore × CircularLocal × CircularEvent :=
  if opReads r.opcode then
    let w := s.look x.view r.key
    let view := ViewStore.viewAfter x.view r.key w (r.opcode == opAcquire)
    let value := match r.valueToRead with
      | some buffer => Function.update x.value buffer w.value
      | none => x.value
    (s.choose, { x with view := view, value := value }, some (r, w.value))
  else
    let byte := (r.valueToWrite.getD []).headD 0
    let view := x.view.raise r.key (s.stamp x.view r.key)
    ((s.write x.view r.key byte (r.opcode == opRelease)).choose, { x with view := view },
      some (r, byte))

def program : RingProgram CircularStore Unit CircularLocal CircularReq CircularEvent where
  conf := t.conf
  clientOf g := g
  target x := x.target
  pass := t.pass
  access := t.access
  serve := serve

/-- `rel_acq_circular_blocking` -/
def relAcqCircularBlocking (conf : ClientConf) (machineNum numOfRmwKeys : Nat) : CircularTest :=
  ⟨true, conf, machineNum, numOfRmwKeys⟩

/-- `rel_acq_circular_async` -/
def relAcqCircularAsync (conf : ClientConf) (machineNum numOfRmwKeys : Nat) : CircularTest :=
  ⟨false, conf, machineNum, numOfRmwKeys⟩

/-- A machine that has not begun, with anything in its buffers. -/
def startAt (value : Nat → Nat → UInt8) (g : Nat) : CircularLocal where
  loc := .issuing true (t.kickOff (t.machineOf g))
  target := 0
  lastIssuedReq := 0
  value := value g
  view := View.none

/-- A store where every key was written once. -/
def startStore (values : MicaKey → UInt8) (choices : Nat → Nat) : CircularStore where
  last key := ⟨0, values key, View.none⟩
  older _ := []
  choices := choices
  chosen := 0
  older_lt := fun _ _ h => by cases h

/-- What the build and the keys are to be like. -/
structure Fits : Prop where
  ringPos : 1 ≤ t.conf.perSessionReqNum
  ring : t.conf.perSessionReqNum ≤ 2 ^ 16
  machines : t.machineNum < 2 ^ 8
  sessions : 0 < t.conf.sessionsPerMachine
  /-- the keys are keys of the store -/
  keys : 2 * t.numOfRmwKeys + t.machineNum * 101 ≤ t.conf.kvsNumKeys
  few : t.conf.kvsNumKeys ≤ 2 ^ 32
  value : 20 ≤ t.conf.valueSize
  /-- keys that differ have hashes that differ -/
  apart : ∀ k < t.conf.kvsNumKeys, ∀ k' < t.conf.kvsNumKeys,
    MicaKey.ofHash (t.conf.cityHash k) = .ofHash (t.conf.cityHash k') → k = k'

end CircularTest

end Odyssey
