/-
  CONNECTING THE MACHINES: `setup_connections`.

  Every worker of every machine publishes the attributes of its QPs; in the end every machine holds
  an address handle for every QP of every other machine.  The parties and their steps:

  * a worker writes the attributes of its QPs in the block of `all_qp_attr` that is its own, and
    counts itself in `workers_with_filled_qp_attr`;
  * worker 0 waits for the others of its machine and then exchanges attributes over sockets;
  * machine 0 is the server: one port for each other machine, which it opens, accepts and reads one
    after the other, and then it sends all it has to everyone;
  * every other machine is a client: it connects to the first of its `remote_ips`, sends the block
    of its machine and receives the whole array;
  * worker 0 makes the handles (`get_qps_from_all_other_machines`) and sets `qps_are_set_up`, which
    the other workers wait for.

  The array is flat: `wrkr_qp[m][w]` points to the block of worker `w` of machine `m`, and what goes
  over a socket is a range of the array.  A socket is two byte streams, here in units of one
  `qp_attr`; a `recv` with `MSG_WAITALL` waits for all it was asked for.  The memory that was not
  written is arbitrary.

  A step is what one worker does between two accesses to what it shares; a worker that waits has no
  step.  So a run is any interleaving of all workers of all machines.  Library calls succeed.
-/
import Odyssey.Top
import Odyssey.Lib.Memory
import Odyssey.Lib.Runs
import Mathlib.Logic.Function.Basic

namespace Odyssey

open Lib

/-! ## The addresses -/

/-- `struct qp_attr` -/
structure QpAttr where
  gidGlobalInterfaceId : UInt64
  gidGlobalSubnetPrefix : UInt64
  lid : Int32
  qpn : Int32
  sl : UInt8
  deriving DecidableEq

/-- What the device says of a QP: its number, the local id of its port and, for RoCE, the gid. -/
structure QpIdent where
  lid : UInt16
  qpn : UInt32
  interfaceId : UInt64
  subnetPrefix : UInt64
  deriving DecidableEq

/-- `struct ibv_ah_attr`, as far as it is filled in -/
structure AhAttr where
  isGlobal : Bool
  dlid : UInt16
  sl : UInt8
  srcPathBits : UInt8
  portNum : UInt8
  interfaceId : UInt64
  subnetPrefix : UInt64
  sgidIndex : UInt8
  hopLimit : UInt8
  deriving DecidableEq

/-- `remote_qp_t`; the address handle is what it was made from. -/
structure RemoteQp where
  ah : AhAttr
  qpn : Int32
  deriving DecidableEq

/-- `DEFAULT_SL` -/
def defaultSl : UInt8 := 0

/-- `BASE_SOCKET_PORT` -/
def baseSocketPort : Nat := 8080

/-! ## The deployment -/

/-- What all machines were built and started with. -/
structure ConnConf where
  machineNum : Nat
  workersPerMachine : Nat
  qpNum : Nat
  isRoce : Bool
  /-- the argument `--all-ips`, split at the commas -/
  allIps : List (List Char)
  /-- the machine that has an address -/
  hostOf : List Char → Option Nat
  /-- QP `q` of worker `w` of machine `m` -/
  qp : Nat → Nat → Nat → QpIdent

/-- `local_ip` and `remote_ips`, with the number of the remote ones so far -/
structure HostIps where
  localIp : List Char
  remoteIps : Nat → List Char
  rmId : Nat

namespace ConnConf

variable (conf : ConnConf)

/-- `REM_MACH_NUM` -/
def remMachNum : Nat := conf.machineNum - 1

/-- `WORKER_NUM` -/
def workerNum : Nat := conf.workersPerMachine * conf.machineNum

/-- The number of attributes of one machine. -/
def blockSize : Nat := conf.workersPerMachine * conf.qpNum

/-- `&all_qp_attr->wrkr_qp[m][w][q]`, as an index of the array -/
def qpIndex (m w q : Nat) : Nat :=
  m * conf.workersPerMachine * conf.qpNum + w * conf.qpNum + q

/-- One address of `od_handle_program_inputs`; the copies are of 16 bytes. -/
def takeIp (machineId : Nat) (h : HostIps) (mId : Nat) : Outcome HostIps :=
  match conf.allIps[mId]? with
  | none => .error .undefined
  | some ip =>
    if 16 < ip.length + 1 then .error .undefined
    else if mId = machineId then .ok { h with localIp := ip }
    else .ok { h with
      remoteIps := Function.update h.remoteIps h.rmId ip
      rmId := h.rmId + 1 }

/-- The end of `od_handle_program_inputs`, which splits up the addresses. -/
def odHandleIps (machineId : Nat) : Outcome HostIps :=
  (List.range conf.machineNum).foldlM (conf.takeIp machineId) ⟨[], fun _ => [], 0⟩

/-- The attributes that `fill_qps` writes over what was there. -/
def fillAttr (old : QpAttr) (qp : QpIdent) : QpAttr :=
  let attr := { old with
    lid := qp.lid.toUInt32.toInt32
    qpn := qp.qpn.toInt32
    sl := defaultSl }
  if conf.isRoce then { attr with
    gidGlobalInterfaceId := qp.interfaceId
    gidGlobalSubnetPrefix := qp.subnetPrefix }
  else attr

/-- The handle and the number that `get_qps_from_all_other_machines` keeps of a QP. -/
def remoteQp (wrkrQp : QpAttr) : RemoteQp :=
  let ahAttr : AhAttr := {
    isGlobal := false
    dlid := wrkrQp.lid.toUInt32.toUInt16
    sl := wrkrQp.sl
    srcPathBits := 0
    portNum := 1
    interfaceId := 0
    subnetPrefix := 0
    sgidIndex := 0
    hopLimit := 0 }
  let ahAttr := if conf.isRoce then { ahAttr with
    isGlobal := true
    dlid := 0
    interfaceId := wrkrQp.gidGlobalInterfaceId
    subnetPrefix := wrkrQp.gidGlobalSubnetPrefix
    sgidIndex := 0
    hopLimit := 1 } else ahAttr
  ⟨ahAttr, wrkrQp.qpn⟩

end ConnConf

/-! ## The state -/

/-- Where a worker is in `setup_connections_and_spawn_stats_thread`. -/
inductive ConnStage
  /-- about to fill in its QPs -/
  | fill
  /-- about to count itself -/
  | signal
  /-- worker 0, waiting for the others of its machine -/
  | await
  /-- the server, about to open a port -/
  | listen (rmI : Nat)
  /-- the server, waiting for a connection to the port -/
  | accept (rmI : Nat)
  /-- the server, waiting for the attributes of a machine -/
  | recv (rmI : Nat)
  /-- the server, about to send everything -/
  | sendAll (rmI : Nat)
  /-- a client, connecting -/
  | connect
  /-- a client, about to send its attributes -/
  | send
  /-- a client, waiting for everything -/
  | recvAll
  /-- worker 0, about to make the handles -/
  | getQps
  /-- worker 0, about to set the flag -/
  | setFlag
  /-- another worker, waiting for the flag -/
  | awaitFlag
  | done
  deriving Repr, DecidableEq

/-- The globals of a machine, and where its workers are. -/
structure ConnGlobals where
  /-- `all_qp_attr->buf` -/
  buf : Nat → QpAttr
  workersWithFilledQpAttr : Nat
  remQp : Nat × Nat × Nat → RemoteQp
  qpsAreSetUp : Bool
  remoteIps : Nat → List Char
  stage : Nat → ConnStage

/-- A port of a machine, with the machine that connected to it and the data on its way: `up` from
    the client, `down` to it. -/
structure Socket where
  listening : Bool
  peer : Option Nat
  up : List QpAttr
  down : List QpAttr

/-- All machines, and the ports between them. -/
structure Connections where
  machine : Nat → ConnGlobals
  socket : Nat → Nat → Socket

namespace ConnGlobals

variable (conf : ConnConf) (g : ConnGlobals)

def setStage (t : Nat) (stage : ConnStage) : ConnGlobals :=
  { g with stage := Function.update g.stage t stage }

/-- The loop of `fill_qps`. -/
def fillQps (machineId t : Nat) : ConnGlobals :=
  { g with buf := (List.range conf.qpNum).foldl (fun buf q =>
      let x := conf.qpIndex machineId t q
      Function.update buf x (conf.fillAttr (buf x) (conf.qp machineId t q))) g.buf }

/-- The block of a machine in the array. -/
def block (m : Nat) : List QpAttr := readAt g.buf (conf.qpIndex m 0 0) conf.blockSize

/-- The whole array. -/
def allAttrs : List QpAttr := readAt g.buf 0 (conf.machineNum * conf.blockSize)

/-- `get_qps_from_all_other_machines` -/
def getQpsFromAllOtherMachines (machineId : Nat) : ConnGlobals :=
  { g with remQp := (List.range conf.workerNum).foldl (fun remQp gI =>
      if gI / conf.workersPerMachine = machineId then remQp
      else
        let wI := gI % conf.workersPerMachine
        let mI := gI / conf.workersPerMachine
        (List.range conf.qpNum).foldl (fun remQp qpI =>
          Function.update remQp (mI, wI, qpI)
            (conf.remoteQp (g.buf (conf.qpIndex mI wI qpI)))) remQp) g.remQp }

end ConnGlobals

namespace Connections

variable (conf : ConnConf) (s : Connections)

def setMachine (m : Nat) (g : ConnGlobals) : Connections :=
  { s with machine := Function.update s.machine m g }

def setSocket (m port : Nat) (k : Socket) : Connections :=
  { s with socket := Function.update s.socket m (Function.update (s.socket m) port k) }

/-- The port that the server opens for remote machine `rmI`. -/
def serverPort (rmI : Nat) : Nat := u16 (baseSocketPort + rmI)

/-- The port that a client connects to. -/
def clientPort (machineId : Nat) : Nat := u16 (baseSocketPort + machineId - 1)

/-- The loop of `set_up_qp_attr_server` over the ports, and the one that sends. -/
def sendLoop (rmI : Nat) : ConnStage := if rmI < conf.remMachNum then .sendAll rmI else .getQps

def serverLoop (rmI : Nat) : ConnStage :=
  if rmI < conf.remMachNum then .listen rmI else sendLoop conf 0

/-- The next step of worker `t` of machine `i`, which is at `stage`. -/
def work (i t : Nat) : ConnStage → Outcome Connections
  | .fill => .ok (s.setMachine i (((s.machine i).fillQps conf i t).setStage t .signal))
  | .signal =>
    let g := { s.machine i with
      workersWithFilledQpAttr := (s.machine i).workersWithFilledQpAttr + 1 }
    .ok (s.setMachine i (g.setStage t (if t = 0 then .await else .awaitFlag)))
  | .await =>
    if (s.machine i).workersWithFilledQpAttr = conf.workersPerMachine then
      .ok (s.setMachine i ((s.machine i).setStage t
        (if i = 0 then serverLoop conf 0 else .connect)))
    else .error .disabled
  | .listen rmI =>
    let k := s.socket i (serverPort rmI)
    .ok ((s.setSocket i (serverPort rmI) { k with listening := true }).setMachine i
      ((s.machine i).setStage t (.accept rmI)))
  | .accept rmI =>
    if (s.socket i (serverPort rmI)).peer.isSome then
      .ok (s.setMachine i ((s.machine i).setStage t (.recv rmI)))
    else .error .disabled
  | .recv rmI =>
    let k := s.socket i (serverPort rmI)
    if conf.blockSize ≤ k.up.length then
      let g := { s.machine i with
        buf := writeAt (s.machine i).buf (conf.qpIndex (rmI + 1) 0 0)
          (k.up.take conf.blockSize) }
      .ok ((s.setSocket i (serverPort rmI) { k with up := k.up.drop conf.blockSize }).setMachine i
        (g.setStage t (serverLoop conf (rmI + 1))))
    else .error .disabled
  | .sendAll rmI =>
    let k := s.socket i (serverPort rmI)
    .ok ((s.setSocket i (serverPort rmI)
        { k with down := k.down ++ (s.machine i).allAttrs conf }).setMachine i
      ((s.machine i).setStage t (sendLoop conf (rmI + 1))))
  | .connect =>
    match conf.hostOf ((s.machine i).remoteIps 0) with
    | none => .error .disabled
    | some m =>
      let k := s.socket m (clientPort i)
      if k.listening ∧ k.peer = none then
        .ok ((s.setSocket m (clientPort i) { k with peer := some i }).setMachine i
          ((s.machine i).setStage t .send))
      else .error .disabled
  | .send =>
    match conf.hostOf ((s.machine i).remoteIps 0) with
    | none => .error .disabled
    | some m =>
      let k := s.socket m (clientPort i)
      .ok ((s.setSocket m (clientPort i)
          { k with up := k.up ++ (s.machine i).block conf i }).setMachine i
        ((s.machine i).setStage t .recvAll))
  | .recvAll =>
    match conf.hostOf ((s.machine i).remoteIps 0) with
    | none => .error .disabled
    | some m =>
      let k := s.socket m (clientPort i)
      let n := conf.machineNum * conf.blockSize
      if n ≤ k.down.length then
        let g := { s.machine i with buf := writeAt (s.machine i).buf 0 (k.down.take n) }
        .ok ((s.setSocket m (clientPort i) { k with down := k.down.drop n }).setMachine i
          (g.setStage t .getQps))
      else .error .disabled
  | .getQps =>
    .ok (s.setMachine i
      (((s.machine i).getQpsFromAllOtherMachines conf i).setStage t .setFlag))
  | .setFlag =>
    .ok (s.setMachine i ({ s.machine i with qpsAreSetUp := true }.setStage t .done))
  | .awaitFlag =>
    if (s.machine i).qpsAreSetUp then .ok (s.setMachine i ((s.machine i).setStage t .done))
    else .error .disabled
  | .done => .error .disabled

/-- A worker `k.2` of a machine `k.1` takes its next step. -/
def step (k : Nat × Nat) : Outcome (Connections × Unit) :=
  if k.1 < conf.machineNum ∧ k.2 < conf.workersPerMachine then do
    let s' ← s.work conf k.1 k.2 ((s.machine k.1).stage k.2)
    return (s', ())
  else .error .disabled

/-- After `od_generic_init_globals` and `od_handle_program_inputs` on every machine, over memory
    that is arbitrary. -/
def start (buf : Nat → Nat → QpAttr) (remQp : Nat → Nat × Nat × Nat → RemoteQp)
    (ips : Nat → HostIps) : Connections where
  machine := fun i => {
    buf := buf i
    workersWithFilledQpAttr := 0
    remQp := remQp i
    qpsAreSetUp := false
    remoteIps := (ips i).remoteIps
    stage := fun _ => .fill }
  socket := fun _ _ => ⟨false, none, [], []⟩

end Connections

end Odyssey
