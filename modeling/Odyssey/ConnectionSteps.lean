/-
  STEP BY STEP, while the machines are being connected.

  What is between the server and a client is one socket.  The server goes through its ports in
  order, so its stage is four numbers: how many ports it has opened, accepted, received from and
  sent to.  The stage of a client is three flags.  `SocketInv` says that these seven decide what is
  in the streams of the socket, and that neither side is ahead of what the other has done.

  A step changes the stage of one worker.  Of the sockets only the one it works on sees a
  difference: for the others the four numbers are on the same side (`SocketInv.server_moves`).
  There is one lemma for each stage, and `work_keeps` puts them together.
-/
import Odyssey.ConnectionMachines

namespace Odyssey

open Lib

/-! ## What is between two machines -/

/-- **The socket of port `k`**, at a stage of the server and one of machine `k + 1`. -/
structure SocketInv (conf : ConnConf) (server client : ConnStage) (k : Nat) (x : Socket) :
    Prop where
  listening : x.listening = true ↔ k < server.opened conf.remMachNum
  peer : x.peer = if client.connected = true then some (k + 1) else none
  connected : client.connected = true → k < server.opened conf.remMachNum
  accepted : k < server.accepted conf.remMachNum → client.connected = true
  received : k < server.received conf.remMachNum → client.sentUp = true
  up : if client.sentUp = true ∧ ¬ k < server.received conf.remMachNum
    then conf.RightFrom ((k + 1) * conf.blockSize) conf.blockSize x.up else x.up = []
  gotAll : client.gotAll = true → k < server.sent conf.remMachNum
  down : if k < server.sent conf.remMachNum ∧ client.gotAll = false
    then conf.RightFrom 0 (conf.machineNum * conf.blockSize) x.down else x.down = []

namespace SocketInv

variable {conf : ConnConf} {server server' client client' : ConnStage} {k : Nat} {x x' : Socket}

/-- The server does something that this socket does not see. -/
theorem server_moves (h : SocketInv conf server client k x)
    (hopened : k < server'.opened conf.remMachNum ↔ k < server.opened conf.remMachNum)
    (haccepted : k < server'.accepted conf.remMachNum ↔ k < server.accepted conf.remMachNum)
    (hreceived : k < server'.received conf.remMachNum ↔ k < server.received conf.remMachNum)
    (hsent : k < server'.sent conf.remMachNum ↔ k < server.sent conf.remMachNum) :
    SocketInv conf server' client k x := by
  constructor
  · rw [hopened]
    exact h.listening
  · exact h.peer
  · rw [hopened]
    exact h.connected
  · rw [haccepted]
    exact h.accepted
  · rw [hreceived]
    exact h.received
  · simp only [hreceived]
    exact h.up
  · rw [hsent]
    exact h.gotAll
  · simp only [hsent]
    exact h.down

/-- The client does something that the socket does not see. -/
theorem client_moves (h : SocketInv conf server client k x)
    (hconnected : client'.connected = client.connected) (hsentUp : client'.sentUp = client.sentUp)
    (hgotAll : client'.gotAll = client.gotAll) : SocketInv conf server client' k x := by
  constructor
  · exact h.listening
  · rw [hconnected]
    exact h.peer
  · rw [hconnected]
    exact h.connected
  · rw [hconnected]
    exact h.accepted
  · rw [hsentUp]
    exact h.received
  · rw [hsentUp]
    exact h.up
  · rw [hgotAll]
    exact h.gotAll
  · rw [hgotAll]
    exact h.down

/-- The server opens the port. -/
theorem listen (h : SocketInv conf (.listen k) client k x) :
    SocketInv conf (.accept k) client k { x with listening := true } := by
  constructor
  · simp [ConnStage.opened]
  · exact h.peer
  · simp [ConnStage.opened]
  · simp [ConnStage.accepted]
  · simp [ConnStage.received]
  · exact h.up
  · exact h.gotAll
  · exact h.down

/-- The server accepts the connection. -/
theorem accept (h : SocketInv conf (.accept k) client k x) (hpeer : x.peer.isSome = true) :
    SocketInv conf (.recv k) client k x := by
  have hconn : client.connected = true := by
    by_contra hc
    rw [h.peer, if_neg hc] at hpeer
    cases hpeer
  constructor
  · exact h.listening
  · exact h.peer
  · exact h.connected
  · intro _
    exact hconn
  · simp [ConnStage.received]
  · exact h.up
  · exact h.gotAll
  · exact h.down

/-- What a client has sent is there in whole. -/
theorem up_of_le (h : SocketInv conf (.recv k) client k x) (hpos : 0 < conf.blockSize)
    (hlen : conf.blockSize ≤ x.up.length) : client.sentUp = true ∧
    conf.RightFrom ((k + 1) * conf.blockSize) conf.blockSize x.up := by
  have hup := h.up
  split at hup
  · rename_i hsent
    exact ⟨hsent.1, hup⟩
  · rw [hup, List.length_nil] at hlen
    omega

/-- The server receives the attributes of the client. -/
theorem recv (h : SocketInv conf (.recv k) client k x) (hsentUp : client.sentUp = true)
    (hlen : x.up.length = conf.blockSize) (hopened : server'.opened conf.remMachNum = k + 1)
    (hrecv : server'.received conf.remMachNum = k + 1) (hsent : server'.sent conf.remMachNum = 0)
    (hacc : client.connected = true) :
    SocketInv conf server' client k { x with up := x.up.drop conf.blockSize } := by
  have hopen : k < server'.opened conf.remMachNum := by omega
  constructor
  · have hlisten := h.listening
    simp only [ConnStage.opened] at hlisten
    exact ⟨fun _ => hopen, fun _ => hlisten.mpr (by omega)⟩
  · exact h.peer
  · intro _
    exact hopen
  · intro _
    exact hacc
  · intro _
    exact hsentUp
  · rw [if_neg (by omega)]
    exact List.drop_eq_nil_of_le (by omega)
  · intro hgot
    exact absurd (h.gotAll hgot) (by simp [ConnStage.sent])
  · have hdown := h.down
    rw [if_neg (by simp [ConnStage.sent])] at hdown
    rw [if_neg (by omega)]
    exact hdown

/-- The server sends everything. -/
theorem sendAll {l : List QpAttr} (h : SocketInv conf (.sendAll k) client k x)
    (hl : conf.RightFrom 0 (conf.machineNum * conf.blockSize) l) (hk : k < conf.remMachNum)
    (hopened : server'.opened conf.remMachNum = conf.remMachNum)
    (hreceived : server'.received conf.remMachNum = conf.remMachNum)
    (hsent : k < server'.sent conf.remMachNum) :
    SocketInv conf server' client k { x with down := x.down ++ l } := by
  have hgot : client.gotAll = false := by
    by_contra hc
    exact absurd (h.gotAll (by simpa using hc)) (by simp [ConnStage.sent])
  have hsentUp : client.sentUp = true := h.received (by simpa [ConnStage.received] using hk)
  have hconn : client.connected = true := h.accepted (by simpa [ConnStage.accepted] using hk)
  constructor
  · rw [hopened]
    exact h.listening
  · exact h.peer
  · rw [hopened]
    exact h.connected
  · intro _
    exact hconn
  · intro _
    exact hsentUp
  · have hup := h.up
    rw [if_neg (by simp [ConnStage.received, hk])] at hup
    rw [if_neg (by omega)]
    exact hup
  · intro _
    exact hsent
  · have hdown := h.down
    rw [if_neg (by simp [ConnStage.sent])] at hdown
    rw [if_pos ⟨hsent, hgot⟩, hdown]
    exact hl

/-- The client connects. -/
theorem connect (h : SocketInv conf server .connect k x) (hlisten : x.listening = true) :
    SocketInv conf server .send k { x with peer := some (k + 1) } := by
  have hopen := h.listening.mp hlisten
  constructor
  · exact h.listening
  · rfl
  · intro _
    exact hopen
  · intro _
    rfl
  · intro hr
    exact absurd (h.received hr) (by simp [ConnStage.sentUp, ConnStage.gotAll])
  · exact h.up
  · exact h.gotAll
  · exact h.down

/-- The client sends its attributes. -/
theorem send {l : List QpAttr} (h : SocketInv conf server .send k x)
    (hl : conf.RightFrom ((k + 1) * conf.blockSize) conf.blockSize l) :
    SocketInv conf server .recvAll k { x with up := x.up ++ l } := by
  have hnot : ¬ k < server.received conf.remMachNum := fun hr =>
    absurd (h.received hr) (by simp [ConnStage.sentUp, ConnStage.gotAll])
  constructor
  · exact h.listening
  · exact h.peer
  · exact h.connected
  · intro _
    rfl
  · intro _
    rfl
  · have hup := h.up
    rw [if_neg (by simp [ConnStage.sentUp, ConnStage.gotAll])] at hup
    rw [if_pos ⟨rfl, hnot⟩, hup]
    exact hl
  · exact h.gotAll
  · exact h.down

/-- What the server has sent is there in whole. -/
theorem down_of_le (h : SocketInv conf server .recvAll k x)
    (hpos : 0 < conf.machineNum * conf.blockSize)
    (hlen : conf.machineNum * conf.blockSize ≤ x.down.length) :
    k < server.sent conf.remMachNum ∧
      conf.RightFrom 0 (conf.machineNum * conf.blockSize) x.down := by
  have hdown := h.down
  split at hdown
  · rename_i hsent
    exact ⟨hsent.1, hdown⟩
  · rw [hdown, List.length_nil] at hlen
    omega

/-- The client receives everything. -/
theorem recvAll (h : SocketInv conf server .recvAll k x)
    (hsent : k < server.sent conf.remMachNum)
    (hlen : x.down.length = conf.machineNum * conf.blockSize) :
    SocketInv conf server .getQps k
      { x with down := x.down.drop (conf.machineNum * conf.blockSize) } := by
  constructor
  · exact h.listening
  · exact h.peer
  · exact h.connected
  · exact h.accepted
  · exact h.received
  · exact h.up
  · intro _
    exact hsent
  · rw [if_neg (by simp [ConnStage.gotAll])]
    exact List.drop_eq_nil_of_le (by omega)

end SocketInv

/-! ## All machines -/

/-- **A deployment** with its machines, their addresses and what each makes of `--all-ips`. -/
structure ConnConf.Deployed (conf : ConnConf) (ips : Nat → HostIps) : Prop where
  machines : conf.machineNum ≤ 2 ^ 8
  workers : 0 < conf.workersPerMachine
  qps : 0 < conf.qpNum
  inputs : ∀ i < conf.machineNum, conf.odHandleIps i = .ok (ips i)
  hosts : ∀ i < conf.machineNum, ∀ ip, conf.allIps[i]? = some ip → conf.hostOf ip = some i

/-- **The invariant.** -/
structure ConnInv (conf : ConnConf) (s : Connections) : Prop where
  machine : ∀ i < conf.machineNum, MachineInv conf i (s.machine i)
  socket : ∀ k < conf.remMachNum, SocketInv conf ((s.machine 0).stage 0)
    ((s.machine (k + 1)).stage 0) k (s.socket 0 (Connections.serverPort k))
  server : ∀ i < conf.machineNum, i ≠ 0 → conf.hostOf ((s.machine i).remoteIps 0) = some 0

/-- **The first of the remote addresses** of every machine but machine 0 is that of machine 0. -/
theorem ConnConf.remoteIps_zero {conf : ConnConf} {i : Nat} {h : HostIps} (hi : i ≠ 0)
    (hM : 0 < conf.machineNum) (hok : conf.odHandleIps i = .ok h) :
    conf.allIps[0]? = some (h.remoteIps 0) := by
  have hrule := foldlM_range_rule
    (P := fun n (h : HostIps) => (n = 0 → h.rmId = 0) ∧
      (0 < n → 0 < h.rmId ∧ conf.allIps[0]? = some (h.remoteIps 0))) conf.machineNum
    ⟨fun _ => rfl, fun hn => absurd hn (Nat.lt_irrefl 0)⟩ ?_ hok
  · exact (hrule.2 hM).2
  · intro n t t' _ hP htake
    unfold ConnConf.takeIp at htake
    split at htake
    · cases htake
    · rename_i ip hip
      split at htake
      · cases htake
      · split at htake
        · rename_i hself
          cases htake
          refine ⟨fun hn => by omega, fun _ => ?_⟩
          exact hP.2 (by omega)
        · cases htake
          refine ⟨fun hn => by omega, fun _ => ⟨Nat.succ_pos _, ?_⟩⟩
          rcases Nat.eq_zero_or_pos n with h0 | hpos
          · subst h0
            rw [hip]
            simp [hP.1 rfl]
          · obtain ⟨hrm, hfirst⟩ := hP.2 hpos
            have hne : (0 : Nat) ≠ t.rmId := by omega
            simp [Function.update_of_ne hne, hfirst]

namespace Connections

variable {conf : ConnConf} {s s' : Connections}

@[simp] theorem setMachine_machine (i : Nat) (g : ConnGlobals) :
    (s.setMachine i g).machine = Function.update s.machine i g := rfl

@[simp] theorem setMachine_socket (i : Nat) (g : ConnGlobals) :
    (s.setMachine i g).socket = s.socket := rfl

@[simp] theorem setSocket_machine (m port : Nat) (x : Socket) :
    (s.setSocket m port x).machine = s.machine := rfl

theorem setSocket_self (m port : Nat) (x : Socket) :
    (s.setSocket m port x).socket m port = x := by
  simp [setSocket]

theorem setSocket_of_ne {port port' : Nat} (m : Nat) (x : Socket) (h : port' ≠ port) :
    (s.setSocket m port x).socket m port' = s.socket m port' := by
  simp [setSocket, Function.update_of_ne h]

/-- The two sides of a connection agree on its port. -/
theorem clientPort_succ (k : Nat) : clientPort (k + 1) = serverPort k := by
  simp [clientPort, serverPort]

/-- Every remote machine has a port of its own. -/
theorem serverPort_ne {k k' : Nat} (hk : k < 2 ^ 8) (hk' : k' < 2 ^ 8) (h : k ≠ k') :
    serverPort k ≠ serverPort k' := by
  simp only [serverPort, u16, baseSocketPort]
  omega

/-- **A step of machine `i` alone**, which no socket sees. -/
theorem local_step {i : Nat} {g : ConnGlobals} (h : ConnInv conf s) (hi : i < conf.machineNum)
    (hg : MachineInv conf i g) (hips : g.remoteIps = (s.machine i).remoteIps)
    (halike : 0 < conf.remMachNum →
      ConnStage.Alike conf.remMachNum (g.stage 0) ((s.machine i).stage 0)) :
    ConnInv conf (s.setMachine i g) := by
  constructor
  · intro j hj
    simp only [setMachine_machine]
    by_cases hji : j = i
    · rw [hji, Function.update_self]
      exact hg
    · rw [Function.update_of_ne hji]
      exact h.machine j hj
  · intro k hk
    have hold := h.socket k hk
    have halike := halike (by omega)
    simp only [setMachine_machine, setMachine_socket]
    have hmoved : SocketInv conf ((Function.update s.machine i g 0).stage 0)
        ((s.machine (k + 1)).stage 0) k (s.socket 0 (serverPort k)) := by
      by_cases h0 : 0 = i
      · rw [← h0, Function.update_self]
        rw [← h0] at halike
        exact hold.server_moves (by rw [halike.opened]) (by rw [halike.accepted])
          (by rw [halike.received]) (by rw [halike.sent])
      · rw [Function.update_of_ne h0]
        exact hold
    by_cases hki : k + 1 = i
    · rw [hki, Function.update_self]
      rw [hki] at hmoved
      exact hmoved.client_moves halike.connected halike.sentUp halike.gotAll
    · rw [Function.update_of_ne hki]
      exact hmoved
  · intro j hj hj0
    simp only [setMachine_machine]
    by_cases hji : j = i
    · subst hji
      rw [Function.update_self, hips]
      exact h.server j hj hj0
    · rw [Function.update_of_ne hji]
      exact h.server j hj hj0

/-- **A step of the server**, on the socket of one port. -/
theorem server_step {k : Nat} {g : ConnGlobals} {x : Socket} (h : ConnInv conf s)
    (hfit : conf.remMachNum ≤ 2 ^ 8) (hk : k < conf.remMachNum) (hg : MachineInv conf 0 g)
    (hx : SocketInv conf (g.stage 0) ((s.machine (k + 1)).stage 0) k x)
    (hothers : ∀ k' < conf.remMachNum, k' ≠ k →
      (k' < (g.stage 0).opened conf.remMachNum ↔
        k' < ((s.machine 0).stage 0).opened conf.remMachNum) ∧
      (k' < (g.stage 0).accepted conf.remMachNum ↔
        k' < ((s.machine 0).stage 0).accepted conf.remMachNum) ∧
      (k' < (g.stage 0).received conf.remMachNum ↔
        k' < ((s.machine 0).stage 0).received conf.remMachNum) ∧
      (k' < (g.stage 0).sent conf.remMachNum ↔
        k' < ((s.machine 0).stage 0).sent conf.remMachNum)) :
    ConnInv conf ((s.setSocket 0 (serverPort k) x).setMachine 0 g) := by
  constructor
  · intro j hj
    simp only [setMachine_machine, setSocket_machine]
    by_cases hj0 : j = 0
    · rw [hj0, Function.update_self]
      exact hg
    · rw [Function.update_of_ne hj0]
      exact h.machine j hj
  · intro k' hk'
    simp only [setMachine_machine, setSocket_machine, setMachine_socket, Function.update_self,
      Function.update_of_ne (Nat.succ_ne_zero k')]
    by_cases hkk : k' = k
    · rw [hkk, setSocket_self]
      exact hx
    · rw [setSocket_of_ne _ _ (serverPort_ne (by omega) (by omega) hkk)]
      obtain ⟨ho, ha, hr, hs⟩ := hothers k' hk' hkk
      exact (h.socket k' hk').server_moves ho ha hr hs
  · intro j hj hj0
    simp only [setMachine_machine, setSocket_machine, Function.update_of_ne hj0]
    exact h.server j hj hj0

/-- **A step of a client**, on its socket. -/
theorem client_step {k : Nat} {g : ConnGlobals} {x : Socket} (h : ConnInv conf s)
    (hfit : conf.remMachNum ≤ 2 ^ 8) (hk : k < conf.remMachNum) (hg : MachineInv conf (k + 1) g)
    (hips : g.remoteIps = (s.machine (k + 1)).remoteIps)
    (hx : SocketInv conf ((s.machine 0).stage 0) (g.stage 0) k x) :
    ConnInv conf ((s.setSocket 0 (serverPort k) x).setMachine (k + 1) g) := by
  have hzero : (0 : Nat) ≠ k + 1 := by omega
  constructor
  · intro j hj
    simp only [setMachine_machine, setSocket_machine]
    by_cases hjk : j = k + 1
    · rw [hjk, Function.update_self]
      exact hg
    · rw [Function.update_of_ne hjk]
      exact h.machine j hj
  · intro k' hk'
    simp only [setMachine_machine, setSocket_machine, setMachine_socket,
      Function.update_of_ne hzero]
    by_cases hkk : k' = k
    · rw [hkk, setSocket_self, Function.update_self]
      exact hx
    · rw [setSocket_of_ne _ _ (serverPort_ne (by omega) (by omega) hkk),
        Function.update_of_ne (by omega)]
      exact h.socket k' hk'
  · intro j hj hj0
    simp only [setMachine_machine, setSocket_machine]
    by_cases hjk : j = k + 1
    · subst hjk
      rw [Function.update_self, hips]
      exact h.server _ hj hj0
    · rw [Function.update_of_ne hjk]
      exact h.server j hj hj0

/-! ## The steps -/

section Steps

variable {ips : Nat → HostIps} {i t : Nat}

/-- What is known when worker `t` of machine `i` moves. -/
structure Moving (conf : ConnConf) (ips : Nat → HostIps) (s : Connections) (i t : Nat) : Prop where
  deployed : conf.Deployed ips
  inv : ConnInv conf s
  machine_lt : i < conf.machineNum
  worker_lt : t < conf.workersPerMachine

namespace Moving

theorem fits (h : Moving conf ips s i t) : conf.remMachNum ≤ 2 ^ 8 := by
  have hM := h.deployed.machines
  unfold ConnConf.remMachNum
  omega

theorem machineNum_eq (h : Moving conf ips s i t) : conf.machineNum = conf.remMachNum + 1 := by
  have hlt := h.machine_lt
  unfold ConnConf.remMachNum
  omega

theorem blockSize_pos (h : Moving conf ips s i t) : 0 < conf.blockSize :=
  Nat.mul_pos h.deployed.workers h.deployed.qps

theorem all_counted (h : Moving conf ips s i t) (hw : ((s.machine i).stage 0).waited = true) :
    ∀ t < conf.workersPerMachine, ((s.machine i).stage t).counted = true :=
  (h.inv.machine i h.machine_lt).all_counted hw

end Moving

/-- Only worker 0 changes what the sockets see. -/
theorem alike_update {g : ConnGlobals} {stage : ConnStage} {R : Nat}
    (h : t = 0 → ConnStage.Alike R stage (g.stage 0)) :
    ConnStage.Alike R (Function.update g.stage t stage 0) (g.stage 0) := by
  by_cases h0 : 0 = t
  · rw [← h0, Function.update_self]
    exact h h0.symm
  · rw [Function.update_of_ne h0]
    exact ConnStage.Alike.refl

/-- The stage after the server has read from port `k`. -/
structure AfterRecv (R k : Nat) (stage : ConnStage) : Prop where
  opened : stage.opened R = k + 1
  accepted : stage.accepted R = k + 1
  received : stage.received R = k + 1
  sent : stage.sent R = 0
  waited : stage.waited = true
  gotAll : stage.gotAll = false
  allowed : stage.Allowed R 0 0

theorem serverLoop_succ {k : Nat} (hk : k < conf.remMachNum) :
    AfterRecv conf.remMachNum k (serverLoop conf (k + 1)) := by
  unfold serverLoop sendLoop
  by_cases hlt : k + 1 < conf.remMachNum
  · rw [if_pos hlt]
    constructor <;> first | rfl | exact ⟨rfl, rfl, hlt⟩
  · have hR : conf.remMachNum = k + 1 := by omega
    rw [if_neg hlt, if_pos (by omega), hR]
    constructor <;> first | rfl | exact ⟨rfl, rfl, Nat.succ_pos k⟩

/-- The stage after the server has sent to port `k`. -/
structure AfterSend (R k : Nat) (stage : ConnStage) : Prop where
  opened : stage.opened R = R
  accepted : stage.accepted R = R
  received : stage.received R = R
  sent : stage.sent R = k + 1
  waited : stage.waited = true
  allowed : stage.Allowed R 0 0
  not_done : stage ≠ .setFlag ∧ stage ≠ .done

theorem sendLoop_succ {k : Nat} (hk : k < conf.remMachNum) :
    AfterSend conf.remMachNum k (sendLoop conf (k + 1)) := by
  unfold sendLoop
  by_cases hlt : k + 1 < conf.remMachNum
  · rw [if_pos hlt]
    constructor <;> first | rfl | exact ⟨rfl, rfl, hlt⟩ | simp
  · have hR : conf.remMachNum = k + 1 := by omega
    rw [if_neg hlt, hR]
    constructor <;> first | rfl | simp

theorem fill_keeps (h : Moving conf ips s i t) (hst : (s.machine i).stage t = .fill) :
    ConnInv conf (s.setMachine i (((s.machine i).fillQps conf i t).setStage t .signal)) := by
  apply local_step h.inv h.machine_lt ((h.inv.machine i h.machine_lt).fill h.worker_lt hst) rfl
  intro _
  refine alike_update (g := s.machine i) ?_
  rintro rfl
  exact ConnStage.alike_of_not_waited rfl (by rw [hst]; rfl)

theorem signal_keeps (h : Moving conf ips s i t) (hst : (s.machine i).stage t = .signal) :
    ConnInv conf (s.setMachine i ({ s.machine i with
      workersWithFilledQpAttr := (s.machine i).workersWithFilledQpAttr + 1 }.setStage t
        (if t = 0 then .await else .awaitFlag))) := by
  apply local_step h.inv h.machine_lt ((h.inv.machine i h.machine_lt).signal h.worker_lt hst) rfl
  intro _
  apply alike_update
  rintro rfl
  exact ConnStage.alike_of_not_waited rfl (by rw [hst]; rfl)

theorem awaitFlag_keeps (h : Moving conf ips s i t) (hst : (s.machine i).stage t = .awaitFlag)
    (hflag : (s.machine i).qpsAreSetUp = true) :
    ConnInv conf (s.setMachine i ((s.machine i).setStage t .done)) := by
  have hinv := h.inv.machine i h.machine_lt
  apply local_step h.inv h.machine_lt (hinv.awaitFlag h.worker_lt hst hflag) rfl
  intro _
  apply alike_update
  rintro rfl
  have hallowed := hinv.allowed 0 h.worker_lt
  rw [hst] at hallowed
  exact absurd rfl hallowed

/-- Worker 0 has seen that all workers of its machine have counted themselves. -/
theorem await_keeps (h : Moving conf ips s i t) (hst : (s.machine i).stage t = .await)
    (hcount : (s.machine i).workersWithFilledQpAttr = conf.workersPerMachine) :
    ConnInv conf (s.setMachine i ((s.machine i).setStage t
      (if i = 0 then serverLoop conf 0 else .connect))) := by
  have hinv := h.inv.machine i h.machine_lt
  obtain rfl : t = 0 := by
    have hallowed := hinv.allowed t h.worker_lt
    rwa [hst] at hallowed
  have hnow : ∀ t < conf.workersPerMachine, ((s.machine i).stage t).counted = true := by
    have hall := hinv.count.symm.trans hcount
    have hlen := List.length_range (n := conf.workersPerMachine)
    intro t ht
    exact List.countP_eq_length.mp (hall.trans hlen.symm) t (List.mem_range.mpr ht)
  have hown := hinv.own_block hnow
  have hnot : (s.machine i).stage 0 ≠ .done := by simp [hst]
  have hM := h.machineNum_eq
  rcases Nat.eq_zero_or_pos i with hi | hi
  · subst hi
    rcases Nat.eq_zero_or_pos conf.remMachNum with hR | hR
    · -- a deployment of one machine has nobody to talk to
      have hloop : serverLoop conf 0 = .getQps := by simp [serverLoop, sendLoop, hR]
      rw [if_pos rfl, hloop]
      refine local_step h.inv h.machine_lt ?_ rfl ?_
      · apply hinv.gotAll hnow hnot h.machine_lt
        rw [hM, hR]
        simpa using hown
      · intro hc
        omega
    · have hloop : serverLoop conf 0 = .listen 0 := by simp [serverLoop, hR]
      rw [if_pos rfl, hloop]
      refine local_step h.inv h.machine_lt ?_ rfl ?_
      · refine hinv.exchange hnow hnot ⟨rfl, rfl, hR⟩ rfl rfl hown ?_
        intro _
        simpa [ConnStage.received] using hown
      · intro _
        simp only [ConnGlobals.setStage_stage, Function.update_self, hst]
        exact ⟨rfl, rfl, rfl, rfl, rfl, rfl, rfl⟩
  · have hne : i ≠ 0 := by omega
    rw [if_neg hne]
    refine local_step h.inv h.machine_lt ?_ rfl ?_
    · refine hinv.exchange hnow hnot ⟨rfl, hne⟩ rfl rfl hown ?_
      intro hc
      exact absurd hc hne
    · intro _
      simp only [ConnGlobals.setStage_stage, Function.update_self, hst]
      exact ⟨rfl, rfl, rfl, rfl, rfl, rfl, rfl⟩

/-- **The server** at port `k`: what is known of its machine. -/
theorem server_at {k : Nat} {stage : ConnStage} (h : Moving conf ips s i t)
    (hst : (s.machine i).stage t = stage)
    (hport : stage = .listen k ∨ stage = .accept k ∨ stage = .recv k ∨ stage = .sendAll k) :
    t = 0 ∧ i = 0 ∧ k < conf.remMachNum ∧ (s.machine 0).stage 0 = stage ∧
      stage.waited = true ∧ stage ≠ .done := by
  have hallowed := (h.inv.machine i h.machine_lt).allowed t h.worker_lt
  rw [hst] at hallowed
  have hall : t = 0 ∧ i = 0 ∧ k < conf.remMachNum := by
    rcases hport with rfl | rfl | rfl | rfl <;> exact hallowed
  obtain ⟨rfl, rfl, hk⟩ := hall
  refine ⟨rfl, rfl, hk, hst, ?_, ?_⟩
  · rcases hport with rfl | rfl | rfl | rfl <;> rfl
  · rcases hport with rfl | rfl | rfl | rfl <;> simp

theorem listen_keeps {k : Nat} (h : Moving conf ips s i t)
    (hst : (s.machine i).stage t = .listen k) :
    ConnInv conf ((s.setSocket i (serverPort k)
      { s.socket i (serverPort k) with listening := true }).setMachine i
        ((s.machine i).setStage t (.accept k))) := by
  obtain ⟨rfl, rfl, hk, hst, hw, hnot⟩ := server_at h hst (Or.inl rfl)
  have hinv := h.inv.machine 0 h.machine_lt
  have hnow := h.all_counted (by rw [hst]; exact hw)
  apply server_step h.inv h.fits hk
  · refine hinv.exchange hnow (by rw [hst]; exact hnot) ⟨rfl, rfl, hk⟩ rfl rfl
      (hinv.own_block hnow) ?_
    intro _
    have hserver := hinv.server rfl (by rw [hst]; rfl)
    rw [hst] at hserver
    exact hserver
  · have hold := h.inv.socket k hk
    rw [hst] at hold
    simp only [ConnGlobals.setStage_stage, Function.update_self]
    exact hold.listen
  · intro k' hk' hne
    simp only [ConnGlobals.setStage_stage, Function.update_self, hst, ConnStage.opened,
      ConnStage.accepted, ConnStage.received, ConnStage.sent, and_true]
    omega

theorem accept_keeps {k : Nat} (h : Moving conf ips s i t)
    (hst : (s.machine i).stage t = .accept k)
    (hpeer : (s.socket i (serverPort k)).peer.isSome = true) :
    ConnInv conf (s.setMachine i ((s.machine i).setStage t (.recv k))) := by
  obtain ⟨rfl, rfl, hk, hst, hw, hnot⟩ := server_at h hst (Or.inr (Or.inl rfl))
  have hinv := h.inv.machine 0 h.machine_lt
  have hnow := h.all_counted (by rw [hst]; exact hw)
  have hsame : s.setMachine 0 ((s.machine 0).setStage 0 (.recv k))
      = (s.setSocket 0 (serverPort k) (s.socket 0 (serverPort k))).setMachine 0
        ((s.machine 0).setStage 0 (.recv k)) := by
    simp [setSocket, setMachine]
  rw [hsame]
  apply server_step h.inv h.fits hk
  · refine hinv.exchange hnow (by rw [hst]; exact hnot) ⟨rfl, rfl, hk⟩ rfl rfl
      (hinv.own_block hnow) ?_
    intro _
    have hserver := hinv.server rfl (by rw [hst]; rfl)
    rw [hst] at hserver
    exact hserver
  · have hold := h.inv.socket k hk
    rw [hst] at hold
    simp only [ConnGlobals.setStage_stage, Function.update_self]
    exact hold.accept hpeer
  · intro k' hk' hne
    simp only [ConnGlobals.setStage_stage, Function.update_self, hst, ConnStage.opened,
      ConnStage.accepted, ConnStage.received, ConnStage.sent, and_true,
      true_and]
    omega

theorem recv_keeps {k : Nat} (h : Moving conf ips s i t)
    (hst : (s.machine i).stage t = .recv k)
    (hlen : conf.blockSize ≤ (s.socket i (serverPort k)).up.length) :
    ConnInv conf ((s.setSocket i (serverPort k) { s.socket i (serverPort k) with
      up := (s.socket i (serverPort k)).up.drop conf.blockSize }).setMachine i
        ({ s.machine i with
          buf := writeAt (s.machine i).buf (conf.qpIndex (k + 1) 0 0)
            ((s.socket i (serverPort k)).up.take conf.blockSize) }.setStage t
              (serverLoop conf (k + 1)))) := by
  obtain ⟨rfl, rfl, hk, hst, hw, hnot⟩ := server_at h hst (Or.inr (Or.inr (Or.inl rfl)))
  have hinv := h.inv.machine 0 h.machine_lt
  have hnow := h.all_counted (by rw [hst]; exact hw)
  have hnext := serverLoop_succ hk
  have hold := h.inv.socket k hk
  rw [hst] at hold
  obtain ⟨hsentUp, hright⟩ := hold.up_of_le h.blockSize_pos hlen
  have htake : (s.socket 0 (serverPort k)).up.take conf.blockSize
      = (s.socket 0 (serverPort k)).up := List.take_of_length_le (by rw [hright.1])
  rw [htake, ConnConf.qpIndex_zero]
  have hserver := hinv.server rfl (by rw [hst]; rfl)
  rw [hst] at hserver
  -- the block that is written is behind those the server holds
  have hkeeps : conf.RightIn (writeAt (s.machine 0).buf ((k + 1) * conf.blockSize)
      (s.socket 0 (serverPort k)).up) 0 ((k + 1) * conf.blockSize) :=
    hserver.writeAt_outside (Or.inl (Nat.le_refl _))
  have hnew : conf.RightIn (writeAt (s.machine 0).buf ((k + 1) * conf.blockSize)
      (s.socket 0 (serverPort k)).up) ((k + 1) * conf.blockSize)
      ((k + 1) * conf.blockSize + conf.blockSize) := hright.writeAt
  apply server_step h.inv h.fits hk
  · apply hinv.exchange hnow (by rw [hst]; exact hnot) hnext.allowed hnext.waited
      hnext.gotAll
    · intro x hlo hhi
      have hle : (0 + 1) * conf.blockSize ≤ (k + 1) * conf.blockSize :=
        Nat.mul_le_mul_right _ (by omega)
      exact hkeeps x (Nat.zero_le _) (by omega)
    · intro _
      rw [hnext.received, Nat.succ_mul (k + 1)]
      exact hkeeps.append hnew
  · simp only [ConnGlobals.setStage_stage, Function.update_self]
    exact hold.recv hsentUp hright.1 hnext.opened hnext.received hnext.sent
      (ConnStage.connected_of_sentUp hsentUp)
  · intro k' hk' hne
    simp only [ConnGlobals.setStage_stage, Function.update_self, hst, hnext.opened,
      hnext.accepted, hnext.received, hnext.sent]
    simp only [ConnStage.opened, ConnStage.accepted, ConnStage.received, ConnStage.sent, and_true,
      true_and]
    omega

theorem sendAll_keeps {k : Nat} (h : Moving conf ips s i t)
    (hst : (s.machine i).stage t = .sendAll k) :
    ConnInv conf ((s.setSocket i (serverPort k) { s.socket i (serverPort k) with
      down := (s.socket i (serverPort k)).down ++ (s.machine i).allAttrs conf }).setMachine i
        ((s.machine i).setStage t (sendLoop conf (k + 1)))) := by
  obtain ⟨rfl, rfl, hk, hst, hw, hnot⟩ := server_at h hst (Or.inr (Or.inr (Or.inr rfl)))
  have hinv := h.inv.machine 0 h.machine_lt
  have hnow := h.all_counted (by rw [hst]; exact hw)
  have hnext := sendLoop_succ hk
  have hold := h.inv.socket k hk
  rw [hst] at hold
  have hserver := hinv.server rfl (by rw [hst]; rfl)
  rw [hst] at hserver
  have hright : conf.RightIn (s.machine 0).buf 0 (conf.machineNum * conf.blockSize) := by
    rw [h.machineNum_eq]
    exact hserver
  have hall : conf.RightFrom 0 (conf.machineNum * conf.blockSize)
      ((s.machine 0).allAttrs conf) := by
    apply ConnConf.RightIn.readAt
    rwa [Nat.zero_add]
  apply server_step h.inv h.fits hk
  · by_cases hgot : (sendLoop conf (k + 1)).gotAll = true
    · have hstage : sendLoop conf (k + 1) = .getQps := by
        unfold sendLoop at hgot ⊢
        split
        · rename_i hlt
          rw [if_pos hlt] at hgot
          cases hgot
        · rfl
      rw [hstage]
      exact hinv.gotAll hnow (by rw [hst]; exact hnot) h.machine_lt hright
    · apply hinv.exchange hnow (by rw [hst]; exact hnot) hnext.allowed hnext.waited
        (by simpa using hgot) (hinv.own_block hnow)
      intro _
      rw [hnext.received]
      exact hserver
  · simp only [ConnGlobals.setStage_stage, Function.update_self]
    exact hold.sendAll hall hk hnext.opened hnext.received (by rw [hnext.sent]; omega)
  · intro k' hk' hne
    simp only [ConnGlobals.setStage_stage, Function.update_self, hst, hnext.opened,
      hnext.accepted, hnext.received, hnext.sent]
    simp only [ConnStage.opened, ConnStage.accepted, ConnStage.received, ConnStage.sent,
      true_and]
    omega

/-- **A client** in the exchange: what is known of its machine and of the server it talks to. -/
theorem client_at {stage : ConnStage} (h : Moving conf ips s i t)
    (hst : (s.machine i).stage t = stage)
    (hclient : stage = .connect ∨ stage = .send ∨ stage = .recvAll) :
    ∃ k, t = 0 ∧ i = k + 1 ∧ k < conf.remMachNum ∧ (s.machine i).stage 0 = stage ∧
      stage.waited = true ∧ stage ≠ .done ∧
      conf.hostOf ((s.machine i).remoteIps 0) = some 0 ∧ clientPort i = serverPort k := by
  have hallowed := (h.inv.machine i h.machine_lt).allowed t h.worker_lt
  rw [hst] at hallowed
  have hall : t = 0 ∧ i ≠ 0 := by
    rcases hclient with rfl | rfl | rfl <;> exact hallowed
  obtain ⟨rfl, hi⟩ := hall
  obtain ⟨k, rfl⟩ := Nat.exists_eq_succ_of_ne_zero hi
  have hM := h.machineNum_eq
  have hlt := h.machine_lt
  refine ⟨k, rfl, rfl, by omega, hst, ?_, ?_, h.inv.server _ h.machine_lt hi, clientPort_succ k⟩
  · rcases hclient with rfl | rfl | rfl <;> rfl
  · rcases hclient with rfl | rfl | rfl <;> simp

theorem connect_keeps {k : Nat} (h : Moving conf ips s (k + 1) 0)
    (hst : (s.machine (k + 1)).stage 0 = .connect) (hk : k < conf.remMachNum)
    (hlisten : (s.socket 0 (serverPort k)).listening = true) :
    ConnInv conf ((s.setSocket 0 (serverPort k)
      { s.socket 0 (serverPort k) with peer := some (k + 1) }).setMachine (k + 1)
        ((s.machine (k + 1)).setStage 0 .send)) := by
  have hinv := h.inv.machine (k + 1) h.machine_lt
  have hnow := h.all_counted (by rw [hst]; rfl)
  have hold := h.inv.socket k hk
  rw [hst] at hold
  refine client_step h.inv h.fits hk ?_ rfl ?_
  · refine hinv.exchange hnow (by simp [hst]) ⟨rfl, Nat.succ_ne_zero k⟩ rfl rfl
      (hinv.own_block hnow) ?_
    intro hc
    exact absurd hc (Nat.succ_ne_zero k)
  · simp only [ConnGlobals.setStage_stage, Function.update_self]
    exact hold.connect hlisten

theorem send_keeps {k : Nat} (h : Moving conf ips s (k + 1) 0)
    (hst : (s.machine (k + 1)).stage 0 = .send) (hk : k < conf.remMachNum) :
    ConnInv conf ((s.setSocket 0 (serverPort k) { s.socket 0 (serverPort k) with
      up := (s.socket 0 (serverPort k)).up ++
        (s.machine (k + 1)).block conf (k + 1) }).setMachine (k + 1)
        ((s.machine (k + 1)).setStage 0 .recvAll)) := by
  have hinv := h.inv.machine (k + 1) h.machine_lt
  have hnow := h.all_counted (by rw [hst]; rfl)
  have hold := h.inv.socket k hk
  rw [hst] at hold
  have hown := hinv.own_block hnow
  refine client_step h.inv h.fits hk ?_ rfl ?_
  · refine hinv.exchange hnow (by simp [hst]) ⟨rfl, Nat.succ_ne_zero k⟩ rfl rfl
      hown ?_
    intro hc
    exact absurd hc (Nat.succ_ne_zero k)
  · simp only [ConnGlobals.setStage_stage, Function.update_self]
    apply hold.send
    rw [Nat.succ_mul (k + 1)] at hown
    rw [ConnGlobals.block, ConnConf.qpIndex_zero]
    exact hown.readAt

theorem recvAll_keeps {k : Nat} (h : Moving conf ips s (k + 1) 0)
    (hst : (s.machine (k + 1)).stage 0 = .recvAll) (hk : k < conf.remMachNum)
    (hlen : conf.machineNum * conf.blockSize ≤ (s.socket 0 (serverPort k)).down.length) :
    ConnInv conf ((s.setSocket 0 (serverPort k) { s.socket 0 (serverPort k) with
      down := (s.socket 0 (serverPort k)).down.drop
        (conf.machineNum * conf.blockSize) }).setMachine (k + 1)
        ({ s.machine (k + 1) with
          buf := writeAt (s.machine (k + 1)).buf 0 ((s.socket 0 (serverPort k)).down.take
            (conf.machineNum * conf.blockSize)) }.setStage 0 .getQps)) := by
  have hinv := h.inv.machine (k + 1) h.machine_lt
  have hnow := h.all_counted (by rw [hst]; rfl)
  have hold := h.inv.socket k hk
  rw [hst] at hold
  have hpos : 0 < conf.machineNum * conf.blockSize :=
    Nat.mul_pos (Nat.lt_of_le_of_lt (Nat.zero_le _) h.machine_lt) h.blockSize_pos
  obtain ⟨hsent, hright⟩ := hold.down_of_le hpos hlen
  have htake : (s.socket 0 (serverPort k)).down.take (conf.machineNum * conf.blockSize)
      = (s.socket 0 (serverPort k)).down := List.take_of_length_le (by rw [hright.1])
  rw [htake]
  have hnew : conf.RightIn (writeAt (s.machine (k + 1)).buf 0 (s.socket 0 (serverPort k)).down) 0
      (0 + conf.machineNum * conf.blockSize) := hright.writeAt
  rw [Nat.zero_add] at hnew
  refine client_step h.inv h.fits hk ?_ rfl ?_
  · exact hinv.gotAll hnow (by simp [hst]) h.machine_lt hnew
  · simp only [ConnGlobals.setStage_stage, Function.update_self]
    exact hold.recvAll hsent hright.1

/-- Worker 0 makes the handles. -/
theorem getQps_keeps (h : Moving conf ips s i t) (hst : (s.machine i).stage t = .getQps) :
    ConnInv conf (s.setMachine i
      (((s.machine i).getQpsFromAllOtherMachines conf i).setStage t .setFlag)) := by
  have hinv := h.inv.machine i h.machine_lt
  obtain rfl : t = 0 := by
    have hallowed := hinv.allowed t h.worker_lt
    rwa [hst] at hallowed
  have hnow := h.all_counted (by rw [hst]; rfl)
  have hall := hinv.holds_all (by rw [hst]; rfl)
  refine local_step h.inv h.machine_lt ?_ rfl ?_
  · refine hinv.advance hnow rfl rfl rfl rfl (hinv.own_block hnow) ?_ (fun _ => hall)
      ?_ ?_ (by simp [hst])
    · intro hi
      have hserver := hinv.server hi (by rw [hst]; rfl)
      rw [hst] at hserver
      exact hserver
    · intro _ m hm hne w hw q hq
      have hright := hall.describes hm hw hq
      rw [ConnGlobals.setStage_remQp, ConnGlobals.getQps_spec hm hne hw hq]
      exact ConnConf.remoteQp_reaches hright
    · have hflag := hinv.flag
      rw [hst] at hflag
      show (s.machine i).qpsAreSetUp = true ↔ _
      simpa using hflag
  · intro _
    simp only [ConnGlobals.setStage_stage, Function.update_self, hst]
    exact ConnStage.alike_of_gotAll rfl rfl

/-- Worker 0 sets the flag. -/
theorem setFlag_keeps (h : Moving conf ips s i t) (hst : (s.machine i).stage t = .setFlag) :
    ConnInv conf (s.setMachine i
      ({ s.machine i with qpsAreSetUp := true }.setStage t .done)) := by
  have hinv := h.inv.machine i h.machine_lt
  obtain rfl : t = 0 := by
    have hallowed := hinv.allowed t h.worker_lt
    rwa [hst] at hallowed
  have hnow := h.all_counted (by rw [hst]; rfl)
  have hall := hinv.holds_all (by rw [hst]; rfl)
  refine local_step h.inv h.machine_lt ?_ rfl ?_
  · refine hinv.advance hnow rfl rfl trivial rfl (hinv.own_block hnow) ?_
      (fun _ => hall) (fun _ => hinv.handles (Or.inl hst)) ?_ (by simp [hst])
    · intro hi
      have hserver := hinv.server hi (by rw [hst]; rfl)
      rw [hst] at hserver
      exact hserver
    · simp
  · intro _
    simp only [ConnGlobals.setStage_stage, Function.update_self, hst]
    exact ConnStage.alike_of_gotAll rfl rfl

/-- **A step keeps the invariant.** -/
theorem work_keeps (h : Moving conf ips s i t)
    (hwork : s.work conf i t ((s.machine i).stage t) = .ok s') : ConnInv conf s' := by
  cases hst : (s.machine i).stage t with
  | fill =>
    rw [hst] at hwork
    cases hwork
    exact fill_keeps h hst
  | signal =>
    rw [hst] at hwork
    cases hwork
    exact signal_keeps h hst
  | await =>
    simp only [hst, work] at hwork
    split at hwork
    · rename_i hcount
      cases hwork
      exact await_keeps h hst hcount
    · cases hwork
  | listen k =>
    rw [hst] at hwork
    cases hwork
    exact listen_keeps h hst
  | accept k =>
    simp only [hst, work] at hwork
    split at hwork
    · rename_i hpeer
      cases hwork
      exact accept_keeps h hst hpeer
    · cases hwork
  | recv k =>
    simp only [hst, work] at hwork
    split at hwork
    · rename_i hlen
      cases hwork
      exact recv_keeps h hst hlen
    · cases hwork
  | sendAll k =>
    rw [hst] at hwork
    cases hwork
    exact sendAll_keeps h hst
  | connect =>
    obtain ⟨k, rfl, rfl, hk, -, -, -, hhost, hport⟩ := client_at h hst (Or.inl rfl)
    simp only [hst, work, hhost, hport] at hwork
    split at hwork
    · rename_i hopen
      cases hwork
      exact connect_keeps h hst hk hopen.1
    · cases hwork
  | send =>
    obtain ⟨k, rfl, rfl, hk, -, -, -, hhost, hport⟩ := client_at h hst (Or.inr (Or.inl rfl))
    simp only [hst, work, hhost, hport] at hwork
    cases hwork
    exact send_keeps h hst hk
  | recvAll =>
    obtain ⟨k, rfl, rfl, hk, -, -, -, hhost, hport⟩ := client_at h hst (Or.inr (Or.inr rfl))
    simp only [hst, work, hhost, hport] at hwork
    split at hwork
    · rename_i hlen
      cases hwork
      exact recvAll_keeps h hst hk hlen
    · cases hwork
  | getQps =>
    rw [hst] at hwork
    cases hwork
    exact getQps_keeps h hst
  | setFlag =>
    rw [hst] at hwork
    cases hwork
    exact setFlag_keeps h hst
  | awaitFlag =>
    simp only [hst, work] at hwork
    split at hwork
    · rename_i hflag
      cases hwork
      exact awaitFlag_keeps h hst hflag
    · cases hwork
  | done =>
    rw [hst] at hwork
    cases hwork

end Steps

end Connections

end Odyssey
