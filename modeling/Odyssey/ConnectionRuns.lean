/-
  THE MACHINES ARE CONNECTED, in every interleaving.

  There are two results.  A worker that is done finds on its machine the attributes of every QP, and
  for every QP of every other machine a handle that reaches it (`rem_qps_reach`).  And the exchange
  comes to an end under every schedule: a stage has a rank, a step raises it (`rank_lt`), and as
  long as a worker is not done some worker has a step (`can_move`), so a run that nobody continues
  has connected everyone (`all_connected`).

  That nobody is stuck is shown in the order of the exchange: the workers count themselves, so no
  worker 0 waits for that; a client whose port is open has connected and sent; so the server goes
  through its ports; so the clients have everything; so the flags are set.
-/
import Odyssey.ConnectionSteps
import Odyssey.Lib.Progress

namespace Odyssey

open Lib

namespace Connections

variable {conf : ConnConf} {s s' : Connections}

/-! ## Every run -/

section Runs

variable {ips : Nat → HostIps} {mem : Nat → Nat → QpAttr}
  {rem : Nat → Nat × Nat × Nat → RemoteQp} {tr : List ((Nat × Nat) × Unit)}

theorem start_inv (hd : conf.Deployed ips) : ConnInv conf (start mem rem ips) := by
  constructor
  · intro i _
    apply MachineInv.early
    · rfl
    · rfl
    · intro t _
      trivial
    · show 0 = _
      symm
      apply List.countP_eq_zero.mpr
      intro t _
      simp [start, ConnStage.counted]
    · intro t _ hne
      exact absurd rfl hne
    · intro t _ _ hdone
      cases hdone
  · intro k hk
    constructor <;> simp [start, ConnStage.opened, ConnStage.accepted, ConnStage.received,
      ConnStage.sent, ConnStage.connected, ConnStage.sentUp, ConnStage.gotAll]
  · intro i hi hi0
    have hpos : 0 < conf.machineNum := Nat.lt_of_le_of_lt (Nat.zero_le _) hi
    exact hd.hosts 0 hpos _ (ConnConf.remoteIps_zero hi0 hpos (hd.inputs i hi))

theorem step_cases {k : Nat × Nat} {e : Unit} (h : s.step conf k = .ok (s', e)) :
    k.1 < conf.machineNum ∧ k.2 < conf.workersPerMachine ∧
      s.work conf k.1 k.2 ((s.machine k.1).stage k.2) = .ok s' := by
  unfold step at h
  split at h
  · rename_i hin
    obtain ⟨t, hwork, h⟩ := bind_eq_ok.mp h
    cases h
    exact ⟨hin.1, hin.2, hwork⟩
  · cases h

theorem run_inv (hd : conf.Deployed ips) (hrun : Run (step conf) (start mem rem ips) tr s) :
    ConnInv conf s := by
  refine hrun.invariant (fun _ s => ConnInv conf s) (start_inv hd) ?_
  intro tr s k s' e _ hinv hstep
  have hwork := step_cases hstep
  exact work_keeps ⟨hd, hinv, hwork.1, hwork.2.1⟩ hwork.2.2

/-! ## The exchange comes to an end -/

/-- How far a worker has come. -/
def rank (R : Nat) : ConnStage → Nat
  | .fill => 0
  | .signal => 1
  | .await => 2
  | .connect => 3
  | .send => 4
  | .recvAll => 5
  | .listen k => 3 * k + 3
  | .accept k => 3 * k + 4
  | .recv k => 3 * k + 5
  | .sendAll k => 3 * R + k + 3
  | .getQps => 4 * R + 6
  | .setFlag | .awaitFlag => 4 * R + 7
  | .done => 4 * R + 8

theorem rank_le (R : Nat) {i t : Nat} {stage : ConnStage} (h : stage.Allowed R i t) :
    rank R stage ≤ 4 * R + 8 := by
  cases stage <;> simp_all [rank, ConnStage.Allowed] <;> omega

theorem rank_serverLoop {k : Nat} (hk : k < conf.remMachNum) :
    3 * k + 5 < rank conf.remMachNum (serverLoop conf (k + 1)) := by
  unfold serverLoop sendLoop
  split
  · simp only [rank]
    omega
  · rw [if_pos (by omega)]
    simp only [rank]
    omega

theorem rank_sendLoop {k : Nat} (hk : k < conf.remMachNum) :
    3 * conf.remMachNum + k + 3 < rank conf.remMachNum (sendLoop conf (k + 1)) := by
  unfold sendLoop
  split
  · simp only [rank]
    omega
  · simp only [rank]
    omega

theorem rank_serverLoop_zero : 2 < rank conf.remMachNum (serverLoop conf 0) := by
  unfold serverLoop sendLoop
  split
  · simp [rank]
  · simp only [rank]
    omega

/-- **A step moves one worker to a stage of higher rank.** -/
theorem work_rank {i t : Nat} (h : Moving conf ips s i t)
    (hwork : s.work conf i t ((s.machine i).stage t) = .ok s') :
    ∃ g stage, s'.machine = Function.update s.machine i g ∧
      g.stage = Function.update (s.machine i).stage t stage ∧
      rank conf.remMachNum ((s.machine i).stage t) < rank conf.remMachNum stage := by
  cases hst : (s.machine i).stage t with
  | fill =>
    rw [hst] at hwork
    cases hwork
    exact ⟨_, _, rfl, rfl, Nat.zero_lt_one⟩
  | signal =>
    rw [hst] at hwork
    cases hwork
    refine ⟨_, _, rfl, rfl, ?_⟩
    split <;> simp only [rank] <;> omega
  | await =>
    simp only [hst, work] at hwork
    split at hwork
    · cases hwork
      refine ⟨_, _, rfl, rfl, ?_⟩
      split
      · exact rank_serverLoop_zero
      · simp [rank]
    · cases hwork
  | listen k =>
    rw [hst] at hwork
    cases hwork
    exact ⟨_, _, rfl, rfl, Nat.lt_succ_self _⟩
  | accept k =>
    simp only [hst, work] at hwork
    split at hwork
    · cases hwork
      exact ⟨_, _, rfl, rfl, Nat.lt_succ_self _⟩
    · cases hwork
  | recv k =>
    simp only [hst, work] at hwork
    split at hwork
    · cases hwork
      obtain ⟨-, -, hk, -⟩ := server_at h hst (Or.inr (Or.inr (Or.inl rfl)))
      exact ⟨_, _, rfl, rfl, rank_serverLoop hk⟩
    · cases hwork
  | sendAll k =>
    rw [hst] at hwork
    cases hwork
    obtain ⟨-, -, hk, -⟩ := server_at h hst (Or.inr (Or.inr (Or.inr rfl)))
    exact ⟨_, _, rfl, rfl, rank_sendLoop hk⟩
  | connect =>
    obtain ⟨k, rfl, rfl, hk, -, -, -, hhost, hport⟩ := client_at h hst (Or.inl rfl)
    simp only [hst, work, hhost, hport] at hwork
    split at hwork
    · cases hwork
      exact ⟨_, _, rfl, rfl, Nat.lt_succ_self _⟩
    · cases hwork
  | send =>
    obtain ⟨k, rfl, rfl, hk, -, -, -, hhost, hport⟩ := client_at h hst (Or.inr (Or.inl rfl))
    simp only [hst, work, hhost, hport] at hwork
    cases hwork
    exact ⟨_, _, rfl, rfl, Nat.lt_succ_self _⟩
  | recvAll =>
    obtain ⟨k, rfl, rfl, hk, -, -, -, hhost, hport⟩ := client_at h hst (Or.inr (Or.inr rfl))
    simp only [hst, work, hhost, hport] at hwork
    split at hwork
    · cases hwork
      refine ⟨_, _, rfl, rfl, ?_⟩
      simp only [rank]
      omega
    · cases hwork
  | getQps =>
    rw [hst] at hwork
    cases hwork
    exact ⟨_, _, rfl, rfl, Nat.lt_succ_self _⟩
  | setFlag =>
    rw [hst] at hwork
    cases hwork
    exact ⟨_, _, rfl, rfl, Nat.lt_succ_self _⟩
  | awaitFlag =>
    simp only [hst, work] at hwork
    split at hwork
    · cases hwork
      exact ⟨_, _, rfl, rfl, Nat.lt_succ_self _⟩
    · cases hwork
  | done =>
    rw [hst] at hwork
    cases hwork

/-- How far all workers have come. -/
def totalRank (conf : ConnConf) (s : Connections) : Nat :=
  gridSum conf.machineNum conf.workersPerMachine fun i t =>
    rank conf.remMachNum ((s.machine i).stage t)

theorem rank_lt {k : Nat × Nat} {e : Unit} (hd : conf.Deployed ips) (hinv : ConnInv conf s)
    (hstep : s.step conf k = .ok (s', e)) : totalRank conf s < totalRank conf s' := by
  obtain ⟨hi, ht, hwork⟩ := step_cases hstep
  obtain ⟨g, stage, hmachine, hstage, hlt⟩ := work_rank ⟨hd, hinv, hi, ht⟩ hwork
  have hnew : ∀ i' t', (s'.machine i').stage t'
      = if i' = k.1 ∧ t' = k.2 then stage else (s.machine i').stage t' := by
    intro i' t'
    rw [hmachine]
    by_cases hi' : i' = k.1
    · subst hi'
      rw [Function.update_self, hstage]
      by_cases ht' : t' = k.2
      · rw [ht', Function.update_self, if_pos ⟨rfl, rfl⟩]
      · rw [Function.update_of_ne ht', if_neg fun hc => ht' hc.2]
    · rw [Function.update_of_ne hi', if_neg fun hc => hi' hc.1]
  apply gridSum_lt hi ht
  · rw [hnew, if_pos ⟨rfl, rfl⟩]
    exact hlt
  · intro i' t'
    rw [hnew]
    split
    · rename_i heq
      rw [heq.1, heq.2]
      exact Nat.le_of_lt hlt
    · exact Nat.le_refl _

/-- **As long as a worker is not done, some worker has a step.** -/
theorem can_move (hd : conf.Deployed ips) (hinv : ConnInv conf s)
    (hstuck : ∀ k s' e, s.step conf k ≠ .ok (s', e)) :
    ∀ i < conf.machineNum, ∀ t < conf.workersPerMachine, (s.machine i).stage t = .done := by
  have hwork : ∀ i < conf.machineNum, ∀ t < conf.workersPerMachine, ∀ s',
      s.work conf i t ((s.machine i).stage t) ≠ .ok s' := by
    intro i hi t ht s' hok
    apply hstuck (i, t) s' ()
    simp only [step, hi, ht, and_self, if_true, hok]
    rfl
  have hmove : ∀ i, i < conf.machineNum → Moving conf ips s i 0 := fun i hi =>
    ⟨hd, hinv, hi, hd.workers⟩
  -- everybody has counted himself, so nobody waits for that
  have hcounted : ∀ i < conf.machineNum, ∀ t < conf.workersPerMachine,
      ((s.machine i).stage t).counted = true := by
    intro i hi t ht
    have hno := hwork i hi t ht
    cases hst : (s.machine i).stage t <;> first
      | rfl
      | (rw [hst] at hno; exact absurd rfl (hno _))
  have hwaited : ∀ i < conf.machineNum, ((s.machine i).stage 0).waited = true := by
    intro i hi
    have hno := hwork i hi 0 hd.workers
    have hall := (hinv.machine i hi).count
    have hfull : (List.range conf.workersPerMachine).countP
        (fun t => ((s.machine i).stage t).counted) = conf.workersPerMachine := by
      rw [List.countP_eq_length.mpr fun t ht => hcounted i hi t (List.mem_range.mp ht),
        List.length_range]
    rw [hfull] at hall
    have hzero := hcounted i hi 0 hd.workers
    cases hst : (s.machine i).stage 0 with
    | fill =>
      rw [hst] at hzero
      cases hzero
    | signal =>
      rw [hst] at hzero
      cases hzero
    | await =>
      rw [hst] at hno
      simp only [work, hall, if_true] at hno
      exact absurd rfl (hno _)
    | _ => rfl
  -- a client that waits for the server has sent its attributes
  have hclient : ∀ k, k < conf.remMachNum → ((s.machine (k + 1)).stage 0 = .connect ∧
      (s.socket 0 (serverPort k)).listening = false) ∨
      (s.machine (k + 1)).stage 0 = .recvAll ∨ (s.machine (k + 1)).stage 0 = .done := by
    intro k hk
    have hi : k + 1 < conf.machineNum := by
      unfold ConnConf.remMachNum at hk
      omega
    have hno := hwork (k + 1) hi 0 hd.workers
    have hallowed := (hinv.machine (k + 1) hi).allowed 0 hd.workers
    have hw := hwaited (k + 1) hi
    have hhost := hinv.server (k + 1) hi (Nat.succ_ne_zero k)
    cases hst : (s.machine (k + 1)).stage 0 with
    | connect =>
      left
      refine ⟨rfl, ?_⟩
      have hpeer := (hinv.socket k hk).peer
      rw [hst] at hpeer hno
      simp only [work, hhost, clientPort_succ] at hno
      by_contra hc
      rw [if_pos ⟨by simpa using hc, hpeer⟩] at hno
      exact absurd rfl (hno _)
    | send =>
      rw [hst] at hno
      simp only [work, hhost] at hno
      exact absurd rfl (hno _)
    | recvAll => exact Or.inr (Or.inl rfl)
    | getQps =>
      rw [hst] at hno
      exact absurd rfl (hno _)
    | setFlag =>
      rw [hst] at hno
      exact absurd rfl (hno _)
    | done => exact Or.inr (Or.inr rfl)
    | _ =>
      rw [hst] at hallowed hw
      simp_all [ConnStage.Allowed, ConnStage.waited]
  have hserver : 0 < conf.machineNum → (s.machine 0).stage 0 = .done := by
    intro h0
    have hno := hwork 0 h0 0 hd.workers
    have hallowed := (hinv.machine 0 h0).allowed 0 hd.workers
    have hw := hwaited 0 h0
    cases hst : (s.machine 0).stage 0 with
    | listen k =>
      rw [hst] at hno
      exact absurd rfl (hno _)
    | accept k =>
      rw [hst] at hno hallowed
      have hold := hinv.socket k hallowed.2.2
      rw [hst] at hold
      have hpeer : (s.socket 0 (serverPort k)).peer.isSome = true := by
        rw [hold.peer]
        rcases hclient k hallowed.2.2 with ⟨-, hclosed⟩ | hc | hc
        · have hopen := hold.listening.mpr (Nat.lt_succ_self k)
          rw [hclosed] at hopen
          cases hopen
        · rw [hc]
          rfl
        · rw [hc]
          rfl
      simp only [work, hpeer, if_true] at hno
      exact absurd rfl (hno _)
    | recv k =>
      rw [hst] at hno hallowed
      have hold := hinv.socket k hallowed.2.2
      rw [hst] at hold
      have hsentUp : ((s.machine (k + 1)).stage 0).sentUp = true := by
        rcases hclient k hallowed.2.2 with ⟨hc, -⟩ | hc | hc
        · have hconn := hold.accepted (Nat.lt_succ_self k)
          rw [hc] at hconn
          cases hconn
        · rw [hc]
          rfl
        · rw [hc]
          rfl
      have hup := hold.up
      rw [if_pos ⟨hsentUp, Nat.lt_irrefl k⟩] at hup
      simp only [work, hup.1, Nat.le_refl, if_true] at hno
      exact absurd rfl (hno _)
    | sendAll k =>
      rw [hst] at hno
      exact absurd rfl (hno _)
    | getQps =>
      rw [hst] at hno
      exact absurd rfl (hno _)
    | setFlag =>
      rw [hst] at hno
      exact absurd rfl (hno _)
    | done => rfl
    | _ =>
      rw [hst] at hallowed hw
      simp_all [ConnStage.Allowed, ConnStage.waited]
  have hzero : ∀ i < conf.machineNum, (s.machine i).stage 0 = .done := by
    intro i hi
    have h0 : 0 < conf.machineNum := Nat.lt_of_le_of_lt (Nat.zero_le _) hi
    rcases Nat.eq_zero_or_pos i with hi0 | hi0
    · rw [hi0]
      exact hserver h0
    · obtain ⟨k, rfl⟩ := Nat.exists_eq_succ_of_ne_zero (Nat.ne_of_gt hi0)
      have hk : k < conf.remMachNum := by
        unfold ConnConf.remMachNum
        omega
      have hold := hinv.socket k hk
      rw [hserver h0] at hold
      rcases hclient k hk with ⟨hc, -⟩ | hc | hc
      · have hsent := hold.received hk
        rw [hc] at hsent
        cases hsent
      · -- the server has sent everything
        have hno := hwork (k + 1) hi 0 hd.workers
        have hhost := hinv.server (k + 1) hi (Nat.succ_ne_zero k)
        have hdown := hold.down
        rw [hc, if_pos ⟨hk, rfl⟩] at hdown
        rw [hc] at hno
        simp only [work, hhost, clientPort_succ, hdown.1, Nat.le_refl, if_true] at hno
        exact absurd rfl (hno _)
      · exact hc
  intro i hi t ht
  have hflag := (hinv.machine i hi).flag.mpr (hzero i hi)
  have hno := hwork i hi t ht
  have hallowed := (hinv.machine i hi).allowed t ht
  by_cases ht0 : t = 0
  · rw [ht0]
    exact hzero i hi
  · cases hst : (s.machine i).stage t with
    | fill =>
      rw [hst] at hno
      exact absurd rfl (hno _)
    | signal =>
      rw [hst] at hno
      exact absurd rfl (hno _)
    | awaitFlag =>
      rw [hst] at hno
      simp only [work, hflag, if_true] at hno
      exact absurd rfl (hno _)
    | done => rfl
    | _ =>
      rw [hst] at hallowed
      simp_all [ConnStage.Allowed]

/-! ## The results -/

/-- **A worker that is done reaches everyone**: in every interleaving, its machine holds the
    attributes of every QP, and for every QP of every other machine a handle that leads to it. -/
theorem rem_qps_reach (hd : conf.Deployed ips) (hrun : Run (step conf) (start mem rem ips) tr s)
    {i t : Nat} (hi : i < conf.machineNum) (ht : t < conf.workersPerMachine)
    (hdone : (s.machine i).stage t = .done) :
    ∀ m < conf.machineNum, ∀ w < conf.workersPerMachine, ∀ q < conf.qpNum,
      ((s.machine i).buf (conf.qpIndex m w q)).Describes conf.isRoce (conf.qp m w q) ∧
      (m ≠ i → ((s.machine i).remQp (m, w, q)).Reaches conf.isRoce (conf.qp m w q)) := by
  have hinv := (run_inv hd hrun).machine i hi
  have hzero : (s.machine i).stage 0 = .done := by
    by_cases ht0 : t = 0
    · rw [← ht0]
      exact hdone
    · exact hinv.flag.mp (hinv.flagged t ht ht0 hdone)
  intro m hm w hw q hq
  have hall := hinv.holds_all (by rw [hzero]; rfl)
  exact ⟨hall.describes hm hw hq, fun hne => hinv.handles (Or.inr hzero) m hm hne w hw q hq⟩

/-- **The exchange comes to an end, under every schedule**: no run is longer than the bound, and one
    that nobody can continue has all workers of all machines connected. -/
theorem all_connected (hd : conf.Deployed ips)
    (hrun : Run (step conf) (start mem rem ips) tr s) :
    tr.length ≤ conf.machineNum * (conf.workersPerMachine * (4 * conf.remMachNum + 8)) ∧
    ((∀ k s' e, s.step conf k ≠ .ok (s', e)) →
      ∀ i < conf.machineNum, ∀ t < conf.workersPerMachine, (s.machine i).stage t = .done) := by
  have hinv := run_inv hd hrun
  constructor
  · have hlen := hrun.length_le_rank (totalRank conf) fun _ _ _ _ _ hr hs =>
      rank_lt hd (run_inv hd hr) hs
    apply Nat.le_trans hlen
    apply gridSum_le
    intro i hi t ht
    exact rank_le _ ((hinv.machine i hi).allowed t ht)
  · exact can_move hd hinv

end Runs

/-! ## Two machines -/

/-- Two machines with one worker each, and one QP each. -/
def twoMachines : ConnConf where
  machineNum := 2
  workersPerMachine := 1
  qpNum := 1
  isRoce := false
  allIps := [['a'], ['b']]
  hostOf := fun ip => if ip = ['a'] then some 0 else if ip = ['b'] then some 1 else none
  qp := fun m _ _ => ⟨m.toUInt16 + 7, m.toUInt32 + 70, 0, 0⟩

def twoIps (i : Nat) : HostIps :=
  if i = 0 then ⟨['a'], Function.update (fun _ => []) 0 ['b'], 1⟩
  else ⟨['b'], Function.update (fun _ => []) 0 ['a'], 1⟩

theorem twoMachines_deployed : twoMachines.Deployed twoIps := by
  constructor
  · decide
  · decide
  · decide
  · intro i hi
    have hcases : i = 0 ∨ i = 1 := by
      have hlt : i < 2 := hi
      omega
    rcases hcases with rfl | rfl <;> rfl
  · intro i hi ip hip
    have hcases : i = 0 ∨ i = 1 := by
      have hlt : i < 2 := hi
      omega
    rcases hcases with rfl | rfl
    · cases hip
      rfl
    · cases hip
      rfl

/-- The schedule that connects them. -/
def twoSchedule : List (Nat × Nat) :=
  [(0, 0), (0, 0), (0, 0), (0, 0), (1, 0), (1, 0), (1, 0), (1, 0), (0, 0), (1, 0), (0, 0), (0, 0),
   (1, 0), (1, 0), (1, 0), (0, 0), (0, 0)]

def noAttr : QpAttr := ⟨0, 0, 0, 0, 0⟩

def noQp : RemoteQp := ⟨⟨false, 0, 0, 0, 0, 0, 0, 0, 0⟩, 0⟩

/-- Machine 0 reaches the QP of machine 1. -/
theorem rem_qps_reach_two : ∃ tr s,
    Run (step twoMachines) (start (fun _ _ => noAttr) (fun _ _ => noQp) twoIps) tr s ∧
    (s.machine 0).stage 0 = .done ∧
    ∀ m < 2, ∀ w < 1, ∀ q < 1,
      ((s.machine 0).buf (twoMachines.qpIndex m w q)).Describes false (twoMachines.qp m w q) ∧
      (m ≠ 0 → ((s.machine 0).remQp (m, w, q)).Reaches false (twoMachines.qp m w q)) := by
  obtain ⟨tr, s, hexec, hdone⟩ : ∃ tr s,
      exec (step twoMachines) (start (fun _ _ => noAttr) (fun _ _ => noQp) twoIps) twoSchedule
        = .ok (tr, s) ∧ (s.machine 0).stage 0 = .done := ⟨_, _, rfl, rfl⟩
  have hrun := run_of_exec hexec
  exact ⟨tr, s, hrun, hdone, rem_qps_reach twoMachines_deployed hrun (i := 0) (t := 0) (by decide)
    (by decide) hdone⟩

/-- The same run has connected everyone, within the bound. -/
theorem all_connected_two : ∃ tr s,
    Run (step twoMachines) (start (fun _ _ => noAttr) (fun _ _ => noQp) twoIps) tr s ∧
    tr.length = 17 ∧
    tr.length ≤ 2 * (1 * (4 * twoMachines.remMachNum + 8)) ∧
    ((∀ k s' e, s.step twoMachines k ≠ .ok (s', e)) →
      ∀ i < 2, ∀ t < 1, (s.machine i).stage t = .done) := by
  obtain ⟨tr, s, hexec, hlen⟩ : ∃ tr s,
      exec (step twoMachines) (start (fun _ _ => noAttr) (fun _ _ => noQp) twoIps) twoSchedule
        = .ok (tr, s) ∧ tr.length = 17 := ⟨_, _, rfl, rfl⟩
  have hrun := run_of_exec hexec
  exact ⟨tr, s, hrun, hlen, all_connected twoMachines_deployed hrun⟩

end Connections

end Odyssey
