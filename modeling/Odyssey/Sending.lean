/-
  WHAT SENDING GUARANTEES.

  For every run of a context from its set-up on (`SendRuns`):

  * each batch of broadcasts goes once to every active machine, in order, to no missing machine,
    and to a quorum (`broadcasts_reach`);
  * no send path blocks for a completion of a message that it has forged and not posted, and each
    poll takes the completion of a message that was posted before (`sending_never_waits`);
  * at most one signaled message is not polled for, for the first `2 ^ 64` messages of a QP.  The
    bound is real: `sent_tx` wraps there, with a signaled message outstanding, and signals again
    (`signaling_unbalanced`).
-/
import Odyssey.SendRuns

namespace Odyssey

open Lib

variable {μ : Type}

/-- Every reachable context is ready. -/
theorem send_run {c c₁ c₀ c' : Context μ} {tr : List (SendCmd μ × Unit)} (hnew : Created c)
    (hinit : c.initCtxSendWrs = .ok c₁) (hset : c₁.setUpQInfo = .ok c₀)
    (hrun : Run sendStep c₀ tr c') : Ready c' := by
  refine hrun.invariant (fun _ c => Ready c) (ready_setUp hnew hinit hset) ?_
  rintro - c k c' e - h hstep
  exact (h.step k).of_ok hstep

/-! ## Waiting for credits -/

/-- A check that finds too few credits before the time-out counts, and changes nothing else. -/
theorem checkBcastCredits_waits {cl : Cluster} {creditsOf : Nat → Nat → UInt16}
    {credits : Nat → UInt16} {minCredits : UInt16} {r : Reconf} {m : Nat}
    (hm : m ∈ r.qInfo.active) (hshort : credits m < minCredits)
    (hcnt : r.timeOutCnt + 1 < creditTimeout) :
    checkBcastCredits cl creditsOf credits minCredits r =
      .ok ({ r with timeOutCnt := r.timeOutCnt + 1 }, none) := by
  have hlow : r.qInfo.active.any (credits · < minCredits) = true :=
    List.any_eq_true.mpr ⟨m, hm, decide_eq_true hshort⟩
  have hnowrap : u32 (r.timeOutCnt + 1) = r.timeOutCnt + 1 :=
    Nat.mod_eq_of_lt (hcnt.trans (by decide))
  unfold checkBcastCredits
  rw [if_pos hlow]
  dsimp only
  rw [hnowrap, if_neg hcnt.ne]
  rfl

namespace Context

/-- The context after `n` checks for `qp` that found too few credits. -/
def waited (c : Context μ) (qp n : Nat) : Context μ := c.modify qp ({ · with timeOutCnt := n })

@[simp] theorem waited_self (c : Context μ) (qp : Nat) :
    c.waited qp (c.qpMeta qp).timeOutCnt = c := by
  unfold waited modify
  rw [Function.update_eq_self]

/-- One more check with too few credits, before the time-out. -/
theorem waited_check {c : Context μ} {qp m n : Nat} {minCredits : UInt16}
    (hm : m ∈ c.qInfo.active) (hshort : (c.qpMeta qp).credits m < minCredits)
    (hn : n + 1 < creditTimeout) :
    (c.waited qp n).checkCredits qp minCredits = .ok (c.waited qp (n + 1), none) := by
  have hself : (c.waited qp n).qpMeta qp = { c.qpMeta qp with timeOutCnt := n } :=
    Function.update_self qp _ _
  have hback : (c.waited qp n).withReconf qp
      { (c.waited qp n).reconf qp with timeOutCnt := n + 1 } = c.waited qp (n + 1) := by
    unfold withReconf waited modify
    congr 1
    funext i
    by_cases hi : i = qp
    · subst hi
      simp [reconf]
    · simp [reconf, hi]
  have hcheck : checkBcastCredits (c.waited qp n).cl
      (fun qp' m => ((c.waited qp n).qpMeta qp').credits m) ((c.waited qp n).qpMeta qp).credits
      minCredits ((c.waited qp n).reconf qp) =
      .ok ({ (c.waited qp n).reconf qp with
        timeOutCnt := ((c.waited qp n).reconf qp).timeOutCnt + 1 }, none) := by
    refine checkBcastCredits_waits (r := (c.waited qp n).reconf qp) (m := m) hm ?_ ?_
    · rw [hself]
      exact hshort
    · show ((c.waited qp n).qpMeta qp).timeOutCnt + 1 < creditTimeout
      rw [hself]
      exact hn
  unfold checkCredits
  rw [hcheck, ok_bind]
  have hcnt : ((c.waited qp n).reconf qp).timeOutCnt = n := by
    show ((c.waited qp n).qpMeta qp).timeOutCnt = n
    rw [hself]
  dsimp only
  rw [hcnt, hback]
  rfl

end Context

/-- **A worker whose broadcast waits for credits**: up to the time-out it does nothing but count. -/
theorem waits_run {c : Context μ} {qp m n : Nat} {minCredits : UInt16}
    (hqp : qp ∈ c.qInfo.sharing) (hm : m ∈ c.qInfo.active)
    (hshort : (c.qpMeta qp).credits m < minCredits) (hzero : (c.qpMeta qp).timeOutCnt = 0)
    (hn : n < creditTimeout) :
    Run sendStep c (List.replicate n (.checkCredits qp minCredits, ())) (c.waited qp n) := by
  induction n with
  | zero =>
    have hself := c.waited_self qp
    rw [hzero] at hself
    rw [hself]
    exact .start
  | succ n ih =>
    rw [List.replicate_succ']
    refine .snoc (ih (by omega)) ?_
    have hstep := c.waited_check hm hshort hn
    show (if qp ∈ c.qInfo.sharing then _ else _) = _
    rw [if_pos hqp, hstep]
    rfl

/-! ## Broadcasts -/

/-- **In every reachable state, a batch of broadcasts visits the work requests of the active
    machines**: the NIC takes the chain, and each chain that is posted is `Broadcasts`. -/
theorem broadcasts_reach {c c₁ c₀ c' : Context μ} {tr : List (SendCmd μ × Unit)} {qp : Nat}
    (hnew : Created c) (hinit : c.initCtxSendWrs = .ok c₁) (hset : c₁.setUpQInfo = .ok c₀)
    (hrun : Run sendStep c₀ tr c') (hqp : qp ∈ c'.qInfo.sharing) :
    c'.ctxSendBroadcasts qp ≠ .error .aborted ∧
    ∀ c'', c'.ctxSendBroadcasts qp = .ok c'' →
      ∃ new, posts (c''.qpMeta qp).send.log = posts (c'.qpMeta qp).send.log ++ new ∧
        ∀ p ∈ new, Broadcasts c''.cl c''.qInfo p.1 p.2 := by
  have hends := (send_run hnew hinit hset hrun).sendBroadcasts hqp
  exact ⟨fun hc => (hends.of_error hc).2 rfl, fun c'' hok => (hends.of_ok hok).2⟩

/-- A membership before any set-up. -/
def QuorumInfo.blank : QuorumInfo where
  missingNum := 0
  missingIds := fun _ => 0
  activeNum := 0
  activeIds := fun _ => 0
  sendVector := fun _ => false
  firstActiveRmId := 0
  lastActiveRmId := 0
  numOfSendWrs := 0
  sendWrsPtrs := fun _ => 0
  numOfCreditTargets := 0
  creditPtrs := fun _ => 0
  targets := fun _ => 0

/-- A worker on machine 0 of three, with one broadcast QP, 5 credits for each of the others, and
    one message in its FIFO. -/
def bcastWorker : Context Unit where
  cl := .three
  qpNum := 1
  qpMeta := fun _ => {
    flowType := .sendBcastRecvUni
    sendWrNum := 8
    recvQpId := 0
    receipientNum := 2
    leaderMId := 0
    ssBatch := 63
    maxCredits := 5
    needsCredits := true
    sendFifoNum := 1
    sendSize := 64
    enableInlining := true
    credits := fun _ => 5
    sendFifo := fun _ => { fifoConstructor 4 64 8 with
      slotMeta := fun _ => ⟨1, 16, 0, 0⟩, capacity := 1, netCapacity := 1 }
    acks := fun _ => ⟨0, 0, 0, 0, opAck⟩
    send := .blank
    recv := { ctxInitRecvInfo Unit 1 1 with recvInfo := ⟨0, 1, 1⟩ }
    timeOutCnt := 0 }
  qInfo := .blank

/-- What `bcastWorker` finds between two calls: the credits of machine 1, and one more message. -/
def bcastRest (credits : UInt16) : Nat → Around Unit := fun qp => {
  credits := fun m => if m = 1 then credits else 5
  sendFifo := (bcastWorker.qpMeta qp).sendFifo
  acks := (bcastWorker.qpMeta qp).acks
  recv := (bcastWorker.qpMeta qp).recv }

/-- Machine 1 stops returning its credits: after a broadcast to both machines the worker times out,
    and broadcasts to machine 2 alone.  When the credits are back it broadcasts to both again. -/
theorem broadcasts_reach_two : ∃ c₁ c₀ tr c tr' d c' d', bcastWorker.initCtxSendWrs = .ok c₁ ∧
    c₁.setUpQInfo = .ok c₀ ∧
    Run sendStep c₀ tr c ∧ c.qInfo.missing = [1] ∧ c.ctxSendBroadcasts 0 = .ok c' ∧
    Run sendStep c₀ tr' d ∧ d.qInfo.missing = [1] ∧ d.ctxSendBroadcasts 0 = .ok d' ∧
    d'.qInfo.missing = [] ∧
    (posts (d'.qpMeta 0).send.log).map (fun p => p.2.map (·.ah)) = [[1, 2], [2], [1, 2]] ∧
    (∃ new, posts (c'.qpMeta 0).send.log = posts (c.qpMeta 0).send.log ++ new ∧
      ∀ p ∈ new, Broadcasts c'.cl c'.qInfo p.1 p.2) ∧
    ∃ new, posts (d'.qpMeta 0).send.log = posts (d.qpMeta 0).send.log ++ new ∧
      ∀ p ∈ new, Broadcasts d'.cl d'.qInfo p.1 p.2 := by
  have hbatch : 63 = qpMetaSsBatch .sendBcastRecvUni 2 8 := by decide
  have hnew : Created bcastWorker := ⟨fun _ => hbatch, fun _ => rfl, fun _ => rfl⟩
  have hcalls : (do
      let c₁ ← bcastWorker.initCtxSendWrs
      let c₀ ← c₁.setUpQInfo
      let (a, _) ← sendStep c₀ (.sendBroadcasts 0)
      let (b, _) ← sendStep a (.around (bcastRest 0))
      let (c, _) ← sendStep (b.waited 0 (creditTimeout - 1)) (.checkCredits 0 1)
      let (c', _) ← sendStep c (.sendBroadcasts 0)
      let (d, _) ← sendStep c' (.around (bcastRest 5))
      let d' ← d.ctxSendBroadcasts 0
      return ([c₀.qInfo.sharing, b.qInfo.sharing, b.qInfo.active, c.qInfo.sharing,
        [((b.qpMeta 0).credits 1).toNat, (b.qpMeta 0).timeOutCnt],
        c.qInfo.missing, d.qInfo.sharing, d.qInfo.missing, d'.qInfo.missing],
        (posts (d'.qpMeta 0).send.log).map (fun p => p.2.map (·.ah)))
      : Outcome (List (List Nat) × List (List Nat))) =
      .ok ([[0], [0], [1, 2], [0], [0, 0], [1], [0], [1], []], [[1, 2], [2], [1, 2]]) := by
    decide +kernel
  obtain ⟨c₁, h₁, hcalls⟩ := bind_eq_ok.mp hcalls
  obtain ⟨c₀, h₀, hcalls⟩ := bind_eq_ok.mp hcalls
  obtain ⟨⟨a, u₁⟩, ha, hcalls⟩ := bind_eq_ok.mp hcalls
  obtain ⟨⟨b, u₂⟩, hb, hcalls⟩ := bind_eq_ok.mp hcalls
  obtain ⟨⟨c, u₃⟩, hc, hcalls⟩ := bind_eq_ok.mp hcalls
  obtain ⟨⟨c', u₄⟩, hc', hcalls⟩ := bind_eq_ok.mp hcalls
  obtain ⟨⟨d, u₅⟩, hd, hcalls⟩ := bind_eq_ok.mp hcalls
  obtain ⟨d', hd', hcalls⟩ := bind_eq_ok.mp hcalls
  simp only [pure, Except.pure, Except.ok.injEq, Prod.mk.injEq, List.cons.injEq, and_true]
    at hcalls
  obtain ⟨⟨-, hbsh, hbact, hcsh, ⟨hcred, hcnt⟩, hcmiss, hdsh, hdmiss, hdmiss'⟩, hah⟩ := hcalls
  have hwait : Run sendStep b
      (List.replicate (creditTimeout - 1) (.checkCredits 0 1, ()))
      (b.waited 0 (creditTimeout - 1)) := by
    refine waits_run (m := 1) ?_ ?_ ?_ hcnt (by decide)
    · rw [hbsh]
      exact List.mem_singleton_self 0
    · rw [hbact]
      decide
    · rw [UInt16.lt_iff_toNat_lt, hcred]
      decide
  have hrun := ((((Run.single ha).snoc hb).trans hwait).snoc hc)
  have hsend : c.ctxSendBroadcasts 0 = .ok c' := by
    rw [sendStep, if_pos (by rw [hcsh]; exact List.mem_singleton_self 0)] at hc'
    obtain ⟨c'', hsend, hc'⟩ := bind_eq_ok.mp hc'
    cases hc'
    exact hsend
  have hrun' := (hrun.snoc hc').snoc hd
  exact ⟨c₁, c₀, _, c, _, d, c', d', h₁, h₀, hrun, hcmiss, hsend, hrun', hdmiss, hd', hdmiss', hah,
    (broadcasts_reach hnew h₁ h₀ hrun (by rw [hcsh]; exact List.mem_singleton_self 0)).2 c' hsend,
    (broadcasts_reach hnew h₁ h₀ hrun' (by rw [hdsh]; exact List.mem_singleton_self 0)).2 d' hd'⟩

/-! ## Signaling -/

/-- **No send path ever waits for a message it has not posted**, and as long as a QP has sent no
    more than `2 ^ 64` messages, at most one of its signaled messages is not polled for, at any
    time. -/
theorem sending_never_waits {c c₁ c₀ c' : Context μ} {tr : List (SendCmd μ × Unit)}
    (hnew : Created c) (hinit : c.initCtxSendWrs = .ok c₁) (hset : c₁.setUpQInfo = .ok c₀)
    (hrun : Run sendStep c₀ tr c') :
    (∀ k, sendStep c' k ≠ .error .waiting) ∧
    ∀ qp, (∀ l l', (c'.qpMeta qp).send.log = l ++ .polled :: l' → polls l < completions l) ∧
      (sends (c'.qpMeta qp).send.log ≤ 2 ^ 64 → ∀ l, l <+: (c'.qpMeta qp).send.log →
        polls l ≤ flags l ∧ flags l ≤ polls l + 1) := by
  have h := send_run hnew hinit hset hrun
  exact ⟨fun k hc => ((h.step k).of_error hc).1 rfl, fun qp =>
    ⟨(h.paced qp).polled, (h.paced qp).balanced⟩⟩

/-- A worker on machine 0 of three with an ack QP, and an ack for machine 1. -/
def ackWorker : Context Unit where
  cl := .three
  qpNum := 1
  qpMeta := fun _ => {
    flowType := .sendAckRecvAck
    sendWrNum := 3
    recvQpId := 0
    receipientNum := 2
    leaderMId := 0
    ssBatch := 127
    maxCredits := 0
    needsCredits := false
    sendFifoNum := 1
    sendSize := 16
    enableInlining := true
    credits := fun _ => 0
    sendFifo := fun _ => fifoConstructor 3 16 0
    acks := fun i => ⟨0, 1, 1, 0, if i = 1 then ackNotYetSent else opAck⟩
    send := .blank
    recv := { ctxInitRecvInfo Unit 1 1 with recvInfo := ⟨0, 1, 1⟩ }
    timeOutCnt := 0 }
  qInfo := .blank

theorem ackWorker_created : Created ackWorker := by
  have hbatch : 127 = qpMetaSsBatch .sendAckRecvAck 2 3 := by decide
  exact ⟨fun _ => hbatch, fun _ => rfl, fun _ => rfl⟩

/-- Sending the ack. -/
theorem sending_never_waits_ack : ∃ c₁ c₀ c', ackWorker.initCtxSendWrs = .ok c₁ ∧
    c₁.setUpQInfo = .ok c₀ ∧ sendStep c₀ (.sendAcks 0) = .ok (c', ()) ∧
    sends (c'.qpMeta 0).send.log = 1 ∧ flags (c'.qpMeta 0).send.log ≤ 1 := by
  have hcalls : (do
      let c₁ ← ackWorker.initCtxSendWrs
      let c₀ ← c₁.setUpQInfo
      let (c', _) ← sendStep c₀ (.sendAcks 0)
      return (polls (c'.qpMeta 0).send.log, sends (c'.qpMeta 0).send.log)
      : Outcome (Nat × Nat)) = .ok (0, 1) := by
    decide +kernel
  obtain ⟨c₁, h₁, hcalls⟩ := bind_eq_ok.mp hcalls
  obtain ⟨c₀, h₀, hcalls⟩ := bind_eq_ok.mp hcalls
  obtain ⟨⟨c', u⟩, h', hcalls⟩ := bind_eq_ok.mp hcalls
  obtain ⟨hpolls, hsends⟩ := Prod.mk.inj (Except.ok.inj hcalls)
  have hsafe := (sending_never_waits ackWorker_created h₁ h₀ (.single h')).2 0
  have hbal := (hsafe.2 (by rw [hsends]; decide) _ (List.prefix_refl _)).2
  refine ⟨c₁, c₀, c', h₁, h₀, h', hsends, ?_⟩
  rw [hpolls] at hbal
  exact hbal

/-! ## Where sent_tx wraps -/

/-- The worker after `n` acks. -/
structure AckedTimes (n : Nat) (c : Context Unit) : Prop where
  ready : Ready c
  conf : (c.qpMeta 0).toQpConf = (ackWorker.qpMeta 0).toQpConf
  qpNum : c.qpNum = 1
  sent : sends (c.qpMeta 0).send.log = n

/-- Its call of `od_send_acks` returns, with one message posted. -/
theorem odSendAcks_one {c : Context Unit} {s : SendQueue} {t : Nat}
    (hm : c.qpMeta 0 = { ackWorker.qpMeta 0 with send := s, timeOutCnt := t })
    (hpace : Paced 127 126 0 false s) :
    ∃ c' chain, c.odSendAcks 0 = .ok c' ∧ (c'.qpMeta 0).send.log =
      s.log ++ (if s.sentTx % 127 = 0 then [.flagged] else [])
        ++ (if s.sentTx % 127 = 126 then [.polled] else []) ++ [.posted 1 chain] := by
  let acks := (ackWorker.qpMeta 0).acks
  -- the only ack that is pending is that for machine 1
  have hnowait : Ends (fun _ => False) (s.selectiveSignalingForUnicast 127 1 true)
      (Signaled 127 1 true s) :=
    selectiveSignalingForUnicast_ends s fun hpoll => Or.inr (hpace.ready (by decide) hpoll)
  obtain ⟨s₁, hs₁, hsig⟩ := hnowait.returns
  have hloop : forLoop 8 3 (Context.ackRound 3 127) ⟨acks, s, 0, 0, 0⟩ =
      .ok ⟨Function.update acks 1 { acks 1 with opcode := opAck }, s₁, 1, 1, 1⟩ := by
    have hround : Context.ackRound 3 127 ⟨acks, s, 0, 0, 0⟩ 1 =
        .ok ⟨Function.update acks 1 { acks 1 with opcode := opAck }, s₁, 1, 1, 1⟩ := by
      show (do let s ← s.selectiveSignalingForUnicast 127 1 true; _) = _
      rw [hs₁]
      rfl
    show (Context.ackRound 3 127 ⟨acks, s, 0, 0, 0⟩ 1 >>= fun l =>
      Context.ackRound 3 127 l 2 >>= pure) = _
    rw [hround]
    rfl
  have hchained : Chained 3 [1] false s₁ := by
    refine ⟨List.isChain_singleton 1, List.nodup_singleton 1, ?_, fun h => nomatch h⟩
    decide
  obtain ⟨s₂, chain, hpost, -, -, -, -, -, hlog⟩ :=
    hchained.post (show 1 ∈ [1].head? from rfl) (show 1 ∈ [1].getLast? from rfl) 1
  have hcall : c.odSendAcks 0 = (do
      let l ← forLoop 8 3 (Context.ackRound 3 127) ⟨acks, s, 0, 0, 0⟩
      let c := c.modify 0 ({ · with acks := l.acks, send := l.send })
      if 0 < l.ackI then
        let r ← (c.qpMeta 0).recv.ctxRefillRecvs
        let c := c.setRecv 0 r
        let s := (c.qpMeta 0).send.setNext l.prevAckI none
        let s ← s.ibvPostSend 3 l.ackI l.firstWr
        return c.setSend 0 s
      else return c) := by
    unfold Context.odSendAcks
    rw [hm]
    rfl
  rw [hcall, hloop]
  let c₁ := c.modify 0 ({ · with
    acks := Function.update acks 1 { acks 1 with opcode := opAck }, send := s₁ })
  have hrecv : (c₁.qpMeta 0).recv.ctxRefillRecvs = .ok (c₁.qpMeta 0).recv := by
    have hfull : (c₁.qpMeta 0).recv = (ackWorker.qpMeta 0).recv := by
      rw [Context.qpMeta_modify_self, hm]
    rw [hfull]
    rfl
  let c₂ := c₁.setRecv 0 (c₁.qpMeta 0).recv
  have hsend : (c₂.qpMeta 0).send = s₁ := by
    rw [Context.send_setRecv, Context.qpMeta_modify_self]
  refine ⟨c₂.setSend 0 s₂, chain, ?_, ?_⟩
  · show (do
      let r ← (c₁.qpMeta 0).recv.ctxRefillRecvs
      let c := c₁.setRecv 0 r
      let s ← ((c.qpMeta 0).send.setNext 1 none).ibvPostSend 3 1 1
      return c.setSend 0 s) = _
    rw [hrecv]
    show (do
      let s ← ((c₂.qpMeta 0).send.setNext 1 none).ibvPostSend 3 1 1
      return c₂.setSend 0 s) = _
    rw [hsend, hpost]
    rfl
  · have hlast : ((c₂.setSend 0 s₂).qpMeta 0).send = s₂ := by simp [Context.setSend]
    rw [hlast, hlog, hsig.log]

/-- One more ack: it is flagged or polled for as `sent_tx` says. -/
theorem AckedTimes.step {n : Nat} {c : Context Unit} (h : AckedTimes n c) :
    ∃ tr c', Run sendStep c tr c' ∧ AckedTimes (n + 1) c' ∧
      flags (c'.qpMeta 0).send.log =
        flags (c.qpMeta 0).send.log + (if u64 n % 127 = 0 then 1 else 0) ∧
      polls (c'.qpMeta 0).send.log =
        polls (c.qpMeta 0).send.log + (if u64 n % 127 = 126 then 1 else 0) := by
  let rest : Nat → Around Unit := fun i =>
    ⟨(ackWorker.qpMeta i).credits, (ackWorker.qpMeta i).sendFifo, (ackWorker.qpMeta i).acks,
      (ackWorker.qpMeta i).recv⟩
  obtain ⟨c₁, hc₁⟩ : ∃ c₁, sendStep c (.around rest) = .ok (c₁, ()) := ⟨_, rfl⟩
  have hready₁ : Ready c₁ := (h.ready.step _).of_ok hc₁
  have hnum₁ : c₁.qpNum = 1 := by
    have hnum := h.qpNum
    cases hc₁
    exact hnum
  have hmeta₁ : c₁.qpMeta 0 = { ackWorker.qpMeta 0 with
      send := (c.qpMeta 0).send, timeOutCnt := (c.qpMeta 0).timeOutCnt } := by
    have hconf := h.conf
    cases hc₁
    show PerQpMeta.mk (c.qpMeta 0).toQpConf _ _ _ _ _ _ = _
    rw [hconf]
  have hpace : Paced 127 126 0 false (c.qpMeta 0).send := by
    have hp := hready₁.paced 0
    rw [hmeta₁] at hp
    exact hp
  have htx : (c.qpMeta 0).send.sentTx = u64 n := by
    rw [hpace.tx, h.sent, Nat.add_zero]
  obtain ⟨c₂, chain, hsend, hlog⟩ := odSendAcks_one hmeta₁ hpace
  have hc₂ : sendStep c₁ (.sendAcks 0) = .ok (c₂, ()) := by
    have hguard : 0 < c₁.qpNum ∧ (c₁.qpMeta 0).flowType = .sendAckRecvAck := by
      rw [hnum₁, hmeta₁]
      exact ⟨Nat.one_pos, rfl⟩
    rw [sendStep, if_pos hguard, hsend]
    rfl
  have hmargin : (c₁.qpMeta 0).sendWrNum + 2 ≤ (c₁.qpMeta 0).ssBatch := by
    rw [hmeta₁]
    show 3 + 2 ≤ 127
    decide
  have hframe := ((odSendAcks_ends hmargin (by rw [hmeta₁]; exact hpace)).of_ok hsend).1.frame
  rw [htx] at hlog
  have hcounts := counts_posted ((c.qpMeta 0).send.log
    ++ (if u64 n % 127 = 0 then [.flagged] else [])
    ++ (if u64 n % 127 = 126 then [.polled] else [])) 1 chain
  rw [← hlog] at hcounts
  obtain ⟨hflags, hpolls, -, hsends⟩ := hcounts
  refine ⟨_, c₂, .snoc (.single hc₁) hc₂, ⟨(hready₁.step _).of_ok hc₂, ?_, ?_, ?_⟩, ?_, ?_⟩
  · rw [hframe.conf 0, hmeta₁]
  · rw [hframe.qpNum, hnum₁]
  · rw [hsends, sends_append, sends_append, h.sent]
    split <;> split <;> rfl
  · rw [hflags, flags_append, flags_append]
    split <;> split <;> rfl
  · rw [hpolls, polls_append, polls_append]
    split <;> split <;> rfl

/-- Any number of acks. -/
theorem acked_times {c₀ : Context Unit} (h : AckedTimes 0 c₀) (n : Nat) :
    ∃ tr c, Run sendStep c₀ tr c ∧ AckedTimes n c := by
  induction n with
  | zero => exact ⟨[], c₀, .start, h⟩
  | succ n ih =>
    obtain ⟨tr, c, hrun, hc⟩ := ih
    obtain ⟨tr', c', hrun', hc', -⟩ := hc.step
    exact ⟨tr ++ tr', c', hrun.trans hrun', hc'⟩

/-- After `2 ^ 64 + 1` acks, two signaled messages are not polled for. -/
theorem signaling_unbalanced : ∃ c₁ c₀ tr c', Created ackWorker ∧
    ackWorker.initCtxSendWrs = .ok c₁ ∧ c₁.setUpQInfo = .ok c₀ ∧ Run sendStep c₀ tr c' ∧
    sends (c'.qpMeta 0).send.log = 2 ^ 64 + 1 ∧
    flags (c'.qpMeta 0).send.log = polls (c'.qpMeta 0).send.log + 2 := by
  obtain ⟨c₁, h₁⟩ : ∃ c₁, ackWorker.initCtxSendWrs = .ok c₁ := ⟨_, rfl⟩
  obtain ⟨c₀, h₀⟩ : ∃ c₀, c₁.setUpQInfo = .ok c₀ := by
    cases h₁
    exact ⟨_, rfl⟩
  have hstart : AckedTimes 0 c₀ := by
    have hready := ready_setUp ackWorker_created h₁ h₀
    cases h₁
    cases h₀
    exact ⟨hready, rfl, rfl, rfl⟩
  -- before the last message of the counter's range, one signaled message is outstanding
  obtain ⟨tr, c, hrun, hc⟩ := acked_times hstart (2 ^ 64 - 1)
  have hpending := (hc.ready.paced 0).pending (by rw [hc.sent]; decide)
  have hpace := hc.ready.paced 0
  have hss : (c.qpMeta 0).ssBatch = 127 := congrArg QpConf.ssBatch hc.conf
  have hwin : (c.qpMeta 0).window = 126 := congrArg QpConf.window hc.conf
  have htx : (c.qpMeta 0).send.sentTx = 2 ^ 64 - 1 := by
    rw [hpace.tx, hc.sent]
    rfl
  rw [hss, hwin, htx, if_pos (by decide)] at hpending
  -- that message is neither flagged nor polled for, and the next one is flagged
  obtain ⟨tr', c', hrun', hc', hflags', hpolls'⟩ := hc.step
  obtain ⟨tr'', c'', hrun'', hc'', hflags'', hpolls''⟩ := hc'.step
  rw [if_neg (by decide)] at hflags' hpolls'
  rw [if_pos (by decide)] at hflags''
  rw [if_neg (by decide)] at hpolls''
  refine ⟨c₁, c₀, _, c'', ackWorker_created, h₁, h₀, (hrun.trans hrun').trans hrun'', hc''.sent, ?_⟩
  omega

end Odyssey
