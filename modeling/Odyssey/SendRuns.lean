/-
  RUNS OF A CONTEXT THAT SENDS.

  A worker creates its QPs, writes all send work requests (`initCtxSendWrs`), sets up the `q_info`
  (`setUpQInfo`), and then calls `check_bcast_credits` and the send paths in any order.  Between two
  calls the rest of the program works on the same context: it inserts messages and acks, handles
  acks that return credits, posts and polls receives.  Nothing in this file depends on how, so
  the command `around` replaces the credits, the FIFOs, the acks and the receives of every QP by
  anything.

  `Ready` is the invariant of these runs.  It says, of every broadcast QP that shares the `q_info`,
  that its work requests are linked for the machines that are active now, and of every QP, that its
  signaling is in pace.
-/
import Odyssey.Batches
import Odyssey.Lib.Runs

namespace Odyssey

open Lib

variable {cl : Cluster}

/-! ## check_bcast_credits and the links -/

/-- **Relinking** links the work requests of every QP in `send_wrs_ptrs`. -/
theorem relink_linked {r r' : Reconf} (hfit : cl.remMachNum < 2 ^ 8)
    (h : r.relink cl = .ok r') :
    (∀ qp ∈ r.qInfo.sharing, Linked cl (r.qInfo.activeRmIds cl) (r'.queue qp)) ∧
      ∀ qp, Relinks (r.queue qp) (r'.queue qp) := by
  obtain ⟨-, hlinked, hrel⟩ : r'.qInfo = r.qInfo ∧
      (∀ i, i < r.qInfo.numOfSendWrs →
        Linked cl (r.qInfo.activeRmIds cl) (r'.queue (r.qInfo.sendWrsPtrs i))) ∧
      ∀ qp, Relinks (r.queue qp) (r'.queue qp) := by
    refine foldlM_range_rule (P := fun n (t : Reconf) => t.qInfo = r.qInfo ∧
      (∀ i, i < n → Linked cl (r.qInfo.activeRmIds cl) (t.queue (r.qInfo.sendWrsPtrs i))) ∧
      ∀ qp, Relinks (r.queue qp) (t.queue qp)) _
      ⟨rfl, fun i hi => absurd hi (Nat.not_lt_zero i), fun qp => Relinks.refl _⟩ ?_ h
    rintro n t t' - ⟨hq, hlinked, hrel⟩ hround
    obtain ⟨s, hs, hround⟩ := bind_eq_ok.mp hround
    cases hround
    rw [hq] at hs
    obtain ⟨hnew, hrel'⟩ := updateBcastWrLinks_linked hfit hs
    refine ⟨hq, ?_, ?_⟩ <;> rw [hq]
    · intro i hi
      show Linked cl _ (Function.update t.queue (r.qInfo.sendWrsPtrs n) s (r.qInfo.sendWrsPtrs i))
      by_cases hsame : r.qInfo.sendWrsPtrs i = r.qInfo.sendWrsPtrs n
      · rw [hsame, Function.update_self]
        exact hnew
      · rw [Function.update_of_ne hsame]
        refine hlinked i ?_
        by_contra hge
        have hin : i = n := by omega
        exact hsame (by rw [hin])
    · intro qp
      show Relinks _ (Function.update t.queue (r.qInfo.sendWrsPtrs n) s qp)
      by_cases hsame : qp = r.qInfo.sendWrsPtrs n
      · rw [hsame, Function.update_self]
        exact (hrel _).trans hrel'
      · rw [Function.update_of_ne hsame]
        exact hrel qp
  refine ⟨fun qp hqp => ?_, hrel⟩
  obtain ⟨i, hi, rfl⟩ := mem_filled.mp hqp
  exact hlinked i hi

/-- The QPs that share the `q_info` are the same, and their links follow its membership. -/
structure Follow (cl : Cluster) (r r' : Reconf) : Prop where
  pointers : r'.qInfo.pointers = r.qInfo.pointers
  linked : (∀ qp ∈ r.qInfo.sharing, Linked cl (r.qInfo.activeRmIds cl) (r.queue qp)) →
    ∀ qp ∈ r.qInfo.sharing, Linked cl (r'.qInfo.activeRmIds cl) (r'.queue qp)
  links : ∀ qp, Relinks (r.queue qp) (r'.queue qp)

theorem sharing_eq {q q' : QuorumInfo} (h : q'.pointers = q.pointers) :
    q'.sharing = q.sharing := by
  simp only [QuorumInfo.pointers, Prod.mk.injEq] at h
  rw [QuorumInfo.sharing, QuorumInfo.sharing, h.1, h.2.1]

namespace Follow

variable {r r' r'' : Reconf}

theorem refl (r : Reconf) : Follow cl r r := ⟨rfl, fun h => h, fun _ => Relinks.refl _⟩

theorem trans (h : Follow cl r r') (h' : Follow cl r' r'') : Follow cl r r'' := by
  have hsh := sharing_eq h.pointers
  refine ⟨h'.pointers.trans h.pointers, fun hl => ?_, fun qp => (h.links qp).trans (h'.links qp)⟩
  have hl' := h.linked hl
  rw [← hsh] at hl' ⊢
  exact h'.linked hl'

/-- A new membership, then new links. -/
theorem relink {q : QuorumInfo} {cnt : Nat} (hfit : cl.remMachNum < 2 ^ 8)
    (hptr : q.pointers = r.qInfo.pointers)
    (h : (⟨q, r.queue, cnt⟩ : Reconf).relink cl = .ok r') : Follow cl r r' := by
  obtain ⟨hlinked, hrel⟩ := relink_linked hfit h
  obtain ⟨hq, -⟩ := relink_eq h
  refine ⟨by rw [hq]; exact hptr, fun _ => ?_, hrel⟩
  rw [← sharing_eq hptr, hq]
  exact hlinked

end Follow

/-- **`check_bcast_credits` leaves the links as the membership has them**, whatever it does. -/
theorem checkBcastCredits_follow {creditsOf : Nat → Nat → UInt16} {credits : Nat → UInt16}
    {minCredits : UInt16} {r r' : Reconf} {answer : Option UInt16} {up : Nat → Bool}
    (hfit : cl.remMachNum < 2 ^ 8) (ha : Agrees cl up r.qInfo)
    (h : checkBcastCredits cl creditsOf credits minCredits r = .ok (r', answer)) :
    Follow cl r r' := by
  rcases checkBcastCredits_cases h with ⟨cnt, rfl, -⟩ | ⟨q, r₁, hq, hlink, rfl, -⟩ | ⟨-, hloop, -⟩
  · exact ⟨rfl, fun h => h, fun _ => Relinks.refl _⟩
  · obtain ⟨-, hptr⟩ := updateQInfo_agrees hq
    have hf := Follow.relink (r := r) hfit hptr hlink
    exact ⟨hf.pointers, hf.linked, hf.links⟩
  · obtain ⟨-, -, hf⟩ : ∃ up', Agrees cl up' r'.qInfo ∧ Follow cl r r' := by
      refine foldlM_range_rule (P := fun _ (t : Reconf) =>
        ∃ up', Agrees cl up' t.qInfo ∧ Follow cl r t) (s := { r with timeOutCnt := 0 }) _
        ⟨up, ha, ⟨rfl, fun h => h, fun _ => Relinks.refl _⟩⟩ ?_ hloop
      rintro i t t' - ⟨up', ha', hf⟩ hround
      rcases reviveRound_cases hround with rfl | ⟨m, q, hmiss, -, hrev, hlink⟩
      · exact ⟨up', ha', hf⟩
      · obtain ⟨hq, -⟩ := relink_eq hlink
        obtain ⟨ha'', hptr⟩ := reviveMachine_agrees hfit ha' (ha'.missing_remote hmiss) hrev
        refine ⟨_, by rw [hq]; exact ha'', hf.trans (Follow.relink hfit hptr hlink)⟩
    exact hf

/-! ## check_bcast_credits does not wait -/

theorem forPure_proceeds {σ : Type} (w n : Nat) (body : σ → Nat → σ) (s : σ) :
    Ends Proceeds (forPure w n body s) fun _ => True := by
  unfold forPure
  split
  · trivial
  · exact ⟨by decide, by decide⟩

theorem relink_proceeds (r : Reconf) : Ends Proceeds (r.relink cl) fun _ => True := by
  refine Ends.foldlM (P := fun _ _ => True) _ trivial fun i t _ _ => ?_
  have hlinks : Ends Proceeds (updateBcastWrLinks cl t.qInfo (t.queue (t.qInfo.sendWrsPtrs i)))
      fun _ => True := by
    unfold updateBcastWrLinks
    exact (forPure_proceeds _ _ _ _).bind fun _ _ => trivial
  exact hlinks.bind fun _ _ => trivial

theorem checkBcastCredits_proceeds (creditsOf : Nat → Nat → UInt16) (credits : Nat → UInt16)
    (minCredits : UInt16) (r : Reconf) :
    Ends Proceeds (checkBcastCredits cl creditsOf credits minCredits r) fun _ => True := by
  unfold checkBcastCredits
  split
  · dsimp only
    split
    · have hupdate : Ends Proceeds (updateQInfo cl r.qInfo credits minCredits) fun _ => True := by
        unfold updateQInfo
        exact (forPure_proceeds _ _ _ _).bind fun _ _ => trivial
      refine hupdate.bind fun q _ => ?_
      exact (relink_proceeds _).bind fun _ _ => trivial
    · trivial
  · refine Ends.bind (P := fun _ => True) ?_ fun r' _ => ?_
    · refine Ends.foldlM (P := fun _ _ => True) _ trivial fun i t _ _ => ?_
      unfold Reconf.reviveRound
      split
      · have hrevive : Ends Proceeds (reviveMachine cl t.qInfo (t.qInfo.missingIds i))
            fun _ => True := by
          unfold reviveMachine
          refine (forPure_proceeds _ _ _ _).bind fun q _ => ?_
          split
          · exact ⟨by decide, by decide⟩
          · trivial
        exact hrevive.bind fun q _ => relink_proceeds _
      · trivial
    · split <;> trivial

/-! ## The system -/

variable {μ : Type}

/-- The rest of a QP, which the other parts of the program change between two sends. -/
structure Around (μ : Type) where
  credits : Nat → UInt16
  sendFifo : Nat → Fifo
  acks : Nat → CtxAckMes
  recv : RecvQueue μ

/-- What can happen next in a worker. -/
inductive SendCmd (μ : Type)
  | checkCredits (qp : Nat) (minCredits : UInt16)
  | sendBroadcasts (qp : Nat)
  | sendUnicasts (qp : Nat)
  | sendAcks (qp : Nat)
  | around (rest : Nat → Around μ)

/-- The flow types that send unicasts. -/
def FlowType.sendsUnicasts (flowType : FlowType) : Bool :=
  !flowType.isBroadcast && flowType != .recvCredits

/-- A step.  Broadcasts are for the broadcast QPs that share the `q_info`, unicasts and acks for
    the QPs of the context with such a flow. -/
def sendStep (c : Context μ) : SendCmd μ → Outcome (Context μ × Unit)
  | .checkCredits qp minCredits =>
    if qp ∈ c.qInfo.sharing then do
      let (c, _) ← c.checkCredits qp minCredits
      return (c, ())
    else .error .disabled
  | .sendBroadcasts qp =>
    if qp ∈ c.qInfo.sharing then do
      let c ← c.ctxSendBroadcasts qp
      return (c, ())
    else .error .disabled
  | .sendUnicasts qp =>
    if qp < c.qpNum ∧ (c.qpMeta qp).flowType.sendsUnicasts = true then do
      let c ← c.ctxSendUnicasts qp
      return (c, ())
    else .error .disabled
  | .sendAcks qp =>
    if qp < c.qpNum ∧ (c.qpMeta qp).flowType = .sendAckRecvAck then do
      let c ← c.odSendAcks qp
      return (c, ())
    else .error .disabled
  | .around rest =>
    .ok ({ c with qpMeta := fun qp => { c.qpMeta qp with
      credits := (rest qp).credits
      sendFifo := (rest qp).sendFifo
      acks := (rest qp).acks
      recv := (rest qp).recv } }, ())

/-- The QPs as `create_per_qp_meta` leaves them: the batch for selective signaling is computed,
    and nothing is sent. -/
structure Created (c : Context μ) : Prop where
  ssBatch : ∀ qp, (c.qpMeta qp).ssBatch = qpMetaSsBatch (c.qpMeta qp).flowType
    (c.qpMeta qp).receipientNum (c.qpMeta qp).sendWrNum
  sentTx : ∀ qp, (c.qpMeta qp).send.sentTx = 0
  log : ∀ qp, (c.qpMeta qp).send.log = []

/-! ## The invariant -/

/-- How long after a flagged message its completion is polled for. -/
def QpConf.window (m : QpConf) : Nat :=
  if m.flowType.isBroadcast then m.ssBatch - 2 else m.ssBatch - 1

/-- A broadcast QP that shares the `q_info`: its work requests are linked for the machines that
    are active now, and it is not in the middle of a batch. -/
structure BcastReady (cl : Cluster) (q : QuorumInfo) (m : PerQpMeta μ) : Prop where
  bcast : m.flowType.isBroadcast = true
  room : 4 * cl.remMachNum ≤ m.sendWrNum
  building : Building cl q 0 false m.send

structure Ready (c : Context μ) : Prop where
  fit : c.cl.remMachNum < 2 ^ 8
  agrees : ∃ up, Agrees c.cl up c.qInfo
  ssBatch : ∀ qp, (c.qpMeta qp).ssBatch = qpMetaSsBatch (c.qpMeta qp).flowType
    (c.qpMeta qp).receipientNum (c.qpMeta qp).sendWrNum
  bcasts : ∀ qp ∈ c.qInfo.sharing, BcastReady c.cl c.qInfo (c.qpMeta qp)
  unicasts : ∀ qp, qp < c.qpNum → (c.qpMeta qp).flowType.sendsUnicasts = true →
    (c.qpMeta qp).sendWrNum < 2 ^ 16
  paced : ∀ qp, Paced (c.qpMeta qp).ssBatch (c.qpMeta qp).window 0 false (c.qpMeta qp).send

namespace Ready

variable {c c' : Context μ} {qp : Nat}

/-- The margin of a broadcast QP. -/
theorem bcast_margin (h : Ready c) (hb : (c.qpMeta qp).flowType.isBroadcast = true) :
    maxBcastBatch + 2 ≤ (c.qpMeta qp).ssBatch := by
  rw [h.ssBatch qp]
  generalize (c.qpMeta qp).flowType = ft at hb
  cases ft <;> first | exact absurd hb (by decide) | exact Nat.le_max_right ..

/-- The margin of a unicast or ack QP. -/
theorem uni_margin (h : Ready c) (hqp : qp < c.qpNum)
    (hu : (c.qpMeta qp).flowType.sendsUnicasts = true) :
    (c.qpMeta qp).sendWrNum + 2 ≤ (c.qpMeta qp).ssBatch := by
  have hsmall := h.unicasts qp hqp hu
  have hfit : u32 ((c.qpMeta qp).sendWrNum + 2) = (c.qpMeta qp).sendWrNum + 2 :=
    u32_of_lt (by omega)
  rw [h.ssBatch qp]
  generalize (c.qpMeta qp).flowType = ft at hu
  cases ft <;> first
    | exact absurd hu (by decide)
    | exact Nat.le_trans (Nat.le_of_eq hfit.symm) (Nat.le_max_right ..)

theorem window_bcast {m : QpConf} (hb : m.flowType.isBroadcast = true) :
    m.window = m.ssBatch - 2 := if_pos hb

theorem window_uni {m : QpConf} (hu : m.flowType.sendsUnicasts = true) :
    m.window = m.ssBatch - 1 := by
  refine if_neg fun hb => ?_
  rw [FlowType.sendsUnicasts, hb] at hu
  nomatch hu

/-- A call changed the queue of one QP and left it ready. -/
theorem frame (h : Ready c) (hf : Frame qp c c')
    (hb : qp ∈ c.qInfo.sharing → BcastReady c.cl c.qInfo (c'.qpMeta qp))
    (hp : Paced (c.qpMeta qp).ssBatch (c.qpMeta qp).window 0 false (c'.qpMeta qp).send) :
    Ready c' := by
  refine ⟨by rw [hf.cl]; exact h.fit, by rw [hf.cl, hf.qInfo]; exact h.agrees, fun i => ?_,
    fun i hi => ?_, fun i hi hu => ?_, fun i => ?_⟩
  · rw [hf.conf i]
    exact h.ssBatch i
  · rw [hf.qInfo] at hi ⊢
    rw [hf.cl]
    by_cases hiq : i = qp
    · subst hiq
      exact hb hi
    · have hold := h.bcasts i hi
      refine ⟨by rw [hf.conf i]; exact hold.bcast, by rw [hf.conf i]; exact hold.room, ?_⟩
      rw [hf.send i hiq]
      exact hold.building
  · rw [hf.conf i] at hu ⊢
    exact h.unicasts i (by rw [← hf.qpNum]; exact hi) hu
  · rw [hf.conf i]
    by_cases hiq : i = qp
    · subst hiq
      exact hp
    · rw [hf.send i hiq]
      exact h.paced i

/-- `check_bcast_credits` reconfigures the broadcast QPs, and sends nothing. -/
theorem checkCredits (h : Ready c) (qp : Nat) (minCredits : UInt16) :
    Ends Proceeds (c.checkCredits qp minCredits) fun p => Ready p.1 ∧ p.1.cl = c.cl ∧
      p.1.qInfo.sharing = c.qInfo.sharing ∧
      (∀ i, (p.1.qpMeta i).send.log = (c.qpMeta i).send.log) ∧
      (p.2.isSome = true → p.1.cl.remoteQuorum ≤ p.1.qInfo.activeNum) := by
  unfold Context.checkCredits
  refine Ends.bind (P := fun p => checkBcastCredits c.cl (fun qp m => (c.qpMeta qp).credits m)
    (c.qpMeta qp).credits minCredits (c.reconf qp) = .ok p) (Ends.intro (fun p hp => hp) ?_) ?_
  · intro e he
    exact (checkBcastCredits_proceeds _ _ _ _).of_error he
  · rintro ⟨r, answer⟩ hcheck
    obtain ⟨up, ha⟩ := h.agrees
    obtain ⟨up', ha', hptr⟩ := checkBcastCredits_agrees (r := c.reconf qp) h.fit ha hcheck
    have hfollow := checkBcastCredits_follow (r := c.reconf qp) h.fit ha hcheck
    have hsh : r.qInfo.sharing = c.qInfo.sharing := sharing_eq hptr
    have hlinked := hfollow.linked fun i hi => (h.bcasts i hi).building.linked
    refine Ends.ok ⟨⟨h.fit, ⟨up', ha'⟩, h.ssBatch, fun i hi => ?_, h.unicasts, fun i => ?_⟩,
      rfl, hsh, fun i => (hfollow.links i).log, fun hsome => ?_⟩
    · have hi' : i ∈ c.qInfo.sharing := by
        rw [← hsh]
        exact hi
      have hold := h.bcasts i hi'
      exact ⟨hold.bcast, hold.room, hold.building.relink (hlinked i hi') (hfollow.links i)⟩
    · exact (h.paced i).congr (hfollow.links i).tx (hfollow.links i).log
    · obtain ⟨n, rfl⟩ := Option.isSome_iff_exists.mp hsome
      exact (checkBcastCredits_true (r := c.reconf qp) h.fit ha hcheck).1

/-- **Every batch that `ctx_send_broadcasts` posts goes to the active machines**, and the call
    does not wait for a message that is not posted. -/
theorem sendBroadcasts (h : Ready c) (hqp : qp ∈ c.qInfo.sharing) :
    Ends Proceeds (c.ctxSendBroadcasts qp) fun c' => Ready c' ∧
      ∃ new, posts (c'.qpMeta qp).send.log = posts (c.qpMeta qp).send.log ++ new ∧
        ∀ p ∈ new, Broadcasts c'.cl c'.qInfo p.1 p.2 := by
  have hnone : ∀ c' : Context μ, Ready c' →
      (∀ i, (c'.qpMeta i).send.log = (c.qpMeta i).send.log) → Ready c' ∧
      ∃ new, posts (c'.qpMeta qp).send.log = posts (c.qpMeta qp).send.log ++ new ∧
        ∀ p ∈ new, Broadcasts c'.cl c'.qInfo p.1 p.2 := by
    intro c' hr hlog
    exact ⟨hr, [], by rw [hlog, List.append_nil], fun _ hp => nomatch hp⟩
  unfold Context.ctxSendBroadcasts
  split
  · exact Ends.ok (hnone c h fun _ => rfl)
  · refine (h.checkCredits qp 1).bind ?_
    rintro ⟨c₁, answer⟩ ⟨h₁, hcl, hsh, hlog, hquorum⟩
    cases answer with
    | none => exact Ends.ok (hnone c₁ h₁ hlog)
    | some availableCredits =>
      rw [← hsh] at hqp
      have hready := h₁.bcasts qp hqp
      have hmargin := h₁.bcast_margin hready.bcast
      have hcan : CanBroadcast c₁ qp :=
        ⟨h₁.fit, h₁.agrees, hquorum rfl, hready.room, hmargin⟩
      have hpace := h₁.paced qp
      rw [window_bcast hready.bcast] at hpace
      have hstart := InBatch.start hready.building hpace
      refine (hstart.loop hcan availableCredits.toNat 0 (by decide)).bind ?_
      rintro ⟨c₂, brI, mesSent⟩ ⟨h₂, hlt⟩
      -- what is left of the batch is posted
      have hlast : Ends Proceeds
          (if 0 < brI then c₂.postQuorumBroadcastsAndRecvs qp brI else pure c₂)
          (InBatch qp c₁ 0) := by
        by_cases hpos : 0 < brI
        · rw [if_pos hpos]
          exact h₂.post hcan hpos (Nat.le_of_lt hlt)
        · rw [if_neg hpos]
          have hzero : brI = 0 := by omega
          subst hzero
          exact Ends.ok h₂
      refine hlast.bind fun c₃ h₃ => ?_
      have hdone : ∀ c' : Context μ, InBatch qp c₁ 0 c' → Ready c' ∧
          ∃ new, posts (c'.qpMeta qp).send.log = posts (c.qpMeta qp).send.log ++ new ∧
            ∀ p ∈ new, Broadcasts c'.cl c'.qInfo p.1 p.2 := by
        intro c' h'
        obtain ⟨⟨flagged, hidle, hbuild, hpace'⟩, new, hposts, hnew⟩ := h'.batch
        rw [hidle rfl] at hbuild hpace'
        refine ⟨h₁.frame h'.frame (fun _ => ⟨?_, ?_, hbuild⟩) ?_, new, ?_, ?_⟩
        · rw [h'.frame.conf qp]
          exact hready.bcast
        · rw [h'.sendWrNum_eq]
          exact hready.room
        · rw [window_bcast hready.bcast]
          exact hpace'
        · rw [hposts, hlog]
        · rw [h'.frame.cl, h'.frame.qInfo]
          exact hnew
      split
      · exact Ends.ok (hdone _ (h₃.congr (Frame.modify rfl (Or.inl rfl))
          (by simp [Context.setCredits])))
      · exact Ends.ok (hdone _ h₃)

/-- **Every step keeps the invariant**, and none waits for a message that is not posted. -/
theorem step (h : Ready c) (k : SendCmd μ) :
    Ends Proceeds (sendStep c k) fun p => Ready p.1 := by
  cases k with
  | checkCredits qp minCredits =>
    rw [sendStep]
    split
    · refine (h.checkCredits qp minCredits).bind ?_
      rintro ⟨c', answer⟩ ⟨h', -⟩
      exact Ends.ok h'
    · exact ⟨by decide, by decide⟩
  | sendBroadcasts qp =>
    rw [sendStep]
    split
    · rename_i hqp
      exact (h.sendBroadcasts hqp).bind fun c' h' => Ends.ok h'.1
    · exact ⟨by decide, by decide⟩
  | sendUnicasts qp =>
    rw [sendStep]
    split
    · rename_i hguard
      obtain ⟨hqp, hu⟩ := hguard
      have hpace := h.paced qp
      rw [window_uni hu] at hpace
      refine (ctxSendUnicasts_ends (h.uni_margin hqp hu) hpace).bind ?_
      rintro c' ⟨hf, hpace'⟩
      rw [← window_uni hu] at hpace'
      refine Ends.ok (h.frame hf (fun hsh => ?_) hpace')
      rw [FlowType.sendsUnicasts, (h.bcasts qp hsh).bcast] at hu
      cases hu
    · exact ⟨by decide, by decide⟩
  | sendAcks qp =>
    rw [sendStep]
    split
    · rename_i hguard
      obtain ⟨hqp, hft⟩ := hguard
      have hu : (c.qpMeta qp).flowType.sendsUnicasts = true := by
        rw [hft]
        rfl
      have hpace := h.paced qp
      rw [window_uni hu] at hpace
      refine (odSendAcks_ends (h.uni_margin hqp hu) hpace).bind ?_
      rintro c' ⟨hsent, hpace'⟩
      rw [← window_uni hu] at hpace'
      refine Ends.ok (h.frame hsent.frame (fun hsh => ?_) hpace')
      rw [FlowType.sendsUnicasts, (h.bcasts qp hsh).bcast] at hu
      cases hu
    · exact ⟨by decide, by decide⟩
  | around rest =>
    refine Ends.ok ⟨h.fit, h.agrees, h.ssBatch, fun i hi => ?_, h.unicasts, h.paced⟩
    have hold := h.bcasts i hi
    exact ⟨hold.bcast, hold.room, hold.building⟩

end Ready

/-! ## The start -/

/-- The QPs that share the `q_info` are broadcast QPs of the context. -/
theorem ctxSetUpQInfo_sharing {bcasts : List (Nat × UInt16)} {q : QuorumInfo} {qp : Nat}
    (h : ctxSetUpQInfo cl bcasts = .ok q) (hqp : qp ∈ q.sharing) :
    ∃ credits, (qp, credits) ∈ bcasts := by
  obtain ⟨q', hloop, h⟩ := bind_eq_ok.mp h
  have hnum : q'.numOfSendWrs = u8 bcasts.length :=
    forPure_rule (fun _ (t : QuorumInfo) => t.numOfSendWrs = u8 bcasts.length) hloop rfl
      fun _ _ _ ih => ih
  split at h
  · rename_i hzero
    cases h
    rw [QuorumInfo.sharing, hzero] at hqp
    nomatch hqp
  · split at h
    · nomatch h
    · rename_i hall
      cases h
      obtain ⟨b, hb, rfl⟩ := mem_filled.mp hqp
      have hlt : b < bcasts.length := by
        have hle : u8 bcasts.length ≤ bcasts.length := Nat.mod_le ..
        have hb' : b < q'.numOfSendWrs := hb
        omega
      refine ⟨(bcasts.getD b (0, 0)).2, ?_⟩
      show bcasts.getD b (0, 0) ∈ bcasts
      rw [List.getD_eq_getElem?_getD, List.getElem?_eq_getElem hlt, Option.getD_some]
      exact List.getElem_mem hlt

/-- Setting up the work requests of a QP sends nothing. -/
theorem initQpSendWrs_keeps {c : Context μ} {m : PerQpMeta μ} {s : SendQueue}
    (hfit : c.cl.remMachNum < 2 ^ 8) (h : c.initQpSendWrs m = .ok s) :
    s.sentTx = m.send.sentTx ∧ s.log = m.send.log ∧
      (m.flowType.sendsUnicasts = true → m.sendWrNum < 2 ^ 16) ∧
      (m.flowType.isBroadcast = true → c.initBcastWrs m = .ok s) := by
  have hloop : ∀ (sgl : Nat → Nat) (last : Nat → Bool) (rm : Nat → Nat),
      forPure 16 m.sendWrNum (fun s wrI => Context.constSetUpWr m s wrI (sgl wrI) (last wrI)
        (rm wrI)) m.send = .ok s →
      s.sentTx = m.send.sentTx ∧ s.log = m.send.log ∧ m.sendWrNum < 2 ^ 16 := by
    intro sgl last rm hs
    have hkeep : s.sentTx = m.send.sentTx ∧ s.log = m.send.log :=
      forPure_rule (fun _ (t : SendQueue) => t.sentTx = m.send.sentTx ∧ t.log = m.send.log) hs
        ⟨rfl, rfl⟩ fun _ _ _ ih => ih
    exact ⟨hkeep.1, hkeep.2, (forPure_eq_ok.mp hs).1⟩
  unfold Context.initQpSendWrs at h
  -- a flow that broadcasts, one that only receives, or one that sends unicasts
  cases hft : m.flowType <;> rw [hft] at h
  case sendBcastLdrRecvUni | sendBcastRecvUni | sendBcastRecvBcast =>
    obtain ⟨-, htx, hlog, -⟩ := initBcastWrs_spec hfit h
    exact ⟨htx, hlog, (fun hu => absurd hu (by decide)), fun _ => h⟩
  case recvCredits =>
    cases h
    exact ⟨rfl, rfl, (fun hu => absurd hu (by decide)), fun hb => absurd hb (by decide)⟩
  case sendCreditsLdrRecvNone =>
    obtain ⟨htx, hlog, hnum⟩ := hloop (fun _ => 0) (fun _ => true) (fun _ => m.leaderMId) h
    exact ⟨htx, hlog, fun _ => hnum, fun hb => absurd hb (by decide)⟩
  case sendUniReqRecvLdrRep | sendUniRepRecvLdrBcast | sendUniRepToBcast
      | sendUniRepLdrRecvUniReq =>
    obtain ⟨htx, hlog, hnum⟩ := hloop id (fun i => i = m.sendWrNum - 1) (fun _ => m.leaderMId) h
    exact ⟨htx, hlog, fun _ => hnum, fun hb => absurd hb (by decide)⟩
  case sendUniRepRecvUniReq | sendUniRepRecvUniRep | sendUniReqRecvUniReq | sendAckRecvAck =>
    obtain ⟨htx, hlog, hnum⟩ := hloop id (fun i => i = m.sendWrNum - 1)
      (fun i => i % c.cl.machineNum) h
    exact ⟨htx, hlog, fun _ => hnum, fun hb => absurd hb (by decide)⟩

/-- What `init_ctx_send_wrs` leaves: the QPs of the context have their work requests. -/
theorem initCtxSendWrs_spec {c c' : Context μ} (h : c.initCtxSendWrs = .ok c') :
    c'.cl = c.cl ∧ c'.qpNum = c.qpNum ∧
      (∀ i, c.qpNum ≤ i → c'.qpMeta i = c.qpMeta i) ∧
      ∀ i, i < c.qpNum → ∃ s, c.initQpSendWrs (c.qpMeta i) = .ok s ∧
        c'.qpMeta i = { c.qpMeta i with send := s } := by
  refine foldlM_range_rule (P := fun n (t : Context μ) => t.cl = c.cl ∧ t.qpNum = c.qpNum ∧
    (∀ i, n ≤ i → t.qpMeta i = c.qpMeta i) ∧
    ∀ i, i < n → ∃ s, c.initQpSendWrs (c.qpMeta i) = .ok s ∧
      t.qpMeta i = { c.qpMeta i with send := s }) _
    ⟨rfl, rfl, fun _ _ => rfl, fun i hi => absurd hi (Nat.not_lt_zero i)⟩ ?_ h
  rintro n t t' - ⟨hcl, hnum, hrest, hdone⟩ hround
  obtain ⟨s, hs, hround⟩ := bind_eq_ok.mp hround
  cases hround
  rw [hrest n (Nat.le_refl n)] at hs
  have hs' : c.initQpSendWrs (c.qpMeta n) = .ok s := by
    rw [← hs]
    simp only [Context.initQpSendWrs, Context.initBcastWrs, hcl]
  refine ⟨hcl, hnum, fun i hi => ?_, fun i hi => ?_⟩
  · have hne : i ≠ n := by omega
    rw [← hrest i (by omega)]
    simp [Context.setSend, Context.modify, hne]
  · by_cases hin : i = n
    · subst hin
      refine ⟨s, hs', ?_⟩
      rw [← hrest i (Nat.le_refl i)]
      simp [Context.setSend]
    · obtain ⟨s', hs'', hold⟩ := hdone i (by omega)
      refine ⟨s', hs'', ?_⟩
      rw [← hold]
      simp [Context.setSend, Context.modify, hin]

/-- **After the set-up the context is ready.** -/
theorem ready_setUp {c c₁ c₀ : Context μ} (hnew : Created c) (hinit : c.initCtxSendWrs = .ok c₁)
    (hset : c₁.setUpQInfo = .ok c₀) : Ready c₀ := by
  obtain ⟨hcl, hnum, hrest, hdone⟩ := initCtxSendWrs_spec hinit
  obtain ⟨q, hq, hset⟩ := bind_eq_ok.mp hset
  cases hset
  obtain ⟨hfit, ha⟩ := ctxSetUpQInfo_agrees hq
  -- every QP keeps its configuration, and has sent nothing
  have hconf : ∀ i, (c₁.qpMeta i).toQpConf = (c.qpMeta i).toQpConf := by
    intro i
    by_cases hi : i < c.qpNum
    · obtain ⟨s, -, hm⟩ := hdone i hi
      rw [hm]
    · rw [hrest i (by omega)]
  have hsent : ∀ i, (c₁.qpMeta i).send.sentTx = 0 ∧ (c₁.qpMeta i).send.log = [] := by
    intro i
    by_cases hi : i < c.qpNum
    · obtain ⟨s, hs, hm⟩ := hdone i hi
      rw [hcl] at hfit
      obtain ⟨htx, hlog, -⟩ := initQpSendWrs_keeps hfit hs
      rw [hm]
      exact ⟨htx.trans (hnew.sentTx i), hlog.trans (hnew.log i)⟩
    · rw [hrest i (by omega)]
      exact ⟨hnew.sentTx i, hnew.log i⟩
  refine ⟨hfit, ⟨_, ha⟩, fun i => ?_, fun i hi => ?_, fun i hi hu => ?_, fun i =>
    Paced.start (hsent i).2 (hsent i).1⟩
  · show (c₁.qpMeta i).ssBatch = _
    rw [hconf i]
    exact hnew.ssBatch i
  · obtain ⟨credits, hmem⟩ := ctxSetUpQInfo_sharing hq hi
    obtain ⟨qp, hqp, heq⟩ := List.mem_map.mp hmem
    obtain ⟨hlt, hb⟩ := List.mem_filter.mp hqp
    have hqi : qp = i := congrArg Prod.fst heq
    subst hqi
    rw [List.mem_range, hnum] at hlt
    obtain ⟨s, hs, hm⟩ := hdone qp hlt
    have hfit' : c.cl.remMachNum < 2 ^ 8 := by
      rw [← hcl]
      exact hfit
    have hb' : (c.qpMeta qp).flowType.isBroadcast = true := by
      rw [← hconf qp]
      exact hb
    obtain ⟨-, -, -, hbcast⟩ := initQpSendWrs_keeps hfit' hs
    obtain ⟨hroom, -, -, hwrs⟩ := initBcastWrs_spec hfit' (hbcast hb')
    refine ⟨hb, ?_, ?_⟩
    · show 4 * c₁.cl.remMachNum ≤ (c₁.qpMeta qp).sendWrNum
      rw [hcl, hconf qp]
      exact hroom
    · show Building c₁.cl q 0 false (c₁.qpMeta qp).send
      rw [hm]
      rw [← hcl] at hwrs
      exact Building.init (fun rm hrm => ha.sendVector rm hrm) hwrs
  · show (c₁.qpMeta i).sendWrNum < 2 ^ 16
    have hi' : i < c.qpNum := by
      rw [← hnum]
      exact hi
    obtain ⟨s, hs, -⟩ := hdone i hi'
    rw [hcl] at hfit
    rw [hconf i]
    refine (initQpSendWrs_keeps hfit hs).2.2.1 ?_
    rw [← hconf i]
    exact hu

end Odyssey
