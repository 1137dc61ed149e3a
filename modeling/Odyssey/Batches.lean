/-
  THE SEND PATHS KEEP THEIR QUEUE.

  A call of a send path changes the send queue of one QP and, besides, its credits and FIFOs and
  the receives of the QP that gets the replies (`Frame`).  What it does to that queue:

  * `ctxSendBroadcasts` builds and posts batches of up to `maxBcastBatch` broadcasts
    (`BcastBatch`), each of which goes once to every active machine (`Broadcasts`);
  * `ctxSendUnicasts` builds and posts one batch of unicasts;
  * `odSendAcks` builds and posts one batch, of the pending acks.

  In all three, no poll waits for a message that is forged and not posted, and the NIC takes every
  chain: a call may fail on a FIFO or a receive queue that is out of order, but it ends in a way
  that `Proceeds` allows.
-/
import Odyssey.UnicastLinks

namespace Odyssey

open Lib

variable {μ : Type}

/-! ## What a call does not change -/

/-- The configuration, the membership and the send queues of the other QPs are as before. -/
structure Frame (qp : Nat) (c c' : Context μ) : Prop where
  cl : c'.cl = c.cl
  qpNum : c'.qpNum = c.qpNum
  qInfo : c'.qInfo = c.qInfo
  conf : ∀ i, (c'.qpMeta i).toQpConf = (c.qpMeta i).toQpConf
  send : ∀ i, i ≠ qp → (c'.qpMeta i).send = (c.qpMeta i).send

namespace Frame

variable {qp : Nat} {c c' c'' : Context μ}

theorem refl (c : Context μ) : Frame qp c c := ⟨rfl, rfl, rfl, fun _ => rfl, fun _ _ => rfl⟩

theorem trans (h : Frame qp c c') (h' : Frame qp c' c'') : Frame qp c c'' :=
  ⟨h'.cl.trans h.cl, h'.qpNum.trans h.qpNum, h'.qInfo.trans h.qInfo,
    fun i => (h'.conf i).trans (h.conf i), fun i hi => (h'.send i hi).trans (h.send i hi)⟩

/-- A change of one QP. -/
theorem modify {i : Nat} {f : PerQpMeta μ → PerQpMeta μ}
    (hconf : (f (c.qpMeta i)).toQpConf = (c.qpMeta i).toQpConf)
    (hsend : i = qp ∨ (f (c.qpMeta i)).send = (c.qpMeta i).send) : Frame qp c (c.modify i f) := by
  refine ⟨rfl, rfl, rfl, fun j => ?_, fun j hj => ?_⟩
  · by_cases hji : j = i
    · subst hji
      simpa [Context.modify] using hconf
    · simp [Context.modify, hji]
  · by_cases hji : j = i
    · subst hji
      rcases hsend with hq | hs
      · exact absurd hq hj
      · simpa [Context.modify] using hs
    · simp [Context.modify, hji]

end Frame

@[simp] theorem Context.qpMeta_modify_self (c : Context μ) (i : Nat)
    (f : PerQpMeta μ → PerQpMeta μ) : (c.modify i f).qpMeta i = f (c.qpMeta i) := by
  simp [Context.modify]

/-- New receives leave the send queues alone. -/
theorem Context.send_setRecv (c : Context μ) (i qp : Nat) (r : RecvQueue μ) :
    ((c.setRecv i r).qpMeta qp).send = (c.qpMeta qp).send := by
  by_cases h : qp = i
  · subst h
    simp [Context.setRecv, Context.modify]
  · simp [Context.setRecv, Context.modify, h]

/-! ## Posting receives -/

theorem postRecvs_proceeds (r : RecvQueue μ) (recvNum : Nat) :
    Ends Proceeds (r.postRecvsWithRecvInfo recvNum) fun _ => True := by
  unfold RecvQueue.postRecvsWithRecvInfo
  split
  · trivial
  · have hloop : Ends Proceeds (forPure 16 recvNum (fun (r : RecvQueue μ) _ =>
        { r with
          rq := r.rq ++ [r.recvInfo.pushPtr]
          recvInfo.pushPtr := modIncr32 r.recvInfo.pushPtr r.recvInfo.bufSlots }) r)
        fun _ => True := by
      unfold forPure
      split
      · trivial
      · exact ⟨by decide, by decide⟩
    refine hloop.bind fun r' _ => ?_
    split
    · trivial
    · exact ⟨by decide, by decide⟩

theorem recvsToPost_proceeds (r : RecvQueue μ) :
    Ends Proceeds r.recvsToPost fun _ => True := by
  unfold RecvQueue.recvsToPost
  split
  · exact ⟨by decide, by decide⟩
  · trivial

theorem refillRecvs_proceeds (r : RecvQueue μ) :
    Ends Proceeds r.ctxRefillRecvs fun _ => True := by
  refine (recvsToPost_proceeds r).bind fun recvNum _ => ?_
  split
  · exact postRecvs_proceeds r recvNum
  · trivial

theorem postQuorumRecvs_proceeds (r : RecvQueue μ) :
    Ends Proceeds r.postQuorumRecvs fun _ => True := by
  refine (recvsToPost_proceeds r).bind fun recvNum _ => ?_
  split
  · exact postRecvs_proceeds r recvNum
  · trivial

/-! ## Broadcasts -/

/-- A chain of `brI` broadcasts: one message of each, in order, to every active machine. -/
structure Broadcasts (cl : Cluster) (q : QuorumInfo) (brI : Nat) (chain : List Posted) : Prop where
  pos : 1 ≤ brI
  le : brI ≤ maxBcastBatch
  /-- the work requests that the links visit, up to NULL -/
  wrs : chain.map (·.wr) = (List.range brI).flatMap fun br =>
    ((List.range cl.remMachNum).filter q.sendVector).map (br * cl.remMachNum + ·)
  once : (chain.map (·.wr)).Nodup
  /-- which broadcast goes to which machine -/
  targets : chain.map (fun p => (p.sgList, p.ah)) =
    (List.range brI).flatMap fun br => q.active.map fun m => (br, m)
  missing : ∀ p ∈ chain, p.ah ∉ q.missing
  quorum : cl.remoteQuorum ≤ q.active.length

/-- A quorum of machines is up, and the QP is set up for broadcasts. -/
structure CanBroadcast (c : Context μ) (qp : Nat) : Prop where
  fit : c.cl.remMachNum < 2 ^ 8
  agrees : ∃ up, Agrees c.cl up c.qInfo
  quorum : c.cl.remoteQuorum ≤ c.qInfo.activeNum
  room : 4 * c.cl.remMachNum ≤ (c.qpMeta qp).sendWrNum
  margin : maxBcastBatch + 2 ≤ (c.qpMeta qp).ssBatch

theorem CanBroadcast.bounded {c : Context μ} {qp : Nat} (h : CanBroadcast c qp) :
    Bounded c.cl c.qInfo := by
  obtain ⟨up, ha⟩ := h.agrees
  exact ha.bounded h.fit h.quorum

/-- A posted batch goes to the active machines. -/
theorem Building.IsBatch.broadcasts {c : Context μ} {qp brI : Nat} {flagged : Bool}
    {chain : List Posted} (hc : CanBroadcast c qp)
    (b : Building.IsBatch c.cl c.qInfo brI flagged chain) (hpos : 0 < brI)
    (hle : brI ≤ maxBcastBatch) : Broadcasts c.cl c.qInfo brI chain := by
  obtain ⟨up, ha⟩ := hc.agrees
  have hact := ha.active_eq_map hc.fit
  have htargets : chain.map (fun p => (p.sgList, p.ah)) =
      (List.range brI).flatMap fun br => c.qInfo.active.map fun m => (br, m) := by
    rw [b.targets, hact]
    simp only [List.map_map]
    rfl
  have hlen : c.qInfo.active.length = c.qInfo.activeNum := length_filled ..
  refine ⟨hpos, hle, ?_, ?_, htargets, fun p hp hmiss => ?_, by rw [hlen]; exact hc.quorum⟩
  · rw [b.wrs, batch]
    refine List.flatMap_congr fun br _ => ?_
    rw [block, Nat.mul_comm]
    rfl
  · rw [b.wrs]
    exact batch_nodup ..
  · have hmem : (p.sgList, p.ah) ∈ chain.map (fun p => (p.sgList, p.ah)) :=
      List.mem_map.mpr ⟨p, hp, rfl⟩
    rw [htargets] at hmem
    obtain ⟨br, -, hbr⟩ := List.mem_flatMap.mp hmem
    obtain ⟨m, hm, heq⟩ := List.mem_map.mp hbr
    have hah : m = p.ah := congrArg Prod.snd heq
    rw [hah] at hm
    exact (ha.wellFormed hc.fit).disjoint _ hm hmiss

/-- A batch of `n` broadcasts under construction; since the log was `log`, only broadcasts to the
    active machines were posted. -/
structure BcastBatch (cl : Cluster) (q : QuorumInfo) (ssBatch : Nat) (log : List SendEvent)
    (n : Nat) (s : SendQueue) : Prop where
  forged : ∃ flagged, (n = 0 → flagged = false) ∧ Building cl q n flagged s ∧
    Paced ssBatch (ssBatch - 2) n flagged s
  posted : ∃ new, posts s.log = posts log ++ new ∧ ∀ p ∈ new, Broadcasts cl q p.1 p.2

/-- In the middle of `ctx_send_broadcasts`, called in `c₀`. -/
structure InBatch (qp : Nat) (c₀ : Context μ) (n : Nat) (c : Context μ) : Prop where
  frame : Frame qp c₀ c
  batch : BcastBatch c₀.cl c₀.qInfo (c₀.qpMeta qp).ssBatch (c₀.qpMeta qp).send.log n
    (c.qpMeta qp).send

namespace InBatch

variable {qp n : Nat} {c₀ c c' : Context μ}

theorem start (hb : Building c₀.cl c₀.qInfo 0 false (c₀.qpMeta qp).send)
    (hp : Paced (c₀.qpMeta qp).ssBatch ((c₀.qpMeta qp).ssBatch - 2) 0 false
      (c₀.qpMeta qp).send) : InBatch qp c₀ 0 c₀ :=
  ⟨Frame.refl c₀, ⟨⟨false, fun _ => rfl, hb, hp⟩, [], (List.append_nil _).symm,
    fun _ h => nomatch h⟩⟩

/-- What does not touch the send queue does no harm. -/
theorem congr (h : InBatch qp c₀ n c) (hframe : Frame qp c c')
    (hsend : (c'.qpMeta qp).send = (c.qpMeta qp).send) : InBatch qp c₀ n c' :=
  ⟨h.frame.trans hframe, by rw [hsend]; exact h.batch⟩

theorem ssBatch_eq (h : InBatch qp c₀ n c) :
    (c.qpMeta qp).ssBatch = (c₀.qpMeta qp).ssBatch := congrArg QpConf.ssBatch (h.frame.conf qp)

theorem sendWrNum_eq (h : InBatch qp c₀ n c) :
    (c.qpMeta qp).sendWrNum = (c₀.qpMeta qp).sendWrNum :=
  congrArg QpConf.sendWrNum (h.frame.conf qp)

/-- **Forging** one more broadcast: its poll does not wait. -/
theorem forge (hc : CanBroadcast c₀ qp) (h : InBatch qp c₀ n c) (hn : n < maxBcastBatch) :
    Ends Proceeds (c.ctxForgeBcastWr qp n) (InBatch qp c₀ (n + 1)) := by
  obtain ⟨⟨flagged, -, hbuild, hpace⟩, new, hposts, hnew⟩ := h.batch
  have hmargin := hc.margin
  have h4 : maxBcastBatch = 4 := rfl
  let sge : Sge := ⟨((c.qpMeta qp).sendFifo 0).getFifoPullSlot,
    (((c.qpMeta qp).sendFifo 0).getFifoSlotMetaPull).byteSize⟩
  let s := (c.qpMeta qp).send.setSge n sge
  have hs : s.sentTx = (c.qpMeta qp).send.sentTx := rfl
  have hmod := mod_incr (c₀.qpMeta qp).ssBatch (by omega) hpace.tx_lt
  -- polling is tested after the counter has moved
  have hpoll : u64 (s.sentTx + 1) % (c₀.qpMeta qp).ssBatch = (c₀.qpMeta qp).ssBatch - 1 →
      s.sentTx % (c₀.qpMeta qp).ssBatch = (c₀.qpMeta qp).ssBatch - 2 := by
    intro hp
    rw [hs, hmod] at hp
    rw [hs]
    split at hp <;> omega
  have hform : Ends Proceeds (s.formBcastLinks c₀.cl c₀.qInfo (c₀.qpMeta qp).ssBatch n)
      (Formed c₀.cl c₀.qInfo (c₀.qpMeta qp).ssBatch n s) :=
    formBcastLinks_ends s (Or.inr fun hp => hpace.ready (by omega) (hpoll hp))
  unfold Context.ctxForgeBcastWr
  dsimp only
  rw [h.frame.cl, h.frame.qInfo, h.ssBatch_eq]
  refine hform.bind fun s' hf => Ends.ok ?_
  refine ⟨h.frame.trans (Frame.modify rfl (Or.inl rfl)), ?_⟩
  have hsend : ((c.setSend qp s').qpMeta qp).send = s' := by simp [Context.setSend]
  rw [hsend]
  refine ⟨⟨_, fun h => absurd h (Nat.succ_ne_zero n), hbuild.forge hc.bounded hf, ?_⟩, new, ?_,
    hnew⟩
  · refine hpace.forge (decide (u64 (s.sentTx + 1) % (c₀.qpMeta qp).ssBatch
      = (c₀.qpMeta qp).ssBatch - 1)) (by omega) (by omega)
      (fun hp => hpoll (of_decide_eq_true hp)) (fun hw => ?_) hf.tx ?_
    · by_cases hwrap : (c.qpMeta qp).send.sentTx + 1 = 2 ^ 64
      · exact Or.inr hwrap
      · left
        rw [decide_eq_true_eq, hs, hmod, if_neg (by omega), hw]
        omega
    · rw [hf.log]
      simp only [decide_eq_true_eq]
      rfl
  · rw [hf.log, posts_append, posts_append, ← hposts]
    have hlog : s.log = (c.qpMeta qp).send.log := rfl
    rw [hlog]
    split <;> split <;> simp [posts]

/-- **Posting** the batch: it goes to the active machines. -/
theorem postSend (hc : CanBroadcast c₀ qp) (h : InBatch qp c₀ n c) (hpos : 0 < n)
    (hn : n ≤ maxBcastBatch) : ∃ s' chain, (c.qpMeta qp).send.postQuorumBroadcasts c.cl c.qInfo
        (c.qpMeta qp).sendWrNum n (c.qpMeta qp).enableInlining = .ok s' ∧
      Broadcasts c₀.cl c₀.qInfo n chain ∧
      posts s'.log = posts (c.qpMeta qp).send.log ++ [(n, chain)] ∧
      InBatch qp c₀ 0 (c.setSend qp s') := by
  obtain ⟨⟨flagged, -, hbuild, hpace⟩, new, hposts, hnew⟩ := h.batch
  obtain ⟨s', chain, hpost, hbuild', hbatch, htx, hlog⟩ :=
    hbuild.post (c.qpMeta qp).enableInlining hc.bounded hpos hn hc.room
  have hbcasts := hbatch.broadcasts hc hpos hn
  have hlog' : posts s'.log = posts (c.qpMeta qp).send.log ++ [(n, chain)] := by
    rw [hlog, posts_append]
    rfl
  refine ⟨s', chain, ?_, hbcasts, hlog', h.frame.trans (Frame.modify rfl (Or.inl rfl)), ?_⟩
  · rw [h.frame.cl, h.frame.qInfo, h.sendWrNum_eq]
    exact hpost
  · have hsend : ((c.setSend qp s').qpMeta qp).send = s' := by simp [Context.setSend]
    rw [hsend]
    refine ⟨⟨false, fun _ => rfl, hbuild', hpace.post hbatch.signaled htx hlog⟩,
      new ++ [(n, chain)], ?_, ?_⟩
    · rw [hlog', hposts, List.append_assoc]
    · intro p hp
      rcases List.mem_append.mp hp with hp | hp
      · exact hnew p hp
      · rw [List.mem_singleton] at hp
        subst hp
        exact hbcasts

/-- Before it posts the batch, the call tops up the receives. -/
theorem post (hc : CanBroadcast c₀ qp) (h : InBatch qp c₀ n c) (hpos : 0 < n)
    (hn : n ≤ maxBcastBatch) :
    Ends Proceeds (c.postQuorumBroadcastsAndRecvs qp n) (InBatch qp c₀ 0) := by
  unfold Context.postQuorumBroadcastsAndRecvs
  refine (postQuorumRecvs_proceeds _).bind fun r _ => ?_
  let c₁ := c.setRecv (c.qpMeta qp).recvQpId r
  have hsend₁ : (c₁.qpMeta qp).send = (c.qpMeta qp).send := Context.send_setRecv ..
  have h₁ : InBatch qp c₀ n c₁ := h.congr (Frame.modify rfl (Or.inr rfl)) hsend₁
  obtain ⟨s', chain, hpost, -, -, h'⟩ := h₁.postSend hc hpos hn
  dsimp only
  rw [hpost]
  exact Ends.ok h'

/-- One round. -/
theorem round (hc : CanBroadcast c₀ qp) (h : InBatch qp c₀ n c) (hn : n < maxBcastBatch) :
    Ends Proceeds (c.bcastRound qp n) fun p => InBatch qp c₀ p.2 p.1 ∧ p.2 < maxBcastBatch := by
  unfold Context.bcastRound
  refine (h.forge hc hn).bind fun c₁ h₁ => ?_
  have h₂ : InBatch qp c₀ (n + 1)
      (c₁.setFifo qp 0 ((c₁.qpMeta qp).sendFifo 0).fifoSendFromPullSlot) :=
    h₁.congr (Frame.modify rfl (Or.inl rfl)) (by simp [Context.setFifo])
  dsimp only
  split
  · exact (h₂.post hc (by omega) (by omega)).bind fun c₃ h₃ => Ends.ok ⟨h₃, show 0 < maxBcastBatch by decide⟩
  · exact Ends.ok ⟨h₂, by show n + 1 < maxBcastBatch; omega⟩

/-- **The loop**, whatever the credits and the FIFO. -/
theorem loop (hc : CanBroadcast c₀ qp) (credits mesSent : Nat) (h : InBatch qp c₀ n c)
    (hn : n < maxBcastBatch) :
    Ends Proceeds (Context.bcastLoop qp credits c n mesSent) fun p =>
      InBatch qp c₀ p.2.1 p.1 ∧ p.2.1 < maxBcastBatch := by
  induction credits generalizing c n mesSent with
  | zero => exact Ends.ok ⟨h, hn⟩
  | succ credits ih =>
    unfold Context.bcastLoop
    split
    · exact Ends.ok ⟨h, hn⟩
    · refine (h.round hc hn).bind ?_
      rintro ⟨c₁, n₁⟩ ⟨h₁, hn₁⟩
      exact ih (mesSent + 1) h₁ hn₁

end InBatch

/-! ## Unicasts -/

theorem ctxSendUnicasts_ends {c : Context μ} {qp : Nat}
    (hss : (c.qpMeta qp).sendWrNum + 2 ≤ (c.qpMeta qp).ssBatch)
    (hpace : Paced (c.qpMeta qp).ssBatch ((c.qpMeta qp).ssBatch - 1) 0 false
      (c.qpMeta qp).send) :
    Ends Proceeds (c.ctxSendUnicasts qp) fun c' => Frame qp c c' ∧
      Paced (c.qpMeta qp).ssBatch ((c.qpMeta qp).ssBatch - 1) 0 false (c'.qpMeta qp).send := by
  let m := c.qpMeta qp
  have hloop : Ends Proceeds ((List.range m.sendFifoNum).foldlM
      (fun (p : PerQpMeta μ × Nat) fifoI =>
        Context.unicastLoop fifoI (p.1.sendFifo fifoI).capacity p.1 p.2) (m, 0))
      fun p => p.1.toQpConf = m.toQpConf ∧
        UniBatch m.sendWrNum m.ssBatch m.send.log (List.range p.2) p.1.send := by
    refine Ends.foldlM (P := fun _ (p : PerQpMeta μ × Nat) => p.1.toQpConf = m.toQpConf ∧
      UniBatch m.sendWrNum m.ssBatch m.send.log (List.range p.2) p.1.send) _
      ⟨rfl, UniBatch.start hpace⟩ ?_
    rintro i ⟨m', mesI⟩ - ⟨hconf, hb⟩
    rw [← hconf] at hb
    refine (unicastLoop_ends i _ (by rw [hconf]; exact hss) hb).mono ?_
    rintro p ⟨hconf', hb'⟩
    rw [hconf] at hconf' hb'
    exact ⟨hconf', hb'⟩
  unfold Context.ctxSendUnicasts
  refine hloop.bind ?_
  rintro ⟨m', mesI⟩ ⟨hconf, hb⟩
  have hframe : Frame qp c (c.modify qp fun _ => m') := Frame.modify hconf (Or.inl rfl)
  dsimp only
  by_cases hmes : 0 < mesI
  · rw [if_pos hmes]
    refine (refillRecvs_proceeds _).bind fun r _ => ?_
    let c₁ := (c.modify qp fun _ => m').setRecv m'.recvQpId r
    have hsend₁ : (c₁.qpMeta qp).send = m'.send := by
      rw [Context.send_setRecv, Context.qpMeta_modify_self]
    have hframe₁ : Frame qp c c₁ := hframe.trans (Frame.modify rfl (Or.inr rfl))
    have hfirst : 0 ∈ (List.range mesI).head? := by
      cases mesI with
      | zero => exact absurd hmes (Nat.lt_irrefl 0)
      | succ k =>
        rw [List.range_succ_eq_map]
        rfl
    have hlast : mesI - 1 ∈ (List.range mesI).getLast? := by
      cases mesI with
      | zero => exact absurd hmes (Nat.lt_irrefl 0)
      | succ k =>
        rw [List.range_succ, List.getLast?_concat]
        rfl
    obtain ⟨s', hpost, -, hpace', -⟩ := hb.post hfirst hlast
    rw [List.length_range] at hpost
    rw [hsend₁, show m'.sendWrNum = m.sendWrNum from congrArg QpConf.sendWrNum hconf, hpost]
    refine Ends.ok ⟨hframe₁.trans (Frame.modify rfl (Or.inl rfl)), ?_⟩
    have hsend : ((c₁.setSend qp s').qpMeta qp).send = s' := by simp [Context.setSend]
    rw [hsend]
    exact hpace'
  · rw [if_neg hmes]
    refine Ends.ok ⟨hframe, ?_⟩
    have hzero : mesI = 0 := by omega
    subst hzero
    obtain ⟨⟨flagged, hchain, hpace'⟩, -⟩ := hb
    have hfl : flagged = false := by
      cases flagged with
      | false => rfl
      | true =>
        obtain ⟨a, ha, -⟩ := hchain.signaled rfl
        nomatch ha
    rw [Context.qpMeta_modify_self, ← hfl]
    exact hpace'

/-! ## Acks -/

/-- What `od_send_acks` does: the pending acks are posted, each once, and their slots are free
    again. -/
structure AcksSent (qp : Nat) (c c' : Context μ) : Prop where
  frame : Frame qp c c'
  acks : (c'.qpMeta qp).acks = rearmed (c.qpMeta qp).acks ((c.qpMeta qp).receipientNum + 1)
  keeps : Keeps (c.qpMeta qp).send (c'.qpMeta qp).send
  /-- the chains that are posted visit the slots of the pending acks -/
  posts : ∃ new, posts (c'.qpMeta qp).send.log = posts (c.qpMeta qp).send.log ++ new ∧
    (new.flatMap Prod.snd).map (fun p => (p.wr, p.ah, p.sge)) =
      (pendingAcks (c.qpMeta qp).acks ((c.qpMeta qp).receipientNum + 1)).map fun i =>
        (i, ((c.qpMeta qp).send.posted i).ah, ((c.qpMeta qp).send.posted i).sge)

theorem odSendAcks_ends {c : Context μ} {qp : Nat}
    (hss : (c.qpMeta qp).sendWrNum + 2 ≤ (c.qpMeta qp).ssBatch)
    (hpace : Paced (c.qpMeta qp).ssBatch ((c.qpMeta qp).ssBatch - 1) 0 false
      (c.qpMeta qp).send) :
    Ends Proceeds (c.odSendAcks qp) fun c' => AcksSent qp c c' ∧
      Paced (c.qpMeta qp).ssBatch ((c.qpMeta qp).ssBatch - 1) 0 false (c'.qpMeta qp).send := by
  let m := c.qpMeta qp
  unfold Context.odSendAcks
  refine (ackLoop_ends (m.receipientNum + 1) hss hpace).bind fun l b => ?_
  let c₁ := c.modify qp ({ · with acks := l.acks, send := l.send })
  have hframe₁ : Frame qp c c₁ := Frame.modify rfl (Or.inl rfl)
  have hacks₁ : (c₁.qpMeta qp).acks = rearmed m.acks (m.receipientNum + 1) := by
    show ((c.modify qp _).qpMeta qp).acks = _
    rw [Context.qpMeta_modify_self]
    exact b.acks_eq
  have hsend₁ : (c₁.qpMeta qp).send = l.send := by
    show ((c.modify qp _).qpMeta qp).send = _
    rw [Context.qpMeta_modify_self]
  dsimp only
  by_cases hnil : pendingAcks m.acks (m.receipientNum + 1) = []
  · rw [if_neg (by rw [b.ackI, hnil]; exact Nat.lt_irrefl 0)]
    obtain ⟨⟨flagged, hchain, hpace'⟩, hposts⟩ := b.batch
    refine Ends.ok ⟨⟨hframe₁, hacks₁, by rw [hsend₁]; exact b.keeps, [], ?_, ?_⟩, ?_⟩
    · rw [hsend₁, hposts, List.append_nil]
    · show _ = (pendingAcks m.acks (m.receipientNum + 1)).map _
      rw [hnil]
      rfl
    · have hfl : flagged = false := by
        cases flagged with
        | false => rfl
        | true =>
          obtain ⟨a, ha, -⟩ := hchain.signaled rfl
          rw [hnil] at ha
          nomatch ha
      rw [hsend₁, ← hfl]
      rw [hnil] at hpace'
      exact hpace'
  · rw [if_pos (by rw [b.ackI]; exact List.length_pos_of_ne_nil hnil)]
    refine (refillRecvs_proceeds _).bind fun r _ => ?_
    let c₂ := c₁.setRecv m.recvQpId r
    have hframe₂ : Frame qp c c₂ := hframe₁.trans (Frame.modify rfl (Or.inr rfl))
    have hsend₂ : (c₂.qpMeta qp).send = l.send := by
      rw [Context.send_setRecv, hsend₁]
    have hacks₂ : (c₂.qpMeta qp).acks = rearmed m.acks (m.receipientNum + 1) := by
      rw [← hacks₁]
      by_cases hq : qp = m.recvQpId
      · simp [c₂, Context.setRecv, Context.modify, ← hq]
      · simp [c₂, Context.setRecv, Context.modify, hq]
    obtain ⟨s', hpost, hkeeps, hpace', hposts⟩ := b.batch.post (b.first hnil) (b.last hnil)
    rw [hsend₂, b.ackI, hpost]
    have hsend : ((c₂.setSend qp s').qpMeta qp).send = s' := by simp [Context.setSend]
    let chain := (pendingAcks m.acks (m.receipientNum + 1)).map
      (l.send.setNext l.prevAckI none).posted
    refine Ends.ok ⟨⟨hframe₂.trans (Frame.modify rfl (Or.inl rfl)), ?_, ?_,
      [(chain.length, chain)], ?_, ?_⟩, ?_⟩
    · show ((c₂.setSend qp s').qpMeta qp).acks = _
      rw [← hacks₂]
      simp [Context.setSend]
    · rw [hsend]
      exact b.keeps.trans hkeeps
    · rw [hsend, hposts, List.length_map]
    · rw [List.flatMap_singleton, List.map_map]
      refine List.map_congr_left fun i _ => ?_
      obtain ⟨-, hah, hsge⟩ := (b.keeps.trans (Keeps.setNext l.send l.prevAckI none)).posted i
      show (i, _, _) = _
      rw [hah, hsge]
    · rw [hsend]
      exact hpace'

end Odyssey
