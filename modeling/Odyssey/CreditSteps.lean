/-
  THE CALLS KEEP THE CREDITS.

  Most steps of `ctx_send_broadcasts` and `od_send_acks` move no credit: they build a batch, take
  the credits of what was posted, mark the acks that are about to be sent, reconfigure, refill
  (`Rests`).  Two hand credits to the NIC, a batch of broadcasts and a batch of acks.

  For the bounds on the missing receives the order of each call counts.  The receives of acks are
  posted before the broadcasts whose credits come back in them, and the receives of messages
  before the acks that give their credits back.
-/
import Odyssey.CreditFlow

namespace Odyssey

open Lib

variable {b a machineNum i : Nat} {maxCredits : UInt16} {w w' : Worker} {c c' : Context Packet}

/-- The pending credits are those of the slot, while the ack pends. -/
theorem Worker.pend_congr {m : Nat} (hpends : w'.Pends a m ↔ w.Pends a m)
    (hcredits : ((w'.ctx.qpMeta a).acks m).credits = ((w.ctx.qpMeta a).acks m).credits) :
    w'.pend a m = w.pend a m := by
  unfold Worker.pend
  rw [hcredits]
  exact if_congr hpends rfl rfl

/-! ## Steps that move no credit -/

/-- Receives were posted, from either path that does it. -/
def Refilled {μ : Type} (r r' : RecvQueue μ) : Prop :=
  r.ctxRefillRecvs = .ok r' ∨ r.postQuorumRecvs = .ok r'

/-- The worker goes on.  Its receives may be refilled, and of the rest, what the two QPs have of
    credits stays. -/
structure Rests (b a : Nat) (w w' : Worker) : Prop where
  unhandled : w'.unhandled = w.unhandled
  cl : w'.ctx.cl = w.ctx.cl
  sharing : w'.ctx.qInfo.sharing = w.ctx.qInfo.sharing
  conf : ∀ qp, (w'.ctx.qpMeta qp).toQpConf = (w.ctx.qpMeta qp).toQpConf
  recv : ∀ qp, qp = b ∨ qp = a → (w'.ctx.qpMeta qp).recv = (w.ctx.qpMeta qp).recv ∨
    Refilled (w.ctx.qpMeta qp).recv (w'.ctx.qpMeta qp).recv
  credits_le : ∀ m, (w'.ctx.qpMeta b).credits m ≤ (w.ctx.qpMeta b).credits m
  left : ∀ m, w'.left b m = w.left b m
  mId : ∀ m, ((w'.ctx.qpMeta a).acks m).mId = ((w.ctx.qpMeta a).acks m).mId
  acks : ∀ m, ((w'.ctx.qpMeta a).acks m).credits = ((w.ctx.qpMeta a).acks m).credits
  pends : ∀ m, w'.Pends a m ↔ w.Pends a m

namespace Rests

theorem pend (h : Rests b a w w') (m : Nat) : w'.pend a m = w.pend a m :=
  Worker.pend_congr (h.pends m) (h.acks m)

/-- Nothing moved. -/
theorem moves (h : Rests b a w w') : Moves b a machineNum i w w' [] := by
  refine ⟨fun j _ => ?_, fun j _ => ?_, fun f hf => nomatch hf⟩
  · unfold Worker.owes Worker.arrived
    rw [h.left j, h.unhandled]
    rfl
  · unfold Worker.holds Worker.arrived
    rw [h.pend j, h.unhandled]
    rfl

theorem paired (h : Rests b a w w') (hp : PairedQps b a machineNum maxCredits i w.ctx) :
    PairedQps b a machineNum maxCredits i w'.ctx := hp.keeps h.cl h.sharing h.conf h.mId

/-- **The invariant** is kept, if the stage is right. -/
theorem keeps (h : Rests b a w w') (hw : WorkerInv b a machineNum maxCredits i w)
    (hstage : StageInv b a w'.ctx w'.stage) : WorkerInv b a machineNum maxCredits i w' := by
  have hbcast : RecvCounts (w'.ctx.qpMeta b).recv (w.unhandled b).length ∧
      (w'.ctx.qpMeta b).recv.missing ≤ (w.ctx.qpMeta b).recv.missing ∧
      (w'.ctx.qpMeta b).recv.recvWrNum = (w.ctx.qpMeta b).recv.recvWrNum := by
    rcases h.recv b (Or.inl rfl) with hsame | hrefill
    · rw [hsame]
      exact ⟨hw.bcastRecvs, Nat.le_refl _, rfl⟩
    · obtain ⟨hcounts, hnone, hnum⟩ := hw.bcastRecvs.refill hrefill
      exact ⟨hcounts, by rw [hnone]; exact Nat.zero_le _, hnum⟩
  have hack : RecvHolds (w'.ctx.qpMeta a).recv (w.unhandled a) ∧
      (w'.ctx.qpMeta a).recv.missing ≤ (w.ctx.qpMeta a).recv.missing ∧
      (w'.ctx.qpMeta a).recv.recvWrNum = (w.ctx.qpMeta a).recv.recvWrNum := by
    rcases h.recv a (Or.inr rfl) with hsame | hrefill
    · rw [hsame]
      exact ⟨hw.ackRecvs, Nat.le_refl _, rfl⟩
    · obtain ⟨hholds, hnone, hnum⟩ := hw.ackRecvs.refill hrefill
      exact ⟨hholds, by rw [hnone]; exact Nat.zero_le _, hnum⟩
  obtain ⟨hcounts, hbmissing, hbnum⟩ := hbcast
  obtain ⟨hholds, hamissing, hanum⟩ := hack
  refine ⟨h.paired hw.paired, hstage, fun j hj => ?_, fun j hj hpend => ?_, ?_, ?_, ?_, ?_, ?_, ?_,
    by rw [hbnum]; exact hw.bcastRoom, by rw [hanum]; exact hw.ackRoom⟩
  · exact UInt16.le_trans (h.credits_le j) (hw.credits_le j hj)
  · rw [h.pend j]
    exact hw.pends j hj ((h.pends j).mp hpend)
  · rw [h.unhandled]
    exact hcounts
  · rw [h.unhandled]
    exact hholds
  · rw [h.unhandled]
    exact hw.arrivedMes
  · rw [h.unhandled]
    exact hw.arrivedAcks
  · refine Nat.le_trans hbmissing (Nat.le_trans hw.bcastMissing ?_)
    exact Finset.sum_le_sum fun j _ => Nat.le_of_eq (h.pend j).symm
  · refine Nat.le_trans hamissing (Nat.le_trans hw.ackMissing ?_)
    exact Finset.sum_le_sum fun j _ => Nat.le_of_eq (h.left j).symm

end Rests

/-- The credits, the acks and the receives are as they were. -/
structure Untouched {μ : Type} (c c' : Context μ) : Prop where
  cl : c'.cl = c.cl
  sharing : c'.qInfo.sharing = c.qInfo.sharing
  conf : ∀ qp, (c'.qpMeta qp).toQpConf = (c.qpMeta qp).toQpConf
  credits : ∀ qp, (c'.qpMeta qp).credits = (c.qpMeta qp).credits
  acks : ∀ qp, (c'.qpMeta qp).acks = (c.qpMeta qp).acks
  recv : ∀ qp, (c'.qpMeta qp).recv = (c.qpMeta qp).recv

theorem Untouched.refl {μ : Type} (c : Context μ) : Untouched c c :=
  ⟨rfl, rfl, fun _ => rfl, fun _ => rfl, fun _ => rfl, fun _ => rfl⟩

/-- A step that at most refills one of the QPs. -/
theorem Untouched.rests {c₁ : Context Packet} {stage : CallStage} (h : Untouched w.ctx c₁)
    (hrecv : c' = c₁ ∨ ∃ qp r, c' = c₁.setRecv qp r ∧ Refilled (c₁.qpMeta qp).recv r)
    (hposted : ∀ m, (if m ∈ c₁.qInfo.active then stage.posted else 0) =
      if m ∈ w.ctx.qInfo.active then w.stage.posted else 0)
    (hslots : stage.slots = w.stage.slots) :
    Rests b a w { w with ctx := c', stage := stage } := by
  have hc' : c'.cl = c₁.cl ∧ c'.qInfo = c₁.qInfo ∧
      (∀ j, (c'.qpMeta j).toQpConf = (c₁.qpMeta j).toQpConf ∧
        (c'.qpMeta j).credits = (c₁.qpMeta j).credits ∧
        (c'.qpMeta j).acks = (c₁.qpMeta j).acks) ∧
      ∀ j, (c'.qpMeta j).recv = (c₁.qpMeta j).recv ∨
        Refilled (c₁.qpMeta j).recv (c'.qpMeta j).recv := by
    rcases hrecv with rfl | ⟨qp, r, rfl, hrefill⟩
    · exact ⟨rfl, rfl, fun j => ⟨rfl, rfl, rfl⟩, fun j => Or.inl rfl⟩
    · refine ⟨rfl, rfl, fun j => ?_, fun j => ?_⟩
      · rw [Context.qpMeta_setRecv]
        exact ⟨rfl, rfl, rfl⟩
      · rw [Context.qpMeta_setRecv]
        dsimp only
        by_cases hj : j = qp
        · subst hj
          rw [if_pos rfl]
          exact Or.inr hrefill
        · rw [if_neg hj]
          exact Or.inl rfl
  obtain ⟨hcl, hq, hqps, hrecvs⟩ := hc'
  have hcredits : (c'.qpMeta b).credits = (w.ctx.qpMeta b).credits :=
    (hqps b).2.1.trans (h.credits b)
  have hacks : (c'.qpMeta a).acks = (w.ctx.qpMeta a).acks := (hqps a).2.2.trans (h.acks a)
  refine ⟨rfl, hcl.trans h.cl, (congrArg QuorumInfo.sharing hq).trans h.sharing,
    fun j => (hqps j).1.trans (h.conf j), fun j _ => ?_, fun m => ?_, fun m => ?_, fun m => ?_,
    fun m => ?_, fun m => ?_⟩
  · rw [← h.recv j]
    exact hrecvs j
  · dsimp only
    rw [hcredits]
    exact UInt16.le_refl _
  · unfold Worker.left
    dsimp only
    rw [hcredits, hq, hposted m]
  · dsimp only
    rw [hacks]
  · dsimp only
    rw [hacks]
  · unfold Worker.Pends
    dsimp only
    rw [hacks, hslots]

/-- What every step of a worker should do. -/
def Kept (b a machineNum : Nat) (maxCredits : UInt16) (i : Nat) (w : Worker)
    (p : Worker × List Flight) : Prop :=
  WorkerInv b a machineNum maxCredits i p.1 ∧ Moves b a machineNum i w p.1 p.2

theorem Rests.kept (h : Rests b a w w') (hw : WorkerInv b a machineNum maxCredits i w)
    (hstage : StageInv b a w'.ctx w'.stage) :
    Kept b a machineNum maxCredits i w (w', []) := ⟨h.keeps hw hstage, h.moves⟩

/-- Between calls nothing that was posted is to be paid for. -/
theorem Worker.left_idle {m : Nat} (h : w.stage.posted = 0) :
    w.left b m = ((w.ctx.qpMeta b).credits m).toNat := by
  unfold Worker.left
  rw [h, ite_self, Nat.sub_zero]

/-! ## Reconfigurations -/

/-- `check_bcast_credits` leaves both QPs as they are but for their links, and the answer counts
    credits that are there. -/
theorem checkCredits_keeps {μ : Type} {c : Context μ} (h : AckReady c a) (qp : Nat)
    (minCredits : UInt16) :
    Ends Proceeds (c.checkCredits qp minCredits) fun p => AckReady p.1 a ∧ Untouched c p.1 ∧
      ∀ n, p.2 = some n → p.1.cl.remoteQuorum ≤ p.1.qInfo.activeNum ∧
        ∀ m ∈ p.1.qInfo.active, n ≤ (c.qpMeta qp).credits m := by
  have hends := h.ready.checkCredits qp minCredits
  refine Ends.intro (fun p hp => ?_) fun e he => hends.of_error he
  obtain ⟨hready, hcl, hsh, -, -⟩ := hends.of_ok hp
  obtain ⟨⟨r, answer⟩, hcheck, hp⟩ := bind_eq_ok.mp hp
  cases hp
  obtain ⟨up, ha⟩ := h.ready.agrees
  have hfollow := checkBcastCredits_follow (r := c.reconf qp) h.ready.fit ha hcheck
  refine ⟨⟨hready, h.lt, h.flow, h.sendWrNum, fun j hj => ?_⟩, ⟨hcl, hsh, fun _ => rfl,
    fun _ => rfl, fun _ => rfl, fun _ => rfl⟩, fun n hn => ?_⟩
  · obtain ⟨hah, haddr⟩ := h.target j hj
    have hlinks := hfollow.links a
    have hkeeps : Keeps (c.qpMeta a).send (r.queue a) := ⟨hlinks.ah, hlinks.sgList, hlinks.sgl⟩
    obtain ⟨-, hah', hsge⟩ := hkeeps.posted j
    refine ⟨hah'.trans hah, ?_⟩
    show ((r.queue a).posted j).sge.addr = j
    rw [hsge]
    exact haddr
  · dsimp only at hn
    subst hn
    obtain ⟨hquorum, hleast, -⟩ := checkBcastCredits_true (r := c.reconf qp) h.ready.fit ha hcheck
    exact ⟨hquorum, fun m hm => hleast.2 ⟨m, hm, rfl⟩⟩

section Idle

variable (hw : WorkerInv b a machineNum maxCredits i w) (hidle : w.stage = .idle)

include hw hidle

theorem ackReady_of_idle : AckReady w.ctx a := by
  have hstage := hw.stage
  rw [hidle] at hstage
  exact hstage

/-- The rest of the program. -/
theorem around_kept (rest : Nat → Around Packet) :
    Kept b a machineNum maxCredits i w (w.around b a rest, []) := by
  have halike : Alike w.ctx (w.around b a rest).ctx :=
    ⟨rfl, rfl, rfl, fun _ => rfl, fun _ => rfl⟩
  have hcredits : ((w.around b a rest).ctx.qpMeta b).credits = (w.ctx.qpMeta b).credits :=
    if_pos rfl
  have hacks : ((w.around b a rest).ctx.qpMeta a).acks = (w.ctx.qpMeta a).acks := if_pos rfl
  refine Rests.kept ⟨rfl, rfl, rfl, fun _ => rfl, fun qp hqp => Or.inl (if_pos hqp), fun m => ?_,
    fun m => ?_, fun m => ?_, fun m => ?_, fun m => ?_⟩ hw ?_
  · rw [hcredits]
    exact UInt16.le_refl _
  · unfold Worker.left
    rw [hcredits]
    rfl
  · rw [hacks]
  · rw [hacks]
  · unfold Worker.Pends
    rw [hacks]
    rfl
  · show StageInv b a _ w.stage
    rw [hidle]
    exact halike.ackReady (ackReady_of_idle hw hidle)

omit hw in
/-- Outside a call nothing is posted and nothing about to be. -/
theorem Untouched.rests_idle {c₁ : Context Packet} {stage : CallStage} (h : Untouched w.ctx c₁)
    (hposted : stage.posted = 0) (hslots : stage.slots = []) :
    Rests b a w { w with ctx := c₁, stage := stage } := by
  refine h.rests (Or.inl rfl) (fun m => ?_) ?_
  · rw [hposted, hidle, ite_self]
    exact (ite_self 0).symm
  · rw [hslots, hidle]
    rfl

/-- Refilling, for another QP. -/
theorem refillRecvs_kept (qp : Nat) {r : RecvQueue Packet}
    (hr : (w.ctx.qpMeta qp).recv.ctxRefillRecvs = .ok r) :
    Kept b a machineNum maxCredits i w ({ w with ctx := w.ctx.setRecv qp r }, []) := by
  have hrests : Rests b a w { w with ctx := w.ctx.setRecv qp r, stage := w.stage } :=
    (Untouched.refl w.ctx).rests (Or.inr ⟨qp, r, rfl, Or.inl hr⟩) (fun _ => rfl) rfl
  refine hrests.kept hw ?_
  show StageInv b a _ w.stage
  rw [hidle]
  exact (Alike.setRecv w.ctx qp r).ackReady (ackReady_of_idle hw hidle)

theorem checkCredits_kept (qp : Nat) (minCredits : UInt16) :
    Ends Proceeds (w.ctx.checkCredits qp minCredits) fun p =>
      Kept b a machineNum maxCredits i w ({ w with ctx := p.1 }, []) := by
  refine (checkCredits_keeps (ackReady_of_idle hw hidle) qp minCredits).mono ?_
  rintro ⟨c', answer⟩ ⟨hready, huntouched, -⟩
  have hrests : Rests b a w { w with ctx := c', stage := .idle } :=
    huntouched.rests_idle hidle rfl rfl
  rw [← hidle] at hrests
  refine hrests.kept hw ?_
  show StageInv b a c' w.stage
  rw [hidle]
  exact hready

/-- **`ctx_send_broadcasts` begins.** -/
theorem startBroadcasts_kept : Ends Proceeds (startBroadcasts b w.ctx) fun p =>
    Kept b a machineNum maxCredits i w ({ w with ctx := p.1, stage := p.2 }, []) := by
  have hstart := ackReady_of_idle hw hidle
  unfold startBroadcasts
  split
  · exact Ends.ok (((Untouched.refl w.ctx).rests_idle hidle rfl rfl).kept hw hstart)
  · refine (checkCredits_keeps hstart b 1).bind ?_
    rintro ⟨c₁, answer⟩ ⟨hready, huntouched, hanswer⟩
    cases answer with
    | none => exact Ends.ok ((huntouched.rests_idle hidle rfl rfl).kept hw hready)
    | some availableCredits =>
      obtain ⟨hquorum, havail⟩ := hanswer availableCredits rfl
      have hqp : b ∈ c₁.qInfo.sharing := by
        rw [huntouched.sharing]
        exact hw.paired.sharing
      have hbready := hready.ready.bcasts b hqp
      have hmargin := hready.ready.bcast_margin hbready.bcast
      have hcan : CanBroadcast c₁ b :=
        ⟨hready.ready.fit, hready.ready.agrees, hquorum, hbready.room, hmargin⟩
      have hpace := hready.ready.paced b
      rw [Ready.window_bcast hbready.bcast] at hpace
      refine Ends.ok ?_
      refine (huntouched.rests_idle hidle rfl rfl).kept hw ⟨⟨⟨c₁, hready, hcan, hqp,
        InBatch.start hbready.building hpace⟩, Nat.le_refl 0, fun m hm => ?_⟩, by decide⟩
      rw [huntouched.credits b, Nat.zero_add]
      exact UInt16.le_iff_toNat_le.mp (havail m hm)

end Idle

/-! ## The loop of ctx_send_broadcasts -/

/-- Taking credits off. -/
theorem decreaseCredits_apply {q : QuorumInfo} (hnodup : q.active.Nodup) (credits : Nat → UInt16)
    (mesSent : UInt16) (m : Nat) : decreaseCredits credits q mesSent m =
      if m ∈ q.active then credits m - mesSent else credits m := by
  unfold decreaseCredits
  generalize q.active = l at hnodup ⊢
  induction l generalizing credits with
  | nil => rfl
  | cons x l ih =>
    obtain ⟨hx, hl⟩ := List.nodup_cons.mp hnodup
    rw [List.foldl_cons, ih _ hl]
    by_cases hm : m = x
    · subst hm
      rw [if_neg hx, if_pos List.mem_cons_self, Function.update_self]
    · rw [Function.update_of_ne hm]
      refine if_congr ?_ rfl rfl
      rw [List.mem_cons]
      exact ⟨Or.inr, fun h => h.resolve_left hm⟩

namespace Broadcasting

variable {credits brI mesSent : Nat}

/-- Receives may be posted in the middle of a call. -/
theorem alike (h : Broadcasting b a c credits brI mesSent) (halike : Alike c c')
    (hcredits : (c'.qpMeta b).credits = (c.qpMeta b).credits) :
    Broadcasting b a c' credits brI mesSent := by
  obtain ⟨⟨c₀, hready, hcan, hsh, hbatch⟩, hle, hcovered⟩ := h
  refine ⟨⟨c₀, hready, hcan, hsh, hbatch.congr (halike.frame b) (halike.send b)⟩, hle, ?_⟩
  rw [halike.qInfo, hcredits]
  exact hcovered

/-- The active machines are different machines. -/
theorem nodup (h : Broadcasting b a c credits brI mesSent) : c.qInfo.active.Nodup := by
  obtain ⟨⟨c₀, hready, -, -, hbatch⟩, -⟩ := h
  obtain ⟨up, ha⟩ := hready.ready.agrees
  rw [hbatch.frame.qInfo]
  exact (ha.wellFormed hready.ready.fit).active_sorted.imp fun hlt => Nat.ne_of_lt hlt

/-- When the batch is empty the call can end. -/
theorem finish (h : Broadcasting b a c credits 0 mesSent) (hne : b ≠ a) : AckReady c a := by
  obtain ⟨⟨c₀, hready, hcan, hsh, hbatch⟩, -⟩ := h
  obtain ⟨⟨flagged, hidle, hbuild, hpace⟩, -⟩ := hbatch.batch
  rw [hidle rfl] at hbuild hpace
  have hbready := hready.ready.bcasts b hsh
  have hr : Ready c := by
    refine hready.ready.frame hbatch.frame (fun _ => ⟨?_, ?_, hbuild⟩) ?_
    · rw [hbatch.frame.conf b]
      exact hbready.bcast
    · rw [hbatch.sendWrNum_eq]
      exact hbready.room
    · rw [Ready.window_bcast hbready.bcast]
      exact hpace
  have hsend : (c.qpMeta a).send = (c₀.qpMeta a).send := hbatch.frame.send a (Ne.symm hne)
  have hslots : c.slots a = c₀.slots a := congrArg (·.receipientNum + 1) (hbatch.frame.conf a)
  refine ⟨hr, by rw [hbatch.frame.qpNum]; exact hready.lt,
    by rw [hbatch.frame.conf a]; exact hready.flow, ?_, ?_⟩
  · rw [hslots, hbatch.frame.conf a]
    exact hready.sendWrNum
  · rw [hslots, hsend, hbatch.frame.cl]
    exact hready.target

/-- One more broadcast is forged and taken off the FIFO. -/
theorem forge (h : Broadcasting b a c (credits + 1) brI mesSent) (hlt : brI < maxBcastBatch) :
    Ends Proceeds (c.ctxForgeBcastWr b brI) fun c₁ =>
      ∀ c₂, c₂ = c₁.setFifo b 0 ((c₁.qpMeta b).sendFifo 0).fifoSendFromPullSlot →
        Broadcasting b a c₂ credits (brI + 1) (mesSent + 1) ∧ Untouched c c₂ ∧
          c₂.qInfo = c.qInfo := by
  obtain ⟨⟨c₀, hready, hcan, hsh, hbatch⟩, hle, hcovered⟩ := h
  have hends := hbatch.forge hcan hlt
  refine Ends.intro (fun c₁ hc₁ => ?_) fun e he => hends.of_error he
  rintro c₂ rfl
  have hbatch₁ := hends.of_ok hc₁
  have hbatch₂ : InBatch b c₀ (brI + 1)
      (c₁.setFifo b 0 ((c₁.qpMeta b).sendFifo 0).fifoSendFromPullSlot) :=
    hbatch₁.congr (Frame.modify rfl (Or.inl rfl)) (by simp [Context.setFifo])
  obtain ⟨s, -, hc₁⟩ := bind_eq_ok.mp hc₁
  cases hc₁
  have huntouched : Untouched c ((c.setSend b s).setFifo b 0
      (((c.setSend b s).qpMeta b).sendFifo 0).fifoSendFromPullSlot) := by
    have hqps : ∀ j, ∃ f, ((c.setSend b s).setFifo b 0
        (((c.setSend b s).qpMeta b).sendFifo 0).fifoSendFromPullSlot).qpMeta j =
          { (c.setSend b s).qpMeta j with sendFifo := f } := by
      intro j
      unfold Context.setFifo
      rw [Context.qpMeta_modify]
      split
      · exact ⟨_, rfl⟩
      · exact ⟨_, rfl⟩
    refine ⟨rfl, rfl, fun j => ?_, fun j => ?_, fun j => ?_, fun j => ?_⟩ <;>
      obtain ⟨f, hf⟩ := hqps j <;> rw [hf, Context.qpMeta_setSend]
  refine ⟨⟨⟨c₀, hready, hcan, hsh, hbatch₂⟩, by omega, fun m hm => ?_⟩, huntouched, rfl⟩
  have hold := hcovered m hm
  rw [huntouched.credits b]
  omega

end Broadcasting

/-- The receives of the replies are posted. -/
theorem postReplyRecvs_ends (c : Context Packet) : Ends Proceeds (c.postReplyRecvs b) fun c' =>
    ∃ r, (c.qpMeta (c.qpMeta b).recvQpId).recv.postQuorumRecvs = .ok r ∧
      c' = c.setRecv (c.qpMeta b).recvQpId r := by
  unfold Context.postReplyRecvs
  have hpost := postQuorumRecvs_proceeds (c.qpMeta (c.qpMeta b).recvQpId).recv
  refine Ends.bind (Ends.intro (fun r hr => hr) fun e he => hpost.of_error he) fun r hr => ?_
  exact Ends.ok ⟨r, hr, rfl⟩

section Loop

variable {credits brI mesSent : Nat} (hw : WorkerInv b a machineNum maxCredits i w)
  (hstage : w.stage = .broadcasts credits brI mesSent)

include hw hstage

/-- The batch is about to be posted. -/
theorem toBatch_kept {c₁ : Context Packet} {credits' brI' mesSent' : Nat}
    (huntouched : Untouched w.ctx c₁) (hq : c₁.qInfo = w.ctx.qInfo)
    (hin : Broadcasting b a c₁ credits' brI' mesSent') (hpos : 0 < brI')
    (hle : brI' ≤ maxBcastBatch) (hposted : mesSent' - brI' = mesSent - brI) :
    Ends Proceeds (c₁.postReplyRecvs b) fun c' => Kept b a machineNum maxCredits i w
      ({ w with ctx := c', stage := .batch credits' brI' mesSent' }, []) := by
  refine (postReplyRecvs_ends c₁).mono ?_
  rintro c' ⟨r, hr, rfl⟩
  have hrecv : (c₁.qpMeta b).recvQpId = a := by
    rw [huntouched.conf b]
    exact hw.paired.recvOfBcast
  rw [hrecv] at hr ⊢
  have hrests : Rests b a w { w with
      ctx := c₁.setRecv a r, stage := .batch credits' brI' mesSent' } := by
    refine huntouched.rests (Or.inr ⟨a, r, rfl, Or.inr hr⟩) (fun m => ?_) ?_
    · rw [hq, hstage]
      show (if m ∈ w.ctx.qInfo.active then mesSent' - brI' else 0) = _
      rw [hposted]
      rfl
    · rw [hstage]
      rfl
  refine hrests.kept hw ⟨hin.alike (Alike.setRecv c₁ a r) ?_, hpos, hle, ?_⟩
  · rw [Context.qpMeta_setRecv]
  · rw [Context.qpMeta_setRecv]
    dsimp only
    rw [if_pos rfl]
    have hcounts := hw.ackRecvs.counts
    rw [← huntouched.recv a] at hcounts
    exact (hcounts.refill (Or.inr hr)).2.1

/-- **The end of `ctx_send_broadcasts`.** -/
theorem endBroadcasts_kept (hlt : brI < maxBcastBatch) {credits' : Nat}
    (hin : Broadcasting b a w.ctx credits' brI mesSent) :
    Ends Proceeds (endBroadcasts b w.ctx brI mesSent) fun p => Kept b a machineNum maxCredits i w
      ({ w with ctx := p.1, stage := p.2 }, []) := by
  unfold endBroadcasts
  by_cases hpos : 0 < brI
  · rw [if_pos hpos]
    have hin' : Broadcasting b a w.ctx 0 brI mesSent := by
      refine ⟨hin.inBatch, hin.le, fun m hm => ?_⟩
      have hold := hin.covered m hm
      omega
    refine (toBatch_kept hw hstage (Untouched.refl w.ctx) rfl hin' hpos (Nat.le_of_lt hlt)
      rfl).bind fun c' h' => ?_
    exact Ends.ok h'
  · rw [if_neg hpos]
    have hzero : brI = 0 := by omega
    subst hzero
    have hready := hin.finish hw.paired.ne
    by_cases hsent : 0 < mesSent
    · -- the credits of all that was posted are taken
      rw [if_pos hsent]
      have hcredits : ∀ m, ((decreaseCredits (w.ctx.qpMeta b).credits w.ctx.qInfo
          (UInt16.ofNat mesSent)) m).toNat = w.left b m := by
        intro m
        rw [decreaseCredits_apply hin.nodup]
        unfold Worker.left
        rw [hstage]
        show _ = ((w.ctx.qpMeta b).credits m).toNat -
          if m ∈ w.ctx.qInfo.active then mesSent - 0 else 0
        by_cases hm : m ∈ w.ctx.qInfo.active
        · have hcovered := hin.covered m hm
          have hfit := ((w.ctx.qpMeta b).credits m).toNat_lt
          have hnat : (UInt16.ofNat mesSent).toNat = mesSent :=
            UInt16.toNat_ofNat_of_lt' (by show mesSent < 2 ^ 16; omega)
          rw [if_pos hm, if_pos hm, UInt16.toNat_sub_of_le, hnat, Nat.sub_zero]
          rw [UInt16.le_iff_toNat_le, hnat]
          omega
        · rw [if_neg hm, if_neg hm, Nat.sub_zero]
      let c' := w.ctx.setCredits b (decreaseCredits (w.ctx.qpMeta b).credits w.ctx.qInfo
        (UInt16.ofNat mesSent))
      have hself : (c'.qpMeta b).credits = decreaseCredits (w.ctx.qpMeta b).credits w.ctx.qInfo
          (UInt16.ofNat mesSent) := by
        rw [Context.qpMeta_setCredits]
        exact if_pos rfl
      have hrests : Rests b a w { w with ctx := c', stage := .idle } := by
        refine ⟨rfl, rfl, rfl, fun j => ?_, fun j _ => Or.inl ?_, fun m => ?_, fun m => ?_,
          fun m => ?_, fun m => ?_, fun m => ?_⟩
        · rw [Context.qpMeta_setCredits]
        · rw [Context.qpMeta_setCredits]
        · dsimp only
          rw [hself, UInt16.le_iff_toNat_le, hcredits m]
          exact Nat.sub_le ..
        · rw [Worker.left_idle rfl]
          dsimp only
          rw [hself, hcredits m]
        · rw [Context.qpMeta_setCredits]
        · rw [Context.qpMeta_setCredits]
        · unfold Worker.Pends
          rw [Context.qpMeta_setCredits, hstage]
          rfl
      exact Ends.ok (hrests.kept hw ((Alike.setCredits w.ctx b _).ackReady hready))
    · rw [if_neg hsent]
      have hnone : mesSent = 0 := by omega
      subst hnone
      refine Ends.ok (Rests.kept ?_ hw hready)
      refine (Untouched.refl w.ctx).rests (Or.inl rfl) (fun m => ?_) ?_
      · rw [hstage]
        rfl
      · rw [hstage]
        rfl

/-- **One round of the loop of `ctx_send_broadcasts`.** -/
theorem loopBroadcasts_kept :
    Ends Proceeds (loopBroadcasts b w.ctx credits brI mesSent) fun p =>
      Kept b a machineNum maxCredits i w ({ w with ctx := p.1, stage := p.2 }, []) := by
  have hinv := hw.stage
  rw [hstage] at hinv
  obtain ⟨hin, hlt⟩ := hinv
  cases credits with
  | zero => exact endBroadcasts_kept hw hstage hlt hin
  | succ credits =>
    by_cases hcap : ((w.ctx.qpMeta b).sendFifo 0).netCapacity = 0
    · rw [loopBroadcasts_full hcap]
      exact endBroadcasts_kept hw hstage hlt hin
    · show Ends Proceeds (if ((w.ctx.qpMeta b).sendFifo 0).netCapacity = 0 then _ else _) _
      rw [if_neg hcap]
      refine (hin.forge hlt).bind fun c₁ hforged => ?_
      obtain ⟨hin', huntouched, hq⟩ := hforged _ rfl
      have hsame : mesSent + 1 - (brI + 1) = mesSent - brI := by omega
      dsimp only
      by_cases hfull : brI + 1 = maxBcastBatch
      · rw [if_pos hfull]
        refine (toBatch_kept hw hstage huntouched hq hin' (by omega) (by omega) hsame).bind ?_
        intro c' h'
        exact Ends.ok h'
      · rw [if_neg hfull]
        refine Ends.ok (Rests.kept ?_ hw ⟨hin', by omega⟩)
        refine huntouched.rests (Or.inl rfl) (fun m => ?_) ?_
        · rw [hq, hstage]
          show (if m ∈ w.ctx.qInfo.active then mesSent + 1 - (brI + 1) else 0) = _
          rw [hsame]
          rfl
        · rw [hstage]
          rfl

end Loop

/-! ## Posting -/

/-- Work requests were posted: what is not of the send queues stays. -/
theorem posted_inv {qp : Nat} {s : SendQueue} {stage : CallStage}
    (hw : WorkerInv b a machineNum maxCredits i w)
    (hstage : StageInv b a (w.ctx.setSend qp s) stage)
    (hslots : ∀ j ∈ stage.slots, j ∈ w.stage.slots)
    (hbmissing : (w.ctx.qpMeta b).recv.missing ≤ ∑ j ∈ others machineNum i,
      ({ w with ctx := w.ctx.setSend qp s, stage := stage } : Worker).pend a j)
    (hamissing : (w.ctx.qpMeta a).recv.missing ≤ ∑ j ∈ others machineNum i,
      ({ w with ctx := w.ctx.setSend qp s, stage := stage } : Worker).left b j) :
    WorkerInv b a machineNum maxCredits i { w with ctx := w.ctx.setSend qp s, stage := stage } := by
  have hqps : ∀ j, ((w.ctx.setSend qp s).qpMeta j).toQpConf = (w.ctx.qpMeta j).toQpConf ∧
      ((w.ctx.setSend qp s).qpMeta j).credits = (w.ctx.qpMeta j).credits ∧
      ((w.ctx.setSend qp s).qpMeta j).acks = (w.ctx.qpMeta j).acks ∧
      ((w.ctx.setSend qp s).qpMeta j).recv = (w.ctx.qpMeta j).recv := by
    intro j
    rw [Context.qpMeta_setSend]
    exact ⟨rfl, rfl, rfl, rfl⟩
  obtain ⟨hbconf, hbcredits, -, hbrecv⟩ := hqps b
  obtain ⟨haconf, -, hacks, harecv⟩ := hqps a
  have hpaired : PairedQps b a machineNum maxCredits i (w.ctx.setSend qp s) :=
    hw.paired.keeps rfl rfl (fun j => (hqps j).1) fun j => by rw [hacks]
  refine ⟨hpaired, hstage, ?_, fun j hj hpend => ?_, ?_, ?_, hw.arrivedMes, hw.arrivedAcks, ?_, ?_,
    ?_, ?_⟩
  · dsimp only
    rw [hbcredits]
    exact hw.credits_le
  · have hold : w.Pends a j := by
      rcases hpend with hopen | hslot
      · left
        dsimp only at hopen
        rw [hacks] at hopen
        exact hopen
      · exact Or.inr (hslots j hslot)
    obtain ⟨hne, hpos⟩ := hw.pends j hj hold
    refine ⟨hne, ?_⟩
    unfold Worker.pend at hpos ⊢
    rw [if_pos hold] at hpos
    rw [if_pos hpend]
    dsimp only
    rw [hacks]
    exact hpos
  · dsimp only
    rw [hbrecv]
    exact hw.bcastRecvs
  · dsimp only
    rw [harecv]
    exact hw.ackRecvs
  · dsimp only
    rw [hbrecv]
    exact hbmissing
  · dsimp only
    rw [harecv]
    exact hamissing
  · dsimp only
    rw [hbrecv]
    exact hw.bcastRoom
  · dsimp only
    rw [harecv]
    exact hw.ackRoom

/-- What a chain of broadcasts carries. -/
theorem weights_mes {sender m source : Nat} (l : List Nat) :
    weights sender m (l.map fun d => ⟨d, .mes source⟩) =
      if source = sender then l.count m else 0 := by
  induction l with
  | nil => exact (ite_self 0).symm
  | cons d l ih =>
    rw [List.map_cons, weights_cons, ih, List.count_cons]
    unfold Flight.weight
    dsimp only
    by_cases hs : source = sender
    · by_cases hd : d = m
      · rw [if_pos ⟨hs, hd⟩, if_pos hs, if_pos hs, if_pos (beq_iff_eq.mpr hd), Nat.add_comm]
      · rw [if_neg fun h => hd h.2, if_pos hs, if_pos hs, if_neg fun h => hd (beq_iff_eq.mp h),
          Nat.zero_add]
        rfl
    · rw [if_neg fun h => hs h.1, if_neg hs, if_neg hs]

/-- The machines that a chain of broadcasts goes to. -/
theorem Broadcasts.count_ah {cl : Cluster} {q : QuorumInfo} {brI : Nat} {chain : List Posted}
    (h : Broadcasts cl q brI chain) (hnodup : q.active.Nodup) (m : Nat) :
    (chain.map (·.ah)).count m = if m ∈ q.active then brI else 0 := by
  have hah : chain.map (·.ah) = (List.range brI).flatMap fun _ => q.active := by
    have hmap := congrArg (List.map Prod.snd) h.targets
    rw [List.map_map, List.map_flatMap] at hmap
    refine hmap.trans (List.flatMap_congr fun br _ => ?_)
    rw [List.map_map]
    exact List.map_id _
  have hsum : ∀ n, ((List.range n).flatMap fun _ => q.active).count m = n * q.active.count m := by
    intro n
    induction n with
    | zero => rw [Nat.zero_mul, List.range_zero, List.flatMap_nil, List.count_nil]
    | succ n ih =>
      rw [List.range_succ, List.flatMap_append, List.count_append, ih, List.flatMap_singleton,
        Nat.succ_mul]
  rw [hah, hsum, hnodup.count]
  split
  · exact Nat.mul_one _
  · exact Nat.mul_zero _

/-- **A batch of broadcasts goes to the NIC.** -/
theorem batch_kept {credits brI mesSent : Nat} (hw : WorkerInv b a machineNum maxCredits i w)
    (hi : i < machineNum) (hstage : w.stage = .batch credits brI mesSent) :
    Ends Proceeds (w.ctx.postBroadcasts b brI) fun c' => Kept b a machineNum maxCredits i w
      ({ w with ctx := c', stage := .broadcasts credits 0 mesSent },
        handed b a w.ctx c' w.stage) := by
  have hinv := hw.stage
  rw [hstage] at hinv
  obtain ⟨hin, hpos, hle, hnone⟩ := hinv
  have hnodup : w.ctx.qInfo.active.Nodup := hin.nodup
  obtain ⟨⟨c₀, hready, hcan, hsh, hbatch⟩, hbrI, hcovered⟩ := hin
  obtain ⟨s', chain, hpost, hbcasts, hlog, hbatch'⟩ := hbatch.postSend hcan hpos hle
  rw [← hbatch.frame.cl, ← hbatch.frame.qInfo] at hbcasts
  have hself : ((w.ctx.setSend b s').qpMeta b).send = s' := by
    rw [Context.qpMeta_setSend]
    exact if_pos rfl
  have hcredits : ((w.ctx.setSend b s').qpMeta b).credits = (w.ctx.qpMeta b).credits := by
    rw [Context.qpMeta_setSend]
  have hflights : handed b a w.ctx (w.ctx.setSend b s') w.stage =
      (chain.map (·.ah)).map fun d => ⟨d, .mes i⟩ := by
    rw [hstage, ← hw.paired.own, List.map_map]
    show (newPosts b w.ctx (w.ctx.setSend b s')).map _ = _
    unfold newPosts
    rw [hself, hlog, List.drop_left, List.flatMap_singleton]
    rfl
  let w' : Worker := { w with
    ctx := w.ctx.setSend b s'
    stage := .broadcasts credits 0 mesSent }
  have hleft : ∀ m, w'.left b m + (chain.map (·.ah)).count m = w.left b m := by
    intro m
    rw [hbcasts.count_ah hnodup]
    unfold Worker.left
    dsimp only [w']
    rw [hcredits, hstage]
    show ((w.ctx.qpMeta b).credits m).toNat - (if m ∈ w.ctx.qInfo.active then mesSent - 0 else 0)
      + (if m ∈ w.ctx.qInfo.active then brI else 0) = ((w.ctx.qpMeta b).credits m).toNat
        - if m ∈ w.ctx.qInfo.active then mesSent - brI else 0
    by_cases hm : m ∈ w.ctx.qInfo.active
    · have hcov := hcovered m hm
      rw [if_pos hm, if_pos hm, if_pos hm]
      omega
    · rw [if_neg hm, if_neg hm, if_neg hm]
      omega
  have hacks : (w'.ctx.qpMeta a).acks = (w.ctx.qpMeta a).acks := by
    show ((w.ctx.setSend b s').qpMeta a).acks = _
    rw [Context.qpMeta_setSend]
  have hpend : ∀ m, w'.pend a m = w.pend a m := by
    intro m
    refine Worker.pend_congr ?_ (by rw [hacks])
    unfold Worker.Pends
    rw [hacks, hstage]
    rfl
  have hinv' : WorkerInv b a machineNum maxCredits i w' := by
    refine posted_inv hw ⟨⟨⟨c₀, hready, hcan, hsh, hbatch'⟩, Nat.zero_le _, ?_⟩, by decide⟩
      (fun j hj => nomatch hj) ?_ ?_
    · rw [hcredits]
      exact hcovered
    · refine Nat.le_trans hw.bcastMissing (Finset.sum_le_sum fun j _ => ?_)
      exact Nat.le_of_eq (hpend j).symm
    · rw [hnone]
      exact Nat.zero_le _
  have hcall : w.ctx.postBroadcasts b brI = .ok (w.ctx.setSend b s') := by
    unfold Context.postBroadcasts
    dsimp only
    rw [hpost]
    rfl
  rw [hcall]
  refine Ends.ok ⟨hinv', ⟨fun j hj => ?_, fun j hj => ?_, fun f hf => ?_⟩⟩
  · dsimp only
    rw [hflights, weights_mes, if_pos rfl]
    have hl := hleft j
    unfold Worker.owes Worker.arrived
    dsimp only [w'] at hl ⊢
    omega
  · dsimp only
    rw [hflights, weights_mes, if_neg (mem_others.mp hj).1.symm, Nat.add_zero]
    show weights j i (w.arrived i b) + w'.pend a j = weights j i (w.arrived i b) + w.pend a j
    rw [hpend j]
  · dsimp only at hf
    rw [hflights] at hf
    obtain ⟨d, hd, rfl⟩ := List.mem_map.mp hf
    have hcount := List.count_pos_iff.mpr hd
    rw [hbcasts.count_ah hnodup] at hcount
    have hmem : d ∈ w.ctx.qInfo.active := by
      by_contra hc
      rw [if_neg hc] at hcount
      exact absurd hcount (Nat.lt_irrefl 0)
    obtain ⟨up, ha⟩ := hready.ready.agrees
    rw [hbatch.frame.qInfo] at hmem
    obtain ⟨hlt, hne⟩ := Cluster.mem_remotes _ |>.mp (ha.mem_active.mp hmem).1
    rw [← hbatch.frame.cl] at hlt hne
    rw [hw.paired.machines] at hlt
    rw [hw.paired.own] at hne
    exact ⟨⟨hlt, hi, Ne.symm hne, fun ack h => nomatch h⟩, rfl⟩

/-! ## od_send_acks -/

/-- The loop of `od_send_acks` forges the pending acks. -/
theorem ackRounds_ends (h : AckReady c a) :
    Ends Proceeds (forLoop 8 ((c.qpMeta a).receipientNum + 1)
        (Context.ackRound (c.qpMeta a).sendWrNum (c.qpMeta a).ssBatch)
        ⟨(c.qpMeta a).acks, (c.qpMeta a).send, 0, 0, 0⟩)
      (AckBatch (c.qpMeta a).sendWrNum (c.qpMeta a).ssBatch (c.qpMeta a).send (c.qpMeta a).acks
        (c.slots a)) := by
  have hu : (c.qpMeta a).flowType.sendsUnicasts = true := by
    rw [h.flow]
    rfl
  have hpace := h.ready.paced a
  rw [Ready.window_uni hu] at hpace
  exact ackLoop_ends (c.slots a) (h.ready.uni_margin h.lt hu) hpace

/-- Up to the post of the acks: the pending ones are forged, and the receives of the paired QP are
    refilled, or no ack is pending and the call is over. -/
theorem forgeAcks_ends (h : AckReady c a) : Ends Proceeds (c.forgeAcks a) fun p =>
    AckBatch (c.qpMeta a).sendWrNum (c.qpMeta a).ssBatch (c.qpMeta a).send (c.qpMeta a).acks
      (c.slots a) p.2 ∧
    ∃ c₁, c₁ = c.modify a ({ · with acks := p.2.acks, send := p.2.send }) ∧
      ((0 < p.2.ackI ∧ ∃ r, (c₁.qpMeta (c.qpMeta a).recvQpId).recv.ctxRefillRecvs = .ok r ∧
          p.1 = c₁.setRecv (c.qpMeta a).recvQpId r) ∨
        (¬ 0 < p.2.ackI ∧ p.1 = c₁ ∧ AckReady c₁ a)) := by
  have hloop := ackRounds_ends h
  unfold Context.forgeAcks
  refine Ends.bind (P := fun l => forLoop 8 ((c.qpMeta a).receipientNum + 1)
      (Context.ackRound (c.qpMeta a).sendWrNum (c.qpMeta a).ssBatch)
      ⟨(c.qpMeta a).acks, (c.qpMeta a).send, 0, 0, 0⟩ = .ok l)
    (Ends.intro (fun l hl => hl) fun e he => hloop.of_error he) fun l hl => ?_
  have hb := hloop.of_ok hl
  let c₁ := c.modify a ({ · with acks := l.acks, send := l.send })
  dsimp only
  by_cases hpos : 0 < l.ackI
  · rw [if_pos hpos]
    have hpost := refillRecvs_proceeds (c₁.qpMeta (c.qpMeta a).recvQpId).recv
    refine Ends.bind (P := fun r =>
        (c₁.qpMeta (c.qpMeta a).recvQpId).recv.ctxRefillRecvs = .ok r)
      (Ends.intro (fun r hr => hr) fun e he => hpost.of_error he) fun r hr => ?_
    exact Ends.ok ⟨hb, c₁, rfl, Or.inl ⟨hpos, r, hr, rfl⟩⟩
  · rw [if_neg hpos]
    refine Ends.ok ⟨hb, c₁, rfl, Or.inr ⟨hpos, rfl, ?_⟩⟩
    have hcall : c.odSendAcks a = .ok c₁ := by
      unfold Context.odSendAcks
      dsimp only
      rw [hl, ok_bind, if_neg hpos]
      rfl
    exact (h.send.of_ok hcall).2

/-- Rearming keeps what an ack carries, and an ack pends if it is one of those to be posted. -/
theorem rearmed_pends (acks : Nat → CtxAckMes) (n j : Nat) :
    (rearmed acks n j).mId = (acks j).mId ∧ (rearmed acks n j).credits = (acks j).credits ∧
      (((rearmed acks n j).opcode ≠ opAck ∨ j ∈ pendingAcks acks n) ↔ (acks j).opcode ≠ opAck) := by
  rw [mem_pendingAcks]
  unfold rearmed
  by_cases hj : j < n
  · rw [if_pos hj]
    refine ⟨rfl, rfl, fun h => ?_, fun h => Or.inr ⟨hj, h⟩⟩
    exact h.elim (fun hne => absurd rfl hne) And.right
  · rw [if_neg hj]
    exact ⟨rfl, rfl, fun h => h.elim id fun hc => absurd hc.1 hj, Or.inl⟩

/-- **`od_send_acks` begins**: the receives of the messages that the acks are for are posted. -/
theorem startAcks_kept (hw : WorkerInv b a machineNum maxCredits i w) (hidle : w.stage = .idle) :
    Ends Proceeds (startAcks a w.ctx) fun p =>
      Kept b a machineNum maxCredits i w ({ w with ctx := p.1, stage := p.2 }, []) := by
  have hready := ackReady_of_idle hw hidle
  unfold startAcks
  refine (forgeAcks_ends hready).bind ?_
  rintro ⟨c', l⟩ ⟨hb, c₁, hc₁, hcases⟩
  refine Ends.ok ?_
  have hslots : pendingAcks (w.ctx.qpMeta a).acks ((w.ctx.qpMeta a).receipientNum + 1) =
    pendingAcks (w.ctx.qpMeta a).acks (w.ctx.slots a) := rfl
  have hqps : ∀ j, (c₁.qpMeta j).toQpConf = (w.ctx.qpMeta j).toQpConf ∧
      (c₁.qpMeta j).credits = (w.ctx.qpMeta j).credits ∧
      (c₁.qpMeta j).recv = (w.ctx.qpMeta j).recv := by
    intro j
    rw [hc₁, Context.qpMeta_modify]
    split
    · exact ⟨rfl, rfl, rfl⟩
    · exact ⟨rfl, rfl, rfl⟩
  have hacks₁ : (c₁.qpMeta a).acks = rearmed (w.ctx.qpMeta a).acks (w.ctx.slots a) := by
    rw [hc₁, Context.qpMeta_modify_self]
    exact hb.acks_eq
  -- in both cases the acks are the rearmed ones, and the slots the pending ones
  have hrests : ∀ (c' : Context Packet) (stage : CallStage), c'.cl = c₁.cl → c'.qInfo = c₁.qInfo →
      (∀ j, (c'.qpMeta j).toQpConf = (c₁.qpMeta j).toQpConf) →
      (∀ j, (c'.qpMeta j).credits = (c₁.qpMeta j).credits) →
      (c'.qpMeta a).acks = (c₁.qpMeta a).acks →
      (∀ j, j = b ∨ j = a → (c'.qpMeta j).recv = (c₁.qpMeta j).recv ∨
        Refilled (c₁.qpMeta j).recv (c'.qpMeta j).recv) →
      stage.posted = 0 → stage.slots = pendingAcks (w.ctx.qpMeta a).acks (w.ctx.slots a) →
      Rests b a w { w with ctx := c', stage := stage } := by
    intro c' stage hcl hq hconf hcredits hacks hrecv hposted hstage
    have hpends := rearmed_pends (w.ctx.qpMeta a).acks (w.ctx.slots a)
    have hcl₁ : c₁.cl = w.ctx.cl ∧ c₁.qInfo = w.ctx.qInfo := by
      rw [hc₁]
      exact ⟨rfl, rfl⟩
    have hbcredits : (c'.qpMeta b).credits = (w.ctx.qpMeta b).credits :=
      (hcredits b).trans (hqps b).2.1
    refine ⟨rfl, hcl.trans hcl₁.1, congrArg QuorumInfo.sharing (hq.trans hcl₁.2),
      fun j => (hconf j).trans (hqps j).1, fun j hj => ?_, fun j => ?_, fun j => ?_, fun j => ?_,
      fun j => ?_, fun j => ?_⟩
    · rw [← (hqps j).2.2]
      exact hrecv j hj
    · dsimp only
      rw [hbcredits]
      exact UInt16.le_refl _
    · rw [Worker.left_idle hposted, Worker.left_idle (by rw [hidle]; rfl)]
      dsimp only
      rw [hbcredits]
    · dsimp only
      rw [hacks, hacks₁, (hpends j).1]
    · dsimp only
      rw [hacks, hacks₁, (hpends j).2.1]
    · unfold Worker.Pends
      dsimp only
      rw [hacks, hacks₁, hstage, hidle, (hpends j).2.2]
      exact ⟨Or.inl, fun h => h.elim id fun hn => nomatch hn⟩
  have hackI : l.ackI = (pendingAcks (w.ctx.qpMeta a).acks (w.ctx.slots a)).length := hb.ackI
  rcases hcases with ⟨hpos, r, hr, hc'⟩ | ⟨hpos, hc', hready'⟩
  · dsimp only at hpos hr hc' ⊢
    rw [if_pos hpos, hslots, hc', hw.paired.recvOfAck]
    rw [hw.paired.recvOfAck] at hr
    refine (hrests (c₁.setRecv b r) (.acks l (pendingAcks (w.ctx.qpMeta a).acks (w.ctx.slots a)))
      rfl rfl (fun j => ?_) (fun j => ?_) ?_ (fun j _ => ?_) rfl rfl).kept hw ?_
    · rw [Context.qpMeta_setRecv]
    · rw [Context.qpMeta_setRecv]
    · rw [Context.qpMeta_setRecv]
    · rw [Context.qpMeta_setRecv]
      dsimp only
      by_cases hj : j = b
      · subst hj
        rw [if_pos rfl]
        exact Or.inr (Or.inl hr)
      · exact Or.inl (if_neg hj)
    · have hframe : Frame a w.ctx (c₁.setRecv b r) := by
        rw [hc₁]
        exact (Frame.modify rfl (Or.inl rfl)).trans ((Alike.setRecv _ b r).frame a)
      have hslots' : (c₁.setRecv b r).slots a = w.ctx.slots a :=
        congrArg (·.receipientNum + 1) (hframe.conf a)
      refine ⟨⟨⟨w.ctx, hready, hframe, ?_, rfl, hb⟩, fun j hj => ?_, fun hnil => ?_⟩, ?_⟩
      · rw [Context.send_setRecv, hc₁, Context.qpMeta_modify_self]
      · rw [hslots'] at hj
        rw [Context.qpMeta_setRecv]
        dsimp only
        rw [hacks₁, rearmed, if_pos hj]
      · rw [hackI, hnil] at hpos
        exact absurd hpos (Nat.lt_irrefl 0)
      · rw [Context.qpMeta_setRecv]
        dsimp only
        rw [if_pos rfl]
        have hcounts := hw.bcastRecvs
        rw [← (hqps b).2.2] at hcounts
        exact (hcounts.refill (Or.inl hr)).2.1
  · dsimp only at hpos hc' ⊢
    rw [if_neg hpos, hc']
    have hnil : pendingAcks (w.ctx.qpMeta a).acks (w.ctx.slots a) = [] := by
      refine List.eq_nil_of_length_eq_zero ?_
      omega
    exact (hrests _ .idle rfl rfl (fun _ => rfl) (fun _ => rfl) rfl (fun _ _ => Or.inl rfl) rfl
      hnil.symm).kept hw hready'

/-- **Posting the acks**: each goes to the machine of its slot. -/
theorem Acking.post {l : Context.AckLoop} {slots : List Nat} (h : Acking a c l slots) :
    ∃ s, c.postAcks a l = .ok (c.setSend a s) ∧ AckReady (c.setSend a s) a ∧
      sentAcks a c (c.setSend a s) =
        slots.map (fun m => ⟨m % c.cl.machineNum, m, (c.qpMeta a).acks m⟩) ∧
      ∀ j ∈ slots, j < c.slots a := by
  obtain ⟨⟨c₀, hready, hframe, hsend, hslots, hb⟩, -, hne⟩ := h
  subst hslots
  obtain ⟨s', hpost, hkeeps, hpace, hposts⟩ := hb.batch.post (hb.first hne) (hb.last hne)
  have hconf := hframe.conf a
  have hcall : c.postAcks a l = .ok (c.setSend a s') := by
    unfold Context.postAcks
    dsimp only
    rw [hsend, hb.ackI, show (c.qpMeta a).sendWrNum = (c₀.qpMeta a).sendWrNum from
      congrArg QpConf.sendWrNum hconf, hpost]
    rfl
  have hself : ((c.setSend a s').qpMeta a).send = s' := by
    rw [Context.qpMeta_setSend]
    exact if_pos rfl
  have hacks : ((c.setSend a s').qpMeta a).acks = (c.qpMeta a).acks := by
    rw [Context.qpMeta_setSend]
  have hframe' : Frame a c₀ (c.setSend a s') := hframe.trans (Frame.modify rfl (Or.inl rfl))
  have hu : (c₀.qpMeta a).flowType.sendsUnicasts = true := by
    rw [hready.flow]
    rfl
  have hready' : Ready (c.setSend a s') := by
    refine hready.ready.frame hframe' (fun hsh => ?_) ?_
    · have hbcast := (hready.ready.bcasts a hsh).bcast
      rw [hready.flow] at hbcast
      nomatch hbcast
    · rw [hself, Ready.window_uni hu]
      exact hpace
  have hlt : ∀ j ∈ pendingAcks (c₀.qpMeta a).acks (c₀.slots a), j < c₀.slots a :=
    fun j hj => (mem_pendingAcks.mp hj).1
  refine ⟨s', hcall, hready.frame hframe' (by rw [hself]; exact hb.keeps.trans hkeeps) hready', ?_,
    fun j hj => ?_⟩
  · have hlog : posts (c.qpMeta a).send.log = posts (c₀.qpMeta a).send.log := by
      rw [hsend]
      exact hb.batch.posts_eq
    unfold sentAcks
    rw [hself, hacks, hposts, hlog, List.drop_left, List.flatMap_singleton, List.map_map]
    refine List.map_congr_left fun j hj => ?_
    obtain ⟨hah, haddr⟩ := hready.target j (hlt j hj)
    obtain ⟨-, hah', hsge⟩ := (hb.keeps.trans (Keeps.setNext l.send l.prevAckI none)).posted j
    show (⟨_, _, _⟩ : SentAck) = _
    rw [hah', hah, hsge, haddr, hframe.cl]
  · have hsl : c.slots a = c₀.slots a := congrArg (·.receipientNum + 1) hconf
    rw [hsl]
    exact hlt j hj

/-- What some acks carry. -/
theorem weights_acks {sender m : Nat} {acks : Nat → CtxAckMes} {slots : List Nat}
    (hnodup : slots.Nodup) : weights sender m (slots.map fun d => ⟨d, .ack (acks d)⟩) =
      if sender ∈ slots ∧ (acks sender).mId.toNat = m then (acks sender).credits.toNat else 0 := by
  induction slots with
  | nil => rw [if_neg fun h => nomatch h.1]; rfl
  | cons d slots ih =>
    obtain ⟨hd, hslots⟩ := List.nodup_cons.mp hnodup
    rw [List.map_cons, weights_cons, ih hslots]
    unfold Flight.weight
    dsimp only
    by_cases hs : d = sender
    · subst hs
      rw [if_neg (fun h => hd h.1 : ¬ (d ∈ slots ∧ _)), Nat.add_zero]
      exact if_congr ⟨fun h => ⟨List.mem_cons_self, h.2⟩, fun h => ⟨rfl, h.2⟩⟩ rfl rfl
    · rw [if_neg (fun h => hs h.1 : ¬ (d = sender ∧ _)), Nat.zero_add]
      refine if_congr ?_ rfl rfl
      rw [List.mem_cons]
      exact ⟨fun h => ⟨Or.inr h.1, h.2⟩,
        fun h => ⟨h.1.resolve_left fun heq => hs heq.symm, h.2⟩⟩

/-- **The acks go to the NIC.** -/
theorem acks_kept {l : Context.AckLoop} {slots : List Nat}
    (hw : WorkerInv b a machineNum maxCredits i w) (hi : i < machineNum)
    (hstage : w.stage = .acks l slots) :
    Ends Proceeds (w.ctx.postAcks a l) fun c' => Kept b a machineNum maxCredits i w
      ({ w with ctx := c', stage := .idle }, handed b a w.ctx c' w.stage) := by
  have hinv := hw.stage
  rw [hstage] at hinv
  obtain ⟨hacking, hnone⟩ := hinv
  obtain ⟨s, hcall, hready, hsent, hlt⟩ := hacking.post
  have hslots : w.ctx.slots a = machineNum := hw.paired.slots
  have hsome : ∀ j, w.Pends a j ∧ j < machineNum ↔ j ∈ slots := by
    intro j
    unfold Worker.Pends
    rw [hstage]
    constructor
    · rintro ⟨hopen | hslot, hj⟩
      · exact absurd (hacking.acks j (by rw [hslots]; exact hj)) hopen
      · exact hslot
    · intro hj
      exact ⟨Or.inr hj, hslots ▸ hlt j hj⟩
  have hnodup : slots.Nodup := by
    obtain ⟨⟨c₀, -, -, -, rfl, -⟩, -⟩ := hacking
    exact List.nodup_range.filter _
  have hflights : handed b a w.ctx (w.ctx.setSend a s) w.stage =
      slots.map fun d => ⟨d, .ack ((w.ctx.qpMeta a).acks d)⟩ := by
    rw [hstage]
    show (sentAcks a w.ctx (w.ctx.setSend a s)).map _ = _
    rw [hsent, List.map_map]
    refine List.map_congr_left fun j hj => ?_
    have hj' : j < w.ctx.cl.machineNum := by
      rw [hw.paired.machines, ← hslots]
      exact hlt j hj
    show (⟨j % w.ctx.cl.machineNum, _⟩ : Flight) = _
    rw [Nat.mod_eq_of_lt hj']
  let w' : Worker := { w with
    ctx := w.ctx.setSend a s
    stage := .idle }
  have hacks : (w'.ctx.qpMeta a).acks = (w.ctx.qpMeta a).acks := by
    show ((w.ctx.setSend a s).qpMeta a).acks = _
    rw [Context.qpMeta_setSend]
  have hleft : ∀ j, w'.left b j = w.left b j := by
    intro j
    rw [Worker.left_idle rfl, Worker.left_idle (by rw [hstage]; rfl)]
    show (((w.ctx.setSend a s).qpMeta b).credits j).toNat = _
    rw [Context.qpMeta_setSend]
  have hpend' : ∀ j, j < machineNum → w'.pend a j = 0 := by
    intro j hj
    refine if_neg ?_
    rintro (hopen | hslot)
    · rw [hacks] at hopen
      exact hopen (hacking.acks j (by rw [hslots]; exact hj))
    · nomatch hslot
  have hinv' : WorkerInv b a machineNum maxCredits i w' := by
    refine posted_inv hw hready (fun j hj => nomatch hj) ?_ ?_
    · rw [hnone]
      exact Nat.zero_le _
    · refine Nat.le_trans hw.ackMissing (Finset.sum_le_sum fun j _ => ?_)
      exact Nat.le_of_eq (hleft j).symm
  rw [hcall]
  refine Ends.ok ⟨hinv', ⟨fun j hj => ?_, fun j hj => ?_, fun f hf => ?_⟩⟩
  · have hnot : ¬ (i ∈ slots ∧ ((w.ctx.qpMeta a).acks i).mId.toNat = j) := by
      rintro ⟨-, hid⟩
      rw [hw.paired.mId i] at hid
      exact (mem_others.mp hj).1 hid.symm
    dsimp only
    rw [hflights, weights_acks hnodup, if_neg hnot, Nat.add_zero]
    show w'.left b j + _ = w.left b j + _
    rw [hleft j]
    rfl
  · have hj' := (mem_others.mp hj).2
    have hcond : (j ∈ slots ∧ ((w.ctx.qpMeta a).acks j).mId.toNat = i) ↔ w.Pends a j := by
      rw [← hsome j]
      exact ⟨fun h => h.1.1, fun h => ⟨⟨h, hj'⟩, hw.paired.mId j⟩⟩
    dsimp only
    rw [hflights, weights_acks hnodup]
    show weights j i (w.arrived i b) + w'.pend a j + _ = weights j i (w.arrived i b) + w.pend a j
    rw [hpend' j hj', Nat.add_zero]
    congr 1
    exact if_congr hcond rfl rfl
  · dsimp only at hf
    rw [hflights] at hf
    obtain ⟨d, hd, rfl⟩ := List.mem_map.mp hf
    obtain ⟨hpends, hd'⟩ := (hsome d).mpr hd
    obtain ⟨hne, hpos⟩ := hw.pends d hd' hpends
    have hsource : (Packet.ack ((w.ctx.qpMeta a).acks d)).source = i := hw.paired.mId d
    unfold Worker.pend at hpos
    rw [if_pos hpends] at hpos
    refine ⟨⟨hd', by rw [hsource]; exact hi, by rw [hsource]; exact Ne.symm hne, ?_⟩, hsource⟩
    rintro ack hack
    cases hack
    exact hpos

end Odyssey
