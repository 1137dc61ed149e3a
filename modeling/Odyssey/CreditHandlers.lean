/-
  THE HANDLERS KEEP THE CREDITS, and so does every step of a worker.

  The handler of messages turns a message into a credit of the pending ack for its sender, the
  handler of acks an ack into credits.  Neither needs more room than `max_credits`: all that a
  machine can be owed is at most that, so no `uint16_t` wraps, and the credits are not above
  `max_credits` when an ack is handled, whose assertion therefore holds.

  `workStep_keeps` puts everything together: from a worker that has and owes no more than
  `max_credits` for each remote machine, every step keeps `WorkerInv`, moves credits as `Moves`
  says, and neither waits nor is undefined.  `receive_kept` is what an arrival does.
-/
import Odyssey.CreditSteps

namespace Odyssey

open Lib

variable {b a machineNum i : Nat} {maxCredits : UInt16} {w w' : Worker} {c c' : Context Packet}

/-! ## The handlers -/

/-- A poll is stuck only if it is not possible. -/
theorem poll_disabled {τ : Type} (r : RecvQueue Packet)
    (recvHandler : τ → Nat → Option Packet → Option τ) (comps : Nat) (t : τ) :
    Ends (· = .disabled) (r.ctxPollIncomingMessages recvHandler comps t) fun _ => True := by
  unfold RecvQueue.ctxPollIncomingMessages RecvQueue.findHowManyMessagesCanBePolled
  split
  · rw [ok_bind]
    dsimp only
    split
    · trivial
    · trivial
  · exact Ends.error rfl

/-- The credits of an ack that is not sent. -/
def openCredits (ack : CtxAckMes) : Nat := if ack.opcode ≠ opAck then ack.credits.toNat else 0

theorem Worker.pend_idle (h : w.stage.slots = []) (j : Nat) :
    w.pend a j = openCredits ((w.ctx.qpMeta a).acks j) := by
  refine if_congr ?_ rfl rfl
  unfold Worker.Pends
  rw [h]
  exact ⟨fun hp => hp.elim id (fun hn => nomatch hn), Or.inl⟩

/-- **A successful insert** is one more credit, if the counter has room for it. -/
theorem ackInsert_credits {enableAssertions : Bool} {ack ack' : CtxAckMes} {mesNum : UInt32}
    {lId : UInt64} (h : Context.ackInsert enableAssertions ack mesNum lId = (ack', true)) :
    ack'.mId = ack.mId ∧ ack'.opcode ≠ opAck ∧
      (openCredits ack + 1 < 2 ^ 16 → openCredits ack' = openCredits ack + 1) := by
  unfold Context.ackInsert at h
  split at h
  · nomatch h
  · split at h
    · rename_i hfree
      cases h
      refine ⟨rfl, show ackNotYetSent ≠ opAck by decide, fun _ => ?_⟩
      have hold : openCredits ack = 0 := if_neg fun hc => hc hfree
      rw [hold]
      rfl
    · rename_i hopen
      cases h
      refine ⟨rfl, hopen, fun hroom => ?_⟩
      unfold openCredits at hroom ⊢
      rw [if_pos hopen] at hroom ⊢
      rw [if_pos hopen]
      show (ack.credits + 1).toNat = _
      rw [UInt16.toNat_add]
      exact Nat.mod_eq_of_lt hroom

theorem Context.setAcks_setAcks {μ : Type} (c : Context μ) (qp : Nat)
    (acks acks' : Nat → CtxAckMes) : (c.setAcks qp acks).setAcks qp acks' = c.setAcks qp acks' := by
  unfold Context.setAcks Context.modify
  dsimp only
  rw [Function.update_self, Function.update_idem]

theorem Context.setAcks_self {μ : Type} (c : Context μ) (qp : Nat) :
    c.setAcks qp (c.qpMeta qp).acks = c := by
  unfold Context.setAcks Context.modify
  dsimp only
  rw [Function.update_eq_self]

theorem Context.setCredits_setCredits {μ : Type} (c : Context μ) (qp : Nat)
    (credits credits' : Nat → UInt16) :
    (c.setCredits qp credits).setCredits qp credits' = c.setCredits qp credits' := by
  unfold Context.setCredits Context.modify
  dsimp only
  rw [Function.update_self, Function.update_idem]

theorem Context.setCredits_self {μ : Type} (c : Context μ) (qp : Nat) :
    c.setCredits qp (c.qpMeta qp).credits = c := by
  unfold Context.setCredits Context.modify
  dsimp only
  rw [Function.update_eq_self]

/-- The first packets that arrived. -/
def Worker.handledOf (i : Nat) (w : Worker) (qp k : Nat) : List Flight :=
  ((w.unhandled qp).take k).map (Flight.mk i)

theorem Worker.weights_arrived (sender m qp k : Nat) : weights sender m (w.arrived i qp) =
    weights sender m (w.handledOf i qp k) +
      weights sender m (((w.unhandled qp).drop k).map (Flight.mk i)) := by
  unfold Worker.arrived Worker.handledOf
  rw [← weights_append, ← List.map_append, List.take_append_drop]

theorem Worker.weights_handledOf {sender m qp k : Nat} {p : Packet}
    (h : (w.unhandled qp)[k]? = some p) : weights sender m (w.handledOf i qp (k + 1)) =
      weights sender m (w.handledOf i qp k) + (Flight.mk i p).weight sender m := by
  unfold Worker.handledOf
  rw [List.take_add_one, h, List.map_append, weights_append]
  rfl

/-- The messages that are there are for machine `i`, from the others. -/
theorem WorkerInv.message {p : Packet} (hw : WorkerInv b a machineNum maxCredits i w)
    (hp : p ∈ w.unhandled b) : ∃ j ∈ others machineNum i, p = .mes j := by
  obtain ⟨hok, hqp⟩ := hw.arrivedMes p hp
  cases p with
  | mes sender => exact ⟨sender, mem_others.mpr ⟨hok.ne, hok.source⟩, rfl⟩
  | ack ack => exact absurd hqp.symm hw.paired.ne

/-- The acks that are there are for machine `i`, from the others. -/
theorem WorkerInv.ack {p : Packet} (hw : WorkerInv b a machineNum maxCredits i w)
    (hp : p ∈ w.unhandled a) :
    ∃ ack, p = .ack ack ∧ ack.mId.toNat ∈ others machineNum i ∧ 1 ≤ ack.credits.toNat := by
  obtain ⟨hok, hqp⟩ := hw.arrivedAcks p hp
  cases p with
  | mes sender => exact absurd hqp hw.paired.ne
  | ack ack => exact ⟨ack, rfl, mem_others.mpr ⟨hok.ne, hok.source⟩, hok.pos ack rfl⟩

/-- A message that is there carries a credit of another machine. -/
theorem WorkerInv.mes_pos {p : Packet} (hw : WorkerInv b a machineNum maxCredits i w)
    (hp : p ∈ w.unhandled b) : ∃ j ∈ others machineNum i, 1 ≤ (Flight.mk i p).weight j i := by
  obtain ⟨j, hj, rfl⟩ := hw.message hp
  exact ⟨j, hj, Nat.le_of_eq (if_pos ⟨rfl, rfl⟩).symm⟩

/-- An ack that is there carries a credit for another machine. -/
theorem WorkerInv.ack_pos {p : Packet} (hw : WorkerInv b a machineNum maxCredits i w)
    (hp : p ∈ w.unhandled a) : ∃ j ∈ others machineNum i, 1 ≤ (Flight.mk i p).weight i j := by
  obtain ⟨ack, rfl, hj, hpos⟩ := hw.ack hp
  refine ⟨_, hj, ?_⟩
  rw [show (Flight.mk i (.ack ack)).weight i ack.mId.toNat = ack.credits.toNat from
    if_pos ⟨rfl, rfl⟩]
  exact hpos

/-- There are as many credits as packets. -/
theorem handled_le_sum {qp k : Nat} (weight : Nat → Flight → Nat)
    (hk : k ≤ (w.unhandled qp).length)
    (hpos : ∀ p ∈ w.unhandled qp, ∃ j ∈ others machineNum i, 1 ≤ weight j ⟨i, p⟩) :
    k ≤ ∑ j ∈ others machineNum i, ((w.handledOf i qp k).map (weight j)).sum := by
  have hlen : (w.handledOf i qp k).length = k := by
    unfold Worker.handledOf
    rw [List.length_map, List.length_take]
    exact Nat.min_eq_left hk
  have hsum := length_le_sum (s := others machineNum i) (w := weight) (l := w.handledOf i qp k) ?_
  · rw [hlen] at hsum
    exact hsum
  · intro f hf
    obtain ⟨p, hp, rfl⟩ := List.mem_map.mp hf
    exact hpos p (List.mem_of_mem_take hp)

/-! ### Messages -/

/-- The state of the handler of messages after `k` of them: each has become a credit of the ack
    for its sender. -/
structure MesInserted (b a machineNum i : Nat) (w : Worker) (k : Nat) (acks : Nat → CtxAckMes) :
    Prop where
  mId : ∀ j, (acks j).mId = ((w.ctx.qpMeta a).acks j).mId
  pends : ∀ j, j < machineNum → (acks j).opcode ≠ opAck → j ≠ i ∧ 1 ≤ openCredits (acks j)
  credits : ∀ j ∈ others machineNum i,
    openCredits (acks j) = w.pend a j + weights j i (w.handledOf i b k)

/-- One message, one credit. -/
theorem MesInserted.step {enableAssertions : Bool} {k j : Nat} {acks : Nat → CtxAckMes}
    {mesNum : UInt32} {lId : UInt64} {ack' : CtxAckMes}
    (hholds : ∀ j ∈ others machineNum i, w.holds b a i j ≤ maxCredits.toNat)
    (h : MesInserted b a machineNum i w k acks) (hj : j ∈ others machineNum i)
    (hmes : (w.unhandled b)[k]? = some (.mes j))
    (hins : Context.ackInsert enableAssertions (acks j) mesNum lId = (ack', true)) :
    MesInserted b a machineNum i w (k + 1) (Function.update acks j ack') := by
  obtain ⟨hid, hopen, hone⟩ := ackInsert_credits hins
  have hself : (Flight.mk i (.mes j)).weight j i = 1 := if_pos ⟨rfl, rfl⟩
  have hroom : openCredits (acks j) + 1 < 2 ^ 16 := by
    have hold := h.credits j hj
    have hbound := hholds j hj
    unfold Worker.holds at hbound
    rw [Worker.weights_arrived j i b (k + 1), Worker.weights_handledOf hmes, hself] at hbound
    have hfit := maxCredits.toNat_lt
    omega
  have hnext := hone hroom
  refine ⟨fun j' => ?_, fun j' hj' hopen' => ?_, fun j' hj' => ?_⟩
  · by_cases heq : j' = j
    · subst heq
      rw [Function.update_self, hid, h.mId]
    · rw [Function.update_of_ne heq, h.mId]
  · by_cases heq : j' = j
    · subst heq
      rw [Function.update_self, hnext]
      exact ⟨(mem_others.mp hj).1, Nat.le_add_left ..⟩
    · rw [Function.update_of_ne heq] at hopen' ⊢
      exact h.pends j' hj' hopen'
  · rw [Worker.weights_handledOf hmes]
    by_cases heq : j' = j
    · subst heq
      rw [Function.update_self, hnext, h.credits j' hj, hself, Nat.add_assoc]
    · have hzero : (Flight.mk i (.mes j)).weight j' i = 0 := if_neg fun hc => heq hc.1.symm
      rw [Function.update_of_ne heq, h.credits j' hj', hzero, Nat.add_zero]

/-- Nothing is handled yet. -/
theorem MesInserted.start (hw : WorkerInv b a machineNum maxCredits i w) (hidle : w.stage = .idle) :
    MesInserted b a machineNum i w 0 (w.ctx.qpMeta a).acks := by
  have hslots : w.stage.slots = [] := by rw [hidle]; rfl
  refine ⟨fun _ => rfl, fun j hj hopen => ?_, fun j hj => ?_⟩
  · have hpends := hw.pends j hj (Or.inl hopen)
    rw [Worker.pend_idle hslots] at hpends
    exact hpends
  · rw [Worker.pend_idle hslots]
    rfl

/-- The state of a poll of messages. -/
def MesHandled (b a machineNum i : Nat) (w : Worker) (k : Nat)
    (t : Context Packet × List Packet × List (UInt32 × UInt64)) : Prop :=
  ∃ acks, t.2.1 = (w.unhandled b).drop k ∧ t.1 = w.ctx.setAcks a acks ∧
    MesInserted b a machineNum i w k acks

/-- **The handler of messages** inserts for the sender of each. -/
theorem MesHandled.step {enableAssertions : Bool} (hw : WorkerInv b a machineNum maxCredits i w)
    (hholds : ∀ j ∈ others machineNum i, w.holds b a i j ≤ maxCredits.toNat) {k sl : Nat}
    {t t' : Context Packet × List Packet × List (UInt32 × UInt64)} {m : Option Packet}
    (hk : k < (w.unhandled b).length) (h : MesHandled b a machineNum i w k t)
    (hans : mesHandler enableAssertions a t sl m = some t') :
    MesHandled b a machineNum i w (k + 1) t' := by
  obtain ⟨ctx, rest, answers⟩ := t
  obtain ⟨acks, hrest, hctx, hins⟩ := h
  dsimp only at hrest hctx
  obtain ⟨j, hj, hmes⟩ := hw.message (List.getElem_mem hk)
  have hsome : (w.unhandled b)[k]? = some (.mes j) := by
    rw [List.getElem?_eq_getElem hk, hmes]
  rw [List.drop_eq_getElem_cons hk, hmes] at hrest
  subst hrest hctx
  have hacks : ((w.ctx.setAcks a acks).qpMeta a).acks = acks := by
    rw [Context.qpMeta_setAcks]
    exact if_pos rfl
  cases answers with
  | nil => nomatch hans
  | cons answer answers =>
    obtain ⟨mesNum, lId⟩ := answer
    unfold mesHandler Context.ctxAckInsert at hans
    dsimp only at hans
    by_cases hbound : ((w.ctx.setAcks a acks).qpMeta a).receipientNum < j
    · rw [if_pos hbound] at hans
      nomatch hans
    · rw [if_neg hbound, hacks] at hans
      obtain ⟨⟨ack', answer⟩, hack⟩ : ∃ p, Context.ackInsert enableAssertions (acks j) mesNum lId
        = p := ⟨_, rfl⟩
      rw [hack] at hans
      cases answer with
      | false => nomatch hans
      | true =>
        cases hans
        refine ⟨Function.update acks j ack', rfl, ?_, hins.step hholds hj hsome hack⟩
        exact Context.setAcks_setAcks ..

/-- **Polling messages** turns them into credits of the pending acks. -/
theorem pollMessages_kept {enableAssertions : Bool} {comps : Nat}
    {answers answers' : List (UInt32 × UInt64)} {r : RecvQueue Packet} {rest : List Packet}
    (hw : WorkerInv b a machineNum maxCredits i w) (hidle : w.stage = .idle)
    (hholds : ∀ j ∈ others machineNum i, w.holds b a i j ≤ maxCredits.toNat)
    (hpoll : (w.ctx.qpMeta b).recv.ctxPollIncomingMessages (mesHandler enableAssertions a) comps
      (w.ctx, w.unhandled b, answers) = .ok (r, c', rest, answers')) :
    Kept b a machineNum maxCredits i w ({ w with
      ctx := c'.setRecv b r, unhandled := Function.update w.unhandled b rest }, []) := by
  have hslots : w.stage.slots = [] := by rw [hidle]; rfl
  have hposted : w.stage.posted = 0 := by rw [hidle]; rfl
  have hne := hw.paired.ne
  obtain ⟨k, hk, ⟨acks, hrest, hc', hins⟩, hcounts, hmissing, hnum⟩ := hw.bcastRecvs.poll
    ⟨_, rfl, (Context.setAcks_self w.ctx a).symm, MesInserted.start hw hidle⟩
    (fun k t sl m t' hk h hans => MesHandled.step hw hholds hk h hans) hpoll
  dsimp only at hrest hc'
  subst hrest hc'
  have halike : Alike w.ctx ((w.ctx.setAcks a acks).setRecv b r) :=
    (Alike.setAcks w.ctx a acks).trans (Alike.setRecv _ b r)
  let w' : Worker := { w with
    ctx := (w.ctx.setAcks a acks).setRecv b r
    unhandled := Function.update w.unhandled b ((w.unhandled b).drop k) }
  have hqps : ∀ j, w'.ctx.qpMeta j = { w.ctx.qpMeta j with
      acks := if j = a then acks else (w.ctx.qpMeta j).acks
      recv := if j = b then r else (w.ctx.qpMeta j).recv } := by
    intro j
    show ((w.ctx.setAcks a acks).setRecv b r).qpMeta j = _
    rw [Context.qpMeta_setRecv, Context.qpMeta_setAcks]
  have hacks : (w'.ctx.qpMeta a).acks = acks := by
    rw [hqps]
    exact if_pos rfl
  have hbrecv : (w'.ctx.qpMeta b).recv = r := by
    rw [hqps]
    exact if_pos rfl
  have harecv : (w'.ctx.qpMeta a).recv = (w.ctx.qpMeta a).recv := by
    rw [hqps]
    exact if_neg (Ne.symm hne)
  have hcredits : (w'.ctx.qpMeta b).credits = (w.ctx.qpMeta b).credits := by
    rw [hqps]
  have hslots' : w'.stage.slots = [] := hslots
  have hposted' : w'.stage.posted = 0 := hposted
  have hpend : ∀ j, w'.pend a j = openCredits (acks j) := by
    intro j
    rw [Worker.pend_idle hslots', hacks]
  have hleft : ∀ j, w'.left b j = w.left b j := by
    intro j
    rw [Worker.left_idle hposted', Worker.left_idle hposted, hcredits]
  have hunb : w'.unhandled b = (w.unhandled b).drop k := Function.update_self ..
  have huna : w'.unhandled a = w.unhandled a := Function.update_of_ne (Ne.symm hne) ..
  have hpaired : PairedQps b a machineNum maxCredits i w'.ctx := by
    refine hw.paired.keeps rfl rfl halike.conf fun j => ?_
    rw [hacks, hins.mId j]
  have hhandled : k ≤ ∑ j ∈ others machineNum i, weights j i (w.handledOf i b k) :=
    handled_le_sum (fun j f => f.weight j i) hk fun p hp => hw.mes_pos hp
  refine ⟨⟨hpaired, ?_, ?_, ?_, ?_, ?_, ?_, ?_, ?_, ?_, ?_, ?_⟩,
    ⟨fun j _ => ?_, fun j hj => ?_, fun f hf => nomatch hf⟩⟩
  · show StageInv b a _ w.stage
    rw [hidle]
    exact halike.ackReady (ackReady_of_idle hw hidle)
  · rw [hcredits]
    exact hw.credits_le
  · intro j hj hpends
    rw [hpend j]
    refine hins.pends j hj ?_
    rw [← hacks]
    refine hpends.resolve_right fun hmem => ?_
    rw [hslots'] at hmem
    nomatch hmem
  · rw [hbrecv, hunb, List.length_drop]
    exact hcounts
  · rw [harecv, huna]
    exact hw.ackRecvs
  · rw [hunb]
    exact fun p hp => hw.arrivedMes p (List.mem_of_mem_drop hp)
  · rw [huna]
    exact hw.arrivedAcks
  · have hsum : ∑ j ∈ others machineNum i, w'.pend a j = ∑ j ∈ others machineNum i, w.pend a j +
        ∑ j ∈ others machineNum i, weights j i (w.handledOf i b k) := by
      rw [← Finset.sum_add_distrib]
      refine Finset.sum_congr rfl fun j hj => ?_
      rw [hpend j, hins.credits j hj]
    have hold := hw.bcastMissing
    rw [hbrecv, hmissing]
    show _ ≤ ∑ j ∈ others machineNum i, w'.pend a j
    rw [hsum]
    omega
  · rw [harecv]
    refine Nat.le_trans hw.ackMissing (Finset.sum_le_sum fun j _ => ?_)
    exact Nat.le_of_eq (hleft j).symm
  · rw [hbrecv, hnum]
    exact hw.bcastRoom
  · rw [harecv]
    exact hw.ackRoom
  · show w'.left b j + weights i j ((w'.unhandled a).map (Flight.mk i)) + 0 = w.owes b a i j
    rw [hleft j, huna]
    rfl
  · show weights j i ((w'.unhandled b).map (Flight.mk i)) + w'.pend a j + 0 = w.holds b a i j
    unfold Worker.holds
    rw [hunb, hpend j, hins.credits j hj, Worker.weights_arrived j i b k]
    omega

/-! ### Acks -/

/-- The state of the handler of acks after `k` of `n` of them: their credits are back. -/
def AcksHandled (b a machineNum i : Nat) (w : Worker) (n k : Nat)
    (t : Outcome (Context Packet) × Nat) : Prop :=
  t.2 + k = n ∧ ∃ credits, t.1 = .ok (w.ctx.setCredits b credits) ∧
    ∀ j ∈ others machineNum i,
      (credits j).toNat = ((w.ctx.qpMeta b).credits j).toNat + weights i j (w.handledOf i a k)

/-- **The handler of acks** neither wraps nor caps, and so its assertion holds. -/
theorem AcksHandled.step {enableAssertions : Bool} (hw : WorkerInv b a machineNum maxCredits i w)
    (hidle : w.stage = .idle) (howes : ∀ j ∈ others machineNum i, w.owes b a i j ≤ maxCredits.toNat)
    {n k sl : Nat} {t t' : Outcome (Context Packet) × Nat} (hk : k < (w.unhandled a).length)
    (h : AcksHandled b a machineNum i w n k t)
    (hans : ackHandler enableAssertions a t sl (some (w.unhandled a)[k]) = some t') :
    AcksHandled b a machineNum i w n (k + 1) t' := by
  obtain ⟨ctx, left⟩ := t
  obtain ⟨hleft, credits, hctx, hcredits⟩ := h
  dsimp only at hleft hctx
  subst hctx
  obtain ⟨ack, hack, hj, -⟩ := hw.ack (List.getElem_mem hk)
  have hsome : (w.unhandled a)[k]? = some (.ack ack) := by
    rw [List.getElem?_eq_getElem hk, hack]
  rw [hack] at hans
  cases left with
  | zero => nomatch hans
  | succ left =>
    cases hans
    have hself : (Flight.mk i (.ack ack)).weight i ack.mId.toNat = ack.credits.toNat :=
      if_pos ⟨rfl, rfl⟩
    have hposted : w.stage.posted = 0 := by rw [hidle]; rfl
    have hroom : (credits ack.mId.toNat).toNat + ack.credits.toNat ≤ maxCredits.toNat := by
      have hold := hcredits _ hj
      have hbound := howes _ hj
      unfold Worker.owes at hbound
      rw [Worker.left_idle hposted, Worker.weights_arrived i _ a (k + 1),
        Worker.weights_handledOf hsome, hself] at hbound
      omega
    have hsum : (credits ack.mId.toNat + ack.credits).toNat
        = (credits ack.mId.toNat).toNat + ack.credits.toNat := by
      have hfit := maxCredits.toNat_lt
      rw [UInt16.toNat_add]
      exact Nat.mod_eq_of_lt (by omega)
    have hqps : ((w.ctx.setCredits b credits).qpMeta a).recvQpId = b ∧
        ((w.ctx.setCredits b credits).qpMeta b).credits = credits ∧
        ((w.ctx.setCredits b credits).qpMeta b).maxCredits = maxCredits := by
      rw [Context.qpMeta_setCredits, Context.qpMeta_setCredits]
      exact ⟨hw.paired.recvOfAck, if_pos rfl, hw.paired.max⟩
    have hle : ¬ maxCredits < credits ack.mId.toNat + ack.credits := by
      rw [UInt16.lt_iff_toNat_lt, hsum]
      omega
    refine ⟨by show left + (k + 1) = n; omega, Function.update credits ack.mId.toNat
      (credits ack.mId.toNat + ack.credits), ?_, fun j hj' => ?_⟩
    · show (w.ctx.setCredits b credits).ctxIncreaseCreditsOnPollingAck a enableAssertions ack = _
      unfold Context.ctxIncreaseCreditsOnPollingAck
      dsimp only
      rw [hqps.1, hqps.2.1, hqps.2.2, if_neg hle, Context.setCredits_setCredits]
    · rw [Worker.weights_handledOf hsome]
      by_cases heq : j = ack.mId.toNat
      · subst heq
        rw [Function.update_self, hsum, hcredits _ hj', hself, Nat.add_assoc]
      · have hzero : (Flight.mk i (.ack ack)).weight i j = 0 := if_neg fun hc => heq hc.2.symm
        rw [Function.update_of_ne heq, hcredits j hj', hzero, Nat.add_zero]

/-- **Polling acks** gives their credits back. -/
theorem pollAcks_kept {enableAssertions : Bool} {comps n left : Nat} {r : RecvQueue Packet}
    {oc : Outcome (Context Packet)} (hw : WorkerInv b a machineNum maxCredits i w)
    (hidle : w.stage = .idle) (howes : ∀ j ∈ others machineNum i, w.owes b a i j ≤ maxCredits.toNat)
    (hpoll : (w.ctx.qpMeta a).recv.ctxPollIncomingMessages (ackHandler enableAssertions a) comps
      (.ok w.ctx, n) = .ok (r, oc, left)) :
    ∃ c', oc = .ok c' ∧ Kept b a machineNum maxCredits i w ({ w with
      ctx := c'.setRecv a r
      unhandled := Function.update w.unhandled a ((w.unhandled a).drop (n - left)) }, []) := by
  have hslots : w.stage.slots = [] := by rw [hidle]; rfl
  have hposted : w.stage.posted = 0 := by rw [hidle]; rfl
  have hne := hw.paired.ne
  obtain ⟨k, hk, ⟨hleftk, credits, hoc, hcredits⟩, hrecvs, hmissing, hnum⟩ :=
    hw.ackRecvs.poll (P := AcksHandled b a machineNum i w n)
      ⟨rfl, _, congrArg Except.ok (Context.setCredits_self w.ctx b).symm, fun j _ => rfl⟩
      (fun k t sl t' hk h hans => h.step hw hidle howes hk hans) hpoll
  dsimp only at hleftk hoc
  have hdrop : n - left = k := by omega
  refine ⟨w.ctx.setCredits b credits, hoc, ?_⟩
  rw [hdrop]
  have halike : Alike w.ctx ((w.ctx.setCredits b credits).setRecv a r) :=
    (Alike.setCredits w.ctx b credits).trans (Alike.setRecv _ a r)
  let w' : Worker := { w with
    ctx := (w.ctx.setCredits b credits).setRecv a r
    unhandled := Function.update w.unhandled a ((w.unhandled a).drop k) }
  have hqps : ∀ j, w'.ctx.qpMeta j = { w.ctx.qpMeta j with
      credits := if j = b then credits else (w.ctx.qpMeta j).credits
      recv := if j = a then r else (w.ctx.qpMeta j).recv } := by
    intro j
    show ((w.ctx.setCredits b credits).setRecv a r).qpMeta j = _
    rw [Context.qpMeta_setRecv, Context.qpMeta_setCredits]
  have hacks : (w'.ctx.qpMeta a).acks = (w.ctx.qpMeta a).acks := by
    rw [hqps]
  have hbrecv : (w'.ctx.qpMeta b).recv = (w.ctx.qpMeta b).recv := by
    rw [hqps]
    exact if_neg hne
  have harecv : (w'.ctx.qpMeta a).recv = r := by
    rw [hqps]
    exact if_pos rfl
  have hbcredits : (w'.ctx.qpMeta b).credits = credits := by
    rw [hqps]
    exact if_pos rfl
  have hposted' : w'.stage.posted = 0 := hposted
  have hpends : ∀ j, w'.Pends a j ↔ w.Pends a j := by
    intro j
    unfold Worker.Pends
    rw [hacks]
  have hpend : ∀ j, w'.pend a j = w.pend a j := by
    intro j
    exact Worker.pend_congr (hpends j) (by rw [hacks])
  have hleft : ∀ j ∈ others machineNum i,
      w'.left b j = w.left b j + weights i j (w.handledOf i a k) := by
    intro j hj
    rw [Worker.left_idle hposted', Worker.left_idle hposted, hbcredits]
    exact hcredits j hj
  have huna : w'.unhandled a = (w.unhandled a).drop k := Function.update_self ..
  have hunb : w'.unhandled b = w.unhandled b := Function.update_of_ne hne ..
  have hhandled : k ≤ ∑ j ∈ others machineNum i, weights i j (w.handledOf i a k) :=
    handled_le_sum (fun j f => f.weight i j) hk fun p hp => hw.ack_pos hp
  refine ⟨⟨?_, ?_, ?_, ?_, ?_, ?_, ?_, ?_, ?_, ?_, ?_, ?_⟩,
    ⟨fun j hj => ?_, fun j _ => ?_, fun f hf => nomatch hf⟩⟩
  · exact hw.paired.keeps rfl rfl halike.conf fun j => by rw [hacks]
  · show StageInv b a _ w.stage
    rw [hidle]
    exact halike.ackReady (ackReady_of_idle hw hidle)
  · intro j hj
    have hbound := howes j hj
    unfold Worker.owes at hbound
    rw [Worker.left_idle hposted, Worker.weights_arrived i j a k] at hbound
    rw [hbcredits, UInt16.le_iff_toNat_le, hcredits j hj]
    omega
  · intro j hj hp
    rw [hpend j]
    exact hw.pends j hj ((hpends j).mp hp)
  · rw [hbrecv, hunb]
    exact hw.bcastRecvs
  · rw [harecv, huna]
    exact hrecvs
  · rw [hunb]
    exact hw.arrivedMes
  · rw [huna]
    exact fun p hp => hw.arrivedAcks p (List.mem_of_mem_drop hp)
  · rw [hbrecv]
    refine Nat.le_trans hw.bcastMissing (Finset.sum_le_sum fun j _ => ?_)
    exact Nat.le_of_eq (hpend j).symm
  · have hsum : ∑ j ∈ others machineNum i, w'.left b j = ∑ j ∈ others machineNum i, w.left b j +
        ∑ j ∈ others machineNum i, weights i j (w.handledOf i a k) := by
      rw [← Finset.sum_add_distrib]
      exact Finset.sum_congr rfl hleft
    have hold := hw.ackMissing
    rw [harecv, hmissing]
    show _ ≤ ∑ j ∈ others machineNum i, w'.left b j
    rw [hsum]
    omega
  · rw [hbrecv]
    exact hw.bcastRoom
  · rw [harecv, hnum]
    exact hw.ackRoom
  · show w'.left b j + weights i j ((w'.unhandled a).map (Flight.mk i)) + 0 = w.owes b a i j
    unfold Worker.owes
    rw [huna, hleft j hj, Worker.weights_arrived i j a k]
    omega
  · show weights j i ((w'.unhandled b).map (Flight.mk i)) + w'.pend a j + 0 = w.holds b a i j
    rw [hunb, hpend j]
    rfl

/-! ## Arrivals -/

/-- A packet that arrives in the middle of a call does not disturb it. -/
theorem StageInv.alike {stage : CallStage} (h : StageInv b a c stage) (halike : Alike c c')
    (hcredits : (c'.qpMeta b).credits = (c.qpMeta b).credits)
    (hacks : (c'.qpMeta a).acks = (c.qpMeta a).acks)
    (hmissing : ∀ qp, qp = b ∨ qp = a →
      (c'.qpMeta qp).recv.missing = (c.qpMeta qp).recv.missing) : StageInv b a c' stage := by
  cases stage with
  | idle => exact halike.ackReady h
  | broadcasts credits brI mesSent => exact ⟨h.1.alike halike hcredits, h.2⟩
  | batch credits brI mesSent =>
    obtain ⟨hin, hpos, hle, hnone⟩ := h
    exact ⟨hin.alike halike hcredits, hpos, hle, (hmissing a (Or.inr rfl)).trans hnone⟩
  | acks l slots =>
    obtain ⟨⟨⟨c₀, hready, hframe, hsend, hslots, hb⟩, hrearmed, hne⟩, hnone⟩ := h
    refine ⟨⟨⟨c₀, hready, hframe.trans (halike.frame a), (halike.send a).trans hsend, hslots, hb⟩,
      fun j hj => ?_, hne⟩, (hmissing b (Or.inl rfl)).trans hnone⟩
    rw [hacks]
    refine hrearmed j ?_
    rw [← show c'.slots a = c.slots a from congrArg (·.receipientNum + 1) (halike.conf a)]
    exact hj

/-- **A packet arrives**, and brings its credits. -/
theorem receive_kept {f : Flight} (hw : WorkerInv b a machineNum maxCredits i w)
    (hf : f.Ok machineNum) (hdst : f.dst = i) (hr : w.receive b a f.packet = .ok w') :
    WorkerInv b a machineNum maxCredits i w' ∧
      (∀ j ∈ others machineNum i, w'.owes b a i j = w.owes b a i j + f.weight i j) ∧
      ∀ j ∈ others machineNum i, w'.holds b a i j = w.holds b a i j + f.weight j i := by
  obtain ⟨dst, p⟩ := f
  dsimp only at hdst hr
  subst hdst
  obtain ⟨r, harrive, hr⟩ := bind_eq_ok.mp hr
  cases hr
  have hne := hw.paired.ne
  have halike := Alike.setRecv w.ctx (p.qp b a) r
  let w' : Worker := { w with
    ctx := w.ctx.setRecv (p.qp b a) r
    unhandled := Function.update w.unhandled (p.qp b a) (w.unhandled (p.qp b a) ++ [p]) }
  have hqps : ∀ j, w'.ctx.qpMeta j = { w.ctx.qpMeta j with
      recv := if j = p.qp b a then r else (w.ctx.qpMeta j).recv } :=
    fun j => Context.qpMeta_setRecv ..
  have hcredits : (w'.ctx.qpMeta b).credits = (w.ctx.qpMeta b).credits := by
    rw [hqps]
  have hacks : (w'.ctx.qpMeta a).acks = (w.ctx.qpMeta a).acks := by
    rw [hqps]
  -- what the arrival does to a QP: the packet is there, or nothing happened
  have hqp : ∀ qp, (qp = p.qp b a ∧ (w'.ctx.qpMeta qp).recv = r ∧
        (w.ctx.qpMeta qp).recv.arrive p = .ok r ∧ w'.unhandled qp = w.unhandled qp ++ [p]) ∨
      (qp ≠ p.qp b a ∧ (w'.ctx.qpMeta qp).recv = (w.ctx.qpMeta qp).recv ∧
        w'.unhandled qp = w.unhandled qp) := by
    intro qp
    rw [hqps]
    by_cases h : qp = p.qp b a
    · subst h
      exact Or.inl ⟨rfl, if_pos rfl, harrive, Function.update_self ..⟩
    · exact Or.inr ⟨h, if_neg h, Function.update_of_ne h ..⟩
  have hbcast : RecvCounts (w'.ctx.qpMeta b).recv (w'.unhandled b).length ∧
      (w'.ctx.qpMeta b).recv.missing = (w.ctx.qpMeta b).recv.missing ∧
      (w'.ctx.qpMeta b).recv.recvWrNum = (w.ctx.qpMeta b).recv.recvWrNum := by
    rcases hqp b with ⟨-, hrecv, hb, hun⟩ | ⟨-, hrecv, hun⟩
    · rw [hrecv, hun, List.length_append]
      exact hw.bcastRecvs.arrive hb
    · rw [hrecv, hun]
      exact ⟨hw.bcastRecvs, rfl, rfl⟩
  have hack : RecvHolds (w'.ctx.qpMeta a).recv (w'.unhandled a) ∧
      (w'.ctx.qpMeta a).recv.missing = (w.ctx.qpMeta a).recv.missing ∧
      (w'.ctx.qpMeta a).recv.recvWrNum = (w.ctx.qpMeta a).recv.recvWrNum := by
    rcases hqp a with ⟨-, hrecv, ha, hun⟩ | ⟨-, hrecv, hun⟩
    · rw [hrecv, hun]
      exact hw.ackRecvs.arrive ha
    · rw [hrecv, hun]
      exact ⟨hw.ackRecvs, rfl, rfl⟩
  have harrived : ∀ qp, (∀ q ∈ w.unhandled qp, (Flight.mk dst q).Ok machineNum ∧ q.qp b a = qp) →
      ∀ q ∈ w'.unhandled qp, (Flight.mk dst q).Ok machineNum ∧ q.qp b a = qp := by
    intro qp hold q hq
    rcases hqp qp with ⟨heq, -, -, hun⟩ | ⟨-, -, hun⟩
    · rw [hun, List.mem_append, List.mem_singleton] at hq
      rcases hq with hq | rfl
      · exact hold q hq
      · exact ⟨hf, heq.symm⟩
    · rw [hun] at hq
      exact hold q hq
  have hweights : ∀ qp sender m, (qp ≠ p.qp b a → (Flight.mk dst p).weight sender m = 0) →
      weights sender m (w'.arrived dst qp) = weights sender m (w.arrived dst qp) +
        (Flight.mk dst p).weight sender m := by
    intro qp sender m hzero
    unfold Worker.arrived
    rcases hqp qp with ⟨-, -, -, hun⟩ | ⟨hother, -, hun⟩
    · rw [hun, List.map_append, weights_append]
      rfl
    · rw [hun, hzero hother, Nat.add_zero]
  have hleft : ∀ j, w'.left b j = w.left b j := by
    intro j
    unfold Worker.left
    rw [hcredits]
    rfl
  have hpends : ∀ j, w'.Pends a j ↔ w.Pends a j := by
    intro j
    unfold Worker.Pends
    rw [hacks]
  have hpend : ∀ j, w'.pend a j = w.pend a j :=
    fun j => Worker.pend_congr (hpends j) (by rw [hacks])
  obtain ⟨hcounts, hbmissing, hbnum⟩ := hbcast
  obtain ⟨hholds, hamissing, hanum⟩ := hack
  refine ⟨⟨?_, ?_, ?_, fun j hj hp => ?_, hcounts, hholds, harrived b hw.arrivedMes,
    harrived a hw.arrivedAcks, ?_, ?_, ?_, ?_⟩, fun j hj => ?_, fun j hj => ?_⟩
  · exact hw.paired.keeps rfl rfl halike.conf fun j => by rw [hacks]
  · refine hw.stage.alike halike hcredits hacks ?_
    rintro qp (rfl | rfl)
    · exact hbmissing
    · exact hamissing
  · rw [hcredits]
    exact hw.credits_le
  · rw [hpend j]
    exact hw.pends j hj ((hpends j).mp hp)
  · rw [hbmissing]
    refine Nat.le_trans hw.bcastMissing (Finset.sum_le_sum fun j _ => ?_)
    exact Nat.le_of_eq (hpend j).symm
  · rw [hamissing]
    refine Nat.le_trans hw.ackMissing (Finset.sum_le_sum fun j _ => ?_)
    exact Nat.le_of_eq (hleft j).symm
  · rw [hbnum]
    exact hw.bcastRoom
  · rw [hanum]
    exact hw.ackRoom
  · show w'.left b j + weights dst j (w'.arrived dst a) = _
    rw [hleft j, hweights a dst j fun hother => ?_, ← Nat.add_assoc]
    · rfl
    · cases p with
      | mes sender => exact if_neg fun hc => (mem_others.mp hj).1 hc.2.symm
      | ack ack => exact absurd rfl hother
  · show weights j dst (w'.arrived dst b) + w'.pend a j = _
    rw [hpend j, hweights b j dst fun hother => ?_]
    · unfold Worker.holds
      omega
    · cases p with
      | mes sender => exact absurd rfl hother
      | ack ack => exact if_neg fun hc => (mem_others.mp hj).1 hc.1.symm

/-! ## Every step -/

/-- **Every step of a worker** keeps its invariant and moves credits, and neither waits nor
    aborts, if no remote machine has more than its credits here. -/
theorem workStep_keeps {enableAssertions : Bool} (hw : WorkerInv b a machineNum maxCredits i w)
    (hi : i < machineNum) (howes : ∀ j ∈ others machineNum i, w.owes b a i j ≤ maxCredits.toNat)
    (hholds : ∀ j ∈ others machineNum i, w.holds b a i j ≤ maxCredits.toNat) (cmd : WorkCmd) :
    Ends Proceeds (workStep enableAssertions b a w cmd) (Kept b a machineNum maxCredits i w) := by
  have hdisabled : Proceeds .disabled := ⟨by decide, by decide⟩
  cases hstage : w.stage with
  | idle =>
    cases cmd with
    | around rest =>
      unfold workStep
      rw [hstage]
      exact Ends.ok (around_kept hw hstage rest)
    | checkCredits qp minCredits =>
      unfold workStep
      rw [hstage]
      dsimp only
      by_cases hqp : qp ∈ w.ctx.qInfo.sharing
      · rw [if_pos hqp]
        have hkept := checkCredits_kept hw hstage qp minCredits
        rw [hstage] at hkept
        exact hkept.bind fun p hp => Ends.ok hp
      · rw [if_neg hqp]
        exact Ends.error hdisabled
    | refillRecvs qp =>
      unfold workStep
      rw [hstage]
      have hpost := refillRecvs_proceeds (w.ctx.qpMeta qp).recv
      refine Ends.bind (P := fun r => (w.ctx.qpMeta qp).recv.ctxRefillRecvs = .ok r)
        (Ends.intro (fun r hr => hr) fun e he => hpost.of_error he) fun r hr => ?_
      have hkept := refillRecvs_kept hw hstage qp hr
      rw [hstage] at hkept
      exact Ends.ok hkept
    | sendBroadcasts =>
      unfold workStep
      rw [hstage]
      exact (startBroadcasts_kept hw hstage).bind fun p hp => Ends.ok hp
    | sendAcks =>
      unfold workStep
      rw [hstage]
      exact (startAcks_kept hw hstage).bind fun p hp => Ends.ok hp
    | proceed =>
      unfold workStep
      rw [hstage]
      exact Ends.error hdisabled
    | pollMessages comps answers =>
      unfold workStep
      rw [hstage]
      have hpoll := poll_disabled (w.ctx.qpMeta b).recv (mesHandler enableAssertions a) comps
        (w.ctx, w.unhandled b, answers)
      refine Ends.bind (Ends.intro (fun t ht => ht) fun e he => ?_) ?_
      · rw [hpoll.of_error he]
        exact hdisabled
      rintro ⟨r, c', rest, answers'⟩ ht
      have hkept := pollMessages_kept hw hstage hholds ht
      rw [hstage] at hkept
      exact Ends.ok hkept
    | pollAcks comps n =>
      unfold workStep
      rw [hstage]
      have hpoll := poll_disabled (w.ctx.qpMeta a).recv (ackHandler enableAssertions a) comps
        (.ok w.ctx, n)
      refine Ends.bind (Ends.intro (fun t ht => ht) fun e he => ?_) ?_
      · rw [hpoll.of_error he]
        exact hdisabled
      rintro ⟨r, oc, left⟩ ht
      obtain ⟨c', rfl, hkept⟩ := pollAcks_kept hw hstage howes ht
      rw [hstage] at hkept
      exact Ends.ok hkept
  | broadcasts credits brI mesSent =>
    cases cmd with
    | proceed =>
      unfold workStep
      rw [hstage]
      exact (loopBroadcasts_kept hw hstage).bind fun p hp => Ends.ok hp
    | _ =>
      unfold workStep
      rw [hstage]
      exact Ends.error hdisabled
  | batch credits brI mesSent =>
    cases cmd with
    | proceed =>
      have hbatch := batch_kept hw hi hstage
      unfold workStep
      rw [hstage] at hbatch ⊢
      show Ends Proceeds ((w.ctx.postBroadcasts b brI >>= _) >>= _) _
      rw [bind_assoc]
      exact hbatch.bind fun c' hc' => Ends.ok hc'
    | _ =>
      unfold workStep
      rw [hstage]
      exact Ends.error hdisabled
  | acks l slots =>
    cases cmd with
    | proceed =>
      have hacks := acks_kept hw hi hstage
      unfold workStep
      rw [hstage] at hacks ⊢
      show Ends Proceeds ((w.ctx.postAcks a l >>= _) >>= _) _
      rw [bind_assoc]
      exact hacks.bind fun c' hc' => Ends.ok hc'
    | _ =>
      unfold workStep
      rw [hstage]
      exact Ends.error hdisabled

/-- **The assertion on the credits** does not fail: a worker that polls acks is stuck only where it
    cannot poll. -/
theorem pollAcks_disabled {enableAssertions : Bool} (hw : WorkerInv b a machineNum maxCredits i w)
    (howes : ∀ j ∈ others machineNum i, w.owes b a i j ≤ maxCredits.toNat) (comps n : Nat) :
    Ends (· = .disabled) (workStep enableAssertions b a w (.pollAcks comps n)) fun _ => True := by
  by_cases hidle : w.stage = .idle
  · unfold workStep
    rw [hidle]
    have hpoll := poll_disabled (w.ctx.qpMeta a).recv (ackHandler enableAssertions a) comps
      (.ok w.ctx, n)
    refine Ends.bind (Ends.intro (fun t ht => ht) fun e he => hpoll.of_error he) ?_
    rintro ⟨r, oc, left⟩ ht
    obtain ⟨c', rfl, -⟩ := pollAcks_kept hw hidle howes ht
    exact Ends.ok trivial
  · unfold workStep
    cases hstage : w.stage with
    | idle => exact absurd hstage hidle
    | broadcasts credits brI mesSent => exact Ends.error rfl
    | batch credits brI mesSent => exact Ends.error rfl
    | acks l slots => exact Ends.error rfl

end Odyssey
