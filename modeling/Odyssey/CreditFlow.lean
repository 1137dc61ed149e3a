/-
  WHERE THE CREDITS ARE.

  The credits of a sender for a remote machine are at six places: left in its counter, in flight
  with a message, with a message that was not handled, in the ack that is pending for the sender,
  in flight with an ack, and with an ack that was not handled.  Two of the places are in the
  sender's worker (`Worker.owes`), two in the worker of the remote machine (`Worker.holds`), and
  `weights` is what flies, or was lost.

  In the middle of `ctx_send_broadcasts` the counter is behind: it is decreased when the call
  ends, for all that was posted.  `Worker.left` is what the counter will be, of the broadcasts
  that were posted so far.  In the same way an ack that is about to be posted is still pending,
  though its slot is marked as sent (`Worker.Pends`).

  `WorkerInv` is what a worker keeps.  Its two bounds on the receives that are missing are the
  point: a receive of a message is posted again before the ack that gives its credit back, so at
  most the credits of the pending acks are missing, and a receive of an ack before the credit that
  it brought is spent, so at most the credits that are left are.  `Moves` is what a step of a
  worker does to the credits: what it has less of, it has handed to the NIC.
-/
import Odyssey.CreditNet
import Odyssey.RecvCounts
import Mathlib.Algebra.Order.BigOperators.Group.Finset

namespace Odyssey

open Lib

/-! ## Setters -/

namespace Context

variable {μ : Type} (c : Context μ) (qp i : Nat)

theorem qpMeta_modify (f : PerQpMeta μ → PerQpMeta μ) :
    (c.modify qp f).qpMeta i = if i = qp then f (c.qpMeta i) else c.qpMeta i := by
  by_cases h : i = qp
  · subst h
    rw [if_pos rfl, qpMeta_modify_self]
  · rw [if_neg h]
    exact Function.update_of_ne h ..

theorem qpMeta_setSend (s : SendQueue) : (c.setSend qp s).qpMeta i =
    { c.qpMeta i with send := if i = qp then s else (c.qpMeta i).send } := by
  unfold setSend
  rw [qpMeta_modify]
  split <;> rfl

theorem qpMeta_setRecv (r : RecvQueue μ) : (c.setRecv qp r).qpMeta i =
    { c.qpMeta i with recv := if i = qp then r else (c.qpMeta i).recv } := by
  unfold setRecv
  rw [qpMeta_modify]
  split <;> rfl

theorem qpMeta_setCredits (credits : Nat → UInt16) : (c.setCredits qp credits).qpMeta i =
    { c.qpMeta i with credits := if i = qp then credits else (c.qpMeta i).credits } := by
  unfold setCredits
  rw [qpMeta_modify]
  split <;> rfl

/-- New acks in the slots of a QP. -/
def setAcks (acks : Nat → CtxAckMes) : Context μ := c.modify qp ({ · with acks := acks })

theorem qpMeta_setAcks (acks : Nat → CtxAckMes) : (c.setAcks qp acks).qpMeta i =
    { c.qpMeta i with acks := if i = qp then acks else (c.qpMeta i).acks } := by
  unfold setAcks
  rw [qpMeta_modify]
  split <;> rfl

end Context

/-- The contexts send alike: what differs are credits, FIFOs, acks and receives. -/
structure Alike {μ : Type} (c c' : Context μ) : Prop where
  cl : c'.cl = c.cl
  qpNum : c'.qpNum = c.qpNum
  qInfo : c'.qInfo = c.qInfo
  conf : ∀ qp, (c'.qpMeta qp).toQpConf = (c.qpMeta qp).toQpConf
  send : ∀ qp, (c'.qpMeta qp).send = (c.qpMeta qp).send

namespace Alike

variable {μ : Type} {c c' c'' : Context μ}

theorem refl (c : Context μ) : Alike c c := ⟨rfl, rfl, rfl, fun _ => rfl, fun _ => rfl⟩

theorem trans (h : Alike c c') (h' : Alike c' c'') : Alike c c'' :=
  ⟨h'.cl.trans h.cl, h'.qpNum.trans h.qpNum, h'.qInfo.trans h.qInfo,
    fun qp => (h'.conf qp).trans (h.conf qp), fun qp => (h'.send qp).trans (h.send qp)⟩

theorem setRecv (c : Context μ) (qp : Nat) (r : RecvQueue μ) : Alike c (c.setRecv qp r) := by
  refine ⟨rfl, rfl, rfl, fun i => ?_, fun i => ?_⟩
  · rw [Context.qpMeta_setRecv]
  · rw [Context.qpMeta_setRecv]

theorem setCredits (c : Context μ) (qp : Nat) (credits : Nat → UInt16) :
    Alike c (c.setCredits qp credits) := by
  refine ⟨rfl, rfl, rfl, fun i => ?_, fun i => ?_⟩
  · rw [Context.qpMeta_setCredits]
  · rw [Context.qpMeta_setCredits]

theorem setAcks (c : Context μ) (qp : Nat) (acks : Nat → CtxAckMes) :
    Alike c (c.setAcks qp acks) := by
  refine ⟨rfl, rfl, rfl, fun i => ?_, fun i => ?_⟩
  · rw [Context.qpMeta_setAcks]
  · rw [Context.qpMeta_setAcks]

theorem frame (h : Alike c c') (qp : Nat) : Frame qp c c' :=
  ⟨h.cl, h.qpNum, h.qInfo, h.conf, fun i _ => h.send i⟩

theorem ready (h : Alike c c') (hr : Ready c) : Ready c' := by
  refine ⟨by rw [h.cl]; exact hr.fit, by rw [h.cl, h.qInfo]; exact hr.agrees, fun qp => ?_,
    fun qp hqp => ?_, fun qp hqp hu => ?_, fun qp => ?_⟩
  · rw [h.conf qp]
    exact hr.ssBatch qp
  · rw [h.qInfo] at hqp ⊢
    have hold := hr.bcasts qp hqp
    refine ⟨by rw [h.conf qp]; exact hold.bcast, by rw [h.cl, h.conf qp]; exact hold.room, ?_⟩
    rw [h.cl, h.send qp]
    exact hold.building
  · rw [h.conf qp] at hu ⊢
    exact hr.unicasts qp (by rw [← h.qpNum]; exact hqp) hu
  · rw [h.conf qp, h.send qp]
    exact hr.paced qp

theorem ackReady (h : Alike c c') {qp : Nat} (hr : AckReady c qp) : AckReady c' qp :=
  hr.frame (h.frame qp) (by rw [h.send qp]; exact Keeps.refl _) (h.ready hr.ready)

end Alike

/-! ## Weights -/

/-- What a packet carries of the credits that machine `sender` has for machine `m`. -/
def Flight.weight (sender m : Nat) (f : Flight) : Nat :=
  match f.packet with
  | .mes s => if s = sender ∧ f.dst = m then 1 else 0
  | .ack ack => if f.dst = sender ∧ ack.mId.toNat = m then ack.credits.toNat else 0

/-- What some packets carry. -/
def weights (sender m : Nat) (l : List Flight) : Nat := (l.map (Flight.weight sender m)).sum

section Weights

variable {sender m : Nat}

@[simp] theorem weights_nil : weights sender m [] = 0 := rfl

@[simp] theorem weights_cons (f : Flight) (l : List Flight) :
    weights sender m (f :: l) = f.weight sender m + weights sender m l := rfl

@[simp] theorem weights_append (l l' : List Flight) :
    weights sender m (l ++ l') = weights sender m l + weights sender m l' := by
  unfold weights
  rw [List.map_append, List.sum_append]

/-- A packet leaves. -/
theorem weights_eraseIdx {l : List Flight} {n : Nat} {f : Flight} (h : l[n]? = some f) :
    weights sender m (l.eraseIdx n) + f.weight sender m = weights sender m l := by
  induction l generalizing n with
  | nil => nomatch h
  | cons x l ih =>
    cases n with
    | zero =>
      cases h
      rw [List.eraseIdx_cons_zero, weights_cons, Nat.add_comm]
    | succ n =>
      have hrest := ih (show l[n]? = some f from h)
      rw [List.eraseIdx_cons_succ, weights_cons, weights_cons]
      omega

/-- Packets that carry nothing. -/
theorem weights_eq_zero {l : List Flight} (h : ∀ f ∈ l, f.weight sender m = 0) :
    weights sender m l = 0 := by
  induction l with
  | nil => rfl
  | cons f l ih =>
    rw [weights_cons, h f List.mem_cons_self, ih fun f' hf' => h f' (List.mem_cons_of_mem _ hf')]

/-- A packet carries no more than all of them. -/
theorem weight_le_weights {l : List Flight} {f : Flight} (h : f ∈ l) :
    f.weight sender m ≤ weights sender m l := by
  obtain ⟨n, hn, hf⟩ := List.getElem_of_mem h
  have hsome : l[n]? = some f := by rw [List.getElem?_eq_getElem hn, hf]
  have hsum : weights sender m (l.eraseIdx n) + f.weight sender m = weights sender m l :=
    weights_eraseIdx hsome
  omega

end Weights

/-- The machine whose worker handed a packet to the NIC. -/
def Packet.source : Packet → Nat
  | .mes sender => sender
  | .ack m => m.mId.toNat

/-- A packet between two machines; an ack gives at least one credit back. -/
structure Flight.Ok (machineNum : Nat) (f : Flight) : Prop where
  dst : f.dst < machineNum
  source : f.packet.source < machineNum
  ne : f.packet.source ≠ f.dst
  pos : ∀ ack, f.packet = .ack ack → 1 ≤ ack.credits.toNat

/-- The pair of machines whose credits a packet carries. -/
def Flight.pair (f : Flight) : Nat × Nat :=
  match f.packet with
  | .mes sender => (sender, f.dst)
  | .ack ack => (f.dst, ack.mId.toNat)

theorem Flight.weight_of_ne {f : Flight} {sender m : Nat} (h : f.pair ≠ (sender, m)) :
    f.weight sender m = 0 := by
  unfold Flight.weight
  cases hp : f.packet with
  | mes s =>
    refine if_neg fun hc => h ?_
    rw [Flight.pair, hp]
    exact Prod.ext hc.1 hc.2
  | ack ack =>
    refine if_neg fun hc => h ?_
    rw [Flight.pair, hp]
    exact Prod.ext hc.1 hc.2

theorem Flight.Ok.weight_pos {machineNum : Nat} {f : Flight} (h : f.Ok machineNum) :
    1 ≤ f.weight f.pair.1 f.pair.2 := by
  unfold Flight.weight Flight.pair
  cases hp : f.packet with
  | mes s =>
    dsimp only
    rw [if_pos ⟨rfl, rfl⟩]
  | ack ack =>
    dsimp only
    rw [if_pos ⟨rfl, rfl⟩]
    exact h.pos ack hp

/-! ## The credits of a worker -/

namespace CallStage

/-- The broadcasts of a call that were posted.  Their credits are taken when it ends. -/
def posted : CallStage → Nat
  | .broadcasts _ brI mesSent | .batch _ brI mesSent => mesSent - brI
  | .idle | .acks _ _ => 0

/-- The acks that are about to be posted. -/
def slots : CallStage → List Nat
  | .acks _ slots => slots
  | .idle | .broadcasts _ _ _ | .batch _ _ _ => []

end CallStage

namespace Worker

variable (b a i : Nat) (w : Worker) (m : Nat)

/-- The credits for machine `m` that are left. -/
def left : Nat :=
  ((w.ctx.qpMeta b).credits m).toNat - if m ∈ w.ctx.qInfo.active then w.stage.posted else 0

/-- An ack for machine `m` is pending, or about to be posted. -/
def Pends : Prop := ((w.ctx.qpMeta a).acks m).opcode ≠ opAck ∨ m ∈ w.stage.slots

instance : Decidable (w.Pends a m) := inferInstanceAs (Decidable (_ ∨ _))

/-- The credits that it gives back. -/
def pend : Nat := if w.Pends a m then ((w.ctx.qpMeta a).acks m).credits.toNat else 0

/-- What has arrived at a QP of machine `i` and is not handled. -/
def arrived (qp : Nat) : List Flight := (w.unhandled qp).map (Flight.mk i)

/-- As a sender to machine `m`. -/
def owes : Nat := w.left b m + weights i m (w.arrived i a)

/-- As a receiver from machine `m`. -/
def holds : Nat := weights m i (w.arrived i b) + w.pend a m

end Worker

/-- The other machines. -/
def others (machineNum i : Nat) : Finset Nat := (Finset.range machineNum).erase i

theorem mem_others {machineNum i j : Nat} :
    j ∈ others machineNum i ↔ j ≠ i ∧ j < machineNum := by
  rw [others, Finset.mem_erase, Finset.mem_range]

theorem card_others {machineNum i : Nat} (h : i < machineNum) :
    (others machineNum i).card = machineNum - 1 := by
  rw [others, Finset.card_erase_of_mem (Finset.mem_range.mpr h), Finset.card_range]

/-- Packets that carry something for one of the others, summed over the others. -/
theorem length_le_sum {s : Finset Nat} {w : Nat → Flight → Nat} {l : List Flight}
    (h : ∀ f ∈ l, ∃ j ∈ s, 1 ≤ w j f) : l.length ≤ ∑ j ∈ s, (l.map (w j)).sum := by
  induction l with
  | nil => exact Nat.zero_le _
  | cons f l ih =>
    obtain ⟨j, hj, hpos⟩ := h f List.mem_cons_self
    have hrest := ih fun f' hf' => h f' (List.mem_cons_of_mem _ hf')
    have hone : w j f ≤ ∑ j ∈ s, w j f :=
      Finset.single_le_sum (f := fun j => w j f) (fun _ _ => Nat.zero_le _) hj
    simp only [List.map_cons, List.sum_cons, List.length_cons, Finset.sum_add_distrib]
    omega

/-! ## What a worker keeps -/

/-- The two QPs of the worker of machine `i`. -/
structure PairedQps (b a machineNum : Nat) (maxCredits : UInt16) (i : Nat) (c : Context Packet) :
    Prop where
  machines : c.cl.machineNum = machineNum
  own : c.cl.machineId = i
  ne : b ≠ a
  sharing : b ∈ c.qInfo.sharing
  recvOfBcast : (c.qpMeta b).recvQpId = a
  recvOfAck : (c.qpMeta a).recvQpId = b
  max : (c.qpMeta b).maxCredits = maxCredits
  slots : c.slots a = machineNum
  mId : ∀ j, ((c.qpMeta a).acks j).mId.toNat = i

theorem PairedQps.keeps {b a machineNum i : Nat} {maxCredits : UInt16} {c c' : Context Packet}
    (h : PairedQps b a machineNum maxCredits i c) (hcl : c'.cl = c.cl)
    (hsharing : c'.qInfo.sharing = c.qInfo.sharing)
    (hconf : ∀ qp, (c'.qpMeta qp).toQpConf = (c.qpMeta qp).toQpConf)
    (hid : ∀ j, ((c'.qpMeta a).acks j).mId = ((c.qpMeta a).acks j).mId) :
    PairedQps b a machineNum maxCredits i c' := by
  refine ⟨by rw [hcl]; exact h.machines, by rw [hcl]; exact h.own, h.ne,
    by rw [hsharing]; exact h.sharing, by rw [hconf b]; exact h.recvOfBcast,
    by rw [hconf a]; exact h.recvOfAck, by rw [hconf b]; exact h.max, ?_, fun j => ?_⟩
  · rw [Context.slots, hconf a]
    exact h.slots
  · rw [hid j]
    exact h.mId j

/-- In the loop of `ctx_send_broadcasts`, or about to post a batch in it: there are credits for what
    was sent, and for what may still be. -/
structure Broadcasting (b a : Nat) (c : Context Packet) (credits brI mesSent : Nat) : Prop where
  inBatch : ∃ c₀, AckReady c₀ a ∧ CanBroadcast c₀ b ∧ b ∈ c₀.qInfo.sharing ∧ InBatch b c₀ brI c
  le : brI ≤ mesSent
  covered : ∀ m ∈ c.qInfo.active, mesSent + credits ≤ ((c.qpMeta b).credits m).toNat

/-- In `od_send_acks`, about to post the acks in `slots`. -/
structure Acking (a : Nat) (c : Context Packet) (l : Context.AckLoop) (slots : List Nat) :
    Prop where
  forged : ∃ c₀, AckReady c₀ a ∧ Frame a c₀ c ∧ (c.qpMeta a).send = l.send ∧
    slots = pendingAcks (c₀.qpMeta a).acks (c₀.slots a) ∧
    AckBatch (c₀.qpMeta a).sendWrNum (c₀.qpMeta a).ssBatch (c₀.qpMeta a).send (c₀.qpMeta a).acks
      (c₀.slots a) l
  acks : ∀ m, m < c.slots a → ((c.qpMeta a).acks m).opcode = opAck
  ne : slots ≠ []

/-- What holds in each stage of a call. -/
def StageInv (b a : Nat) (c : Context Packet) : CallStage → Prop
  | .idle => AckReady c a
  | .broadcasts credits brI mesSent => Broadcasting b a c credits brI mesSent ∧ brI < maxBcastBatch
  | .batch credits brI mesSent => Broadcasting b a c credits brI mesSent ∧ 0 < brI ∧
      brI ≤ maxBcastBatch ∧ (c.qpMeta a).recv.missing = 0
  | .acks l slots => Acking a c l slots ∧ (c.qpMeta b).recv.missing = 0

/-- What the worker of machine `i` keeps. -/
structure WorkerInv (b a machineNum : Nat) (maxCredits : UInt16) (i : Nat) (w : Worker) : Prop where
  paired : PairedQps b a machineNum maxCredits i w.ctx
  stage : StageInv b a w.ctx w.stage
  credits_le : ∀ j ∈ others machineNum i, (w.ctx.qpMeta b).credits j ≤ maxCredits
  /-- a pending ack is for another machine and gives a credit back -/
  pends : ∀ j, j < machineNum → w.Pends a j → j ≠ i ∧ 1 ≤ w.pend a j
  bcastRecvs : RecvCounts (w.ctx.qpMeta b).recv (w.unhandled b).length
  ackRecvs : RecvHolds (w.ctx.qpMeta a).recv (w.unhandled a)
  arrivedMes : ∀ p ∈ w.unhandled b, (Flight.mk i p).Ok machineNum ∧ p.qp b a = b
  arrivedAcks : ∀ p ∈ w.unhandled a, (Flight.mk i p).Ok machineNum ∧ p.qp b a = a
  bcastMissing : (w.ctx.qpMeta b).recv.missing ≤ ∑ j ∈ others machineNum i, w.pend a j
  ackMissing : (w.ctx.qpMeta a).recv.missing ≤ ∑ j ∈ others machineNum i, w.left b j
  bcastRoom : maxCredits.toNat * (machineNum - 1) ≤ (w.ctx.qpMeta b).recv.recvWrNum
  ackRoom : maxCredits.toNat * (machineNum - 1) ≤ (w.ctx.qpMeta a).recv.recvWrNum

/-- What a step of machine `i` does to the credits of machine `i` and its remote machines. -/
structure Moves (b a machineNum i : Nat) (w w' : Worker) (flights : List Flight) : Prop where
  owes : ∀ j ∈ others machineNum i,
    w'.owes b a i j + weights i j flights = w.owes b a i j
  holds : ∀ j ∈ others machineNum i,
    w'.holds b a i j + weights j i flights = w.holds b a i j
  ok : ∀ f ∈ flights, f.Ok machineNum ∧ f.packet.source = i

end Odyssey
