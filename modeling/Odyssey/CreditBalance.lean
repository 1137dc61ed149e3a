/-
  CREDITS ARE CONSERVED.

  A sender has `max_credits` for each remote machine.  Wherever they are (`CreditFlow`), there are
  as many of them in any run:

      owes + holds + what flies + what was lost = max_credits

  A step of a worker moves credits between its own places and the NIC, an arrival from the NIC to
  a place, and a loss to `lost`.  No step makes any, so the account of each pair of machines
  balances.

  From the balance and the two bounds on the missing receives it follows that every packet that
  flies finds a receive.  The receives of a QP that no packet waits in are missing, or hold a
  packet that is not handled, and both are paid for with credits at that machine: were no receive
  posted, all `max_credits * (MACHINE_NUM - 1)` credits would be there, and none could fly.
-/
import Odyssey.CreditHandlers

namespace Odyssey

open Lib

/-! ## The promise -/

/-- The broadcasts to machine `m` that the call that a worker is in has posted.  Their credits are
    taken when it ends. -/
def Worker.unpaid (w : Worker) (m : Nat) : Nat :=
  if m ∈ w.ctx.qInfo.active then w.stage.posted else 0

/-- What a call has sent, or is about to. -/
def CallStage.sent : CallStage → Nat
  | .broadcasts _ _ mesSent | .batch _ _ mesSent => mesSent
  | .idle | .acks _ _ => 0

/-- The account of a sender and machine `m`: the sender's counter, the messages and acks in flight,
    the messages that machine `m` did not handle, its pending ack, and the acks that the sender did
    not handle. -/
def Net.account (b a : Nat) (s : Net) (sender m : Nat) : Nat :=
  (((s.worker sender).ctx.qpMeta b).credits m).toNat + weights sender m s.flying +
    weights sender m ((s.worker m).arrived m b) + (s.worker m).pend a sender +
    weights sender m ((s.worker sender).arrived sender a)

/-- What is promised of the credits in every state. -/
structure CreditsConserved (b a machineNum : Nat) (maxCredits : UInt16) (s : Net) : Prop where
  /-- Nothing appears, and only what the network loses disappears. -/
  sum : ∀ sender m, sender < machineNum → m < machineNum → sender ≠ m →
    s.account b a sender m + weights sender m s.lost =
      maxCredits.toNat + (s.worker sender).unpaid m
  /-- Unless the sender is in the middle of a call and has not paid for what it posted. -/
  le : ∀ sender m, sender < machineNum → m < machineNum → sender ≠ m →
    (s.worker sender).stage.posted = 0 → s.account b a sender m ≤ maxCredits.toNat
  eq : ∀ sender m, sender < machineNum → m < machineNum → sender ≠ m →
    (s.worker sender).stage.posted = 0 → s.lost = [] → s.account b a sender m = maxCredits.toNat
  credits_le : ∀ sender m, sender < machineNum → m < machineNum → sender ≠ m →
    ((s.worker sender).ctx.qpMeta b).credits m ≤ maxCredits
  /-- When acks are handled, there is room for all their credits. -/
  room : ∀ sender m, sender < machineNum → m < machineNum → sender ≠ m →
    (s.worker sender).stage = .idle → (((s.worker sender).ctx.qpMeta b).credits m).toNat +
      weights sender m ((s.worker sender).arrived sender a) ≤ maxCredits.toNat
  /-- When a call pays, there are credits for all that it sent. -/
  covered : ∀ sender, sender < machineNum → ∀ m ∈ (s.worker sender).ctx.qInfo.active,
    (s.worker sender).stage.sent ≤ (((s.worker sender).ctx.qpMeta b).credits m).toNat
  /-- A receive is posted for everything that flies. -/
  received : ∀ f ∈ s.flying, ((s.worker f.dst).ctx.qpMeta (f.packet.qp b a)).recv.rq ≠ []

/-- How a worker is installed: the context is set up, the QPs are paired, the receives of both are
    preposted, on the ack QP one for each slot at most, and its acks are free and carry the machine
    id. -/
structure Worker.Installed (b a machineNum : Nat) (maxCredits : UInt16) (i : Nat) (w : Worker) :
    Prop where
  setUp : ∃ c c₁ : Context Packet, Created c ∧ AckQp c a ∧ c.initCtxSendWrs = .ok c₁ ∧
    c₁.setUpQInfo = .ok w.ctx
  machines : w.ctx.cl.machineNum = machineNum
  own : w.ctx.cl.machineId = i
  bcast : b ∈ w.ctx.qInfo.sharing
  recvOfBcast : (w.ctx.qpMeta b).recvQpId = a
  recvOfAck : (w.ctx.qpMeta a).recvQpId = b
  max : (w.ctx.qpMeta b).maxCredits = maxCredits
  credits : ∀ m, (w.ctx.qpMeta b).credits m = maxCredits
  slots : w.ctx.slots a = machineNum
  free : ∀ m, ((w.ctx.qpMeta a).acks m).opcode = opAck ∧ ((w.ctx.qpMeta a).acks m).mId.toNat = i
  bcastRecvs : ∃ wrNum slotNum, maxCredits.toNat * (machineNum - 1) ≤ wrNum.toNat ∧
    (ctxInitRecvInfo Packet wrNum slotNum).ctxPrepostRecvs = .ok (w.ctx.qpMeta b).recv
  ackRecvs : ∃ wrNum slotNum, maxCredits.toNat * (machineNum - 1) ≤ wrNum.toNat ∧
    wrNum.toNat ≤ slotNum.toNat ∧
    (ctxInitRecvInfo Packet wrNum slotNum).ctxPrepostRecvs = .ok (w.ctx.qpMeta a).recv
  stage : w.stage = .idle
  unhandled : ∀ qp, w.unhandled qp = []

/-- Every worker is installed, and nothing flies. -/
structure Net.Installed (b a machineNum : Nat) (maxCredits : UInt16) (s : Net) : Prop where
  worker : ∀ i, i < machineNum → (s.worker i).Installed b a machineNum maxCredits i
  flying : s.flying = []
  lost : s.lost = []

/-! ## The invariant -/

variable {b a machineNum : Nat} {maxCredits : UInt16}

/-- Every worker keeps its invariant, and the account of every two machines balances. -/
structure Balanced (b a machineNum : Nat) (maxCredits : UInt16) (s : Net) : Prop where
  worker : ∀ i, i < machineNum → WorkerInv b a machineNum maxCredits i (s.worker i)
  flying : ∀ f ∈ s.flying, f.Ok machineNum
  balance : ∀ sender m, sender < machineNum → m < machineNum → sender ≠ m →
    (s.worker sender).owes b a sender m + (s.worker m).holds b a m sender +
      weights sender m s.flying + weights sender m s.lost = maxCredits.toNat

/-- **The start**: all credits are at their senders. -/
theorem WorkerInv.start {i : Nat} {w : Worker} (h : w.Installed b a machineNum maxCredits i) :
    WorkerInv b a machineNum maxCredits i w ∧ (∀ m, w.owes b a i m = maxCredits.toNat) ∧
      ∀ m, w.holds b a i m = 0 := by
  obtain ⟨c, c₁, hnew, hack, hinit, hset⟩ := h.setUp
  have hready := ackReady_setUp hnew hack hinit hset
  obtain ⟨bwr, bslots, hbroom, hbpost⟩ := h.bcastRecvs
  obtain ⟨awr, aslots, haroom, hale, hapost⟩ := h.ackRecvs
  obtain ⟨hcounts, hbmissing, hbnum⟩ := RecvCounts.prepost hbpost
  obtain ⟨hholds, hamissing, hanum⟩ := RecvHolds.prepost hale hapost
  have hne : b ≠ a := by
    rintro rfl
    have hbcast := (hready.ready.bcasts b h.bcast).bcast
    rw [hready.flow] at hbcast
    nomatch hbcast
  have hpends : ∀ m, ¬ w.Pends a m := by
    rintro m (hopen | hslot)
    · exact hopen (h.free m).1
    · rw [h.stage] at hslot
      nomatch hslot
  refine ⟨⟨⟨h.machines, h.own, hne, h.bcast, h.recvOfBcast, h.recvOfAck, h.max, h.slots,
    fun m => (h.free m).2⟩, ?_, fun j _ => ?_, fun j _ hp => absurd hp (hpends j), ?_, ?_, ?_, ?_,
    ?_, ?_, ?_, ?_⟩, fun m => ?_, fun m => ?_⟩
  · rw [h.stage]
    exact hready
  · rw [h.credits j]
    exact UInt16.le_refl _
  · rw [h.unhandled]
    exact hcounts
  · rw [h.unhandled]
    exact hholds
  · rw [h.unhandled]
    exact fun p hp => nomatch hp
  · rw [h.unhandled]
    exact fun p hp => nomatch hp
  · rw [hbmissing]
    exact Nat.zero_le _
  · rw [hamissing]
    exact Nat.zero_le _
  · rw [hbnum]
    exact hbroom
  · rw [hanum]
    exact haroom
  · unfold Worker.owes Worker.arrived
    rw [h.unhandled, Worker.left_idle (by rw [h.stage]; rfl), h.credits m]
    rfl
  · unfold Worker.holds Worker.arrived Worker.pend
    rw [h.unhandled, if_neg (hpends m)]
    rfl

theorem Balanced.start {s : Net} (h : s.Installed b a machineNum maxCredits) :
    Balanced b a machineNum maxCredits s := by
  refine ⟨fun i hi => (WorkerInv.start (h.worker i hi)).1, ?_, fun sender m hs hm _ => ?_⟩
  · rw [h.flying]
    exact fun f hf => nomatch hf
  · obtain ⟨-, howes, -⟩ := WorkerInv.start (h.worker sender hs)
    obtain ⟨-, -, hholds⟩ := WorkerInv.start (h.worker m hm)
    rw [howes m, hholds sender, h.flying, h.lost]
    rfl

namespace Balanced

variable {s s' : Net}

theorem owes_le (h : Balanced b a machineNum maxCredits s) {i : Nat} (hi : i < machineNum) :
    ∀ j ∈ others machineNum i, (s.worker i).owes b a i j ≤ maxCredits.toNat := by
  intro j hj
  obtain ⟨hne, hlt⟩ := mem_others.mp hj
  have hbalance := h.balance i j hi hlt (Ne.symm hne)
  omega

theorem holds_le (h : Balanced b a machineNum maxCredits s) {i : Nat} (hi : i < machineNum) :
    ∀ j ∈ others machineNum i, (s.worker i).holds b a i j ≤ maxCredits.toNat := by
  intro j hj
  obtain ⟨hne, hlt⟩ := mem_others.mp hj
  have hbalance := h.balance j i hlt hi hne
  omega

/-! ## Steps -/

/-- **A step of a worker.** -/
theorem work {enableAssertions : Bool} (h : Balanced b a machineNum maxCredits s) {i : Nat}
    (hi : i < machineNum) (cmd : WorkCmd) :
    Ends Proceeds (workStep enableAssertions b a (s.worker i) cmd) fun p =>
      Balanced b a machineNum maxCredits { s with
        worker := Function.update s.worker i p.1, flying := s.flying ++ p.2 } := by
  refine (workStep_keeps (h.worker i hi) hi (h.owes_le hi) (h.holds_le hi) cmd).mono ?_
  rintro ⟨w', flights⟩ ⟨hinv, hmoves⟩
  dsimp only at hinv hmoves ⊢
  refine ⟨fun j hj => ?_, fun f hf => ?_, fun sender m hs hm hne => ?_⟩
  · dsimp only
    by_cases heq : j = i
    · subst heq
      rw [Function.update_self]
      exact hinv
    · rw [Function.update_of_ne heq]
      exact h.worker j hj
  · rcases List.mem_append.mp hf with hf | hf
    · exact h.flying f hf
    · exact (hmoves.ok f hf).1
  · have hbalance := h.balance sender m hs hm hne
    dsimp only
    rw [weights_append]
    by_cases hsender : sender = i
    · subst hsender
      have howes := hmoves.owes m (mem_others.mpr ⟨Ne.symm hne, hm⟩)
      rw [Function.update_self, Function.update_of_ne (Ne.symm hne)]
      omega
    · rw [Function.update_of_ne hsender]
      by_cases hm' : m = i
      · subst hm'
        have hholds := hmoves.holds sender (mem_others.mpr ⟨hne, hs⟩)
        rw [Function.update_self]
        omega
      · -- the packets are of other machines
        have hzero : weights sender m flights = 0 := by
          refine weights_eq_zero fun f hf => Flight.weight_of_ne fun hpair => ?_
          have hsource := (hmoves.ok f hf).2
          unfold Flight.pair at hpair
          cases hp : f.packet with
          | mes x =>
            rw [hp] at hpair hsource
            exact hsender ((congrArg Prod.fst hpair).symm.trans hsource)
          | ack x =>
            rw [hp] at hpair hsource
            exact hm' ((congrArg Prod.snd hpair).symm.trans hsource)
        rw [Function.update_of_ne hm', hzero]
        exact hbalance

/-- **A packet arrives.** -/
theorem arrive (h : Balanced b a machineNum maxCredits s) {n : Nat} {f : Flight} {w : Worker}
    (hf : s.flying[n]? = some f) (hr : (s.worker f.dst).receive b a f.packet = .ok w) :
    Balanced b a machineNum maxCredits { s with
      worker := Function.update s.worker f.dst w, flying := s.flying.eraseIdx n } := by
  have hok := h.flying f (List.mem_of_getElem? hf)
  obtain ⟨hinv, howes, hholds⟩ := receive_kept (h.worker f.dst hok.dst) hok rfl hr
  refine ⟨fun j hj => ?_, fun f' hf' => h.flying f' (List.mem_of_mem_eraseIdx hf'),
    fun sender m hs hm hne => ?_⟩
  · dsimp only
    by_cases heq : j = f.dst
    · subst heq
      rw [Function.update_self]
      exact hinv
    · rw [Function.update_of_ne heq]
      exact h.worker j hj
  · have hbalance := h.balance sender m hs hm hne
    have herase : weights sender m (s.flying.eraseIdx n) + f.weight sender m =
      weights sender m s.flying := weights_eraseIdx hf
    dsimp only
    by_cases hsender : sender = f.dst
    · subst hsender
      have hnew := howes m (mem_others.mpr ⟨Ne.symm hne, hm⟩)
      rw [Function.update_self, Function.update_of_ne (Ne.symm hne)]
      omega
    · rw [Function.update_of_ne hsender]
      by_cases hm' : m = f.dst
      · subst hm'
        have hnew := hholds sender (mem_others.mpr ⟨hne, hs⟩)
        rw [Function.update_self]
        omega
      · -- the packet is between other machines
        have hzero : f.weight sender m = 0 := by
          refine Flight.weight_of_ne fun hpair => ?_
          unfold Flight.pair at hpair
          cases hp : f.packet with
          | mes x =>
            rw [hp] at hpair
            exact hm' (congrArg Prod.snd hpair).symm
          | ack x =>
            rw [hp] at hpair
            exact hsender (congrArg Prod.fst hpair).symm
        rw [Function.update_of_ne hm']
        omega

/-- **A packet is lost.** -/
theorem lose (h : Balanced b a machineNum maxCredits s) {n : Nat} {f : Flight}
    (hf : s.flying[n]? = some f) : Balanced b a machineNum maxCredits { s with
      flying := s.flying.eraseIdx n, lost := s.lost ++ [f] } := by
  refine ⟨h.worker, fun f' hf' => h.flying f' (List.mem_of_mem_eraseIdx hf'),
    fun sender m hs hm hne => ?_⟩
  have hbalance := h.balance sender m hs hm hne
  have herase : weights sender m (s.flying.eraseIdx n) + f.weight sender m =
    weights sender m s.flying := weights_eraseIdx hf
  dsimp only
  rw [weights_append, weights_cons, weights_nil]
  omega

/-- **Every step** keeps the balance, and neither waits nor aborts. -/
theorem step {enableAssertions : Bool} (h : Balanced b a machineNum maxCredits s) (cmd : NetCmd) :
    Ends Proceeds (netStep enableAssertions b a machineNum s cmd) fun p =>
      Balanced b a machineNum maxCredits p.1 := by
  have hdisabled : Proceeds .disabled := ⟨by decide, by decide⟩
  cases cmd with
  | work i cmd =>
    unfold netStep
    dsimp only
    by_cases hi : i < machineNum
    · rw [if_pos hi]
      exact (h.work hi cmd).bind fun p hp => Ends.ok hp
    · rw [if_neg hi]
      exact Ends.error hdisabled
  | arrive n =>
    unfold netStep
    dsimp only
    cases hf : s.flying[n]? with
    | none => exact Ends.error hdisabled
    | some f =>
      refine Ends.bind (P := fun w => (s.worker f.dst).receive b a f.packet = .ok w)
        (Ends.intro (fun w hw => hw) fun e he => ?_) fun w hw => Ends.ok (h.arrive hf hw)
      -- a packet that finds no receive is not there yet
      unfold Worker.receive RecvQueue.arrive at he
      dsimp only at he
      split at he
      · cases he
        exact hdisabled
      · cases he
  | lose n =>
    unfold netStep
    dsimp only
    cases hf : s.flying[n]? with
    | none => exact Ends.error hdisabled
    | some f => exact Ends.ok (h.lose hf)

/-! ## Receives -/

/-- All that arrived and is not handled is paid for. -/
theorem arrived_le_sum {i qp : Nat} {w : Worker} (weight : Nat → Flight → Nat)
    (hpos : ∀ p ∈ w.unhandled qp, ∃ j ∈ others machineNum i, 1 ≤ weight j ⟨i, p⟩) :
    (w.unhandled qp).length ≤
      ∑ j ∈ others machineNum i, ((w.arrived i qp).map (weight j)).sum := by
  have hall := handled_le_sum weight (Nat.le_refl (w.unhandled qp).length) hpos
  unfold Worker.handledOf at hall
  rw [List.take_length] at hall
  exact hall

/-- Receives that are not posted are paid for, and not all of them can be. -/
theorem posted {i n : Nat} {r : RecvQueue Packet} {p : Nat → Nat} (hi : i < machineNum)
    (hcounts : RecvCounts r n) (hroom : maxCredits.toNat * (machineNum - 1) ≤ r.recvWrNum)
    (hpaid : r.missing + n ≤ ∑ j ∈ others machineNum i, p j)
    (hle : ∀ j ∈ others machineNum i, p j ≤ maxCredits.toNat)
    (hlt : ∃ j ∈ others machineNum i, p j < maxCredits.toNat) : r.rq ≠ [] := by
  intro hnil
  have hposted := hcounts.posted
  have hmost := hcounts.posted_le
  rw [hnil, List.length_nil, Nat.add_zero] at hposted
  have hall : ∑ j ∈ others machineNum i, p j < ∑ _j ∈ others machineNum i, maxCredits.toNat :=
    Finset.sum_lt_sum hle hlt
  rw [Finset.sum_const_nat (m := maxCredits.toNat) fun _ _ => rfl, card_others hi,
    Nat.mul_comm] at hall
  unfold RecvQueue.missing at hpaid
  omega

/-- **Everything that flies finds a receive.** -/
theorem received (h : Balanced b a machineNum maxCredits s) {f : Flight} (hf : f ∈ s.flying) :
    ((s.worker f.dst).ctx.qpMeta (f.packet.qp b a)).recv.rq ≠ [] := by
  have hok := h.flying f hf
  have hw := h.worker f.dst hok.dst
  have hpos := hok.weight_pos
  have hle : f.weight f.pair.1 f.pair.2 ≤ weights f.pair.1 f.pair.2 s.flying :=
    weight_le_weights hf
  have hother := mem_others.mpr ⟨hok.ne, hok.source⟩
  obtain ⟨dst, p⟩ := f
  cases p with
  | mes sender =>
    dsimp only at hw hok hle
    have hbalance := h.balance sender dst hok.source hok.dst hok.ne
    refine posted hok.dst hw.bcastRecvs hw.bcastRoom
      (p := fun j => (s.worker dst).holds b a dst j) ?_ (h.holds_le hok.dst)
      ⟨sender, hother, ?_⟩
    · have harrived := arrived_le_sum (fun j f => f.weight j dst) fun p hp => hw.mes_pos hp
      have hmissing := hw.bcastMissing
      unfold Worker.holds
      rw [Finset.sum_add_distrib, Nat.add_comm]
      exact Nat.add_le_add harrived hmissing
    · show (s.worker dst).holds b a dst sender < _
      have hfly : 1 ≤ weights sender dst s.flying := Nat.le_trans hpos hle
      omega
  | ack ack =>
    dsimp only at hw hok hle
    have hne : dst ≠ ack.mId.toNat := Ne.symm hok.ne
    have hbalance := h.balance dst ack.mId.toNat hok.dst hok.source hne
    refine posted hok.dst hw.ackRecvs.counts hw.ackRoom
      (p := fun j => (s.worker dst).owes b a dst j) ?_ (h.owes_le hok.dst)
      ⟨ack.mId.toNat, hother, ?_⟩
    · have harrived := arrived_le_sum (fun j f => f.weight dst j) fun p hp => hw.ack_pos hp
      have hmissing := hw.ackMissing
      unfold Worker.owes
      rw [Finset.sum_add_distrib]
      exact Nat.add_le_add hmissing harrived
    · show (s.worker dst).owes b a dst ack.mId.toNat < _
      have hfly : 1 ≤ weights dst ack.mId.toNat s.flying := Nat.le_trans hpos hle
      omega

/-! ## The promise is kept -/

/-- A call has credits for what it sent. -/
theorem sent_le {i m : Nat} {w : Worker} (hw : WorkerInv b a machineNum maxCredits i w)
    (hm : m ∈ w.ctx.qInfo.active) : w.stage.sent ≤ ((w.ctx.qpMeta b).credits m).toNat := by
  have hstage := hw.stage
  cases hcall : w.stage with
  | idle => exact Nat.zero_le _
  | broadcasts credits brI mesSent =>
    rw [hcall] at hstage
    exact Nat.le_trans (Nat.le_add_right ..) (hstage.1.covered m hm)
  | batch credits brI mesSent =>
    rw [hcall] at hstage
    exact Nat.le_trans (Nat.le_add_right ..) (hstage.1.covered m hm)
  | acks l slots => exact Nat.zero_le _

theorem posted_le_sent (stage : CallStage) : stage.posted ≤ stage.sent := by
  cases stage with
  | idle => exact Nat.le_refl 0
  | broadcasts credits brI mesSent => exact Nat.sub_le ..
  | batch credits brI mesSent => exact Nat.sub_le ..
  | acks l slots => exact Nat.le_refl 0

/-- The counter is what is left, and what is not paid. -/
theorem counter {i : Nat} {w : Worker} (hw : WorkerInv b a machineNum maxCredits i w) (m : Nat) :
    ((w.ctx.qpMeta b).credits m).toNat = w.left b m + w.unpaid m := by
  unfold Worker.left Worker.unpaid
  by_cases hm : m ∈ w.ctx.qInfo.active
  · have hsent := sent_le hw hm
    have hle := posted_le_sent w.stage
    rw [if_pos hm]
    omega
  · rw [if_neg hm]
    rfl

theorem conserved (h : Balanced b a machineNum maxCredits s) :
    CreditsConserved b a machineNum maxCredits s := by
  have hsum : ∀ sender m, sender < machineNum → m < machineNum → sender ≠ m →
      s.account b a sender m + weights sender m s.lost =
        maxCredits.toNat + (s.worker sender).unpaid m := by
    intro sender m hs hm hne
    have hbalance := h.balance sender m hs hm hne
    unfold Net.account
    rw [counter (h.worker sender hs) m]
    unfold Worker.owes Worker.holds at hbalance
    omega
  have hpaid : ∀ sender m, (s.worker sender).stage.posted = 0 →
      (s.worker sender).unpaid m = 0 := by
    intro sender m hposted
    unfold Worker.unpaid
    rw [hposted, ite_self]
  refine ⟨hsum, fun sender m hs hm hne hposted => ?_, fun sender m hs hm hne hposted hlost => ?_,
    fun sender m hs hm hne => ?_, fun sender m hs hm hne hidle => ?_, fun sender hs m hm => ?_,
    fun f hf => h.received hf⟩
  · have hall := hsum sender m hs hm hne
    rw [hpaid sender m hposted] at hall
    omega
  · have hall := hsum sender m hs hm hne
    rw [hpaid sender m hposted, hlost, weights_nil] at hall
    omega
  · exact (h.worker sender hs).credits_le m (mem_others.mpr ⟨Ne.symm hne, hm⟩)
  · have howes := h.owes_le hs m (mem_others.mpr ⟨Ne.symm hne, hm⟩)
    unfold Worker.owes at howes
    rw [Worker.left_idle (by rw [hidle]; rfl)] at howes
    exact howes
  · exact sent_le (h.worker sender hs) hm

/-- **Acks are handled** wherever they can be polled. -/
theorem pollAcks {enableAssertions : Bool} (h : Balanced b a machineNum maxCredits s)
    (i comps n : Nat) :
    Ends (· = .disabled) (netStep enableAssertions b a machineNum s (.work i (.pollAcks comps n)))
      fun _ => True := by
  unfold netStep
  dsimp only
  by_cases hi : i < machineNum
  · rw [if_pos hi]
    exact (pollAcks_disabled (h.worker i hi) (h.owes_le hi) comps n).bind fun _ _ => Ends.ok trivial
  · rw [if_neg hi]
    exact Ends.error rfl

end Balanced

/-- **Credits are conserved**, in any run of the workers and the network, and no step of it waits or
    aborts.  The assertion on the credits does not fail: acks are always handled. -/
theorem credits_conserved {enableAssertions : Bool} {s₀ s : Net} {tr : List (NetCmd × Unit)}
    (hstart : s₀.Installed b a machineNum maxCredits)
    (hrun : Run (netStep enableAssertions b a machineNum) s₀ tr s) :
    CreditsConserved b a machineNum maxCredits s ∧
      (∀ cmd e, netStep enableAssertions b a machineNum s cmd = .error e → Proceeds e) ∧
      ∀ i comps n, netStep enableAssertions b a machineNum s (.work i (.pollAcks comps n)) ≠
        .error .undefined := by
  have hbalanced : Balanced b a machineNum maxCredits s := by
    refine hrun.invariant (fun _ s => Balanced b a machineNum maxCredits s)
      (Balanced.start hstart) ?_
    intro tr s k s' e _ ih hs
    exact (ih.step k).of_ok hs
  refine ⟨hbalanced.conserved, fun cmd e he => (hbalanced.step cmd).of_error he,
    fun i comps n hc => ?_⟩
  exact absurd ((hbalanced.pollAcks i comps n).of_error hc) (by decide)

/-! ## Three machines -/

/-- A worker before its context is set up: broadcast QP 0, with 2 credits for each remote machine
    and one message to send, and ack QP 1. -/
def pairedWorker (cl : Cluster) : Context Packet where
  cl := cl
  qpNum := 2
  qpMeta := fun qp =>
    if qp = 0 then {
      flowType := .sendBcastRecvBcast
      sendWrNum := 8
      recvQpId := 1
      receipientNum := 2
      leaderMId := 0
      ssBatch := 63
      maxCredits := 2
      needsCredits := true
      sendFifoNum := 1
      sendSize := 64
      enableInlining := true
      credits := fun _ => 2
      sendFifo := fun _ => { fifoConstructor 4 64 8 with
        slotMeta := fun _ => ⟨1, 16, 0, 0⟩, capacity := 1, netCapacity := 1 }
      acks := fun _ => ⟨0, 0, 0, 0, opAck⟩
      send := .blank
      recv := { ctxInitRecvInfo Packet 4 4 with recvInfo := ⟨0, 4, 4⟩, rq := [0, 1, 2, 3] }
      timeOutCnt := 0 }
    else {
      flowType := .sendAckRecvAck
      sendWrNum := 3
      recvQpId := 0
      receipientNum := 2
      leaderMId := 0
      ssBatch := 127
      maxCredits := 0
      needsCredits := false
      sendFifoNum := 1
      sendSize := 16
      enableInlining := true
      credits := fun _ => 0
      sendFifo := fun _ => fifoConstructor 3 16 0
      acks := fun _ => ⟨0, 0, 0, UInt8.ofNat cl.machineId, opAck⟩
      send := { SendQueue.blank with sendSgl := fun i => ⟨i, 16⟩ }
      recv := { ctxInitRecvInfo Packet 4 4 with recvInfo := ⟨0, 4, 4⟩, rq := [0, 1, 2, 3] }
      timeOutCnt := 0 }
  qInfo := .blank

/-- Set-up changes the send queues and the membership. -/
theorem setUp_keeps {μ : Type} {c c₁ c₀ : Context μ} (hinit : c.initCtxSendWrs = .ok c₁)
    (hset : c₁.setUpQInfo = .ok c₀) :
    c₀.cl = c.cl ∧ ∀ qp, ∃ s, c₀.qpMeta qp = { c.qpMeta qp with send := s } := by
  obtain ⟨hcl, -, hrest, hdone⟩ := initCtxSendWrs_spec hinit
  obtain ⟨q, -, hset⟩ := bind_eq_ok.mp hset
  cases hset
  refine ⟨hcl, fun qp => ?_⟩
  by_cases hqp : qp < c.qpNum
  · obtain ⟨s, -, hm⟩ := hdone qp hqp
    exact ⟨s, hm⟩
  · exact ⟨(c.qpMeta qp).send, hrest qp (by omega)⟩

theorem pairedWorker_installed {cl : Cluster} {c₁ c₀ : Context Packet} (hnum : cl.machineNum = 3)
    (hinit : (pairedWorker cl).initCtxSendWrs = .ok c₁) (hset : c₁.setUpQInfo = .ok c₀)
    (hsharing : c₀.qInfo.sharing = [0]) :
    Worker.Installed 0 1 3 2 cl.machineId ⟨c₀, .idle, fun _ => []⟩ := by
  obtain ⟨hcl, hqps⟩ := setUp_keeps hinit hset
  obtain ⟨sb, hb⟩ := hqps 0
  obtain ⟨sa, ha⟩ := hqps 1
  have hbatch : 63 = qpMetaSsBatch .sendBcastRecvBcast 2 8 := by decide
  have habatch : 127 = qpMetaSsBatch .sendAckRecvAck 2 3 := by decide
  have hnew : Created (pairedWorker cl) := by
    refine ⟨fun qp => ?_, fun qp => ?_, fun qp => ?_⟩
    · by_cases hqp : qp = 0
      · subst hqp
        exact hbatch
      · have heq : (pairedWorker cl).qpMeta qp = (pairedWorker cl).qpMeta 1 := if_neg hqp
        rw [heq]
        exact habatch
    · unfold pairedWorker
      dsimp only
      split <;> rfl
    · unfold pairedWorker
      dsimp only
      split <;> rfl
  have hpost : ∃ wrNum slotNum : UInt32, 2 * (3 - 1) ≤ wrNum.toNat ∧
      wrNum.toNat ≤ slotNum.toNat ∧ (ctxInitRecvInfo Packet wrNum slotNum).ctxPrepostRecvs =
        .ok { ctxInitRecvInfo Packet 4 4 with recvInfo := ⟨0, 4, 4⟩, rq := [0, 1, 2, 3] } :=
    ⟨4, 4, by decide, by decide, rfl⟩
  refine ⟨⟨_, c₁, hnew, ⟨Nat.one_lt_two, rfl, rfl, fun _ => rfl⟩, hinit, hset⟩, ?_, ?_, ?_, ?_,
    ?_, ?_, fun m => ?_, ?_, fun m => ?_, ?_, ?_, rfl, fun _ => rfl⟩
  · show c₀.cl.machineNum = 3
    rw [hcl]
    exact hnum
  · show c₀.cl.machineId = _
    rw [hcl]
    rfl
  · show 0 ∈ c₀.qInfo.sharing
    rw [hsharing]
    exact List.mem_singleton_self 0
  · show (c₀.qpMeta 0).recvQpId = 1
    rw [hb]
    rfl
  · show (c₀.qpMeta 1).recvQpId = 0
    rw [ha]
    rfl
  · show (c₀.qpMeta 0).maxCredits = 2
    rw [hb]
    rfl
  · show (c₀.qpMeta 0).credits m = 2
    rw [hb]
    rfl
  · show (c₀.qpMeta 1).receipientNum + 1 = 3
    rw [ha]
    rfl
  · show ((c₀.qpMeta 1).acks m).opcode = opAck ∧ ((c₀.qpMeta 1).acks m).mId.toNat = _
    have hlt := cl.id_lt
    rw [ha]
    refine ⟨rfl, ?_⟩
    show (UInt8.ofNat cl.machineId).toNat = _
    exact UInt8.toNat_ofNat_of_lt' (by show cl.machineId < 256; omega)
  · obtain ⟨wrNum, slotNum, hroom, -, hpost⟩ := hpost
    refine ⟨wrNum, slotNum, hroom, ?_⟩
    show _ = Except.ok (c₀.qpMeta 0).recv
    rw [hb]
    exact hpost
  · obtain ⟨wrNum, slotNum, hroom, hle, hpost⟩ := hpost
    refine ⟨wrNum, slotNum, hroom, hle, ?_⟩
    show _ = Except.ok (c₀.qpMeta 1).recv
    rw [ha]
    exact hpost

/-- Machine 0 broadcasts a message.  The one for machine 1 is handled, and its ack flies; the one
    for machine 2 is lost. -/
theorem credits_conserved_three : ∃ s₀ tr s, Net.Installed 0 1 3 2 s₀ ∧
    Run (netStep true 0 1 3) s₀ tr s ∧
    s.flying.map (·.dst) = [0] ∧ s.lost.map (·.dst) = [2] ∧
    (CreditsConserved 0 1 3 2 s ∧ (∀ cmd e, netStep true 0 1 3 s cmd = .error e → Proceeds e) ∧
      ∀ i comps n, netStep true 0 1 3 s (.work i (.pollAcks comps n)) ≠ .error .undefined) := by
  have hcalls : (do
      let x₁ ← (pairedWorker ⟨3, 0, by decide, by decide⟩).initCtxSendWrs
      let x₀ ← x₁.setUpQInfo
      let y₁ ← (pairedWorker ⟨3, 1, by decide, by decide⟩).initCtxSendWrs
      let y₀ ← y₁.setUpQInfo
      let z₁ ← (pairedWorker ⟨3, 2, by decide, by decide⟩).initCtxSendWrs
      let z₀ ← z₁.setUpQInfo
      let (_, s) ← exec (netStep true 0 1 3)
        ⟨fun i => ⟨if i = 0 then x₀ else if i = 1 then y₀ else z₀, .idle, fun _ => []⟩, [], []⟩
        [.work 0 .sendBroadcasts, .work 0 .proceed, .work 0 .proceed, .work 0 .proceed,
          .arrive 0, .work 0 .proceed, .lose 0, .work 1 (.pollMessages 1 [(1, 10)]),
          .work 1 .sendAcks, .work 1 .proceed]
      return (x₀.qInfo.sharing, y₀.qInfo.sharing, z₀.qInfo.sharing,
        s.flying.map (·.dst), s.lost.map (·.dst))
      : Outcome (List Nat × List Nat × List Nat × List Nat × List Nat))
      = .ok ([0], [0], [0], [0], [2]) := by
    decide +kernel
  obtain ⟨x₁, hx₁, hcalls⟩ := bind_eq_ok.mp hcalls
  obtain ⟨x₀, hx₀, hcalls⟩ := bind_eq_ok.mp hcalls
  obtain ⟨y₁, hy₁, hcalls⟩ := bind_eq_ok.mp hcalls
  obtain ⟨y₀, hy₀, hcalls⟩ := bind_eq_ok.mp hcalls
  obtain ⟨z₁, hz₁, hcalls⟩ := bind_eq_ok.mp hcalls
  obtain ⟨z₀, hz₀, hcalls⟩ := bind_eq_ok.mp hcalls
  obtain ⟨⟨tr, s⟩, hexec, hcalls⟩ := bind_eq_ok.mp hcalls
  obtain ⟨hx, hcalls⟩ := Prod.mk.inj (Except.ok.inj hcalls)
  obtain ⟨hy, hcalls⟩ := Prod.mk.inj hcalls
  obtain ⟨hz, hcalls⟩ := Prod.mk.inj hcalls
  obtain ⟨hflying, hlost⟩ := Prod.mk.inj hcalls
  have hinstalled : Net.Installed 0 1 3 2
      ⟨fun i => ⟨if i = 0 then x₀ else if i = 1 then y₀ else z₀, .idle, fun _ => []⟩, [], []⟩ := by
    refine ⟨fun i hi => ?_, rfl, rfl⟩
    obtain rfl | rfl | rfl : i = 0 ∨ i = 1 ∨ i = 2 := by omega
    · exact pairedWorker_installed rfl hx₁ hx₀ hx
    · exact pairedWorker_installed rfl hy₁ hy₀ hy
    · exact pairedWorker_installed rfl hz₁ hz₀ hz
  exact ⟨_, tr, s, hinstalled, run_of_exec hexec, hflying, hlost,
    credits_conserved hinstalled (run_of_exec hexec)⟩

end Odyssey
