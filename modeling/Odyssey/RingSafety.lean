/-
  NO ASSERTION OF THE INTERFACE FAILS.

  The interface and the worker assert all along what the ring should look like: that a slot that is
  given back leaves the one at the push pointer free, that a ring without a free slot is full, that
  an access that has waited for a slot has one, that a blocking access leaves the ring empty, that
  the worker finds its next request active and no other request behind a free slot.  Some of these
  are there only with `ENABLE_ASSERTIONS`, two always.

  They hold in every interleaving (`rings_never_fault`), if the program asks for what it may ask
  for: arguments that `check_inputs` takes, and no weak access, which gives up by an assertion when
  there is no slot.  What is proved here is one step (`Carried.step_fails`).
-/
import Odyssey.RingRefinement

namespace Odyssey

open Lib RingProgram

/-- An assertion that holds. -/
theorem check_eq {conf : ClientConf} {cond : Bool} (h : cond = true) :
    conf.check cond = .ok () := by
  unfold ClientConf.check
  rw [h]
  cases conf.enableAssertions <;> rfl

section Ring

variable {conf : ClientConf} {evs : List RingEvent} {s : Session} {p a : Nat}

/-! ## The client -/

/-- **`poll` returns.** -/
theorem RingInv.poll_ok (h : RingInv conf evs s p a) :
    ∃ s' r new, s.poll conf = .ok (s', r, new) := by
  by_cases hst : s.stateAt s.cltPullPtr = .completed
  · have hupdate : (s.setState s.cltPullPtr .invalid).stateAt
        = Function.update s.stateAt s.cltPullPtr .invalid := s.stateAt_setOp _ _
    have hfree : ((s.setState s.cltPullPtr .invalid).stateAt
        (s.setState s.cltPullPtr .invalid).cltPushPtr == ReqState.invalid) = true := by
      rw [hupdate]
      show (Function.update s.stateAt s.cltPullPtr .invalid s.cltPushPtr == ReqState.invalid) = true
      rcases h.ring.push_pull_or_free with heq | hinv
      · rw [heq, Function.update_self]
        rfl
      · by_cases heq : s.cltPushPtr = s.cltPullPtr
        · rw [heq, Function.update_self]
          rfl
        · rw [Function.update_of_ne heq, hinv]
          rfl
    have hround : s.pollRound conf s.cltPullPtr = .ok (s.pulled conf) := by
      unfold Session.pollRound
      dsimp only
      rw [check_eq hfree]
      rfl
    have hstop : (s.pulled conf).stateAt s.cltPullPtr ≠ .completed := by
      show (s.setState s.cltPullPtr .invalid).stateAt s.cltPullPtr ≠ _
      rw [hupdate, Function.update_self]
      exact fun hc => by cases hc
    unfold Session.poll
    rw [Session.pollLoop, if_pos hst, hround, ok_bind, Session.pollLoop, if_neg hstop]
    exact ⟨_, _, _, rfl⟩
  · unfold Session.poll
    rw [Session.pollLoop, if_neg hst]
    exact ⟨_, _, _, rfl⟩

/-- What `check_inputs` says of the value to write. -/
theorem valueToWrite_of_checkInputs {args : AccessArgs} (h : 0 ≤ checkInputs conf args) :
    args.type = .rlxdRead ∨ args.type = .acquire ∨
      (args.type ≠ .other ∧ ∃ mem, args.valueToWrite = some mem) := by
  unfold checkInputs at h
  split at h
  · exact absurd h (by decide)
  · cases htype : args.type <;> cases hmem : args.valueToWrite <;> simp [htype, hmem] at h ⊢
    all_goals cases hread : args.valueToRead <;> simp [hread] at h

/-- **An access that `check_inputs` takes can be issued.** -/
theorem issue_ok {args : AccessArgs} (h : 0 ≤ checkInputs conf args) :
    ∃ s' new, s.issue conf args = .ok (s', new) := by
  have hfill : ∀ clOp : ClientOp, ∃ clOp', fillClientOp conf clOp args = .ok clOp' := by
    intro clOp
    unfold fillClientOp ClientOp.copyValue
    rcases valueToWrite_of_checkInputs h with htype | htype | ⟨htype, mem, hmem⟩
    · rw [htype]
      exact ⟨_, rfl⟩
    · rw [htype]
      exact ⟨_, rfl⟩
    · rw [hmem]
      cases hkind : args.type with
      | other => exact absurd hkind htype
      | _ => exact ⟨_, rfl⟩
  obtain ⟨clOp, hclOp⟩ := hfill (s.reqArray s.cltPushPtr)
  unfold Session.issue
  dsimp only
  rw [hclOp]
  exact ⟨_, _, rfl⟩

/-- **The client can go on with its access.** -/
theorem advance_ok {s : ClientState} {kind : AccessKind} {args : AccessArgs} {stage : Stage}
    (h : ClientInv conf evs s) (hN : conf.perSessionReqNum ≤ 2 ^ 16)
    (hpushed : s.session.lastPushedReq < 2 ^ 64) (hclient : s.client = some (kind, args, stage))
    (hkind : kind ≠ .async false) (hargs : 0 ≤ checkInputs conf args) :
    ∃ s' new, s.advance conf kind args stage = .ok (s', new) := by
  obtain ⟨⟨p, a, hring, hfits⟩, -⟩ := h
  rw [hclient] at hfits
  have hle := hring.ring.fits
  have hpulled := hring.pulled
  obtain ⟨t, r, new, hpoll⟩ := hring.poll_ok
  cases stage with
  | slotTest =>
    rw [ClientState.advance]
    split
    · exact ⟨_, _, rfl⟩
    · rename_i hbusy
      have hfull : p + a = conf.perSessionReqNum := by
        have hnot := mt hring.ring.push_free.mpr hbusy
        omega
      have hcheck : s.session.checkPushPullPtrs conf = .ok () := by
        refine check_eq ?_
        rw [sub64_of_le (by omega) (by omega), beq_iff_eq]
        omega
      cases kind with
      | blocking => exact ⟨_, _, rfl⟩
      | async strong =>
        dsimp only
        rw [hcheck]
        exact ⟨_, _, rfl⟩
  | firstPoll =>
    rw [ClientState.advance, hpoll]
    exact ⟨_, _, rfl⟩
  | secondTest =>
    unfold ClientState.advance
    dsimp only
    split
    · exact ⟨_, _, rfl⟩
    · cases kind with
      | blocking => exact ⟨_, _, rfl⟩
      | async strong =>
        cases strong with
        | false => exact absurd rfl hkind
        | true => exact ⟨_, _, rfl⟩
  | freeing largestPolled =>
    rw [ClientState.advance, hpoll, ok_bind]
    dsimp only
    split <;> exact ⟨_, _, rfl⟩
  | freed =>
    have hfree := hring.ring.push_free.mpr hfits
    unfold ClientState.advance
    dsimp only
    rw [hfree]
    cases kind with
    | blocking => exact ⟨_, _, rfl⟩
    | async strong =>
      dsimp only
      rw [check_eq (beq_self_eq_true ReqState.invalid)]
      exact ⟨_, _, rfl⟩
  | issuing =>
    have hfree := hring.ring.push_free.mpr hfits
    obtain ⟨t', new', hissue⟩ := issue_ok (s := s.session) hargs
    unfold ClientState.advance
    dsimp only
    rw [hissue]
    cases kind with
    | blocking => exact ⟨_, _, rfl⟩
    | async strong =>
      dsimp only
      rw [check_eq (beq_iff_eq.mpr hfree)]
      exact ⟨_, _, rfl⟩
  | awaiting =>
    rw [ClientState.advance, hpoll, ok_bind]
    dsimp only
    split
    · exact ⟨_, _, rfl⟩
    · rename_i hdone
      -- as many requests were pulled as pushed, so the ring is empty
      have hempty : (t.cltPushPtr == t.cltPullPtr) = true := by
        have hafter : ∃ evs' p' a', RingInv conf evs' t p' a' := by
          obtain ⟨-, ⟨-, rfl, -⟩ | ⟨hst, rfl, -⟩⟩ := poll_spec hpoll
          · exact ⟨evs, p, a, hring⟩
          · exact ⟨_, _, _, (hring.poll hN hpushed hst).2.2⟩
        obtain ⟨evs', p', a', hafter⟩ := hafter
        obtain ⟨hr, -⟩ := poll_spec hpoll
        have hpulled' := hafter.pulled
        have hzero : p' + a' = 0 := by omega
        have hpush := hafter.ring.push_eq
        rw [hzero, slot_zero hafter.ring.pull_lt] at hpush
        rw [hpush]
        exact beq_self_eq_true _
      rw [check_eq hempty]
      exact ⟨_, _, rfl⟩

/-! ## The worker -/

/-- **Behind a free slot there is no request**: the active slots are one stretch. -/
theorem Ring.prev_idle
    (h : Ring conf.perSessionReqNum s.stateAt s.cltPullPtr s.wrkrPullPtr s.cltPushPtr p a)
    (hnext : s.stateAt ((s.wrkrPullPtr + 1) % conf.perSessionReqNum) ≠ .active)
    (hne : (s.wrkrPullPtr + 1) % conf.perSessionReqNum
      ≠ (conf.perSessionReqNum + s.wrkrPullPtr - 1) % conf.perSessionReqNum) :
    s.stateAt ((conf.perSessionReqNum + s.wrkrPullPtr - 1) % conf.perSessionReqNum) ≠ .active := by
  have hpull := h.pull_lt
  have hfits := h.fits
  intro hprev
  have hplace : ∀ k, k < conf.perSessionReqNum →
      s.stateAt (slot conf.perSessionReqNum s.wrkrPullPtr k) = .active → k < a := by
    intro k hk hactive
    rw [h.wrkr_eq, slot_slot] at hactive
    by_contra hout
    by_cases hwrap : p + k < conf.perSessionReqNum
    · rw [h.free (p + k) (by omega) hwrap] at hactive
      cases hactive
    · have haround : slot conf.perSessionReqNum s.cltPullPtr (p + k)
          = slot conf.perSessionReqNum s.cltPullPtr (p + k - conf.perSessionReqNum) := by
        unfold slot
        have hsplit : s.cltPullPtr + (p + k) = s.cltPullPtr + (p + k - conf.perSessionReqNum)
            + conf.perSessionReqNum := by omega
        rw [hsplit, Nat.add_mod_right]
      rw [haround] at hactive
      rcases h.held (p + k - conf.perSessionReqNum) (by omega) with hheld | hheld
      · rw [hheld] at hactive
        cases hactive
      · rw [hheld] at hactive
        cases hactive
  have hlast : (conf.perSessionReqNum + s.wrkrPullPtr - 1) % conf.perSessionReqNum
      = slot conf.perSessionReqNum s.wrkrPullPtr (conf.perSessionReqNum - 1) := by
    unfold slot
    congr 1
    omega
  rw [hlast] at hprev hne
  have hfull := hplace _ (by omega) hprev
  have hone : 1 < conf.perSessionReqNum := by
    by_contra hc
    apply hne
    have hcases : conf.perSessionReqNum = 1 := by omega
    rw [hcases, Nat.mod_one, slot, Nat.mod_one]
  apply hnext
  show s.stateAt (slot conf.perSessionReqNum s.wrkrPullPtr 1) = _
  rw [h.wrkr_eq, slot_slot]
  exact h.active (p + 1) (by omega) (by omega)

/-- **The worker can pick up an active request.** -/
theorem Ring.fill_ok
    (h : Ring conf.perSessionReqNum s.stateAt s.cltPullPtr s.wrkrPullPtr s.cltPushPtr p a)
    (hst : s.stateAt s.wrkrPullPtr = .active) (workingSession : Nat) :
    ∃ s' op new, s.odFillTraceOp conf workingSession = .ok (s', op, new) := by
  have hwrkr : s.wrkrPullPtr < conf.perSessionReqNum := by
    have hpull := h.pull_lt
    rw [h.wrkr_eq]
    exact slot_lt (by omega)
  have hactive : s.isClientReqActive s.wrkrPullPtr = true := by
    unfold Session.isClientReqActive
    rw [hst]
    rfl
  have hneighbours : s.checkClientReqStateWhenFillingOp conf s.wrkrPullPtr = .ok () := by
    unfold Session.checkClientReqStateWhenFillingOp
    dsimp only
    rw [check_eq hactive, ok_bind]
    split
    · rename_i hcond
      refine check_eq ?_
      simp only [Bool.and_eq_true, Bool.not_eq_true', bne_iff_ne, ne_eq, Session.isClientReqActive,
        beq_eq_false_iff_ne] at hcond
      simp only [Bool.not_eq_true', Session.isClientReqActive, beq_eq_false_iff_ne, ne_eq]
      exact h.prev_idle hcond.1.1 hcond.1.2
    · rfl
  have hsignal : ∃ s', s.signalInProgressToClient conf s.wrkrPullPtr = .ok s' ∧
      s'.wrkrPullPtr = s.wrkrPullPtr := by
    unfold Session.signalInProgressToClient
    rw [check_eq (decide_eq_true hwrkr), ok_bind]
    dsimp only
    by_cases hassert : conf.enableAssertions = true
    · rw [if_pos hassert, check_eq]
      · exact ⟨_, rfl, rfl⟩
      · rw [Session.stateAt_setOp, Function.update_self]
        exact beq_iff_eq.mpr hst
    · rw [if_neg hassert, check_eq (beq_iff_eq.mpr hst)]
      exact ⟨_, rfl, rfl⟩
  obtain ⟨s', hs', hptr⟩ := hsignal
  unfold Session.odFillTraceOp Session.createInputsOfOp
  dsimp only
  rw [hneighbours, ok_bind]
  dsimp only [pure, Except.pure]
  rw [ok_bind, hs', ok_bind, check_eq (beq_iff_eq.mpr hptr)]
  exact ⟨_, _, _, rfl⟩

/-- **The worker can signal a request that is in progress.** -/
theorem signal_ok {i : Nat} (hi : i < conf.perSessionReqNum) (hst : s.stateAt i = .inProgress) :
    ∃ s' new, s.signalCompletionToClient conf i = .ok (s', new) := by
  unfold Session.signalCompletionToClient
  rw [check_eq (decide_eq_true hi), ok_bind, check_eq (beq_iff_eq.mpr hst)]
  exact ⟨_, _, rfl⟩

end Ring

/-! ## The access that the client is in -/

/-- **An access goes on with the arguments it was called with.** -/
theorem advance_keeps {conf : ClientConf} {s s' : ClientState} {kind : AccessKind}
    {args : AccessArgs} {stage : Stage} {new : List RingEvent}
    (hclient : s.client = some (kind, args, stage))
    (h : s.advance conf kind args stage = .ok (s', new)) :
    ∀ c, s'.client = some c → c.1 = kind ∧ c.2.1 = args := by
  intro c hc
  have hhere : ∀ stage', s'.client = some (kind, args, stage') → c.1 = kind ∧ c.2.1 = args := by
    intro stage' hs
    rw [hs] at hc
    cases hc
    exact ⟨rfl, rfl⟩
  have hgone : s'.client = none → c.1 = kind ∧ c.2.1 = args := by
    intro hs
    rw [hs] at hc
    cases hc
  cases stage with
  | slotTest =>
    rw [ClientState.advance] at h
    split at h
    · cases h
      exact hhere _ rfl
    · cases kind with
      | blocking =>
        cases h
        exact hhere _ rfl
      | async strong =>
        dsimp only at h
        obtain ⟨-, -, h⟩ := bind_eq_ok.mp h
        cases h
        exact hhere _ rfl
  | firstPoll =>
    obtain ⟨⟨t, r, evs⟩, -, h⟩ := bind_eq_ok.mp h
    cases h
    exact hhere _ rfl
  | secondTest =>
    unfold ClientState.advance at h
    dsimp only at h
    split at h
    · cases h
      exact hhere _ rfl
    · split at h
      · cases h
      · cases h
        exact hhere _ rfl
      · cases h
        exact hhere _ rfl
  | freeing largestPolled =>
    obtain ⟨⟨t, r, evs⟩, -, h⟩ := bind_eq_ok.mp h
    dsimp only at h
    split at h
    · cases h
      exact hhere _ hclient
    · cases h
      exact hhere _ rfl
  | freed =>
    cases kind with
    | blocking =>
      rw [ClientState.advance] at h
      dsimp only at h
      split at h
      · cases h
      · cases h
        exact hhere _ rfl
    | async strong =>
      unfold ClientState.advance at h
      dsimp only at h
      obtain ⟨-, -, h⟩ := bind_eq_ok.mp h
      cases h
      exact hhere _ rfl
  | issuing =>
    cases kind with
    | blocking =>
      unfold ClientState.advance at h
      dsimp only at h
      obtain ⟨⟨t, evs⟩, -, h⟩ := bind_eq_ok.mp h
      cases h
      exact hhere _ rfl
    | async strong =>
      unfold ClientState.advance at h
      dsimp only at h
      obtain ⟨-, -, h⟩ := bind_eq_ok.mp h
      obtain ⟨⟨t, evs⟩, -, h⟩ := bind_eq_ok.mp h
      cases h
      exact hgone rfl
  | awaiting =>
    obtain ⟨⟨t, r, evs⟩, -, h⟩ := bind_eq_ok.mp h
    dsimp only at h
    split at h
    · cases h
      exact hhere _ hclient
    · obtain ⟨-, -, h⟩ := bind_eq_ok.mp h
      cases h
      exact hgone rfl

variable {S C L R E : Type}

/-- The requests that the clients are about to issue are ones that `check_inputs` takes. -/
def Takes (p : RingProgram S C L R E) (s : RingSys S C L R) : Prop :=
  ∀ g, ∀ r ∈ (s.session g).todo, p.accepted g r = true

/-- The accesses that the clients are in are such. -/
def Asked (p : RingProgram S C L R E) (s : RingSys S C L R) : Prop :=
  ∀ g c, (s.session g).ring.client = some c → c.1 ≠ .async false ∧ 0 ≤ checkInputs p.conf c.2.1

namespace Asked

variable {p : RingProgram S C L R E} {s : RingSys S C L R}

theorem update (h : Asked p s) {g : Nat} {x : RingSession L R}
    (hx : ∀ c, x.ring.client = some c → c.1 ≠ .async false ∧ 0 ≤ checkInputs p.conf c.2.1)
    (store : S) (shared : Nat → C) :
    Asked p ⟨store, shared, Function.update s.session g x⟩ := by
  intro g' c hc
  by_cases hg : g' = g
  · subst hg
    simp only [Function.update_self] at hc
    exact hx c hc
  · simp only [Function.update_of_ne hg] at hc
    exact h g' c hc

theorem step (h : Asked p s) (htakes : Takes p s) (hwaits : ∀ r, (p.access r).1 ≠ .async false)
    {k : RingCmd} {s' : RingSys S C L R} {e : RingShown E} (hstep : p.step s k = .ok (s', e)) :
    Asked p s' := by
  cases k with
  | pass g =>
    simp only [RingProgram.step] at hstep
    split at hstep
    · split at hstep
      · obtain ⟨⟨c, info, requests, shown⟩, -, hstep⟩ := bind_eq_ok.mp hstep
        cases hstep
        refine h.update ?_ _ _
        exact fun c hc => h g c hc
      · cases hstep
    · cases hstep
  | poll g =>
    simp only [RingProgram.step] at hstep
    split at hstep
    · obtain ⟨⟨ring, new⟩, hclient, hstep⟩ := bind_eq_ok.mp hstep
      cases hstep
      refine h.update ?_ _ _
      rw [clientStep] at hclient
      split at hclient
      · rename_i hidle
        obtain ⟨⟨t, r, evs⟩, -, hclient⟩ := bind_eq_ok.mp hclient
        cases hclient
        exact h g
      · cases hclient
    · cases hstep
  | access g =>
    simp only [RingProgram.step] at hstep
    split at hstep
    · cases hstep
    · rename_i r todo htodo
      obtain ⟨⟨ring, new⟩, hclient, hstep⟩ := bind_eq_ok.mp hstep
      cases hstep
      refine h.update ?_ _ _
      have haccepted : 0 ≤ checkInputs p.conf (p.args g r) :=
        of_decide_eq_true (htakes g r (htodo ▸ List.mem_cons_self))
      rw [clientStep] at hclient
      split at hclient
      · unfold ClientState.begin at hclient
        dsimp only at hclient
        rw [if_neg (by omega)] at hclient
        cases hclient
        intro c hc
        cases hc
        exact ⟨hwaits r, haccepted⟩
      · cases hclient
  | advance g =>
    obtain ⟨⟨ring, new⟩, hclient, hstep⟩ := bind_eq_ok.mp hstep
    cases hstep
    refine h.update ?_ _ _
    rw [clientStep] at hclient
    split at hclient
    · cases hclient
    · rename_i kind args stage hbusy
      intro c hc
      obtain ⟨hkind, hargs⟩ := advance_keeps hbusy hclient c hc
      rw [hkind, hargs]
      exact h g _ hbusy
  | fill g workingSession =>
    simp only [RingProgram.step] at hstep
    split at hstep
    · obtain ⟨⟨session, op, new⟩, -, hstep⟩ := bind_eq_ok.mp hstep
      cases hstep
      refine h.update ?_ _ _
      exact fun c hc => h g c hc
    · cases hstep
  | execute g spurious =>
    simp only [RingProgram.step] at hstep
    split at hstep
    · cases hstep
    · cases hstep
      refine h.update ?_ _ _
      exact fun c hc => h g c hc
  | complete g i =>
    simp only [RingProgram.step] at hstep
    split at hstep
    · obtain ⟨⟨session, new⟩, -, hstep⟩ := bind_eq_ok.mp hstep
      cases hstep
      refine h.update ?_ _ _
      exact fun c hc => h g c hc
    · cases hstep

end Asked

/-- **A step that fails is a pass** that fails above. -/
theorem Carried.step_fails {p : RingProgram S C L R E} {tr : List (RingCmd × RingShown E)}
    {s : RingSys S C L R} {t : Sessions S C L R} (h : Carried p tr s t) (ha : Asked p s)
    (htakes : Takes p s) (hN : p.conf.perSessionReqNum ≤ 2 ^ 16) (hfew : Countable tr) {k : RingCmd}
    (hstep : p.step s k = .error .undefined) :
    ∃ g, k = .pass g ∧ (s.session g).ring.client = none ∧ (s.session g).todo = [] ∧
      p.target (s.session g).info ≤ (s.session g).ring.session.lastPulledReq ∧
      (t.session g).issued ≤ accesses g tr ∧
      p.service.step t (.client g) = .error .undefined := by
  cases k with
  | pass g =>
    simp only [RingProgram.step] at hstep
    split at hstep
    · rename_i hidle
      split at hstep
      · rename_i hwait
        rcases bind_eq_error.mp hstep with hgo | ⟨x, -, hx⟩
        · -- the pass above fails as well
          simp only [Bool.and_eq_true, Option.isNone_iff_eq_none, List.isEmpty_iff] at hidle
          obtain ⟨evs, e, a, hg⟩ := h.session g
          obtain ⟨hpoll, hnum, -⟩ := hg.pass (hfew g) hidle.1 hidle.2 hwait (s.session g).info []
          rw [← hg.info, ← hnum, ← h.shared] at hgo
          have hcount := hg.count
          refine ⟨g, rfl, hidle.1, hidle.2, hwait, by omega, ?_⟩
          simp only [Service.step, RingProgram.service, hpoll, ok_bind, hgo]
          rfl
        · cases hx
      · cases hstep
    · cases hstep
  | poll g =>
    obtain ⟨evs, e, a, hg⟩ := h.session g
    obtain ⟨session, r, new, hpoll⟩ := hg.ring.inv.poll_ok
    simp only [RingProgram.step, clientStep] at hstep
    split at hstep
    · split at hstep
      · rw [hpoll] at hstep
        cases hstep
      · cases hstep
    · cases hstep
  | access g =>
    simp only [RingProgram.step] at hstep
    split at hstep
    · cases hstep
    · rename_i r todo htodo
      have haccepted : 0 ≤ checkInputs p.conf (p.args g r) :=
        of_decide_eq_true (htakes g r (htodo ▸ List.mem_cons_self))
      simp only [clientStep, ClientState.begin, if_neg (not_lt.mpr haccepted)] at hstep
      split at hstep <;> cases hstep
  | advance g =>
    obtain ⟨evs, e, a, hg⟩ := h.session g
    simp only [RingProgram.step, clientStep] at hstep
    split at hstep
    · cases hstep
    · rename_i kind args stage hbusy
      obtain ⟨hkind, hargs⟩ := ha g _ hbusy
      have hbound := hfew g
      have hcount := hg.count
      obtain ⟨ring, new, hadvance⟩ := advance_ok hg.client hN (by omega) hbusy hkind hargs
      rw [hadvance] at hstep
      cases hstep
  | fill g workingSession =>
    obtain ⟨evs, e, a, hg⟩ := h.session g
    simp only [RingProgram.step] at hstep
    split at hstep
    · rename_i hactive
      obtain ⟨session, op, new, hfill⟩ := hg.ring.inv.ring.fill_ok (by
        simpa [Session.isClientReqActive] using hactive) workingSession
      rw [hfill] at hstep
      cases hstep
    · cases hstep
  | execute g spurious =>
    simp only [RingProgram.step] at hstep
    split at hstep <;> cases hstep
  | complete g i =>
    obtain ⟨evs, e, a, hg⟩ := h.session g
    simp only [RingProgram.step] at hstep
    split at hstep
    · rename_i hi
      obtain ⟨hlt, hst⟩ := hg.ring.signals i hi
      obtain ⟨session, new, hsignal⟩ := signal_ok hlt hst
      rw [hsignal] at hstep
      cases hstep
    · cases hstep

end Odyssey
