/-
  A WEAK ASYNCHRONOUS ACCESS.

  The weak calls (`async_read_weak` and its siblings) are `access_async` with `strong` false.  They
  "will not block, but may return that the request was not issued": that is the number
  `NO_SLOT_TO_ISSUE_REQUEST`, for a ring that is full and whose oldest request is not completed.
  The line before that `return` is an `assert(false)` outside of `ENABLE_ASSERTIONS`, so there the
  call never returns it.

  A call is several accesses to the ring, and the worker steps in between.  `WeakCall a tr` says
  that `tr` is the history of one call: the call itself, then its client going on, and the worker.
  Everything a worker can do during the call only helps it: it completes the oldest request, and
  never takes a completion back.  So whether the call can go wrong is decided where it begins
  (`weak_access`).
-/
import Odyssey.RingShape

namespace Odyssey

open Lib

/-- `NO_SLOT_TO_ISSUE_REQUEST` -/
def noSlotToIssueRequest : Int := 0

/-! ## One call -/

/-- The history of one weak access. -/
def WeakCall (a : AccessArgs) (tr : ClientTrace) : Prop :=
  ∀ past p rest, tr = past ++ p :: rest →
    if past = [] then p.1 = .access (.async false) a
    else p.1 = .advance ∨ p.1.isWorker = true

/-- Does the client go on with its access? -/
def ClientCmd.isAdvance : ClientCmd → Bool
  | .advance => true
  | _ => false

/-- The steps the client has made in a call. -/
def advances (tr : ClientTrace) : Nat := tr.countP (·.1.isAdvance)

/-- The ring is full and its oldest request is not completed. -/
def Session.NoSlot (s : Session) : Prop :=
  s.stateAt s.cltPushPtr ≠ .invalid ∧ s.stateAt s.cltPullPtr ≠ .completed

/-- What a weak access with the arguments `a` promises where it begins in `s`, whatever the worker
    does during the call. -/
structure WeakAccess (conf : ClientConf) (s : ClientState) (a : AccessArgs) : Prop where
  /-- arguments that are rejected change nothing -/
  rejected : checkInputs conf a < 0 →
    clientStep conf s (.access (.async false) a) = .ok (s, [.returned false (checkInputs conf a)])
  /-- no assertion fails in the call, -/
  goesOn : 0 ≤ checkInputs conf a → ∀ tr s', WeakCall a tr → tr ≠ [] →
    Run (clientStep conf) s tr s' → s'.client ≠ none →
    ∃ t new, clientStep conf s' .advance = .ok (t, new)
  /-- and never blocks -/
  bounded : 0 ≤ checkInputs conf a → ∀ tr s', WeakCall a tr →
    Run (clientStep conf) s tr s' → advances tr ≤ 4
  /-- without a slot it says so, and changes nothing -/
  noSlot : 0 ≤ checkInputs conf a → s.session.NoSlot → ∀ tr s', WeakCall a tr → tr ≠ [] →
    (∀ p ∈ tr, p.1.isWorker = false) → Run (clientStep conf) s tr s' → s'.client = none →
    s'.session = s.session ∧ events tr = [.returned false noSlotToIssueRequest]
  /-- in every other case it issues one request -/
  issues : 0 ≤ checkInputs conf a → ¬ s.session.NoSlot → ∀ tr s', WeakCall a tr → tr ≠ [] →
    Run (clientStep conf) s tr s' → s'.client = none → (issuedOps (events tr)).length = 1

theorem WeakCall.concat {a : AccessArgs} {tr : ClientTrace} {k : ClientCmd} {new : List RingEvent} :
    WeakCall a (tr ++ [(k, new)]) ↔ WeakCall a tr ∧
      if tr = [] then k = .access (.async false) a else k = .advance ∨ k.isWorker = true :=
  forall_concat (P := fun past (p : ClientCmd × List RingEvent) =>
    if past = [] then p.1 = .access (.async false) a else p.1 = .advance ∨ p.1.isWorker = true)

theorem advances_concat (tr : ClientTrace) (k : ClientCmd) (new : List RingEvent) :
    advances (tr ++ [(k, new)]) = advances tr + if k.isAdvance then 1 else 0 := by
  unfold advances
  rw [List.countP_append, List.countP_singleton]

/-! ## Issuing -/

/-- A request whose arguments were checked can be filled in. -/
theorem fillClientOp_returns {conf : ClientConf} {a : AccessArgs} (h : 0 ≤ checkInputs conf a)
    (clOp : ClientOp) : ∃ op, fillClientOp conf clOp a = .ok op := by
  obtain ⟨keyId, valueToRead, valueToWrite, valLen, casResult, rmwIsWeak, sessionId, type⟩ := a
  unfold checkInputs at h
  split at h
  · exact absurd h (by decide)
  · unfold fillClientOp ClientOp.copyValue
    cases type with
    | rlxdRead => exact ⟨_, rfl⟩
    | acquire => exact ⟨_, rfl⟩
    | other => exact absurd h (by simp)
    | rlxdWrite | release =>
      cases valueToWrite with
      | none => exact absurd h (by simp)
      | some mem => exact ⟨_, rfl⟩
    | cas | faa =>
      cases valueToRead with
      | none => exact absurd h (by simp)
      | some r =>
        cases valueToWrite with
        | none => exact absurd h (by simp)
        | some mem => exact ⟨_, rfl⟩

theorem issue_returns {conf : ClientConf} {a : AccessArgs} (h : 0 ≤ checkInputs conf a)
    (s : Session) : ∃ t new, s.issue conf a = .ok (t, new) := by
  obtain ⟨op, hop⟩ := fillClientOp_returns h (s.reqArray s.cltPushPtr)
  unfold Session.issue
  dsimp only
  rw [hop]
  exact ⟨_, _, rfl⟩

theorem check_of_not {conf : ClientConf} (hassert : conf.enableAssertions = false) (cond : Bool) :
    conf.check cond = .ok () := by
  unfold ClientConf.check
  rw [hassert]
  rfl

/-! ## Inside the call -/

/-- Where the client can be in a weak access that finds a slot.  `n` slots are taken, `done` says
    that the oldest request is completed; `issued` requests and `adv` steps were made. -/
def WeakStage (a : AccessArgs) (size n : Nat) (done : Prop) (issued adv : Nat) :
    Option (AccessKind × AccessArgs × Stage) → Prop
  | none => issued = 1 ∧ adv ≤ 4
  | some (kind, a', stage) => kind = .async false ∧ a' = a ∧ issued = 0 ∧
    match stage with
    | .slotTest => adv = 0 ∧ (n < size ∨ done)
    | .firstPoll => adv = 1 ∧ n = size ∧ done
    | .secondTest => adv = 2 ∧ n < size
    | .issuing => adv ≤ 3 ∧ n < size
    | .freeing _ | .freed | .awaiting => False

structure InWeakCall (conf : ClientConf) (a : AccessArgs) (issued adv : Nat) (s : ClientState)
    (n : Nat) : Prop where
  shape : RingShape conf s.session n
  stage : WeakStage a conf.ringSize n (s.session.stateAt s.session.cltPullPtr = .completed) issued
    adv s.client

namespace InWeakCall

variable {conf : ClientConf} {a : AccessArgs} {issued adv n : Nat} {s s' : ClientState}
  {new : List RingEvent}

/-- The worker takes no completion back. -/
theorem worker (h : InWeakCall conf a issued adv s n) {k : ClientCmd} (hk : k.isWorker = true)
    (hstep : clientStep conf s k = .ok (s', new)) :
    InWeakCall conf a (issued + (issuedOps new).length) adv s' n := by
  have hdone : ∀ {i : Nat} {op : ClientOp}, s.session.stateAt i ≠ .completed →
      s.session.stateAt s.session.cltPullPtr = .completed →
      (s.session.setOp i op).stateAt s.session.cltPullPtr = .completed := by
    intro i op hi hcompleted
    rw [Session.stateAt_setOp, Function.update_of_ne, hcompleted]
    rintro rfl
    exact hi hcompleted
  have hstage : ∀ {done : Prop}, (s.session.stateAt s.session.cltPullPtr = .completed → done) →
      WeakStage a conf.ringSize n done issued adv s.client := by
    intro done hmore
    have hold := h.stage
    cases hclient : s.client with
    | none =>
      rw [hclient] at hold
      exact hold
    | some call =>
      obtain ⟨kind, a', stage⟩ := call
      rw [hclient] at hold
      obtain ⟨hkind, harg, hissued, hat⟩ := hold
      refine ⟨hkind, harg, hissued, ?_⟩
      cases stage with
      | slotTest => exact ⟨hat.1, hat.2.imp_right hmore⟩
      | firstPoll => exact ⟨hat.1, hat.2.1, hmore hat.2.2⟩
      | secondTest => exact hat
      | issuing => exact hat
      | freeing largestPolled => exact hat
      | freed => exact hat
      | awaiting => exact hat
  cases k with
  | access kind args => cases hk
  | advance => cases hk
  | poll => cases hk
  | fill workingSession =>
    rw [clientStep] at hstep
    split at hstep
    · rename_i hactive
      obtain ⟨⟨t, op, evs⟩, hfill, hstep⟩ := bind_eq_ok.mp hstep
      cases hstep
      obtain ⟨clOp, hstate, rfl, rfl⟩ := odFillTraceOp_spec hfill
      have hst : s.session.stateAt s.session.wrkrPullPtr = .active := by
        simpa [Session.isClientReqActive] using hactive
      refine ⟨h.shape.filled hst hstate, hstage (hdone ?_)⟩
      rw [hst]
      exact fun h => by cases h
    · cases hstep
  | complete i =>
    rw [clientStep] at hstep
    split at hstep
    · rename_i hi
      obtain ⟨⟨t, evs⟩, hcomplete, hstep⟩ := bind_eq_ok.mp hstep
      cases hstep
      obtain ⟨rfl, rfl⟩ := signalCompletionToClient_spec hcomplete
      refine ⟨h.shape.completed hi.2, hstage (hdone ?_)⟩
      rw [hi.2]
      exact fun h => by cases h
    · cases hstep

/-- **The client gets on**, one step nearer to its return. -/
theorem advance (hassert : conf.enableAssertions = false) (hargs : 0 ≤ checkInputs conf a)
    (h : InWeakCall conf a issued adv s n) (hin : s.client ≠ none) :
    ∃ t new n', clientStep conf s .advance = .ok (t, new) ∧
      InWeakCall conf a (issued + (issuedOps new).length) (adv + 1) t n' := by
  have hstage := h.stage
  have hle := h.shape.le
  cases hclient : s.client with
  | none => exact absurd hclient hin
  | some call =>
    obtain ⟨kind, a', stage⟩ := call
    rw [hclient] at hstage
    obtain ⟨rfl, rfl, rfl, hat⟩ := hstage
    have hgo : clientStep conf s .advance = s.advance conf (.async false) a' stage := by
      rw [clientStep, hclient]
    rw [hgo]
    cases stage with
    | slotTest =>
      obtain ⟨hadv, hslot⟩ := hat
      rw [ClientState.advance]
      by_cases hfree : s.session.stateAt s.session.cltPushPtr = .invalid
      · rw [if_pos hfree]
        have hlt := h.shape.push_free.mp hfree
        exact ⟨_, _, n, rfl, h.shape, rfl, rfl, rfl, by omega, hlt⟩
      · rw [if_neg hfree]
        have hfull := mt h.shape.push_free.mpr hfree
        dsimp only
        unfold Session.checkPushPullPtrs
        rw [check_of_not hassert]
        exact ⟨_, _, n, rfl, h.shape, rfl, rfl, rfl, by omega, by omega, hslot.resolve_left hfull⟩
    | firstPoll =>
      obtain ⟨hadv, hfull, hdone⟩ := hat
      obtain ⟨t, r, evs, hpoll⟩ := h.shape.poll_returns
      rw [ClientState.advance, hpoll]
      obtain ⟨-, ⟨hnot, -⟩ | ⟨-, rfl, rfl⟩⟩ := poll_spec hpoll
      · exact absurd hdone hnot
      · obtain ⟨hpos, hshape⟩ := h.shape.pulled hdone
        exact ⟨_, _, n - 1, rfl, hshape, rfl, rfl, rfl, by omega, by omega⟩
    | secondTest =>
      obtain ⟨hadv, hlt⟩ := hat
      rw [ClientState.advance, if_pos (h.shape.push_free.mpr hlt)]
      exact ⟨_, _, n, rfl, h.shape, rfl, rfl, rfl, by omega, hlt⟩
    | issuing =>
      obtain ⟨hadv, hlt⟩ := hat
      obtain ⟨t, evs, hissue⟩ := issue_returns hargs s.session
      rw [ClientState.advance]
      dsimp only
      rw [check_of_not hassert, hissue]
      obtain ⟨op, hop, rfl, rfl⟩ := issue_spec hissue
      exact ⟨_, _, n + 1, rfl, h.shape.pushed hlt hop, rfl, by omega⟩
    | freeing largestPolled => exact hat.elim
    | freed => exact hat.elim
    | awaiting => exact hat.elim

end InWeakCall

/-- The call begins, with arguments that are accepted. -/
theorem weakCall_begin {conf : ClientConf} {s : ClientState} {a : AccessArgs}
    (hargs : 0 ≤ checkInputs conf a) (hclient : s.client = none) :
    clientStep conf s (.access (.async false) a)
      = .ok (⟨s.session, some (.async false, a, .slotTest)⟩, []) := by
  rw [clientStep, hclient]
  unfold ClientState.begin
  dsimp only
  rw [if_neg (by omega)]

/-- **Inside a call that began with a slot to find.** -/
theorem inWeakCall_run {conf : ClientConf} (hassert : conf.enableAssertions = false)
    {a : AccessArgs} (hargs : 0 ≤ checkInputs conf a) {s : ClientState} (hclient : s.client = none)
    {n : Nat} (hshape : RingShape conf s.session n) (hslot : ¬ s.session.NoSlot)
    {tr : ClientTrace} {s' : ClientState} (hrun : Run (clientStep conf) s tr s')
    (hcall : WeakCall a tr) (hne : tr ≠ []) :
    ∃ n', InWeakCall conf a (issuedOps (events tr)).length (advances tr) s' n' := by
  refine hrun.invariant (fun tr s' => WeakCall a tr → tr ≠ [] →
    ∃ n', InWeakCall conf a (issuedOps (events tr)).length (advances tr) s' n')
    (fun _ hne => absurd rfl hne) ?_ hcall hne
  intro tr s₁ k s₂ new hrun ih hstep hcall _
  obtain ⟨hcall₁, hk⟩ := WeakCall.concat.mp hcall
  rw [events_concat, issuedOps_append, List.length_append, advances_concat]
  by_cases htr : tr = []
  · subst htr
    rw [if_pos rfl] at hk
    subst hk
    obtain rfl := hrun.eq_of_nil rfl
    rw [weakCall_begin hargs hclient] at hstep
    cases hstep
    refine ⟨n, hshape, rfl, rfl, rfl, rfl, ?_⟩
    unfold Session.NoSlot at hslot
    by_contra hnot
    refine hslot ⟨fun hfree => hnot (Or.inl (hshape.push_free.mp hfree)), fun hdone => ?_⟩
    exact hnot (Or.inr hdone)
  · rw [if_neg htr] at hk
    obtain ⟨n₁, hin⟩ := ih hcall₁ htr
    rcases hk with rfl | hworker
    · have hclient₁ : s₁.client ≠ none := by
        intro hnone
        rw [clientStep, hnone] at hstep
        cases hstep
      obtain ⟨t, evs, n₂, hadv, hin₂⟩ := hin.advance hassert hargs hclient₁
      rw [hstep] at hadv
      obtain ⟨rfl, rfl⟩ := Prod.mk.inj (Except.ok.inj hadv)
      exact ⟨n₂, hin₂⟩
    · have hnot : k.isAdvance = false := by
        cases k with
        | advance => cases hworker
        | _ => rfl
      rw [hnot]
      exact ⟨n₁, hin.worker hworker hstep⟩

/-! ## The result -/

/-- The call that finds no slot, when the worker does nothing: the third step does not return. -/
theorem weakCall_undefined {conf : ClientConf} (hassert : conf.enableAssertions = false)
    {s : ClientState} {a : AccessArgs} (hargs : 0 ≤ checkInputs conf a) (hclient : s.client = none)
    (hno : s.session.NoSlot) : ∃ tr s', WeakCall a tr ∧ tr ≠ [] ∧ Run (clientStep conf) s tr s' ∧
      s'.client ≠ none ∧ clientStep conf s' .advance = .error .undefined := by
  obtain ⟨hbusy, hpull⟩ := hno
  have htest : clientStep conf ⟨s.session, some (.async false, a, .slotTest)⟩ .advance
      = .ok (⟨s.session, some (.async false, a, .firstPoll)⟩, []) := by
    rw [clientStep]
    dsimp only
    rw [ClientState.advance, if_neg hbusy]
    dsimp only
    unfold Session.checkPushPullPtrs
    rw [check_of_not hassert]
    rfl
  have hpoll : s.session.poll conf = .ok (s.session, s.session.lastPulledReq, []) := by
    unfold Session.poll
    rw [Session.pollLoop, if_neg hpull]
    rfl
  have hfirst : clientStep conf ⟨s.session, some (.async false, a, .firstPoll)⟩ .advance
      = .ok (⟨s.session, some (.async false, a, .secondTest)⟩, []) := by
    rw [clientStep]
    dsimp only
    rw [ClientState.advance]
    dsimp only
    rw [hpoll]
    rfl
  refine ⟨[(.access (.async false) a, []), (.advance, []), (.advance, [])], _, ?_, by simp,
    ((Run.single (weakCall_begin hargs hclient)).snoc htest).snoc hfirst,
    (fun h => by cases h), ?_⟩
  · have hone : WeakCall a ([] ++ [(.access (.async false) a, [])]) :=
      WeakCall.concat.mpr ⟨fun past p rest heq => absurd heq (by simp), by simp⟩
    have htwo : WeakCall a ([(.access (.async false) a, [])] ++ [(.advance, [])]) :=
      WeakCall.concat.mpr ⟨hone, by simp⟩
    have hthree : WeakCall a
        ([(.access (.async false) a, []), (.advance, [])] ++ [(.advance, [])]) :=
      WeakCall.concat.mpr ⟨htwo, by simp⟩
    exact hthree
  · rw [clientStep]
    dsimp only
    rw [ClientState.advance, if_neg hbusy]

/-- **A weak access keeps its promises**, whatever the worker does during the call, if and only if
    its arguments are rejected, or there is a slot, or the oldest request is completed. -/
theorem weak_access {conf : ClientConf} (hassert : conf.enableAssertions = false)
    (hpos : 0 < conf.perSessionReqNum) {ops : Nat → ClientOp} {tr : ClientTrace} {s : ClientState}
    (hrun : Run (clientStep conf) (.start ops) tr s) (hclient : s.client = none) (a : AccessArgs) :
    WeakAccess conf s a ↔
      checkInputs conf a < 0 ∨ s.session.stateAt s.session.cltPushPtr = .invalid ∨
        s.session.stateAt s.session.cltPullPtr = .completed := by
  obtain ⟨n, hinv⟩ := shape_run hpos hrun
  constructor
  · intro h
    by_contra hnot
    have hargs : 0 ≤ checkInputs conf a := by omega
    have hno : s.session.NoSlot :=
      ⟨fun hfree => hnot (Or.inr (Or.inl hfree)), fun hdone => hnot (Or.inr (Or.inr hdone))⟩
    obtain ⟨tr', s', hcall, hne, hrun', hin, hstuck⟩ := weakCall_undefined hassert hargs hclient hno
    obtain ⟨t, new, hadv⟩ := h.goesOn hargs tr' s' hcall hne hrun' hin
    rw [hstuck] at hadv
    exact nomatch hadv
  · intro hcond
    have hslot : 0 ≤ checkInputs conf a → ¬ s.session.NoSlot := by
      rintro hargs ⟨hbusy, hpull⟩
      rcases hcond with hneg | hfree | hdone
      · omega
      · exact hbusy hfree
      · exact hpull hdone
    constructor
    · intro hneg
      rw [clientStep, hclient]
      unfold ClientState.begin
      dsimp only
      rw [if_pos hneg, check_of_not hassert]
      rfl
    · intro hargs tr' s' hcall hne hrun' hin
      obtain ⟨n', hcalled⟩ :=
        inWeakCall_run hassert hargs hclient hinv.shape (hslot hargs) hrun' hcall hne
      obtain ⟨t, new, -, hadv, -⟩ := hcalled.advance hassert hargs hin
      exact ⟨t, new, hadv⟩
    · intro hargs tr' s' hcall hrun'
      by_cases hne : tr' = []
      · subst hne
        exact Nat.zero_le 4
      · obtain ⟨n', -, hstage⟩ :=
          inWeakCall_run hassert hargs hclient hinv.shape (hslot hargs) hrun' hcall hne
        cases hc : s'.client with
        | none =>
          rw [hc] at hstage
          exact hstage.2
        | some call =>
          obtain ⟨kind, a', stage⟩ := call
          rw [hc] at hstage
          obtain ⟨-, -, -, hat⟩ := hstage
          cases stage with
          | slotTest => exact Nat.le_trans (Nat.le_of_eq hat.1) (by decide)
          | firstPoll => exact Nat.le_trans (Nat.le_of_eq hat.1) (by decide)
          | secondTest => exact Nat.le_trans (Nat.le_of_eq hat.1) (by decide)
          | issuing => exact Nat.le_trans hat.1 (by decide)
          | freeing largestPolled => exact hat.elim
          | freed => exact hat.elim
          | awaiting => exact hat.elim
    · intro hargs hno
      exact absurd hno (hslot hargs)
    · intro hargs hnot tr' s' hcall hne hrun' hnone
      obtain ⟨n', -, hstage⟩ :=
        inWeakCall_run hassert hargs hclient hinv.shape hnot hrun' hcall hne
      rw [hnone] at hstage
      exact hstage.1

/-- A ring of one slot whose request is completed: a weak read finds it full, and issues. -/
theorem weak_access_completed : ∃ tr s,
    Run (clientStep (sessionConf 1)) (.start fun _ => freeOp) tr s ∧
    s.session.stateAt s.session.cltPushPtr = .completed ∧
    WeakAccess (sessionConf 1) s readKeyZero := by
  obtain ⟨tr, s, hexec, hclient, hpush, hpull⟩ : ∃ tr s,
      exec (clientStep (sessionConf 1)) (.start fun _ => freeOp)
        [.access (.async false) readKeyZero, .advance, .advance, .fill 0, .complete 0]
        = .ok (tr, s) ∧
      s.client = none ∧ s.session.stateAt s.session.cltPushPtr = .completed ∧
      s.session.stateAt s.session.cltPullPtr = .completed := ⟨_, _, rfl, rfl, rfl, rfl⟩
  have hrun := run_of_exec hexec
  exact ⟨tr, s, hrun, hpush,
    (weak_access rfl (by decide) hrun hclient readKeyZero).mpr (Or.inr (Or.inr hpull))⟩

/-- A ring of one slot whose request is not picked up yet: the assertion of the next weak read
    fails. -/
theorem weak_access_full : ∃ tr s,
    Run (clientStep (sessionConf 1)) (.start fun _ => freeOp) tr s ∧ s.client = none ∧
    ¬ WeakAccess (sessionConf 1) s readKeyZero := by
  obtain ⟨tr, s, hexec, hclient, hpush, hpull⟩ : ∃ tr s,
      exec (clientStep (sessionConf 1)) (.start fun _ => freeOp)
        [.access (.async false) readKeyZero, .advance, .advance] = .ok (tr, s) ∧
      s.client = none ∧ s.session.stateAt s.session.cltPushPtr = .active ∧
      s.session.stateAt s.session.cltPullPtr = .active := ⟨_, _, rfl, rfl, rfl, rfl⟩
  refine ⟨tr, s, run_of_exec hexec, hclient, ?_⟩
  intro h
  have hno : s.session.NoSlot := by
    unfold Session.NoSlot
    rw [hpush, hpull]
    exact ⟨(fun heq => nomatch heq), fun heq => nomatch heq⟩
  have hargs : 0 ≤ checkInputs (sessionConf 1) readKeyZero := by decide
  obtain ⟨tr', s', hcall, hne, hrun', hin, hstuck⟩ := weakCall_undefined rfl hargs hclient hno
  obtain ⟨t, new, hadv⟩ := h.goesOn hargs tr' s' hcall hne hrun' hin
  rw [hstuck] at hadv
  exact nomatch hadv

end Odyssey
