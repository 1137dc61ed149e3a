/-
  THE MICHAEL-SCOTT QUEUES AS THE CLIENTS RUN THEM.

  The results on the queues, for every run in which the clients go round their sessions.

  * `ms_queue_correct`: the queues are as they should be, while no session has issued `2^32`
    requests.  A session that has does not wait for its own requests any more, and can link its
    node to itself (`ms_self_link`).
  * `ms_ptrs_comparable`: the assertion in `are_ms_ptrs_equal` does not fail, if the set-up finds 0
    on the stack where it leaves `queue_id` as it is.
  * `ms_values_not_in_order`: every dequeue reads the value before the one that is due.
-/
import Odyssey.MsQueueRounds

namespace Odyssey

open Lib

variable {d : Deployment}

/-- A pass over both sessions of the first client, and then `n` requests of each are executed. -/
def roundOfFirst (n : Nat) : List Turn := [.client 0, .client 1] ++ serves 0 n ++ serves 1 n

/-! ## The queues -/

/-- **The queues are correct** once they are set up, if the sessions are numbered apart and each has
    issued fewer than `2^32` requests. -/
theorem ms_queue_correct (hf : MsFits d) {tail head : MsPtr} {tr : MsTrace} {s : MsRounds}
    (hrun : Run d.msStep (d.msRounds tail head) tr s)
    (hfew : ∀ g, g < d.globalSessionNum → (s.sys.session g).issued < 2 ^ 32)
    (hinit : s.sys.store.initDone = msInitDoneFlag) : ∃ chain, MsQueues d tr s.sys chain := by
  rcases Nat.eq_zero_or_pos d.globalSessionNum with hnone | hpos
  · exact ⟨_, .of_none hnone tr s.sys⟩
  · rcases rounds_run hf.keysFit hpos hrun hfew with
      ⟨late, t, early, w, h⟩ | ⟨before, late, after, h⟩
    · have hunset := (early_frame h.earlyRun).2.2.trans h.setting.unset
      exact absurd (hinit.symm.trans hunset) (by decide)
    · obtain ⟨chain, hqueues⟩ := queues_of_first hf h.run hfew (h.first after) hinit
      refine ⟨chain, hqueues.path, hqueues.nodup, hqueues.tail, fun q hq => ?_, hqueues.place⟩
      rw [(h.shown q).1, (h.shown q).2]
      exact hqueues.order q hq

/-- Session 1 makes its first pass when two requests of the set-up are left; then both sessions of
    the first client enqueue their node and take the dummy. -/
theorem ms_queue_correct_four : ∃ tr s,
    Run Deployment.four.msStep (Deployment.four.msRounds .zero .zero) tr s ∧
      entered tr 0 = [21] ∧ left tr 0 = [17] ∧
      ∃ chain, MsQueues Deployment.four tr s.sys chain ∧ chain 0 = [21] := by
  have h : (do
      let p ← exec Deployment.four.msStep (Deployment.four.msRounds .zero .zero)
        (serves 0 11 ++ [Turn.client 0, Turn.client 1] ++ serves 1 3 ++ serves 0 5 ++
          [2, 1, 1, 2, 2, 2].flatMap roundOfFirst)
      return ((∀ g, g < Deployment.four.globalSessionNum → (p.2.sys.session g).issued < 2 ^ 32) ∧
        p.2.sys.store.initDone = msInitDoneFlag ∧
        entered p.1 0 = [21] ∧ left p.1 0 = [17] : Bool)) = .ok true := by decide +kernel
  obtain ⟨⟨tr, s⟩, hexec, h⟩ := bind_eq_ok.mp h
  obtain ⟨hfew, hinit, hentered, hleft⟩ := of_decide_eq_true (Except.ok.inj h)
  have hrun := run_of_exec hexec
  obtain ⟨chain, hqueues⟩ := ms_queue_correct (by unfold MsFits; decide) hrun hfew hinit
  refine ⟨tr, s, hrun, hentered, hleft, chain, hqueues, ?_⟩
  have horder := hqueues.order 0 (by decide)
  rw [hentered, hleft] at horder
  exact (List.cons.inj horder).2.symm

/-! ## A session that does not wait -/

/-- The store of two sessions when the queues are set up, and session 0 has written its node. -/
def linkingStore : MsStore :=
  let store := (Deployment.two.msSetUp .zero .zero).foldl MsStore.apply
    (Deployment.two.msStart .zero .zero).store
  { store.write 6 .zero with
    node := Function.update store.node 11 ⟨11, 6⟩, initDone := msInitDoneFlag }

/-- What session 0 holds, whose compare-and-swap has failed every time so far. -/
def linkingInfo (state : MsState) (issued : Nat) : MsSessInfo :=
  { Deployment.two.msSessInfo 0 with
    state := state
    lastReqId := u32 issued
    tail := linkingStore.ptr 0
    secondTail := linkingStore.ptr 0
    newNode := Function.update (fun _ => ⟨0, 0⟩) 0 ⟨11, 6⟩
    lastOrFirstNodeMsPtr := linkingStore.ptr 4
    newLastOrFirstNodeMsPtr := ⟨false, 0, 0, 11, 2⟩ }

/-- Two clients with one session each, of which the second waits. -/
def soloAt (s : MsStore × MsSession) : MsRounds where
  sys := ⟨s.1, (Deployment.two.msStart .zero .zero).shared,
    Function.update (Deployment.two.msStart .zero .zero).session 0 s.2⟩
  sI _ := 0

/-- A turn of the first client, when the second waits. -/
def soloStep (s : MsStore × MsSession) : Turn → Outcome ((MsStore × MsSession) × MsEvent)
  | .client 0 => do
    if s.2.info.enqOrDeqState = .enqueuing then
      let (info, requests) ← Deployment.two.msEnqueue s.2
      if (s.2.queue ++ requests).length ≤ perSessionReqNum then
        return ((s.1, ⟨info, s.2.queue ++ requests, s.2.issued + requests.length⟩), .moved)
      else .error .waiting
    else .error .disabled
  | .store 0 spurious =>
    match s.2.queue with
    | [] => .error .disabled
    | r :: queue =>
      let (store, info, e) := msServe spurious s.1 s.2.info r
      .ok ((store, ⟨info, queue, s.2.issued⟩), e)
  | _ => .error .disabled

theorem solo_step {s s' : MsStore × MsSession} {k : Turn} {e : MsEvent}
    (h : soloStep s k = .ok (s', e)) : Deployment.two.msStep (soloAt s) k = .ok (soloAt s', e) := by
  obtain ⟨store, x⟩ := s
  unfold soloStep at h
  split at h
  · split at h
    · rename_i henqueuing
      obtain ⟨⟨info, requests⟩, hpass, h⟩ := bind_eq_ok.mp h
      dsimp only at h
      split at h
      · rename_i hfits
        cases h
        have hloop : ∀ cntr, Deployment.two.msLoopPass cntr x = .ok (cntr, info, requests) := by
          intro cntr
          rw [Deployment.msLoopPass, henqueuing, hpass]
          rfl
        have hpass' : Deployment.two.msService.pass 0 ((soloAt (store, x)).sys.shared 0)
            ((soloAt (store, x)).sys.session 0)
              = .ok ((soloAt (store, x)).sys.shared 0, info, requests, .moved) := by
          show ((Deployment.two.msLoopPass _ x >>= _) >>= _) = _
          rw [hloop]
          rfl
        have hstep := Service.step_client hpass'
        show ((Deployment.two.msService.step (soloAt (store, x)).sys (.client 0)) >>= _) = _
        rw [hstep]
        show (if (x.queue ++ requests).length ≤ perSessionReqNum then
          Except.ok (MsRounds.mk (Sessions.mk _ (Function.update
            (Deployment.two.msStart .zero .zero).shared 0
            ((Deployment.two.msStart .zero .zero).shared 0))
            (Function.update (Function.update _ 0 _) 0 _)) (Function.update (fun _ => 0) 0 0), _)
          else _) = _
        rw [if_pos hfits, Function.update_eq_self, Function.update_idem, Function.update_eq_self]
        rfl
      · cases h
    · cases h
  · rename_i spurious
    split at h
    · cases h
    · rename_i r queue hqueue
      dsimp only at hqueue
      rcases hserve : msServe spurious store x.info r with ⟨store', info, e'⟩
      simp only [hserve] at h
      cases h
      have hstep : Deployment.two.msService.step (soloAt (store, x)).sys (.store 0 spurious)
          = .ok (_, e) := Service.step_store hqueue hserve
      show ((Deployment.two.msService.step (soloAt (store, x)).sys (.store 0 spurious)) >>= _) = _
      rw [hstep]
      show Except.ok (MsRounds.mk
        (Sessions.mk _ _ (Function.update (Function.update _ 0 _) 0 _)) _, _) = _
      rw [Function.update_idem]
      rfl
  · cases h

theorem solo_run {s s' : MsStore × MsSession} {tr : MsTrace} (h : Run soloStep s tr s') :
    Run Deployment.two.msStep (soloAt s) tr (soloAt s') := by
  induction h with
  | start => exact .start
  | snoc _ hstep ih => exact ih.snoc (solo_step hstep)

/-- Session 0, whose compare-and-swap has failed every time so far. -/
def linking (state : MsState) (queue : List MsReq) (issued : Nat) : MsStore × MsSession :=
  (linkingStore, ⟨linkingInfo state issued, queue, issued⟩)

/-- A pass that swaps the pointer of the last node. -/
theorem enqueue_swaps {x : MsSession} (hstate : x.info.state = .readLastNode)
    (hpoll : pollAReqBlocking x x.info.lastReqId = .ok ())
    (hequal : areMsPtrsEqual x.info.tail x.info.secondTail = .ok true)
    (hlast : x.info.lastOrFirstNodeMsPtr.nextKeyId = 0) : d.msEnqueue x = .ok
      ({ x.info with
          newTail := { x.info.newTail with myKeyId := x.info.queueId }
          newLastOrFirstNodeMsPtr := x.info.newLastOrFirstNodeMsPtr.advance
            x.info.lastOrFirstNodeMsPtr x.info.ownedKey
          lastReqId := lastReqIdAfter x 1, state := .potentialSuccess },
        [.cas (d.msGetNodePtrKeyId x.info.tail.nextKeyId) .lastNode
          (x.info.newLastOrFirstNodeMsPtr.advance x.info.lastOrFirstNodeMsPtr x.info.ownedKey)]) := by
  unfold Deployment.msEnqueue
  simp only [hstate, hpoll, hequal, hlast, ok_bind]
  rfl

theorem linking_start : ∃ tr, Run soloStep ((Deployment.two.msStart .zero .zero).store,
    (Deployment.two.msStart .zero .zero).session 0) tr (linking .loopStart [] 13) := by
  have h : (do
      let p ← exec soloStep ((Deployment.two.msStart .zero .zero).store,
        (Deployment.two.msStart .zero .zero).session 0)
        (serves 0 7 ++ [Turn.client 0] ++ serves 0 3 ++ [Turn.client 0] ++ serves 0 2 ++
          [Turn.client 0, Turn.store 0 true, Turn.client 0])
      return p.2) = .ok (linking .loopStart [] 13) := by
    rfl
  obtain ⟨⟨tr, s⟩, hexec, h⟩ := bind_eq_ok.mp h
  cases h
  exact ⟨tr, run_of_exec hexec⟩

/-- The requests of a session whose queue is empty were executed. -/
theorem linking_poll {state : MsState} {issued : Nat} (h : issued < 2 ^ 32) :
    pollAReqBlocking ⟨linkingInfo state issued, ([] : List MsReq), issued⟩ (u32 issued) =
      .ok () := by
  unfold pollAReqBlocking Issuer.executed
  rw [if_pos]
  simp only [List.length_nil, Nat.sub_zero]
  rw [u32_of_lt h, u64_of_lt (by omega)]

/-- A pass of the session. -/
theorem linking_pass {state state' : MsState} {requests : List MsReq} {issued : Nat}
    (h : Deployment.two.msEnqueue ⟨linkingInfo state issued, [], issued⟩
      = .ok (linkingInfo state' (issued + requests.length), requests))
    (hfits : requests.length ≤ perSessionReqNum) :
    soloStep (linking state [] issued) (.client 0)
      = .ok (linking state' requests (issued + requests.length), .moved) := by
  show (Deployment.two.msEnqueue ⟨linkingInfo state issued, [], issued⟩ >>= _) = _
  rw [h]
  show (if requests.length ≤ perSessionReqNum then _ else _) = _
  rw [if_pos hfits]
  rfl

/-- A request of the session that leaves the store as it is. -/
theorem linking_serve {state : MsState} {r : MsReq} {queue : List MsReq} {issued : Nat}
    {spurious : Bool} (h : msServe spurious linkingStore (linkingInfo state issued) r
      = (linkingStore, linkingInfo state issued, .served)) :
    soloStep (linking state (r :: queue) issued) (.store 0 spurious)
      = .ok (linking state queue issued, .served) := by
  show ((fun p : MsStore × MsSessInfo × MsEvent => Except.ok ((p.1, Issuer.mk p.2.1 queue issued),
    p.2.2)) (msServe spurious linkingStore (linkingInfo state issued) r)) = _
  rw [h]
  rfl

/-- Its compare-and-swap fails once more. -/
theorem linking_step {issued : Nat} (h : issued + 4 < 2 ^ 32) :
    Run soloStep (linking .loopStart [] issued)
      [(.client 0, .moved), (.store 0 false, .served), (.client 0, .moved),
        (.store 0 false, .served), (.store 0 false, .served), (.client 0, .moved),
        (.store 0 true, .served), (.client 0, .moved)]
      (linking .loopStart [] (issued + 4)) := by
  have htail : soloStep (linking .loopStart [] issued) (.client 0)
      = .ok (linking .readTail [.readPtr 0 .tail] (issued + 1), .moved) :=
    linking_pass rfl (by decide)
  have hlast : soloStep (linking .readTail [] (issued + 1)) (.client 0)
      = .ok (linking .readLastNode [.readPtr 4 .lastNodePtr, .readPtr 0 .secondTail] (issued + 3),
        .moved) := by
    refine linking_pass ?_ (by decide)
    show (pollAReqBlocking _ (u32 (issued + 1)) >>= _) = _
    rw [linking_poll (by omega)]
    show Except.ok (_, [MsReq.readPtr (Deployment.two.msGetNodePtrKeyId
      (linkingStore.ptr 0).nextKeyId) _, _]) = _
    rfl
  have hswap : soloStep (linking .readLastNode [] (issued + 3)) (.client 0)
      = .ok (linking .potentialSuccess [.cas 4 .lastNode ⟨false, 0, 0, 11, 2⟩] (issued + 4),
        .moved) := by
    refine linking_pass ?_ (by decide)
    refine (enqueue_swaps rfl (linking_poll (by omega)) rfl rfl).trans ?_
    show Except.ok (_, [MsReq.cas (Deployment.two.msGetNodePtrKeyId (linkingStore.ptr 0).nextKeyId)
      _ (MsPtr.advance ⟨false, 0, 0, 11, 2⟩ (linkingStore.ptr 4) _)]) = _
    rfl
  have hfail : soloStep (linking .potentialSuccess [] (issued + 4)) (.client 0)
      = .ok (linking .loopStart [] (issued + 4), .moved) := by
    refine linking_pass ?_ (by decide)
    show (pollAReqBlocking _ (u32 (issued + 4)) >>= _) = _
    rw [linking_poll (by omega)]
    rfl
  have hspurious : msServe true linkingStore (linkingInfo .potentialSuccess (issued + 4))
      (.cas 4 .lastNode ⟨false, 0, 0, 11, 2⟩)
        = (linkingStore, linkingInfo .potentialSuccess (issued + 4), .served) := by
    rw [msServe, if_neg fun hc => absurd hc.2 (by decide)]
    rfl
  exact (((((((Run.single htail).snoc (linking_serve rfl)).snoc hlast).snoc (linking_serve rfl)).snoc
    (linking_serve rfl)).snoc hswap).snoc (linking_serve hspurious)).snoc hfail

theorem linking_run {n : Nat} (hn : 13 + 4 * n < 2 ^ 32) : ∃ tr, Run soloStep
    ((Deployment.two.msStart .zero .zero).store, (Deployment.two.msStart .zero .zero).session 0) tr
    (linking .loopStart [] (13 + 4 * n)) := by
  induction n with
  | zero => exact linking_start
  | succ n ih =>
    obtain ⟨tr, hrun⟩ := ih (by omega)
    exact ⟨_, hrun.trans (linking_step (by omega))⟩

/-- **An enqueue that does not wait** links its node to itself. -/
theorem ms_self_link : ∃ tr s,
    Run Deployment.two.msStep (Deployment.two.msRounds .zero .zero) tr s ∧
      s.sys.store.initDone = msInitDoneFlag ∧
      ¬ ∃ chain, MsQueues Deployment.two tr s.sys chain := by
  obtain ⟨tr, hrun⟩ := linking_run (n := 2 ^ 30 - 4) (by decide)
  have hloop : (do
      let p ← exec soloStep (linking .loopStart [] (2 ^ 32 - 3))
        ([Turn.client 0] ++ serves 0 1 ++ List.replicate 4 (Turn.client 0) ++ serves 0 4 ++
          [Turn.client 0] ++ serves 0 2 ++ [Turn.client 0] ++ serves 0 1 ++ [Turn.client 0] ++
          serves 0 1 ++ [Turn.client 0] ++ serves 0 2 ++ [Turn.client 0] ++ serves 0 1)
      return (p.2.1.initDone = msInitDoneFlag ∧ (p.2.1.head Deployment.two 0).nextKeyId = 9 ∧
        p.2.1.next Deployment.two 9 = 11 ∧ p.2.1.next Deployment.two 11 = 11 : Bool)) = .ok true := by
    decide +kernel
  obtain ⟨⟨tr', s⟩, hexec, hloop⟩ := bind_eq_ok.mp hloop
  obtain ⟨hinit, hhead, hnext, hself⟩ := of_decide_eq_true (Except.ok.inj hloop)
  have hstart : Deployment.two.msRounds .zero .zero
      = soloAt ((Deployment.two.msStart .zero .zero).store,
        (Deployment.two.msStart .zero .zero).session 0) := by
    show MsRounds.mk (Sessions.mk _ _ _) _ = MsRounds.mk (Sessions.mk _ _ (Function.update _ 0
      ((Deployment.two.msStart .zero .zero).session 0))) _
    rw [Function.update_eq_self]
    rfl
  rw [hstart]
  refine ⟨tr ++ tr', soloAt s, solo_run (hrun.trans (run_of_exec hexec)), hinit, ?_⟩
  rintro ⟨chain, h⟩
  have hpath := h.path 0 (by decide)
  change Path (s.1.next Deployment.two) (s.1.head Deployment.two 0).nextKeyId (chain 0) 0 at hpath
  rw [hhead] at hpath
  have hendless : ∀ l, ¬ Path (s.1.next Deployment.two) 11 l 0 := by
    intro l
    induction l with
    | nil => exact fun hc => by cases hc
    | cons a l ih =>
      rintro ⟨rfl, hl⟩
      rw [hself] at hl
      exact ih hl
  cases hchain : chain 0 with
  | nil =>
    rw [hchain] at hpath
    cases hpath
  | cons a l =>
    rw [hchain] at hpath
    obtain ⟨rfl, hl⟩ := hpath
    rw [hnext] at hl
    exact hendless l hl

/-! ## The tags of the pointers -/

theorem step_client_error {p : Service MsStore BenchClient MsSessInfo MsReq MsEvent} {s : MsSys}
    {g : Nat} {e : Stuck} : p.step s (.client g) = .error e ↔
      p.pass g (s.shared (p.clientOf g)) (s.session g) = .error e := by
  refine bind_eq_error.trans ⟨?_, Or.inl⟩
  rintro (hpass | ⟨r, -, hr⟩)
  · exact hpass
  · nomatch hr

/-- A turn that fails an assertion does so in the pass. -/
theorem msStep_undefined {s : MsRounds} {k : Turn} (h : d.msStep s k = .error .undefined) :
    d.msService.step s.sys k = .error .undefined ∧ ∀ g, k = .client g →
      (s.sys.shared (d.clientOf g)).phase = .running →
        g = d.firstSession (d.clientOf g) + s.sI (d.clientOf g) := by
  cases k with
  | client g =>
    simp only [Deployment.msStep] at h
    split at h
    · split at h
      · rename_i hturn
        rcases bind_eq_error.mp h with hstep | ⟨p, -, hp⟩
        · refine ⟨hstep, ?_⟩
          rintro g' ⟨rfl⟩ -
          exact hturn
        · split at hp <;> cases hp
      · cases h
    · rename_i hwaits
      rcases bind_eq_error.mp h with hstep | ⟨p, -, hp⟩
      · refine ⟨hstep, ?_⟩
        rintro g' ⟨rfl⟩ hrunning
        exact absurd hrunning hwaits
      · cases hp
  | store g spurious =>
    rcases bind_eq_error.mp h with hstep | ⟨p, -, hp⟩
    · refine ⟨hstep, ?_⟩
      rintro g' ⟨⟩
    · cases hp

/-- **While the set-up is executed**, no assertion fails. -/
theorem starting_notUndefined (hkeys : MsKeysFit d) {tail head : MsPtr} (htail : tail.queueId = 0)
    (hhead : head.queueId = 0) {tr late early : MsTrace} {s : MsRounds} {t : MsSys}
    {w : List MsReq} (h : Starting d tail head tr s late t early w)
    (hfew : ∀ g, g < d.globalSessionNum → (s.sys.session g).issued < 2 ^ 32) {k : Turn} :
    d.msStep s k ≠ .error .undefined := by
  intro hc
  obtain ⟨hundefined, hturn⟩ := msStep_undefined hc
  cases k with
  | store g spurious => exact step_store_notUndefined hundefined
  | client g =>
    have hpass := step_client_error.mp hundefined
    by_cases hlate : d.clientOf g = 0 → g = 0
    · -- the pass is one of the late run, too
      have hfew' : ∀ g, g < d.globalSessionNum → (t.session g).issued < 2 ^ 32 := fun g hg =>
        Nat.lt_of_le_of_lt (Service.issued_mono_run h.earlyRun.run g) (hfew g hg)
      have hfirst : SetUpFirst d (d.msSetUp tail head).length late := by
        rintro l₁ p l₂ rfl g' hp hclient hg'
        exact absurd (h.lateFirst p (List.mem_append_right _ List.mem_cons_self) g' hp hclient) hg'
      have hnot : d.msService.step t (.client g) ≠ .error .undefined := by
        refine notUndefined_of_first hkeys htail hhead h.lateRun hfew' hfirst ?_
        rintro g' ⟨rfl⟩ hclient hg'
        exact absurd (hlate hclient) hg'
      rw [(early_frame h.earlyRun).1 g hlate, h.shared] at hpass
      exact hnot (step_client_error.mpr hpass)
    · obtain ⟨hclient, hne⟩ := Classical.not_imp.mp hlate
      have hfirst := hturn g rfl (hclient ▸ h.running)
      rw [hclient, firstSession_zero, Nat.zero_add] at hfirst
      cases h.others g hne hclient with
      | made hpassed _ => omega
      | before hinfo hempty =>
        change (if g < d.globalSessionNum then _ else _) = _ at hpass
        split at hpass
        · rw [show d.msService.clientOf g = 0 from hclient] at hpass
          have hloop : ∃ r, d.msLoopPass (s.sys.shared 0).queueIdCntr (s.sys.session g) =
              .ok r := by
            rw [Deployment.msLoopPass, hinfo]
            show ∃ r, (d.msEnqueue (s.sys.session g) >>= _) = _
            unfold Deployment.msEnqueue
            rw [hinfo]
            exact ⟨_, rfl⟩
          obtain ⟨r, hloop⟩ := hloop
          rw [Deployment.msPass, if_pos h.running, hloop] at hpass
          cases hpass
        · cases hpass

/-- **The pointers that a session compares have the same tags**, if the set-up finds 0 on the stack
    for `queue_id`, and each session has issued fewer than `2^32` requests. -/
theorem ms_ptrs_comparable (hkeys : MsKeysFit d) {tail head : MsPtr} (htail : tail.queueId = 0)
    (hhead : head.queueId = 0) {tr : MsTrace} {s : MsRounds}
    (hrun : Run d.msStep (d.msRounds tail head) tr s)
    (hfew : ∀ g, g < d.globalSessionNum → (s.sys.session g).issued < 2 ^ 32) {turn : Turn} :
    d.msStep s turn ≠ .error .undefined := by
  rcases Nat.eq_zero_or_pos d.globalSessionNum with hnone | hpos
  · intro hc
    have hundefined := (msStep_undefined hc).1
    cases turn with
    | store g spurious => exact step_store_notUndefined hundefined
    | client g =>
      exact step_client_notUndefined (P := fun _ => True) (fun hg => absurd hg (by omega))
        hundefined
  · rcases rounds_run hkeys hpos hrun hfew with
      ⟨late, t, early, w, h⟩ | ⟨before, late, after, h⟩
    · exact starting_notUndefined hkeys htail hhead h hfew
    · intro hc
      refine notUndefined_of_first hkeys htail hhead h.run hfew (h.first after) ?_
        (msStep_undefined hc).1
      rintro g rfl hclient hg
      refine h.first (after ++ [(.client g, .moved)]) (late ++ after) (.client g, .moved) [] ?_ g rfl
        hclient hg
      rw [List.append_assoc]

/-- On a zeroed stack, session 2 can compare what it has read of its tail. -/
theorem ms_ptrs_comparable_four : ∃ tr s,
    Run Deployment.four.msStep (Deployment.four.msRounds .zero .zero) tr s ∧
      (s.sys.session 2).info.state = .readLastNode ∧ (s.sys.session 2).queue = [] ∧ s.sI 1 = 0 ∧
      Deployment.four.msStep s (.client 2) ≠ .error .undefined := by
  have h : (do
      let p ← exec Deployment.four.msStep (Deployment.four.msRounds .zero .zero)
        (serves 0 13 ++ [Turn.client 2] ++ serves 2 1 ++
          [Turn.client 2, Turn.client 2, Turn.client 3] ++ serves 2 3 ++ serves 3 3 ++
          [Turn.client 2, Turn.client 3] ++ serves 2 2)
      return ((∀ g, g < Deployment.four.globalSessionNum → (p.2.sys.session g).issued < 2 ^ 32) ∧
        (p.2.sys.session 2).info.state = MsState.readLastNode ∧
        (p.2.sys.session 2).queue = [] ∧ p.2.sI 1 = 0 : Bool)) = .ok true := by decide +kernel
  obtain ⟨⟨tr, s⟩, hexec, h⟩ := bind_eq_ok.mp h
  obtain ⟨hfew, hstate, hqueue, hturn⟩ := of_decide_eq_true (Except.ok.inj h)
  have hrun := run_of_exec hexec
  exact ⟨tr, s, hrun, hstate, hqueue, hturn,
    ms_ptrs_comparable (by unfold MsKeysFit; decide) rfl rfl hrun hfew⟩

/-- What is on the stack where `ms_set_up_tail_and_head` has its local `tail`. -/
def stackTail : MsPtr := ⟨false, 5, 0, 0, 0⟩

/-- **The assertion fails** after the set-up: session 2 reads the tail that the set-up wrote, the
    first client goes round its sessions until session 0 has swapped that tail, and session 2 reads
    it again. -/
theorem ms_ptrs_comparable_stack : ∃ tr s,
    Run Deployment.four.msStep (Deployment.four.msRounds stackTail .zero) tr s ∧
      (tr.take 13).map Prod.fst = serves 0 13 ∧ s.sys.store.initDone = msInitDoneFlag ∧
      Deployment.four.msStep s (.client 2) = .error .undefined := by
  have h : (do
      let p ← exec Deployment.four.msStep (Deployment.four.msRounds stackTail .zero)
        (serves 0 13 ++ [Turn.client 2] ++ serves 2 1 ++
          [Turn.client 2, Turn.client 2, Turn.client 3] ++ serves 2 3 ++ serves 3 3 ++
          [Turn.client 2, Turn.client 3] ++
          [3, 2, 1, 1, 2, 2, 2, 0, 3, 2, 1, 1].flatMap roundOfFirst ++ serves 2 2)
      return ((p.1.take 13).map Prod.fst = serves 0 13 ∧ p.2.sys.store.initDone = msInitDoneFlag ∧
        (match Deployment.four.msStep p.2 (.client 2) with
          | .error .undefined => true
          | _ => false) = true : Bool)) = .ok true := by decide +kernel
  obtain ⟨⟨tr, s⟩, hexec, h⟩ := bind_eq_ok.mp h
  obtain ⟨htake, hinit, hundefined⟩ := of_decide_eq_true (Except.ok.inj h)
  refine ⟨tr, s, run_of_exec hexec, htake, hinit, ?_⟩
  split at hundefined
  · assumption
  · nomatch hundefined

/-! ## The values -/

/-- **Every dequeue is one value behind**, in a run of the clients. -/
theorem values_behind (hf : MsFits d) {tail head : MsPtr} {tr : MsTrace} {s : MsRounds}
    (hrun : Run d.msStep (d.msRounds tail head) tr s)
    (hfew : ∀ g, g < d.globalSessionNum → (s.sys.session g).issued < 2 ^ 32) :
    ValuesBehind d (d.msStart tail head) tr := by
  rcases Nat.eq_zero_or_pos d.globalSessionNum with hnone | hpos
  · refine (values_of_first hf (sys_run hrun) hfew).2 ?_
    rintro tr₁ ⟨turn, e⟩ tr₂ rfl g ⟨rfl⟩ hclient hg
    -- without a session there is no pass
    obtain ⟨s₁, s₂, -, hstep⟩ := (sys_run hrun).split_step
    rcases Service.step_cases hstep with ⟨g', c, info, requests, -, hpass, -⟩ |
      ⟨_, _, _, _, _, _, hc, -⟩
    · exact absurd ((msSetUpBy d tail head).pass_lt hpass) (by omega)
    · cases hc
  · rcases rounds_run hf.keysFit hpos hrun hfew with
      ⟨late, t, early, w, h⟩ | ⟨before, late, after, h⟩
    · rintro tr₁ g spurious q k tr₂ rfl
      rcases h.quiet _ (List.mem_append_right _ List.mem_cons_self) with hc | hc <;> cases hc
    · rintro tr₁ g spurious q k tr₂ heq s₁ s₂ hrun₁ hstep
      obtain ⟨after₁, rfl, hafter⟩ : ∃ after₁, tr₁ = before ++ after₁ ∧
          after = after₁ ++ (.store g spurious, .dequeued q k) :: tr₂ := by
        rcases List.append_eq_append_iff.mp (h.trace.symm.trans heq) with
          ⟨l, hl, hafter⟩ | ⟨l, hl, htr₂⟩
        · exact ⟨l, hl, hafter⟩
        · cases l with
          | nil =>
            rw [List.append_nil] at hl
            exact ⟨[], by rw [hl, List.append_nil], htr₂.symm⟩
          | cons p l =>
            -- before the flag is released, nothing is dequeued
            obtain ⟨rfl, -⟩ := List.cons.inj htr₂
            have hquiet := h.beforeQuiet (.store g spurious, .dequeued q k)
              (hl ▸ List.mem_append_right _ List.mem_cons_self)
            rcases hquiet with hc | hc <;> cases hc
      obtain ⟨t, hbefore, hlate, hrest⟩ := h.reached
      rw [hafter] at hrest
      obtain ⟨s₁', hmid, hend⟩ := hrest.split
      cases hrun₁.eq_of_run (hbefore.trans hmid)
      have hdone : SetUpDone d tail head (before ++ after₁) s₁ before late after₁ :=
        ⟨rfl, h.first, ⟨t, hbefore, hlate, hmid⟩, h.beforeQuiet, h.lateQuiet⟩
      have hvalue := dequeue_reads_before hf hdone.run (fun g hg =>
        Nat.lt_of_le_of_lt (Service.issued_mono_run hend g) (hfew g hg)) (h.first after₁) hstep
      obtain ⟨hentered, hleft⟩ := hdone.shown q
      unfold Deployment.msBodies at hvalue ⊢
      rw [hentered, hleft]
      exact hvalue

/-- **The values are not in order**: they are in the runs without a dequeue only, and every dequeue
    is one value behind. -/
theorem ms_values_not_in_order (hf : MsFits d) {tail head : MsPtr} {tr : MsTrace} {s : MsRounds}
    (hrun : Run d.msStep (d.msRounds tail head) tr s)
    (hfew : ∀ g, g < d.globalSessionNum → (s.sys.session g).issued < 2 ^ 32) :
    (ValuesInOrder d (d.msStart tail head) tr ↔ NoDequeue tr) ∧
      ValuesBehind d (d.msStart tail head) tr :=
  ⟨(values_of_first hf (sys_run hrun) hfew).1, values_behind hf hrun hfew⟩

/-- Session 0 takes the dummy of queue 0, after it has enqueued its own node. -/
theorem first_dequeue_four : ∃ tr s s',
    Run Deployment.four.msStep (Deployment.four.msRounds .zero .zero) tr s ∧
      (∀ g, g < Deployment.four.globalSessionNum → (s'.sys.session g).issued < 2 ^ 32) ∧
      Deployment.four.msStep s (.store 0 false) = .ok (s', .dequeued 0 17) ∧
      entered tr 0 = [21] ∧ left tr 0 = [] ∧ (s'.sys.session 0).info.newNode 0 = ⟨0, 0⟩ := by
  have h : (do
      let p ← exec Deployment.four.msStep (Deployment.four.msRounds .zero .zero)
        (serves 0 13 ++ [3, 2, 1, 1, 2, 2].flatMap roundOfFirst ++ [Turn.client 0] ++ serves 0 1)
      let q ← Deployment.four.msStep p.2 (.store 0 false)
      return ((∀ g, g < Deployment.four.globalSessionNum → (q.1.sys.session g).issued < 2 ^ 32) ∧
        q.2 = MsEvent.dequeued 0 17 ∧ entered p.1 0 = [21] ∧ left p.1 0 = [] ∧
        (q.1.sys.session 0).info.newNode 0 = (⟨0, 0⟩ : MsNode) : Bool)) = .ok true := by
    decide +kernel
  obtain ⟨⟨tr, s⟩, hexec, h⟩ := bind_eq_ok.mp h
  obtain ⟨⟨s', e⟩, hstep, h⟩ := bind_eq_ok.mp h
  obtain ⟨hfew, rfl, hentered, hleft, hread⟩ := of_decide_eq_true (Except.ok.inj h)
  exact ⟨tr, s, s', run_of_exec hexec, hfew, hstep, hentered, hleft, hread⟩

/-- That run is one value behind, and not in order. -/
theorem ms_values_not_in_order_four : ∃ tr s,
    Run Deployment.four.msStep (Deployment.four.msRounds .zero .zero) tr s ∧
      ¬ ValuesInOrder Deployment.four (Deployment.four.msStart .zero .zero) tr ∧
      ValuesBehind Deployment.four (Deployment.four.msStart .zero .zero) tr := by
  obtain ⟨tr, s, s', hrun, hfew, hstep, -, -, -⟩ := first_dequeue_four
  obtain ⟨hiff, hbehind⟩ :=
    ms_values_not_in_order (by unfold MsFits; decide) (hrun.snoc hstep) hfew
  refine ⟨_, s', hrun.snoc hstep, fun hc => ?_, hbehind⟩
  exact hiff.mp hc _ (List.mem_append_right _ List.mem_cons_self) 0 17 rfl

/-- **The values are not in order**: the first dequeue of queue 0 reads what nobody has written, and
    the first enqueue has written that the node is 21. -/
theorem ms_dequeue_reads_dummy : ∃ tr s s',
    Run Deployment.four.msStep (Deployment.four.msRounds .zero .zero) tr s ∧
      Deployment.four.msStep s (.store 0 false) = .ok (s', .dequeued 0 17) ∧
      left tr 0 = [] ∧ entered tr 0 = [21] ∧ (s'.sys.session 0).info.newNode 0 = ⟨0, 0⟩ ∧
      ¬ ValuesInOrder Deployment.four (Deployment.four.msStart .zero .zero)
        (tr ++ [(.store 0 false, .dequeued 0 17)]) := by
  obtain ⟨tr, s, s', hrun, -, hstep, hentered, hleft, hread⟩ := first_dequeue_four
  refine ⟨tr, s, s', hrun, hstep, hleft, hentered, hread, fun hc => ?_⟩
  have hvalue := hc tr 0 false 0 17 [] rfl s.sys s'.sys (sys_run hrun) (msStep_cases hstep).1
  dsimp only at hvalue
  rw [hleft, hentered, hread] at hvalue
  nomatch hvalue

end Odyssey
