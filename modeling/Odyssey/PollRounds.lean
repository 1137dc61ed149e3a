/-
  HOW FAR A POLL GETS.

  `poll` is written as a loop: while the slot at the pull pointer is completed, give it back and
  advance the pointer.  But the slot is looked up once, before the loop, and the pointer to it is
  not advanced with `clt_pull_ptr`: the second test reads the slot that has just been given back.
  A poll pulls one request or none (`poll_spec`), however many are completed.

  `completedAhead` is how many there are, `PollsAll` what a poll that takes them all leaves behind,
  and `CompletedUpTo` what `poll_a_req_async` is asked about.  With at most one completed request
  at the pull pointer nothing is missed, and with two something always is (`poll_all`).
-/
import Odyssey.RingShape

namespace Odyssey

open Lib

variable {conf : ClientConf}

namespace Session

variable (conf : ClientConf) (s : Session)

/-- How many requests from the pull pointer on are completed. -/
def completedAhead : Nat :=
  ((window conf.ringSize s.cltPullPtr conf.ringSize).takeWhile
    fun i => s.stateAt i == .completed).length

/-- `s'` is `s` with all of these pulled. -/
structure PollsAll (s' : Session) : Prop where
  rest : s'.stateAt s'.cltPullPtr ≠ .completed
  pullPtr : s'.cltPullPtr = slot conf.ringSize s.cltPullPtr (s.completedAhead conf)
  pulled : s'.lastPulledReq = u64 (s.lastPulledReq + s.completedAhead conf)
  freed : ∀ i, s'.stateAt i =
    if i ∈ window conf.ringSize s.cltPullPtr (s.completedAhead conf) then .invalid
    else s.stateAt i

/-- The requests up to `target` that are not pulled yet are issued, and completed. -/
def CompletedUpTo (target : Nat) : Prop :=
  ∀ j, s.lastPulledReq < j → j ≤ target → j ≤ s.lastPushedReq ∧
    s.stateAt (slot conf.ringSize s.cltPullPtr (j - s.lastPulledReq - 1)) = .completed

/-- What a poll should do, and what `poll_a_req_async` should answer. -/
structure PollsRight : Prop where
  poll : ∃ s' evs, s.poll conf = .ok (s', s'.lastPulledReq, evs) ∧ s.PollsAll conf s'
  async : ∀ target, ∃ s' answer evs, s.pollAReqAsync conf target = .ok (s', answer, evs) ∧
    (answer = true ↔ s.CompletedUpTo conf target)

end Session

namespace RingShape

variable {s : Session} {n : Nat}

/-- With a request at the pull pointer that is not completed, none is ahead. -/
theorem completedAhead_zero (h : RingShape conf s n) (hst : s.stateAt s.cltPullPtr ≠ .completed) :
    s.completedAhead conf = 0 := by
  obtain ⟨k, hk⟩ := Nat.exists_eq_succ_of_ne_zero (Nat.ne_of_gt h.size_pos)
  have hpull := h.pull_lt
  unfold Session.completedAhead
  rw [hk] at hpull ⊢
  rw [window_cons hpull, List.takeWhile_cons, if_neg (by simpa using hst)]
  rfl

/-- With a completed request at the pull pointer and none behind it, there is one. -/
theorem completedAhead_one (h : RingShape conf s n) (hst : s.stateAt s.cltPullPtr = .completed)
    (hnext : 1 < conf.ringSize →
      s.stateAt (slot conf.ringSize s.cltPullPtr 1) ≠ .completed) :
    s.completedAhead conf = 1 := by
  have hpull := h.pull_lt
  have hpos := h.size_pos
  unfold Session.completedAhead
  rcases Nat.lt_or_ge 1 conf.ringSize with hlt | hle
  · obtain ⟨k, hk⟩ : ∃ k, conf.ringSize = k + 1 + 1 := ⟨conf.ringSize - 2, by omega⟩
    have hnext' := hnext hlt
    rw [hk] at hpull hnext' ⊢
    rw [window_cons hpull, window_cons (slot_lt (by omega)), List.takeWhile_cons,
      if_pos (by simpa using hst), List.takeWhile_cons, if_neg (by simpa using hnext')]
    rfl
  · have hone : conf.ringSize = 0 + 1 := by omega
    rw [hone] at hpull ⊢
    rw [window_cons hpull, window_zero, List.takeWhile_cons, if_pos (by simpa using hst)]
    rfl

/-- The slots after one request was pulled. -/
theorem stateAt_pulled (s : Session) (i : Nat) :
    (s.pulled conf).stateAt i = if i = s.cltPullPtr then .invalid else s.stateAt i := by
  have hstates : (s.pulled conf).stateAt = Function.update s.stateAt s.cltPullPtr .invalid :=
    Session.stateAt_setOp ..
  rw [hstates, Function.update_apply]

theorem next_ne (h : RingShape conf s n) (hlt : 1 < conf.ringSize) :
    slot conf.ringSize s.cltPullPtr 1 ≠ s.cltPullPtr := by
  have hne := slot_ne h.pull_lt hlt h.size_pos (Nat.succ_ne_zero 0)
  rwa [slot_zero h.pull_lt] at hne

/-- A poll that finds nothing to pull. -/
theorem pollsRight_none (h : RingShape conf s n) (hst : s.stateAt s.cltPullPtr ≠ .completed)
    (hbound : s.lastPulledReq < 2 ^ 64) : s.PollsRight conf := by
  have hzero := h.completedAhead_zero hst
  obtain ⟨t, r, evs, hpoll⟩ := h.poll_returns
  obtain ⟨rfl, ⟨-, rfl, rfl⟩ | ⟨hdone, -⟩⟩ := poll_spec hpoll
  · constructor
    · refine ⟨_, _, hpoll, hst, ?_, ?_, ?_⟩
      · rw [hzero, slot_zero h.pull_lt]
      · rw [hzero]
        exact (u64_of_lt hbound).symm
      · intro i
        rw [hzero, window_zero, if_neg (by simp)]
    · intro target
      refine ⟨t, decide (target ≤ t.lastPulledReq), [], ?_, ?_⟩
      · unfold Session.pollAReqAsync
        rw [hpoll]
        rfl
      · rw [decide_eq_true_iff]
        constructor
        · intro hle j hj hjt
          omega
        · intro hall
          by_contra hlt
          -- the next request is not completed
          obtain ⟨-, hdone⟩ := hall (t.lastPulledReq + 1) (by omega) (by omega)
          rw [show t.lastPulledReq + 1 - t.lastPulledReq - 1 = 0 by omega, slot_zero h.pull_lt]
            at hdone
          exact hst hdone
  · exact absurd hdone hst

/-- A poll that pulls the only completed request. -/
theorem pollsRight_one (h : RingShape conf s n) (hst : s.stateAt s.cltPullPtr = .completed)
    (hnext : 1 < conf.ringSize → s.stateAt (slot conf.ringSize s.cltPullPtr 1) ≠ .completed)
    (hcount : s.lastPushedReq = s.lastPulledReq + n) (hbound : s.lastPushedReq < 2 ^ 64) :
    s.PollsRight conf := by
  have hone := h.completedAhead_one hst hnext
  have hle := h.le
  obtain ⟨hpos, -⟩ := h.pulled hst
  have hptr : (s.pulled conf).cltPullPtr = slot conf.ringSize s.cltPullPtr 1 :=
    modIncr16_ringSize h.pull_lt
  have hnum : (s.pulled conf).lastPulledReq = s.lastPulledReq + 1 := u64_of_lt (by omega)
  obtain ⟨t, r, evs, hpoll⟩ := h.poll_returns
  obtain ⟨rfl, ⟨hnot, -⟩ | ⟨-, rfl, rfl⟩⟩ := poll_spec hpoll
  · exact absurd hst hnot
  · constructor
    · refine ⟨_, _, hpoll, ?_, ?_, ?_, ?_⟩
      · rw [hptr, stateAt_pulled]
        rcases Nat.lt_or_ge 1 conf.ringSize with hlt | hge
        · rw [if_neg (h.next_ne hlt)]
          exact hnext hlt
        · have hsize : conf.ringSize = 1 := by omega
          have hpull := h.pull_lt
          rw [hsize] at hpull ⊢
          rw [slot_full hpull, if_pos rfl]
          exact fun heq => nomatch heq
      · rw [hptr, hone]
      · rw [hone]
        rfl
      · intro i
        have hwindow : window conf.ringSize s.cltPullPtr 1 = [s.cltPullPtr] := by
          rw [window_cons h.pull_lt, window_zero]
        rw [hone, hwindow, stateAt_pulled]
        simp only [List.mem_singleton]
    · intro target
      refine ⟨s.pulled conf, decide (target ≤ (s.pulled conf).lastPulledReq),
        [.polled s.cltPullPtr], ?_, ?_⟩
      · unfold Session.pollAReqAsync
        rw [hpoll]
        rfl
      · rw [decide_eq_true_iff, hnum]
        constructor
        · intro htarget j hj hjt
          refine ⟨by omega, ?_⟩
          rw [show j - s.lastPulledReq - 1 = 0 by omega, slot_zero h.pull_lt]
          exact hst
        · intro hall
          by_contra hlt
          -- the request behind it is not completed
          obtain ⟨hissued, hdone⟩ := hall (s.lastPulledReq + 2) (by omega) (by omega)
          rw [show s.lastPulledReq + 2 - s.lastPulledReq - 1 = 1 by omega] at hdone
          exact hnext (by omega) hdone

/-- A poll with two requests to pull leaves one behind. -/
theorem not_pollsRight (h : RingShape conf s n) (hlt : 1 < conf.ringSize)
    (hst : s.stateAt s.cltPullPtr = .completed)
    (hnext : s.stateAt (slot conf.ringSize s.cltPullPtr 1) = .completed) :
    ¬ s.PollsRight conf := by
  rintro ⟨⟨t, evs, hpoll, hall⟩, -⟩
  obtain ⟨-, ⟨hnot, -⟩ | ⟨-, rfl, rfl⟩⟩ := poll_spec hpoll
  · exact hnot hst
  · have hptr : (s.pulled conf).cltPullPtr = slot conf.ringSize s.cltPullPtr 1 :=
      modIncr16_ringSize h.pull_lt
    refine hall.rest ?_
    rw [hptr, stateAt_pulled, if_neg (h.next_ne hlt)]
    exact hnext

end RingShape

/-- **A poll takes all the completed requests at the pull pointer**, and `poll_a_req_async` answers
    what it is asked, if and only if these are not two or more. -/
theorem poll_all (hpos : 0 < conf.perSessionReqNum) {ops : Nat → ClientOp} {tr : ClientTrace}
    {s : ClientState} (hrun : Run (clientStep conf) (.start ops) tr s)
    (hcount : (issuedOps (events tr)).length < 2 ^ 64) :
    s.session.PollsRight conf ↔
      ¬ (1 < conf.ringSize ∧ s.session.stateAt s.session.cltPullPtr = .completed ∧
        s.session.stateAt (slot conf.ringSize s.session.cltPullPtr 1) = .completed) := by
  obtain ⟨n, hshape, hcounts, -⟩ := shape_run hpos hrun
  obtain ⟨hpushed, hpulled⟩ := hcounts hcount
  constructor
  · rintro hright ⟨hlt, hst, hnext⟩
    exact hshape.not_pollsRight hlt hst hnext hright
  · intro hnot
    by_cases hst : s.session.stateAt s.session.cltPullPtr = .completed
    · exact hshape.pollsRight_one hst (fun hlt hnext => hnot ⟨hlt, hst, hnext⟩) hpulled (by omega)
    · exact hshape.pollsRight_none hst (by omega)

/-- One of two requests is completed. -/
theorem poll_all_one : ∃ tr s,
    Run (clientStep (sessionConf 2)) (.start fun _ => freeOp) tr s ∧
    s.session.stateAt s.session.cltPullPtr = .completed ∧
    s.session.PollsRight (sessionConf 2) := by
  obtain ⟨tr, s, hexec, hcount, hpull, hnext⟩ : ∃ tr s,
      exec (clientStep (sessionConf 2)) (.start fun _ => freeOp)
        [.access (.async true) readKeyZero, .advance, .advance,
         .access (.async true) readKeyZero, .advance, .advance, .fill 0, .fill 0, .complete 0]
        = .ok (tr, s) ∧
      (issuedOps (events tr)).length = 2 ∧
      s.session.stateAt s.session.cltPullPtr = .completed ∧
      s.session.stateAt (slot 2 s.session.cltPullPtr 1) = .inProgress :=
    ⟨_, _, rfl, rfl, rfl, rfl⟩
  have hrun := run_of_exec hexec
  refine ⟨tr, s, hrun, hpull, (poll_all (by decide) hrun (by rw [hcount]; decide)).mpr ?_⟩
  rintro ⟨-, -, hdone⟩
  have hdone' : s.session.stateAt (slot 2 s.session.cltPullPtr 1) = .completed := hdone
  rw [hnext] at hdone'
  exact nomatch hdone'

/-- Two of two requests are completed, and a poll pulls the first. -/
theorem poll_leaves_one : ∃ tr s,
    Run (clientStep (sessionConf 2)) (.start fun _ => freeOp) tr s ∧
    ¬ s.session.PollsRight (sessionConf 2) := by
  obtain ⟨tr, s, hexec, hpull, hnext⟩ : ∃ tr s,
      exec (clientStep (sessionConf 2)) (.start fun _ => freeOp)
        [.access (.async true) readKeyZero, .advance, .advance,
         .access (.async true) readKeyZero, .advance, .advance, .fill 0, .fill 0, .complete 0,
         .complete 1] = .ok (tr, s) ∧
      s.session.stateAt s.session.cltPullPtr = .completed ∧
      s.session.stateAt (slot 2 s.session.cltPullPtr 1) = .completed := ⟨_, _, rfl, rfl, rfl⟩
  have hrun := run_of_exec hexec
  obtain ⟨n, hshape, -⟩ := shape_run (by decide) hrun
  exact ⟨tr, s, hrun, hshape.not_pollsRight (by decide) hpull hnext⟩

end Odyssey
