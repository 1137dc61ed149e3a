/-
  THE ROUND OF A WORKER OVER ITS SESSIONS.

  In each iteration of its loop a worker goes once around its sessions, from `last_session` on.
  `od_find_starting_session` looks for the first one that it can pull a request from.  The protocol
  serves that session, which may stall it or take its request, and
  `od_find_next_working_session` goes on from there: it stays while the session has another request
  and moves on when it has none, until it is back at `last_session`.

  Both functions examine sessions in the cyclic order from `last_session`, so a round is described
  by one number, the place `n` of the working session in that order (`Scanned`): the sessions in the
  places before `n` were found with nothing to pull, and since nobody serves them they still have
  nothing.  A service changes the session in place `n` only.  So when the round is over every
  session was seen with nothing to pull, and if this means that it is stalled, all are stalled.

  `ENABLE_CLIENTS` and `ENABLE_ASSERTIONS` are parameters, and the rings are those of `ClientRing`.
-/
import Odyssey.ClientRingRuns

namespace Odyssey

open Lib

/-! ## The two scans -/

/-- The macros, as `od_generic_static_assert_compile_parameters` lets them pass. -/
structure PullConf where
  client : ClientConf
  /-- `ENABLE_CLIENTS` -/
  enableClients : Bool
  /-- `SESSIONS_PER_THREAD` -/
  sessionsPerThread : Nat
  sessions_pos : 0 < sessionsPerThread
  sessions_lt : sessionsPerThread < 2 ^ 16

/-- What a worker has of its sessions. -/
structure PullState where
  stalled : Nat → Bool
  ring : Nat → Session
  workingSession : Int
  allSessionsStalled : Bool

/-- The sessions that were examined, oldest first, and whether there was a request to pull. -/
abbrev Exams := List (Nat × Bool)

/-- `od_pull_request_from_this_session` -/
def odPullRequestFromThisSession (conf : PullConf) (stalled : Bool) (ring : Session)
    (sessI : Nat) : Outcome Bool := do
  let pullPtr := ring.wrkrPullPtr
  conf.client.check (decide (sessI < conf.sessionsPerThread))
  if conf.enableClients then
    conf.client.check (decide (pullPtr < conf.client.perSessionReqNum))
    -- the slot of a stalled session is not looked at
    if stalled then return false
    else if pullPtr < conf.client.perSessionReqNum then return ring.isClientReqActive pullPtr
    else .error .undefined
  else return !stalled

/-- The loop of `od_find_starting_session`, at `i`. -/
def startingLoop (conf : PullConf) (lastSession : Nat) (s : PullState) :
    Nat → Nat → Outcome (PullState × Exams)
  | 0, _ => .error .endless
  | fuel + 1, i =>
    if i < conf.sessionsPerThread then do
      let sessI := u16 ((lastSession + i) % conf.sessionsPerThread)
      let pull ← odPullRequestFromThisSession conf (s.stalled sessI) (s.ring sessI) sessI
      if pull then return ({ s with workingSession := sessI }, [(sessI, true)])
      else
        let (s, exams) ← startingLoop conf lastSession s fuel (u16 (i + 1))
        return (s, (sessI, false) :: exams)
    else .ok (s, [])

/-- `od_find_starting_session` -/
def odFindStartingSession (conf : PullConf) (lastSession : Nat) (s : PullState) :
    Outcome (PullState × Bool × Exams) := do
  let (s, exams) ← startingLoop conf lastSession s (conf.sessionsPerThread + 1) 0
  if conf.enableClients then return (s, decide (s.workingSession ≠ -1), exams)
  else
    conf.client.check (decide (s.workingSession ≠ -1))
    return (s, true, exams)

/-- `MOD_INCR(*working_session, SESSIONS_PER_THREAD)` -/
def PullConf.nextSession (conf : PullConf) (w : Nat) : Nat :=
  if w + 1 = conf.sessionsPerThread then 0 else w + 1

/-- The loop of `od_find_next_working_session`.  The arrays have one entry a session. -/
def nextLoop (conf : PullConf) (lastSession : Nat) :
    Nat → PullState → Outcome (PullState × Bool × Exams)
  | 0, _ => .error .endless
  | fuel + 1, s =>
    match s.workingSession with
    | .negSucc _ => .error .undefined
    | .ofNat w =>
      if w < conf.sessionsPerThread then do
        let pull ← odPullRequestFromThisSession conf (s.stalled w) (s.ring (u16 w)) (u16 w)
        if pull then return (s, false, [(w, true)])
        else
          let s := { s with workingSession := conf.nextSession w }
          if conf.nextSession w = lastSession then
            -- if clients are used the condition does not guarantee that sessions are stalled
            return ({ s with allSessionsStalled := s.allSessionsStalled || !conf.enableClients },
              true, [(w, false)])
          else
            let (s, r, exams) ← nextLoop conf lastSession fuel s
            return (s, r, (w, false) :: exams)
      else .error .undefined

/-- `od_find_next_working_session` -/
def odFindNextWorkingSession (conf : PullConf) (lastSession : Nat) (s : PullState) :
    Outcome (PullState × Bool × Exams) :=
  nextLoop conf lastSession conf.sessionsPerThread s

/-! ## A round -/

/-- The ring of session `w`, if its request is taken. -/
def takeRequest (conf : PullConf) (take : Bool) (ring : Session) (w : Nat) : Outcome Session :=
  if take && conf.enableClients then (ring.odFillTraceOp conf.client w).map Prod.fst
  else .ok ring

/-- The protocol serves the working session: it may stall it, and it may take its request. -/
def PullState.serve (conf : PullConf) (stall take : Bool) (s : PullState) : Outcome PullState :=
  match s.workingSession with
  | .negSucc _ => .error .undefined
  | .ofNat w => do
    let ring ← takeRequest conf take (s.ring w) w
    return { s with
      stalled := Function.update s.stalled w (s.stalled w || stall)
      ring := Function.update s.ring w ring }

inductive RoundPhase
  /-- no working session yet -/
  | idle
  | serving
  /-- `od_find_next_working_session` has returned true -/
  | ended
  deriving DecidableEq

structure RoundState where
  pull : PullState
  phase : RoundPhase

inductive RoundCmd
  | start
  | serve (stall take : Bool)
  | next

/-- One call. -/
def roundStep (conf : PullConf) (lastSession : Nat) (s : RoundState) :
    RoundCmd → Outcome (RoundState × Exams)
  | .start =>
    match s.phase with
    | .idle => do
      let (pull, _, exams) ← odFindStartingSession conf lastSession s.pull
      return (⟨pull, if pull.workingSession = -1 then .idle else .serving⟩, exams)
    | _ => .error .disabled
  | .serve stall take =>
    match s.phase with
    | .serving => do
      let pull ← s.pull.serve conf stall take
      return ({ s with pull := pull }, [])
    | _ => .error .disabled
  | .next =>
    match s.phase with
    | .serving => do
      let (pull, r, exams) ← odFindNextWorkingSession conf lastSession s.pull
      return (⟨pull, if r then .ended else .serving⟩, exams)
    | _ => .error .disabled

/-- A round begins. -/
def RoundState.start (stalled : Nat → Bool) (ring : Nat → Session) : RoundState where
  pull := { stalled := stalled, ring := ring, workingSession := -1, allSessionsStalled := false }
  phase := .idle

abbrev RoundTrace := List (RoundCmd × Exams)

def exams (tr : RoundTrace) : Exams := tr.flatMap Prod.snd

/-- What the last examination of session `i` found. -/
def lastExam (i : Nat) (exams : Exams) : Option Bool :=
  exams.foldl (fun r e => if e.1 = i then some e.2 else r) none

theorem lastExam_concat (i j : Nat) (b : Bool) (exams : Exams) :
    lastExam i (exams ++ [(j, b)]) = if j = i then some b else lastExam i exams := by
  unfold lastExam
  rw [List.foldl_append]
  rfl

/-! ## What a scan has seen -/

variable {conf : PullConf} {lastSession : Nat}

/-- A request can be pulled from session `i`. -/
def PullState.pullable (conf : PullConf) (s : PullState) (i : Nat) : Bool :=
  !s.stalled i && (!conf.enableClients || (s.ring i).isClientReqActive (s.ring i).wrkrPullPtr)

/-- The pull pointers of the worker are slots. -/
def PullState.InRange (conf : PullConf) (s : PullState) : Prop :=
  conf.enableClients = true → ∀ i < conf.sessionsPerThread,
    (s.ring i).wrkrPullPtr < conf.client.perSessionReqNum

theorem PullConf.check_eq {b : Bool} (h : b = true) : conf.client.check b = .ok () := by
  unfold ClientConf.check
  rw [h]
  cases conf.client.enableAssertions <;> rfl

/-- **An examination** of a session. -/
theorem odPullRequestFromThisSession_eq {s : PullState} (h : s.InRange conf) {i : Nat}
    (hi : i < conf.sessionsPerThread) :
    odPullRequestFromThisSession conf (s.stalled i) (s.ring i) i =
      .ok (s.pullable conf i) := by
  unfold odPullRequestFromThisSession PullState.pullable
  rw [PullConf.check_eq (decide_eq_true hi)]
  by_cases hclients : conf.enableClients = true
  · have hptr := h hclients i hi
    rw [ok_bind, if_pos hclients, PullConf.check_eq (decide_eq_true hptr), ok_bind, if_pos hptr]
    rw [hclients]
    cases s.stalled i <;> rfl
  · rw [ok_bind, if_neg hclients, eq_false_of_ne_true hclients]
    cases s.stalled i <;> rfl

/-- The sessions in the first `n` places from `last_session` on were examined last with nothing to
    pull, and have nothing to pull. -/
def Passed (conf : PullConf) (lastSession : Nat) (s : PullState) (seen : Exams) (n : Nat) : Prop :=
  ∀ k < n, lastExam (slot conf.sessionsPerThread lastSession k) seen = some false ∧
    s.pullable conf (slot conf.sessionsPerThread lastSession k) = false

/-- One more place. -/
theorem Passed.succ {s : PullState} {seen : Exams} {n : Nat}
    (h : Passed conf lastSession s seen n) (hlast : lastSession < conf.sessionsPerThread)
    (hn : n < conf.sessionsPerThread)
    (hnew : s.pullable conf (slot conf.sessionsPerThread lastSession n) = false) :
    Passed conf lastSession s (seen ++ [(slot conf.sessionsPerThread lastSession n, false)])
      (n + 1) := by
  intro k hk
  rw [lastExam_concat]
  by_cases hkn : k = n
  · subst hkn
    exact ⟨if_pos rfl, hnew⟩
  · rw [if_neg (slot_ne hlast hn (by omega) (Ne.symm hkn))]
    exact h k (by omega)

/-- The places before the one examined stay passed. -/
theorem Passed.found {s : PullState} {seen : Exams} {n : Nat}
    (h : Passed conf lastSession s seen n) (hlast : lastSession < conf.sessionsPerThread)
    (hn : n < conf.sessionsPerThread) :
    Passed conf lastSession s (seen ++ [(slot conf.sessionsPerThread lastSession n, true)]) n := by
  intro k hk
  rw [lastExam_concat, if_neg (slot_ne hlast hn (by omega) (by omega))]
  exact h k hk

/-- Once all places are passed, all sessions are. -/
theorem Passed.all {s : PullState} {seen : Exams}
    (h : Passed conf lastSession s seen conf.sessionsPerThread)
    (hlast : lastSession < conf.sessionsPerThread) {i : Nat} (hi : i < conf.sessionsPerThread) :
    lastExam i seen = some false ∧ s.pullable conf i = false := by
  have hmem := (window_perm hlast).mem_iff.mpr (List.mem_range.mpr hi)
  obtain ⟨k, hk, rfl⟩ := List.mem_map.mp hmem
  exact h k (List.mem_range.mp hk)

/-- **The first scan**, from place `i` on: it passes all places, or it stops at the first that it
    cannot pass. -/
theorem startingLoop_spec {s : PullState} (hrange : s.InRange conf)
    (hlast : lastSession < conf.sessionsPerThread) :
    ∀ (fuel i : Nat) (seen : Exams), i ≤ conf.sessionsPerThread →
      i + fuel = conf.sessionsPerThread + 1 → Passed conf lastSession s seen i →
      ∃ s' new, startingLoop conf lastSession s fuel i = .ok (s', new) ∧
        ((s' = s ∧ Passed conf lastSession s (seen ++ new) conf.sessionsPerThread) ∨
          ∃ n < conf.sessionsPerThread,
            s' = { s with workingSession := slot conf.sessionsPerThread lastSession n } ∧
            s.pullable conf (slot conf.sessionsPerThread lastSession n) = true ∧
            Passed conf lastSession s (seen ++ new) n) := by
  intro fuel
  have hlt := conf.sessions_lt
  induction fuel with
  | zero =>
    intro i seen hle hsum
    omega
  | succ fuel ih =>
    intro i seen hle hsum hpassed
    rw [startingLoop]
    by_cases hi : i < conf.sessionsPerThread
    · let w := slot conf.sessionsPerThread lastSession i
      have hw : w < conf.sessionsPerThread := slot_lt conf.sessions_pos
      have hsess : u16 ((lastSession + i) % conf.sessionsPerThread) = w :=
        u16_of_lt (by show w < 2 ^ 16; omega)
      rw [if_pos hi, hsess]
      dsimp only
      rw [odPullRequestFromThisSession_eq hrange hw, ok_bind]
      by_cases hpull : s.pullable conf w = true
      · rw [if_pos hpull]
        exact ⟨_, _, rfl, .inr ⟨i, hi, rfl, hpull, hpassed.found hlast hi⟩⟩
      · rw [if_neg hpull, u16_of_lt (by omega)]
        obtain ⟨s', new, hloop, hspec⟩ := ih (i + 1) (seen ++ [(w, false)]) (by omega) (by omega)
          (hpassed.succ hlast hi (eq_false_of_ne_true hpull))
        refine ⟨s', (w, false) :: new, ?_, ?_⟩
        · rw [hloop]
          rfl
        · rw [List.append_cons]
          exact hspec
    · obtain rfl : i = conf.sessionsPerThread := by omega
      rw [if_neg hi]
      refine ⟨s, [], rfl, .inl ⟨rfl, ?_⟩⟩
      rw [List.append_nil]
      exact hpassed

theorem nextSession_slot (n : Nat) :
    conf.nextSession (slot conf.sessionsPerThread lastSession n) =
      slot conf.sessionsPerThread lastSession (n + 1) := by
  unfold PullConf.nextSession
  rw [wrap_slot (slot_lt conf.sessions_pos), slot_slot]

/-- **The second scan**, with the working session in place `n`: it stops at the first place that it
    cannot pass, or it passes all and is back at `last_session`. -/
theorem nextLoop_spec (hlast : lastSession < conf.sessionsPerThread) :
    ∀ (fuel n : Nat) (s : PullState) (seen : Exams), s.InRange conf →
      n < conf.sessionsPerThread → conf.sessionsPerThread ≤ n + fuel →
      s.workingSession = slot conf.sessionsPerThread lastSession n →
      Passed conf lastSession s seen n →
      ∃ s' r new, nextLoop conf lastSession fuel s = .ok (s', r, new) ∧
        s'.stalled = s.stalled ∧ s'.ring = s.ring ∧
        (r = false → s'.allSessionsStalled = s.allSessionsStalled ∧
          ∃ m < conf.sessionsPerThread,
            s'.workingSession = slot conf.sessionsPerThread lastSession m ∧
            s'.pullable conf (slot conf.sessionsPerThread lastSession m) = true ∧
            Passed conf lastSession s' (seen ++ new) m) ∧
        (r = true → s'.workingSession = lastSession ∧
          s'.allSessionsStalled = (s.allSessionsStalled || !conf.enableClients) ∧
          Passed conf lastSession s' (seen ++ new) conf.sessionsPerThread) := by
  intro fuel
  have hlt := conf.sessions_lt
  induction fuel with
  | zero =>
    intro n s seen _ hn hsum
    omega
  | succ fuel ih =>
    intro n s seen hrange hn hsum hworking hpassed
    let w := slot conf.sessionsPerThread lastSession n
    have hw : w < conf.sessionsPerThread := slot_lt conf.sessions_pos
    have hcast : s.workingSession = Int.ofNat w := hworking
    rw [nextLoop, hcast]
    dsimp only
    rw [if_pos hw, u16_of_lt (by omega), odPullRequestFromThisSession_eq hrange hw, ok_bind]
    by_cases hpull : s.pullable conf w = true
    · rw [if_pos hpull]
      exact ⟨s, false, _, rfl, rfl, rfl,
        fun _ => ⟨rfl, n, hn, hworking, hpull, hpassed.found hlast hn⟩, fun h => nomatch h⟩
    · rw [if_neg hpull]
      have hpassed' := hpassed.succ hlast hn (eq_false_of_ne_true hpull)
      have hnext : conf.nextSession w = slot conf.sessionsPerThread lastSession (n + 1) :=
        nextSession_slot n
      by_cases hback : conf.nextSession w = lastSession
      · -- back at `last_session`: all places are passed
        have hall : n + 1 = conf.sessionsPerThread := by
          rcases Nat.lt_or_ge (n + 1) conf.sessionsPerThread with h | h
          · have hne := slot_ne hlast h conf.sessions_pos (Nat.succ_ne_zero n)
            rw [slot_zero hlast, ← hnext] at hne
            exact absurd hback hne
          · omega
        rw [if_pos hback]
        refine ⟨_, true, _, rfl, rfl, rfl, (fun h => nomatch h), fun _ => ⟨?_, rfl, ?_⟩⟩
        · show ((conf.nextSession w : Nat) : Int) = lastSession
          rw [hback]
        · rw [← hall]
          exact hpassed'
      · rw [if_neg hback]
        have hn' : n + 1 < conf.sessionsPerThread := by
          refine Nat.lt_of_le_of_ne hn fun hall => hback ?_
          rw [hnext, hall, slot_full hlast]
        obtain ⟨s', r, new, hloop, hstalled, hring, hstay, hover⟩ := ih (n + 1)
          { s with workingSession := conf.nextSession w } (seen ++ [(w, false)]) hrange hn'
          (by omega) (by rw [hnext]) hpassed'
        refine ⟨s', r, (w, false) :: new, ?_, hstalled, hring, ?_, ?_⟩
        · rw [hloop]
          rfl
        · rw [List.append_cons]
          exact hstay
        · rw [List.append_cons]
          exact hover

/-! ## Runs -/

theorem modIncr16_lt {x N : Nat} (hx : x < N) : modIncr16 x N < N := by
  have hle : u16 (x + 1) ≤ x + 1 := Nat.mod_le _ _
  unfold modIncr16
  split <;> omega

/-- The pull pointer stays in the ring. -/
theorem takeRequest_lt {take : Bool} {ring ring' : Session} {w : Nat}
    (h : takeRequest conf take ring w = .ok ring')
    (hptr : ring.wrkrPullPtr < conf.client.perSessionReqNum) :
    ring'.wrkrPullPtr < conf.client.perSessionReqNum := by
  unfold takeRequest at h
  split at h
  · cases hfill : ring.odFillTraceOp conf.client w with
    | error e =>
      rw [hfill] at h
      nomatch h
    | ok r =>
      rw [hfill] at h
      cases h
      obtain ⟨clOp, -, hring, -⟩ := odFillTraceOp_spec hfill
      rw [hring]
      exact modIncr16_lt hptr
  · cases h
    exact hptr

/-- A service changes the working session only, so the places before it stay passed. -/
theorem serve_spec {s s' : PullState} {stall take : Bool} {seen : Exams} {n : Nat}
    (hlast : lastSession < conf.sessionsPerThread) (hrange : s.InRange conf)
    (hn : n < conf.sessionsPerThread)
    (hworking : s.workingSession = slot conf.sessionsPerThread lastSession n)
    (hpassed : Passed conf lastSession s seen n) (h : s.serve conf stall take = .ok s') :
    s'.InRange conf ∧ s'.workingSession = s.workingSession ∧
      s'.allSessionsStalled = s.allSessionsStalled ∧ Passed conf lastSession s' seen n := by
  have hcast : s.workingSession = Int.ofNat (slot conf.sessionsPerThread lastSession n) := hworking
  unfold PullState.serve at h
  rw [hcast] at h
  dsimp only at h
  obtain ⟨ring, htake, h⟩ := bind_eq_ok.mp h
  cases h
  refine ⟨?_, hcast.symm, rfl, ?_⟩
  · intro hclients i hi
    show (Function.update s.ring _ ring i).wrkrPullPtr < _
    by_cases hw : i = slot conf.sessionsPerThread lastSession n
    · subst hw
      rw [Function.update_self]
      exact takeRequest_lt htake (hrange hclients _ hi)
    · rw [Function.update_of_ne hw]
      exact hrange hclients i hi
  · intro k hk
    have hne := slot_ne hlast (show k < conf.sessionsPerThread by omega) hn (Nat.ne_of_lt hk)
    obtain ⟨hexam, hpull⟩ := hpassed k hk
    refine ⟨hexam, ?_⟩
    unfold PullState.pullable at hpull ⊢
    dsimp only
    rw [Function.update_of_ne hne, Function.update_of_ne hne]
    exact hpull

/-- What holds in a round. -/
def RoundInv (conf : PullConf) (lastSession : Nat) (tr : RoundTrace) (s : RoundState) : Prop :=
  s.pull.InRange conf ∧
  match s.phase with
  | .idle => s.pull.workingSession = -1 ∧ s.pull.allSessionsStalled = false
  | .serving => s.pull.allSessionsStalled = false ∧
    ∃ n < conf.sessionsPerThread,
      s.pull.workingSession = slot conf.sessionsPerThread lastSession n ∧
      Passed conf lastSession s.pull (exams tr) n
  | .ended => s.pull.workingSession = lastSession ∧
    s.pull.allSessionsStalled = !conf.enableClients ∧
    Passed conf lastSession s.pull (exams tr) conf.sessionsPerThread

section Phases

variable {tr : RoundTrace} {s : RoundState}

theorem roundInv_idle (h : s.phase = .idle) : RoundInv conf lastSession tr s ↔
    s.pull.InRange conf ∧ s.pull.workingSession = -1 ∧ s.pull.allSessionsStalled = false := by
  unfold RoundInv
  rw [h]

theorem roundInv_serving (h : s.phase = .serving) : RoundInv conf lastSession tr s ↔
    s.pull.InRange conf ∧ s.pull.allSessionsStalled = false ∧
      ∃ n < conf.sessionsPerThread,
        s.pull.workingSession = slot conf.sessionsPerThread lastSession n ∧
        Passed conf lastSession s.pull (exams tr) n := by
  unfold RoundInv
  rw [h]

theorem roundInv_ended (h : s.phase = .ended) : RoundInv conf lastSession tr s ↔
    s.pull.InRange conf ∧ s.pull.workingSession = lastSession ∧
      s.pull.allSessionsStalled = !conf.enableClients ∧
      Passed conf lastSession s.pull (exams tr) conf.sessionsPerThread := by
  unfold RoundInv
  rw [h]

end Phases

theorem exams_concat (tr : RoundTrace) (k : RoundCmd) (new : Exams) :
    exams (tr ++ [(k, new)]) = exams tr ++ new := by
  simp [exams]

/-- `od_find_starting_session`, when its loop has found a session. -/
theorem odFindStartingSession_eq {s s' : PullState} {new : Exams}
    (h : startingLoop conf lastSession s (conf.sessionsPerThread + 1) 0 = .ok (s', new))
    (hfound : s'.workingSession ≠ -1) :
    odFindStartingSession conf lastSession s = .ok (s', true, new) := by
  unfold odFindStartingSession
  rw [h, ok_bind]
  dsimp only
  rw [decide_eq_true hfound, PullConf.check_eq rfl]
  cases conf.enableClients <;> rfl

/-- **The call of `od_find_starting_session`**, when there is a request to pull, and when not. -/
theorem start_spec {s : RoundState} {tr : RoundTrace} (hlast : lastSession < conf.sessionsPerThread)
    (hinv : RoundInv conf lastSession tr s) (hphase : s.phase = .idle) :
    (∃ pull new, roundStep conf lastSession s .start = .ok (⟨pull, .serving⟩, new) ∧
      RoundInv conf lastSession (tr ++ [(.start, new)]) ⟨pull, .serving⟩ ∧
      ∃ w < conf.sessionsPerThread, pull.workingSession = w ∧ pull.pullable conf w = true) ∨
    ((∀ i < conf.sessionsPerThread, s.pull.pullable conf i = false) ∧
      (roundStep conf lastSession s .start = .error .undefined ∨
        ∃ new, roundStep conf lastSession s .start = .ok (s, new))) := by
  obtain ⟨pull, phase⟩ := s
  dsimp only at hphase
  subst hphase
  obtain ⟨hrange, hworking, hflag⟩ := hinv
  obtain ⟨s', new, hloop, ⟨rfl, hall⟩ | ⟨n, hn, hs', hpull, hpassed⟩⟩ :=
    startingLoop_spec hrange hlast (conf.sessionsPerThread + 1) 0 (exams tr) (Nat.zero_le _)
      (by omega) fun k hk => absurd hk (Nat.not_lt_zero k)
  · right
    dsimp only at hworking ⊢
    refine ⟨fun i hi => (hall.all hlast hi).2, ?_⟩
    unfold roundStep odFindStartingSession
    dsimp only
    rw [hloop, ok_bind]
    dsimp only
    rw [hworking]
    by_cases hclients : conf.enableClients = true
    · rw [if_pos hclients]
      refine .inr ⟨new, ?_⟩
      show Except.ok (RoundState.mk s' (if s'.workingSession = -1 then _ else _), new) = _
      rw [if_pos hworking]
    · rw [if_neg hclients]
      unfold ClientConf.check
      cases conf.client.enableAssertions with
      | true => exact .inl rfl
      | false =>
        refine .inr ⟨new, ?_⟩
        show Except.ok (RoundState.mk s' (if s'.workingSession = -1 then _ else _), new) = _
        rw [if_pos hworking]
  · left
    have hne : s'.workingSession ≠ -1 := by
      rw [hs']
      show ((slot conf.sessionsPerThread lastSession n : Nat) : Int) ≠ -1
      omega
    refine ⟨s', new, ?_, ⟨?_, ?_, n, hn, ?_, ?_⟩,
      slot conf.sessionsPerThread lastSession n, slot_lt conf.sessions_pos, ?_, ?_⟩
    · unfold roundStep
      dsimp only
      rw [odFindStartingSession_eq hloop hne, ok_bind]
      dsimp only
      rw [if_neg hne]
      rfl
    · rw [hs']
      exact hrange
    · rw [hs']
      exact hflag
    · rw [hs']
    · rw [exams_concat, hs']
      exact hpassed
    · rw [hs']
    · rw [hs']
      exact hpull

/-- **The call of `od_find_next_working_session`.** -/
theorem next_spec {s : RoundState} {tr : RoundTrace} (hlast : lastSession < conf.sessionsPerThread)
    (hinv : RoundInv conf lastSession tr s) (hphase : s.phase = .serving) :
    ∃ s' new, roundStep conf lastSession s .next = .ok (s', new) ∧
      RoundInv conf lastSession (tr ++ [(.next, new)]) s' ∧
      ((s'.phase = .serving ∧ ∃ w < conf.sessionsPerThread, s'.pull.workingSession = w ∧
          s'.pull.pullable conf w = true) ∨ s'.phase = .ended) := by
  obtain ⟨hrange, hflag, n, hn, hworking, hpassed⟩ := (roundInv_serving hphase).mp hinv
  obtain ⟨s', r, new, hloop, hstalled, hring, hstay, hover⟩ :=
    nextLoop_spec hlast conf.sessionsPerThread n s.pull (exams tr) hrange hn (by omega) hworking
      hpassed
  have hrange' : s'.InRange conf := by
    intro hclients i hi
    rw [hring]
    exact hrange hclients i hi
  have hstep : roundStep conf lastSession s .next =
      .ok (⟨s', if r then .ended else .serving⟩, new) := by
    rw [roundStep, hphase]
    unfold odFindNextWorkingSession
    rw [hloop]
    rfl
  refine ⟨_, new, hstep, ?_⟩
  cases r with
  | false =>
    obtain ⟨hflag', m, hm, hworking', hpull, hpassed'⟩ := hstay rfl
    refine ⟨⟨hrange', hflag'.trans hflag, m, hm, hworking', ?_⟩,
      .inl ⟨rfl, _, slot_lt conf.sessions_pos, hworking', hpull⟩⟩
    rw [exams_concat]
    exact hpassed'
  | true =>
    obtain ⟨hworking', hflag', hpassed'⟩ := hover rfl
    refine ⟨⟨hrange', hworking', ?_, ?_⟩, .inr rfl⟩
    · rw [hflag', hflag, Bool.false_or]
    · rw [exams_concat]
      exact hpassed'

/-- **Every round.** -/
theorem round_inv {stalled : Nat → Bool} {ring : Nat → Session} {tr : RoundTrace} {s : RoundState}
    (hlast : lastSession < conf.sessionsPerThread)
    (hring : conf.enableClients = true → ∀ i < conf.sessionsPerThread,
      (ring i).wrkrPullPtr < conf.client.perSessionReqNum)
    (h : Run (roundStep conf lastSession) (.start stalled ring) tr s) :
    RoundInv conf lastSession tr s := by
  have hstart : RoundInv conf lastSession [] (.start stalled ring) := ⟨hring, rfl, rfl⟩
  refine h.invariant (RoundInv conf lastSession) hstart ?_
  intro tr s k s' new _ hinv hstep
  cases hphase : s.phase with
  | idle =>
    cases k with
    | start =>
      rcases start_spec hlast hinv hphase with ⟨pull, new', hok, hinv', -⟩ | ⟨-, herr | ⟨new', hok⟩⟩
      · rw [hok] at hstep
        cases hstep
        exact hinv'
      · rw [herr] at hstep
        nomatch hstep
      · rw [hok] at hstep
        cases hstep
        -- the trace has a new entry, and before the first session nothing depends on it
        exact (roundInv_idle hphase).mpr ((roundInv_idle hphase).mp hinv)
    | serve | next =>
      rw [roundStep, hphase] at hstep
      nomatch hstep
  | serving =>
    cases k with
    | start =>
      rw [roundStep, hphase] at hstep
      nomatch hstep
    | serve stall take =>
      rw [roundStep, hphase] at hstep
      obtain ⟨pull', hserve, hstep⟩ := bind_eq_ok.mp hstep
      cases hstep
      obtain ⟨hrange, hflag, n, hn, hworking, hpassed⟩ := (roundInv_serving hphase).mp hinv
      obtain ⟨hrange', hworking', hflag', hpassed'⟩ :=
        serve_spec hlast hrange hn hworking hpassed hserve
      refine (roundInv_serving rfl).mpr
        ⟨hrange', hflag'.trans hflag, n, hn, hworking'.trans hworking, ?_⟩
      rw [exams_concat, List.append_nil]
      exact hpassed'
    | next =>
      obtain ⟨t, new', hok, hinv', -⟩ := next_spec hlast hinv hphase
      rw [hok] at hstep
      cases hstep
      exact hinv'
  | ended =>
    cases k <;> rw [roundStep, hphase] at hstep <;> nomatch hstep

/-- Nothing in a round runs for ever. -/
theorem round_not_endless {s : RoundState} {tr : RoundTrace}
    (hlast : lastSession < conf.sessionsPerThread) (hinv : RoundInv conf lastSession tr s) :
    roundStep conf lastSession s .start ≠ .error .endless ∧
      roundStep conf lastSession s .next ≠ .error .endless := by
  constructor
  · intro h
    by_cases hphase : s.phase = .idle
    · rcases start_spec hlast hinv hphase with ⟨pull, new, hok, -⟩ | ⟨-, herr | ⟨new, hok⟩⟩
      · rw [hok] at h
        nomatch h
      · rw [herr] at h
        nomatch h
      · rw [hok] at h
        nomatch h
    · cases hphase' : s.phase with
      | idle => exact hphase hphase'
      | serving | ended =>
        rw [roundStep, hphase'] at h
        nomatch h
  · intro h
    by_cases hphase : s.phase = .serving
    · obtain ⟨t, new, hok, -⟩ := next_spec hlast hinv hphase
      rw [hok] at h
      nomatch h
    · cases hphase' : s.phase with
      | serving => exact hphase hphase'
      | idle | ended =>
        rw [roundStep, hphase'] at h
        nomatch h

/-- **A round over the sessions.**  A worker that has a request to pull gets a session to serve, and
    after any services of the sessions it is given, it gets one with a request to pull or the round
    is over.  Then it is back at `last_session`, each session had nothing to pull when it was last
    examined, and the flag is up only if all sessions are stalled. -/
theorem round_correct {stalled : Nat → Bool} {ring : Nat → Session} {tr : RoundTrace}
    {s : RoundState} (hlast : lastSession < conf.sessionsPerThread)
    (hring : conf.enableClients = true → ∀ i < conf.sessionsPerThread,
      (ring i).wrkrPullPtr < conf.client.perSessionReqNum)
    (h : Run (roundStep conf lastSession) (.start stalled ring) tr s) :
    (roundStep conf lastSession s .start ≠ .error .endless ∧
      roundStep conf lastSession s .next ≠ .error .endless) ∧
    (s.phase = .idle → (∃ i < conf.sessionsPerThread, s.pull.pullable conf i = true) →
      ∃ s' new, roundStep conf lastSession s .start = .ok (s', new) ∧ s'.phase = .serving ∧
        ∃ w < conf.sessionsPerThread, s'.pull.workingSession = w ∧
          s'.pull.pullable conf w = true) ∧
    (s.phase = .serving → ∃ s' new, roundStep conf lastSession s .next = .ok (s', new) ∧
      ((s'.phase = .serving ∧ ∃ w < conf.sessionsPerThread, s'.pull.workingSession = w ∧
          s'.pull.pullable conf w = true) ∨ s'.phase = .ended)) ∧
    (s.phase = .ended → s.pull.workingSession = lastSession ∧
      ∀ i < conf.sessionsPerThread, lastExam i (exams tr) = some false) ∧
    (s.pull.allSessionsStalled = true →
      conf.enableClients = false ∧ ∀ i < conf.sessionsPerThread, s.pull.stalled i = true) := by
  have hinv := round_inv hlast hring h
  refine ⟨round_not_endless hlast hinv, ?_, ?_, ?_, ?_⟩
  · rintro hphase ⟨i, hi, hpull⟩
    rcases start_spec hlast hinv hphase with ⟨pull, new, hok, -, hworking⟩ | ⟨hnone, -⟩
    · exact ⟨_, new, hok, rfl, hworking⟩
    · rw [hnone i hi] at hpull
      nomatch hpull
  · intro hphase
    obtain ⟨s', new, hok, -, hspec⟩ := next_spec hlast hinv hphase
    exact ⟨s', new, hok, hspec⟩
  · intro hphase
    obtain ⟨-, hworking, -, hpassed⟩ := (roundInv_ended hphase).mp hinv
    exact ⟨hworking, fun i hi => (hpassed.all hlast hi).1⟩
  · intro hflag
    cases hphase : s.phase with
    | idle =>
      obtain ⟨-, -, hflag'⟩ := (roundInv_idle hphase).mp hinv
      rw [hflag'] at hflag
      nomatch hflag
    | serving =>
      obtain ⟨-, hflag', -⟩ := (roundInv_serving hphase).mp hinv
      rw [hflag'] at hflag
      nomatch hflag
    | ended =>
      obtain ⟨-, -, hflag', hpassed⟩ := (roundInv_ended hphase).mp hinv
      rw [hflag'] at hflag
      have hclients : conf.enableClients = false := by simpa using hflag
      refine ⟨hclients, fun i hi => ?_⟩
      have hpull := (hpassed.all hlast hi).2
      unfold PullState.pullable at hpull
      rw [hclients] at hpull
      simpa using hpull

/-- Five sessions without clients. -/
def fiveSessions : PullConf where
  client := sessionConf 1
  enableClients := false
  sessionsPerThread := 5
  sessions_pos := by decide
  sessions_lt := by decide

/-- A ring with nothing in it. -/
def emptyRing : Session := (ClientState.start fun _ => freeOp).session

/-- Sessions 0 and 2 are not stalled, and the round starts at 1: they are served and stalled. -/
theorem round_correct_five : ∃ tr s,
    Run (roundStep fiveSessions 1) (.start (fun i => i != 0 && i != 2) fun _ => emptyRing) tr s ∧
      s.phase = .ended ∧ s.pull.workingSession = 1 ∧
      (∀ i < 5, lastExam i (exams tr) = some false) ∧ ∀ i < 5, s.pull.stalled i = true := by
  obtain ⟨tr, s, hexec, hphase, hflag⟩ : ∃ tr s,
      exec (roundStep fiveSessions 1) (.start (fun i => i != 0 && i != 2) fun _ => emptyRing)
        [.start, .serve true true, .next, .serve false true, .serve true false, .next] =
          .ok (tr, s) ∧ s.phase = .ended ∧ s.pull.allSessionsStalled = true := ⟨_, _, rfl, rfl, rfl⟩
  have hrun := run_of_exec hexec
  obtain ⟨-, -, -, hover, hstalled⟩ := round_correct (by decide)
    (fun h => absurd h (by decide)) hrun
  obtain ⟨hworking, hexams⟩ := hover hphase
  exact ⟨tr, s, hrun, hphase, hworking, hexams, (hstalled hflag).2⟩

end Odyssey
