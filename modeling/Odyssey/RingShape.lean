/-
  THE SHAPE OF THE REQUEST RING, WHATEVER ITS SIZE AND HOWEVER LONG IT RUNS.

  `Odyssey.ClientRingRuns` keeps the shape of the ring together with its history, and for that the
  pointers must reach every slot and the counters must not wrap.  The shape alone needs neither.
  The pointers are `uint16_t`s: they walk around the first `2 ^ 16` slots of a larger array as
  `MOD_INCR` walks around a smaller one, and never reach the others (`ringSize`).  And what a client
  learns from a counter that wrapped while it polled for a slot is wrong about the number, but not
  about a slot being free.

  `RingShape conf s n`: `n` slots are taken, and they are a ring.  `ShapeInv` adds what the client
  knows about `n` inside an access, and how the counters agree with it as long as they count.
-/
import Odyssey.Tickets

namespace Odyssey

open Lib

/-- The slots that the pointers reach. -/
def ClientConf.ringSize (conf : ClientConf) : Nat := min conf.perSessionReqNum (2 ^ 16)

theorem modIncr16_ringSize {conf : ClientConf} {x : Nat} (hx : x < conf.ringSize) :
    modIncr16 x conf.perSessionReqNum = slot conf.ringSize x 1 := by
  rcases Nat.lt_or_ge (2 ^ 16) conf.perSessionReqNum with hlt | hle
  · have hsize : conf.ringSize = 2 ^ 16 := Nat.min_eq_right (Nat.le_of_lt hlt)
    have hmod : u16 (x + 1) < 2 ^ 16 := Nat.mod_lt _ (by decide)
    unfold modIncr16
    rw [if_neg (by omega), hsize]
    rfl
  · have hsize : conf.ringSize = conf.perSessionReqNum := Nat.min_eq_left hle
    rw [hsize] at hx ⊢
    exact modIncr16_slot hle hx

/-- `n` slots of the ring are taken. -/
structure RingShape (conf : ClientConf) (s : Session) (n : Nat) : Prop where
  ring : ∃ p a, p + a = n ∧
    Ring conf.ringSize s.stateAt s.cltPullPtr s.wrkrPullPtr s.cltPushPtr p a
  outside : ∀ i, conf.ringSize ≤ i → s.stateAt i = .invalid

namespace RingShape

variable {conf : ClientConf} {s : Session} {n : Nat}

theorem pull_lt (h : RingShape conf s n) : s.cltPullPtr < conf.ringSize := by
  obtain ⟨p, a, -, hring⟩ := h.ring
  exact hring.pull_lt

theorem size_pos (h : RingShape conf s n) : 0 < conf.ringSize :=
  Nat.lt_of_le_of_lt (Nat.zero_le _) h.pull_lt

theorem le (h : RingShape conf s n) : n ≤ conf.ringSize := by
  obtain ⟨p, a, rfl, hring⟩ := h.ring
  exact hring.fits

theorem push_eq (h : RingShape conf s n) :
    s.cltPushPtr = slot conf.ringSize s.cltPullPtr n := by
  obtain ⟨p, a, rfl, hring⟩ := h.ring
  exact hring.push_eq

theorem push_free (h : RingShape conf s n) :
    s.stateAt s.cltPushPtr = .invalid ↔ n < conf.ringSize := by
  obtain ⟨p, a, rfl, hring⟩ := h.ring
  exact hring.push_free

/-- A slot that is taken is not free. -/
theorem taken (h : RingShape conf s n) {k : Nat} (hk : k < n) :
    s.stateAt (slot conf.ringSize s.cltPullPtr k) ≠ .invalid := by
  obtain ⟨p, a, rfl, hring⟩ := h.ring
  rcases Nat.lt_or_ge k p with hp | hp
  · rcases hring.held k hp with hst | hst <;> rw [hst] <;> exact fun h => nomatch h
  · rw [hring.active k hp hk]
    exact fun h => nomatch h

theorem free (h : RingShape conf s n) {k : Nat} (hn : n ≤ k) (hk : k < conf.ringSize) :
    s.stateAt (slot conf.ringSize s.cltPullPtr k) = .invalid := by
  obtain ⟨p, a, rfl, hring⟩ := h.ring
  exact hring.free k hn hk

theorem poll_returns (h : RingShape conf s n) : ∃ s' r new, s.poll conf = .ok (s', r, new) := by
  obtain ⟨p, a, -, hring⟩ := h.ring
  exact poll_returns_of hring.push_pull_or_free

/-- A slot outside the ring does not change with a slot inside. -/
theorem outside_update (h : RingShape conf s n) {i : Nat} (hi : i < conf.ringSize)
    (state : ReqState) :
    ∀ j, conf.ringSize ≤ j → Function.update s.stateAt i state j = .invalid := by
  intro j hj
  rw [Function.update_of_ne (by omega)]
  exact h.outside j hj

/-! ## The four moves -/

theorem pulled (h : RingShape conf s n) (hst : s.stateAt s.cltPullPtr = .completed) :
    0 < n ∧ RingShape conf (s.pulled conf) (n - 1) := by
  have hout := h.outside_update h.pull_lt .invalid
  have hptr := modIncr16_ringSize h.pull_lt
  obtain ⟨p, a, rfl, hring⟩ := h.ring
  obtain ⟨hp, hring'⟩ := hring.poll hst
  have hstates : (s.pulled conf).stateAt = Function.update s.stateAt s.cltPullPtr .invalid :=
    Session.stateAt_setOp ..
  refine ⟨by omega, ⟨p - 1, a, by omega, ?_⟩, ?_⟩
  · rw [hstates]
    show Ring _ _ (modIncr16 s.cltPullPtr conf.perSessionReqNum) s.wrkrPullPtr s.cltPushPtr _ _
    rw [hptr]
    exact hring'
  · rw [hstates]
    exact hout

theorem pushed (h : RingShape conf s n) (hn : n < conf.ringSize) {op : ClientOp}
    (hop : op.state = .active) : RingShape conf (s.pushed conf op) (n + 1) := by
  have hlt : s.cltPushPtr < conf.ringSize := by
    rw [h.push_eq]
    exact slot_lt h.size_pos
  have hout := h.outside_update hlt .active
  have hptr := modIncr16_ringSize hlt
  obtain ⟨p, a, rfl, hring⟩ := h.ring
  have hstates : (s.pushed conf op).stateAt = Function.update s.stateAt s.cltPushPtr .active := by
    rw [← hop]
    exact Session.stateAt_setOp ..
  refine ⟨⟨p, a + 1, by omega, ?_⟩, ?_⟩
  · rw [hstates]
    show Ring _ _ s.cltPullPtr s.wrkrPullPtr (modIncr16 s.cltPushPtr conf.perSessionReqNum) _ _
    rw [hptr]
    exact hring.issue hn
  · rw [hstates]
    exact hout

theorem filled (h : RingShape conf s n) (hst : s.stateAt s.wrkrPullPtr = .active) {op : ClientOp}
    (hop : op.state = .inProgress) : RingShape conf (s.taken conf op) n := by
  have hlt : s.wrkrPullPtr < conf.ringSize := by
    by_contra hge
    rw [h.outside _ (by omega)] at hst
    exact nomatch hst
  have hout := h.outside_update hlt .inProgress
  have hptr := modIncr16_ringSize hlt
  obtain ⟨p, a, rfl, hring⟩ := h.ring
  obtain ⟨ha, hring'⟩ := hring.fill hst
  have hstates : (s.taken conf op).stateAt
      = Function.update s.stateAt s.wrkrPullPtr .inProgress := by
    rw [← hop]
    exact Session.stateAt_setOp ..
  refine ⟨⟨p + 1, a - 1, by omega, ?_⟩, ?_⟩
  · rw [hstates]
    show Ring _ _ s.cltPullPtr (modIncr16 s.wrkrPullPtr conf.perSessionReqNum) s.cltPushPtr _ _
    rw [hptr]
    exact hring'
  · rw [hstates]
    exact hout

theorem completed (h : RingShape conf s n) {i : Nat} (hst : s.stateAt i = .inProgress) :
    RingShape conf (s.setState i .completed) n := by
  have hlt : i < conf.ringSize := by
    by_contra hge
    rw [h.outside _ (by omega)] at hst
    exact nomatch hst
  have hout := h.outside_update hlt .completed
  obtain ⟨p, a, rfl, hring⟩ := h.ring
  have hstates : (s.setState i .completed).stateAt = Function.update s.stateAt i .completed :=
    Session.stateAt_setOp ..
  refine ⟨⟨p, a, rfl, ?_⟩, ?_⟩
  · rw [hstates]
    exact hring.complete hlt hst
  · rw [hstates]
    exact hout

end RingShape

/-! ## The invariant -/

/-- What the stage of an access says about the `n` slots taken. -/
def StageShape (size lastPulled n : Nat) : Option (AccessKind × AccessArgs × Stage) → Prop
  | some (_, _, .firstPoll) => n = size
  | some (_, _, .freeing largestPolled) => n = size ∧ largestPolled = lastPulled ∨ n < size
  | some (_, _, .freed) => n < size
  | some (_, _, .issuing) => n < size
  | _ => True

/-- The counters, as long as they count: `pushed` requests were issued in all. -/
def Counts (s : Session) (pushed n : Nat) : Prop :=
  pushed < 2 ^ 64 → s.lastPushedReq = pushed ∧ s.lastPushedReq = s.lastPulledReq + n

theorem Counts.pulled {conf : ClientConf} {s : Session} {pushed n : Nat} (h : Counts s pushed n)
    (hn : 0 < n) : Counts (s.pulled conf) pushed (n - 1) := by
  intro hlt
  obtain ⟨hpushed, hpulled⟩ := h hlt
  refine ⟨hpushed, ?_⟩
  show s.lastPushedReq = u64 (s.lastPulledReq + 1) + (n - 1)
  rw [u64_of_lt (by omega)]
  omega

theorem Counts.pushed {conf : ClientConf} {s : Session} {pushed n : Nat} (h : Counts s pushed n)
    (op : ClientOp) : Counts (s.pushed conf op) (pushed + 1) (n + 1) := by
  intro hlt
  obtain ⟨hpushed, hpulled⟩ := h (by omega)
  have hnum : (s.pushed conf op).lastPushedReq = s.lastPushedReq + 1 := u64_of_lt (by omega)
  refine ⟨by omega, ?_⟩
  show (s.pushed conf op).lastPushedReq = s.lastPulledReq + (n + 1)
  omega

structure ShapeInv (conf : ClientConf) (pushed : Nat) (s : ClientState) (n : Nat) : Prop where
  shape : RingShape conf s.session n
  counts : Counts s.session pushed n
  stage : StageShape conf.ringSize s.session.lastPulledReq n s.client

namespace ShapeInv

variable {conf : ClientConf} {s s' : ClientState} {t : Session} {pushed n : Nat}
  {new : List RingEvent} {client : Option (AccessKind × AccessArgs × Stage)}

theorem start (conf : ClientConf) (ops : Nat → ClientOp) (hpos : 0 < conf.perSessionReqNum) :
    ShapeInv conf 0 (.start ops) 0 := by
  have hsize : 0 < conf.ringSize := by
    unfold ClientConf.ringSize
    omega
  refine ⟨⟨⟨0, 0, rfl, hsize, Nat.zero_le _, (slot_zero hsize).symm, (slot_zero hsize).symm, ?_, ?_,
    fun _ _ _ => rfl⟩, fun _ _ => rfl⟩, fun _ => ⟨rfl, rfl⟩, trivial⟩
  · intro k hk
    exact absurd hk (Nat.not_lt_zero k)
  · intro k _ hk
    exact absurd hk (Nat.not_lt_zero k)

/-- The client is somewhere else. -/
theorem stay (h : ShapeInv conf pushed s n)
    (hstage : StageShape conf.ringSize s.session.lastPulledReq n client) :
    ShapeInv conf pushed ⟨s.session, client⟩ n := ⟨h.shape, h.counts, hstage⟩

/-- A call of `poll`, whatever the client does next.  It issues nothing. -/
theorem poll (h : ShapeInv conf pushed s n) {r : Nat} (hpoll : s.session.poll conf = .ok (t, r, new))
    (hsame : r = s.session.lastPulledReq → StageShape conf.ringSize r n client)
    (hpulled : 0 < n → StageShape conf.ringSize r (n - 1) client) :
    ∃ n', ShapeInv conf (pushed + (issuedOps new).length) ⟨t, client⟩ n' := by
  obtain ⟨rfl, ⟨-, rfl, rfl⟩ | ⟨hcompleted, rfl, rfl⟩⟩ := poll_spec hpoll
  · exact ⟨n, h.stay (hsame rfl)⟩
  · obtain ⟨hn, hshape⟩ := h.shape.pulled hcompleted
    exact ⟨n - 1, hshape, h.counts.pulled hn, hpulled hn⟩

/-- The client issues its request in a free slot, whatever it does next. -/
theorem issue (h : ShapeInv conf pushed s n) (hn : n < conf.ringSize) {args : AccessArgs}
    (hissue : s.session.issue conf args = .ok (t, new))
    (hstage : ∀ lastPulled, StageShape conf.ringSize lastPulled (n + 1) client) :
    ∃ n', ShapeInv conf (pushed + (issuedOps new).length) ⟨t, client⟩ n' := by
  obtain ⟨op, hop, rfl, rfl⟩ := issue_spec hissue
  exact ⟨n + 1, h.shape.pushed hn hop, h.counts.pushed op, hstage _⟩

theorem advance (h : ShapeInv conf pushed s n) {kind : AccessKind} {args : AccessArgs}
    {stage : Stage} (hclient : s.client = some (kind, args, stage))
    (hstep : s.advance conf kind args stage = .ok (s', new)) :
    ∃ n', ShapeInv conf (pushed + (issuedOps new).length) s' n' := by
  have hstage := h.stage
  rw [hclient] at hstage
  have hle := h.shape.le
  have hfull : s.session.stateAt s.session.cltPushPtr ≠ .invalid → n = conf.ringSize := by
    intro hbusy
    have := mt h.shape.push_free.mpr hbusy
    omega
  cases stage with
  | slotTest =>
    rw [ClientState.advance] at hstep
    split at hstep
    · rename_i hfree
      cases hstep
      exact ⟨n, h.stay (h.shape.push_free.mp hfree)⟩
    · rename_i hbusy
      cases kind with
      | blocking =>
        cases hstep
        exact ⟨n, h.stay (hfull hbusy)⟩
      | async strong =>
        dsimp only at hstep
        obtain ⟨-, -, hstep⟩ := bind_eq_ok.mp hstep
        cases hstep
        exact ⟨n, h.stay (hfull hbusy)⟩
  | firstPoll =>
    obtain ⟨⟨t, r, evs⟩, hpoll, hstep⟩ := bind_eq_ok.mp hstep
    cases hstep
    exact h.poll hpoll (fun _ => trivial) (fun _ => trivial)
  | secondTest =>
    unfold ClientState.advance at hstep
    dsimp only at hstep
    split at hstep
    · rename_i hfree
      cases hstep
      exact ⟨n, h.stay (h.shape.push_free.mp hfree)⟩
    · rename_i hbusy
      split at hstep
      · cases hstep
      · cases hstep
        exact ⟨n, h.stay (Or.inl ⟨hfull hbusy, rfl⟩)⟩
      · cases hstep
        exact ⟨n, h.stay (Or.inl ⟨hfull hbusy, rfl⟩)⟩
  | freeing largestPolled =>
    obtain ⟨⟨t, r, evs⟩, hpoll, hstep⟩ := bind_eq_ok.mp hstep
    dsimp only at hstep
    split at hstep
    · cases hstep
      -- the loop goes on, having polled a request or not
      refine h.poll hpoll (fun hr => ?_) (fun hn => ?_)
      · rw [hclient, hr]
        exact hstage
      · rw [hclient]
        show n - 1 = _ ∧ _ ∨ n - 1 < _
        exact Or.inr (by omega)
    · rename_i hdone
      cases hstep
      refine h.poll hpoll (fun hr => ?_) (fun hn => ?_)
      · rcases hstage with ⟨-, hlargest⟩ | hlt
        · omega
        · exact hlt
      · show n - 1 < _
        omega
  | freed =>
    cases kind with
    | blocking =>
      rw [ClientState.advance] at hstep
      dsimp only at hstep
      have hfree : s.session.stateAt s.session.cltPushPtr = .invalid :=
        h.shape.push_free.mpr hstage
      rw [if_neg (by simpa using hfree)] at hstep
      cases hstep
      exact ⟨n, h.stay hstage⟩
    | async strong =>
      unfold ClientState.advance at hstep
      dsimp only at hstep
      obtain ⟨-, -, hstep⟩ := bind_eq_ok.mp hstep
      cases hstep
      exact ⟨n, h.stay hstage⟩
  | issuing =>
    cases kind with
    | blocking =>
      unfold ClientState.advance at hstep
      dsimp only at hstep
      obtain ⟨⟨t, evs⟩, hissue, hstep⟩ := bind_eq_ok.mp hstep
      cases hstep
      exact h.issue hstage hissue (fun _ => trivial)
    | async strong =>
      unfold ClientState.advance at hstep
      dsimp only at hstep
      obtain ⟨-, -, hstep⟩ := bind_eq_ok.mp hstep
      obtain ⟨⟨t, evs⟩, hissue, hstep⟩ := bind_eq_ok.mp hstep
      cases hstep
      rw [issuedOps_returned]
      exact h.issue hstage hissue (fun _ => trivial)
  | awaiting =>
    obtain ⟨⟨t, r, evs⟩, hpoll, hstep⟩ := bind_eq_ok.mp hstep
    dsimp only at hstep
    split at hstep
    · cases hstep
      refine h.poll hpoll (fun _ => ?_) (fun _ => ?_) <;> rw [hclient] <;> trivial
    · obtain ⟨-, -, hstep⟩ := bind_eq_ok.mp hstep
      cases hstep
      rw [issuedOps_returned]
      exact h.poll hpoll (fun _ => trivial) (fun _ => trivial)

/-- **One step**, of the client or of the worker. -/
theorem step (h : ShapeInv conf pushed s n) {k : ClientCmd}
    (hstep : clientStep conf s k = .ok (s', new)) :
    ∃ n', ShapeInv conf (pushed + (issuedOps new).length) s' n' := by
  cases k with
  | access kind args =>
    rw [clientStep] at hstep
    split at hstep
    · unfold ClientState.begin at hstep
      dsimp only at hstep
      split at hstep
      · cases kind with
        | blocking =>
          cases hstep
          exact ⟨n, h⟩
        | async strong =>
          obtain ⟨-, -, hstep⟩ := bind_eq_ok.mp hstep
          cases hstep
          exact ⟨n, h⟩
      · cases hstep
        exact ⟨n, h.stay trivial⟩
    · cases hstep
  | advance =>
    rw [clientStep] at hstep
    split at hstep
    · cases hstep
    · rename_i hclient
      exact h.advance hclient hstep
  | poll =>
    rw [clientStep] at hstep
    split at hstep
    · rename_i hclient
      obtain ⟨⟨t, r, evs⟩, hpoll, hstep⟩ := bind_eq_ok.mp hstep
      cases hstep
      refine h.poll hpoll (fun _ => ?_) (fun _ => ?_) <;> rw [hclient] <;> trivial
    · cases hstep
  | fill workingSession =>
    rw [clientStep] at hstep
    split at hstep
    · rename_i hactive
      obtain ⟨⟨t, op, evs⟩, hfill, hstep⟩ := bind_eq_ok.mp hstep
      cases hstep
      obtain ⟨clOp, hstate, rfl, rfl⟩ := odFillTraceOp_spec hfill
      have hst : s.session.stateAt s.session.wrkrPullPtr = .active := by
        simpa [Session.isClientReqActive] using hactive
      exact ⟨n, h.shape.filled hst hstate, h.counts, h.stage⟩
    · cases hstep
  | complete i =>
    rw [clientStep] at hstep
    split at hstep
    · rename_i hi
      obtain ⟨⟨t, evs⟩, hcomplete, hstep⟩ := bind_eq_ok.mp hstep
      cases hstep
      obtain ⟨rfl, rfl⟩ := signalCompletionToClient_spec hcomplete
      exact ⟨n, h.shape.completed hi.2, h.counts, h.stage⟩
    · cases hstep

end ShapeInv

/-- **The ring keeps its shape in every run.** -/
theorem shape_run {conf : ClientConf} (hpos : 0 < conf.perSessionReqNum) {ops : Nat → ClientOp}
    {tr : ClientTrace} {s : ClientState} (hrun : Run (clientStep conf) (.start ops) tr s) :
    ∃ n, ShapeInv conf (issuedOps (events tr)).length s n := by
  refine hrun.invariant (fun tr s => ∃ n, ShapeInv conf (issuedOps (events tr)).length s n)
    ⟨0, .start conf ops hpos⟩ ?_
  rintro tr s k s' new - ⟨n, hinv⟩ hstep
  rw [events_concat, issuedOps_append, List.length_append]
  exact hinv.step hstep

end Odyssey
