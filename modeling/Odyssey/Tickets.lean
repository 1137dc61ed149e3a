/-
  TICKETS: the numbers `access_async` returns, and waiting for them.

  `access_async` returns `(int) last_pushed_req`, the number of its request in the session.  A
  client keeps it in a `uint32_t`, or casts it to a `uint64_t`, and passes it to `is_polled`,
  `poll_a_req_async` or `poll_a_req_blocking`, which compare it with `last_pulled_req`.

  The number goes through an `int` on the way.  Up to `2 ^ 31 - 1` every conversion keeps it, and
  then a ticket is honest (`tickets_correct`):

  * requests are polled in the order of their numbers (`PolledInOrder`), so `last_pulled_req` has reached
    the ticket exactly when its request and all before it were polled, and so completed;
  * once these are completed, every round of `poll_a_req_blocking` polls one of them.

  Request `2 ^ 31` gets a negative ticket (`ticket_negative`), and from request `2 ^ 32` on the
  tickets of old requests come again.
-/
import Odyssey.ClientRingRuns

namespace Odyssey

open Lib

/-! ## The code -/

namespace Session

variable (conf : ClientConf) (s : Session)

/-- `is_polled` -/
def isPolled (target : Nat) : Bool := target ≤ s.lastPulledReq

/-- `poll_a_req_async` -/
def pollAReqAsync (target : Nat) : Outcome (Session × Bool × List RingEvent) := do
  let (s, r, evs) ← s.poll conf
  return (s, decide (target ≤ r), evs)

end Session

/-- How a client keeps the `int` that `access_async` returned. -/
inductive TicketType
  /-- in a `uint32_t`, like `last_req_id` of the sessions in `od_client.c` -/
  | uint32
  /-- cast to `uint64_t`, like `last_issued_req` in `rel_acq_circular_async` -/
  | uint64

/-- What `access_async` returned, and the number of its request in the session, from 1. -/
structure Ticket where
  value : Int
  request : Nat

/-- The `target` that is passed on. -/
def Ticket.target (t : Ticket) : TicketType → Nat
  | .uint32 => (t.value % 2 ^ 32).toNat
  | .uint64 => (t.value % 2 ^ 64).toNat

/-! ## Interleavings -/

/-- A session, and the tickets of its client. -/
structure Ticketing where
  client : ClientState
  /-- how many requests were issued -/
  issued : Nat
  tickets : List Ticket
  /-- the ticket and the target of the `poll_a_req_blocking` the client is in -/
  waiting : Option (Ticket × Nat)

/-- What can happen at the session. -/
inductive TicketCmd
  /-- a step of the worker, or any other call of the client -/
  | ring (k : ClientCmd)
  /-- the client passes its ticket `i` to one of the three calls -/
  | isPolled (i : Nat) (type : TicketType)
  | pollAReqAsync (i : Nat) (type : TicketType)
  | pollAReqBlocking (i : Nat) (type : TicketType)
  /-- one round of the loop of `poll_a_req_blocking` -/
  | wait

/-- What it shows. -/
structure TicketEvent where
  ring : List RingEvent
  /-- `access_async` issued a request and returned this ticket -/
  given : Option Ticket
  /-- `poll_a_req_blocking` returned, or another call answered `true`, for this ticket -/
  passed : Option Ticket

/-- Does a step belong to the worker? -/
def ClientCmd.isWorker : ClientCmd → Bool
  | .fill _ | .complete _ => true
  | _ => false

/-- What `access_async` returned for a request it issued. -/
def ticketIn : List RingEvent → Option Int
  | [.issued _ _, .returned false r] => some r
  | _ => none

namespace Ticketing

variable (conf : ClientConf) (s : Ticketing)

/-- The ticket of a client that is about to make a call. -/
def useTicket (i : Nat) : Outcome Ticket :=
  match s.client.client, s.waiting, s.tickets[i]? with
  | none, none, some t => .ok t
  | _, _, _ => .error .disabled

/-- The ring took a step. -/
def ringStep (k : ClientCmd) : Outcome (Ticketing × TicketEvent) := do
  let (client, evs) ← clientStep conf s.client k
  let issued := s.issued + (issuedOps evs).length
  let given := (ticketIn evs).map (Ticket.mk · issued)
  return ({ s with client := client, issued := issued, tickets := s.tickets ++ given.toList },
    ⟨evs, given, none⟩)

def step (s : Ticketing) : TicketCmd → Outcome (Ticketing × TicketEvent)
  | .ring k =>
    if s.waiting.isSome && !k.isWorker then .error .disabled else s.ringStep conf k
  | .isPolled i type => do
    let t ← s.useTicket i
    return (s, ⟨[], none, if s.client.session.isPolled (t.target type) then some t else none⟩)
  | .pollAReqAsync i type => do
    let t ← s.useTicket i
    let (session, answer, evs) ← s.client.session.pollAReqAsync conf (t.target type)
    return ({ s with client := ⟨session, none⟩ }, ⟨evs, none, if answer then some t else none⟩)
  | .pollAReqBlocking i type => do
    let t ← s.useTicket i
    if t.target type ≤ s.client.session.lastPulledReq then return (s, ⟨[], none, some t⟩)
    else return ({ s with waiting := some (t, t.target type) }, ⟨[], none, none⟩)
  | .wait =>
    match s.waiting with
    | none => .error .disabled
    | some (t, target) => do
      let (session, r, evs) ← s.client.session.poll conf
      let client : ClientState := ⟨session, none⟩
      if r < target then return ({ s with client := client }, ⟨evs, none, none⟩)
      else return ({ s with client := client, waiting := none }, ⟨evs, none, some t⟩)

def start (ops : Nat → ClientOp) : Ticketing := ⟨.start ops, 0, [], none⟩

end Ticketing

/-- A history of steps. -/
abbrev TicketTrace := List (TicketCmd × TicketEvent)

/-- What has happened at the ring, oldest first. -/
def ringEvents (tr : TicketTrace) : List RingEvent := tr.flatMap (·.2.ring)

/-! ## What became of a request -/

/-- Request `j` of the session went through something: it was the `m`-th in its slot, and this
    happened there `m` times. -/
def WentThrough (through : Nat → RingEvent → Bool) (evs : List RingEvent) (j : Nat) : Prop :=
  ∃ past i op rest, evs = past ++ .issued i op :: rest ∧ (issuedOps past).length + 1 = j ∧
    past.countP (RingEvent.issuedAt i) < evs.countP (through i)

/-- The worker completed request `j`. -/
def WasCompleted (evs : List RingEvent) (j : Nat) : Prop := WentThrough RingEvent.completedAt evs j

/-- The client polled request `j`. -/
def WasPolled (evs : List RingEvent) (j : Nat) : Prop := WentThrough RingEvent.polledAt evs j

/-! ## The moves of a session -/

/-- What a step shows: the events of its move, and the return of an access. -/
inductive Shows (evs : List RingEvent) (s' : Session) : List RingEvent → Prop
  | silent : Shows evs s' evs
  | returns (blocking : Bool) (r : Int) :
      (∀ i op, evs = [.issued i op] → r = toInt s'.lastPushedReq) →
      Shows evs s' (evs ++ [.returned blocking r])

section

variable {conf : ClientConf} {s s' : ClientState} {new : List RingEvent}

/-- `poll` makes a move, whatever is shown with it. -/
theorem poll_move {t t' : Session} {r : Nat} {evs : List RingEvent}
    (h : t.poll conf = .ok (t', r, evs)) : Move conf t t' evs := by
  obtain ⟨-, ⟨-, rfl, rfl⟩ | ⟨hcompleted, rfl, rfl⟩⟩ := poll_spec h
  · exact .stay
  · exact .poll hcompleted

theorem issue_move {t t' : Session} {args : AccessArgs} {evs : List RingEvent}
    (h : t.issue conf args = .ok (t', evs)) : Move conf t t' evs := by
  obtain ⟨op, hop, rfl, rfl⟩ := issue_spec h
  exact .issue op hop

/-- A poll issues nothing. -/
theorem poll_not_issued {t t' : Session} {r i : Nat} {evs : List RingEvent} {op : ClientOp}
    (h : t.poll conf = .ok (t', r, evs)) : evs ≠ [.issued i op] := by
  obtain ⟨-, ⟨-, -, rfl⟩ | ⟨-, -, rfl⟩⟩ := poll_spec h
  · exact fun heq => nomatch heq
  · exact fun heq => nomatch heq

/-- **Every step is a move of the session**, and may return from an access. -/
theorem clientStep_move {k : ClientCmd} (h : clientStep conf s k = .ok (s', new)) :
    ∃ evs, Move conf s.session s'.session evs ∧ Shows evs s'.session new := by
  cases k with
  | access kind args =>
    rw [clientStep] at h
    split at h
    · unfold ClientState.begin at h
      dsimp only at h
      split at h
      · cases kind with
        | blocking =>
          cases h
          exact ⟨[], .stay, .returns true _ fun _ _ heq => by cases heq⟩
        | async strong =>
          obtain ⟨-, -, h⟩ := bind_eq_ok.mp h
          cases h
          exact ⟨[], .stay, .returns false _ fun _ _ heq => by cases heq⟩
      · cases h
        exact ⟨[], .stay, .silent⟩
    · cases h
  | poll =>
    rw [clientStep] at h
    split at h
    · obtain ⟨⟨t, r, evs⟩, hpoll, h⟩ := bind_eq_ok.mp h
      cases h
      exact ⟨_, poll_move hpoll, .silent⟩
    · cases h
  | fill workingSession =>
    rw [clientStep] at h
    split at h
    · rename_i hactive
      obtain ⟨⟨t, op, evs⟩, hfill, h⟩ := bind_eq_ok.mp h
      cases h
      obtain ⟨clOp, hstate, rfl, rfl⟩ := odFillTraceOp_spec hfill
      have hst : s.session.stateAt s.session.wrkrPullPtr = .active := by
        simpa [Session.isClientReqActive] using hactive
      exact ⟨_, .fill clOp hst hstate, .silent⟩
    · cases h
  | complete i =>
    rw [clientStep] at h
    split at h
    · rename_i hi
      obtain ⟨⟨t, evs⟩, hcomplete, h⟩ := bind_eq_ok.mp h
      cases h
      obtain ⟨rfl, rfl⟩ := signalCompletionToClient_spec hcomplete
      exact ⟨_, .complete i hi.1 hi.2, .silent⟩
    · cases h
  | advance =>
    rw [clientStep] at h
    split at h
    · cases h
    rename_i kind args stage hclient
    cases stage with
    | slotTest =>
      rw [ClientState.advance] at h
      split at h
      · cases h
        exact ⟨[], .stay, .silent⟩
      · cases kind with
        | blocking =>
          cases h
          exact ⟨[], .stay, .silent⟩
        | async strong =>
          dsimp only at h
          obtain ⟨-, -, h⟩ := bind_eq_ok.mp h
          cases h
          exact ⟨[], .stay, .silent⟩
    | firstPoll =>
      obtain ⟨⟨t, r, evs⟩, hpoll, h⟩ := bind_eq_ok.mp h
      cases h
      exact ⟨_, poll_move hpoll, .silent⟩
    | secondTest =>
      unfold ClientState.advance at h
      dsimp only at h
      split at h
      · cases h
        exact ⟨[], .stay, .silent⟩
      · split at h
        · cases h
        · cases h
          exact ⟨[], .stay, .silent⟩
        · cases h
          exact ⟨[], .stay, .silent⟩
    | freeing largestPolled =>
      obtain ⟨⟨t, r, evs⟩, hpoll, h⟩ := bind_eq_ok.mp h
      dsimp only at h
      split at h
      · cases h
        exact ⟨_, poll_move hpoll, .silent⟩
      · cases h
        exact ⟨_, poll_move hpoll, .silent⟩
    | freed =>
      cases kind with
      | blocking =>
        rw [ClientState.advance] at h
        dsimp only at h
        split at h
        · cases h
        · cases h
          exact ⟨[], .stay, .silent⟩
      | async strong =>
        unfold ClientState.advance at h
        dsimp only at h
        obtain ⟨-, -, h⟩ := bind_eq_ok.mp h
        cases h
        exact ⟨[], .stay, .silent⟩
    | issuing =>
      cases kind with
      | blocking =>
        unfold ClientState.advance at h
        dsimp only at h
        obtain ⟨⟨t, evs⟩, hissue, h⟩ := bind_eq_ok.mp h
        cases h
        exact ⟨_, issue_move hissue, .silent⟩
      | async strong =>
        unfold ClientState.advance at h
        dsimp only at h
        obtain ⟨-, -, h⟩ := bind_eq_ok.mp h
        obtain ⟨⟨t, evs⟩, hissue, h⟩ := bind_eq_ok.mp h
        cases h
        exact ⟨_, issue_move hissue, .returns false _ fun _ _ _ => rfl⟩
    | awaiting =>
      obtain ⟨⟨t, r, evs⟩, hpoll, h⟩ := bind_eq_ok.mp h
      dsimp only at h
      split at h
      · cases h
        exact ⟨_, poll_move hpoll, .silent⟩
      · obtain ⟨-, -, h⟩ := bind_eq_ok.mp h
        cases h
        exact ⟨_, poll_move hpoll, .returns true _ fun _ _ heq => absurd heq (poll_not_issued hpoll)⟩

end

/-! ## Requests go round in order -/

/-- The slots in which requests were issued, and those that were polled, in order. -/
def issuedSlots (evs : List RingEvent) : List Nat :=
  evs.filterMap fun
    | .issued i _ => some i
    | _ => none

def polledSlots (evs : List RingEvent) : List Nat :=
  evs.filterMap fun
    | .polled i => some i
    | _ => none

theorem countP_issuedAt (i : Nat) (evs : List RingEvent) :
    evs.countP (RingEvent.issuedAt i) = (issuedSlots evs).count i := by
  induction evs with
  | nil => rfl
  | cons e evs ih =>
    rw [List.countP_cons, ih]
    unfold issuedSlots
    cases e <;> simp [RingEvent.issuedAt, List.count_cons]

theorem countP_polledAt (i : Nat) (evs : List RingEvent) :
    evs.countP (RingEvent.polledAt i) = (polledSlots evs).count i := by
  induction evs with
  | nil => rfl
  | cons e evs ih =>
    rw [List.countP_cons, ih]
    unfold polledSlots
    cases e <;> simp [RingEvent.polledAt, List.count_cons]

theorem length_issuedSlots (evs : List RingEvent) :
    (issuedSlots evs).length = (issuedOps evs).length := by
  induction evs with
  | nil => rfl
  | cons e evs ih =>
    unfold issuedSlots issuedOps at ih ⊢
    cases e <;> simp [ih]

/-- The slots of the first `n` requests. -/
def requestSlots (N n : Nat) : List Nat := (List.range n).map (· % N)

theorem requestSlots_succ (N n : Nat) : requestSlots N (n + 1) = requestSlots N n ++ [n % N] := by
  simp [requestSlots, List.range_succ]

theorem count_requestSlots_mono {N m n : Nat} (h : m ≤ n) (i : Nat) :
    (requestSlots N m).count i ≤ (requestSlots N n).count i := by
  obtain ⟨k, rfl⟩ := Nat.exists_eq_add_of_le h
  unfold requestSlots
  rw [List.range_add, List.map_append, List.count_append]
  exact Nat.le_add_right ..

/-- Counting the requests in the slot of request `j + 1` tells whether `j + 1` is among them. -/
theorem lt_count_requestSlots {N j n : Nat} :
    (requestSlots N j).count (j % N) < (requestSlots N n).count (j % N) ↔ j < n := by
  constructor
  · intro h
    by_contra hle
    have hmono := count_requestSlots_mono (N := N) (Nat.le_of_not_lt hle) (j % N)
    omega
  · intro h
    have hmono := count_requestSlots_mono (N := N) (Nat.succ_le_of_lt h) (j % N)
    rw [requestSlots_succ, List.count_append, List.count_singleton_self] at hmono
    omega

/-- The pointers go round the ring as the counters count. -/
structure PolledInOrder (N : Nat) (evs : List RingEvent) (s : Session) : Prop where
  issued : issuedSlots evs = requestSlots N s.lastPushedReq
  polled : polledSlots evs = requestSlots N s.lastPulledReq
  push : s.cltPushPtr = s.lastPushedReq % N
  pull : s.cltPullPtr = s.lastPulledReq % N

section

variable {conf : ClientConf} {evs new : List RingEvent} {s s' : Session}

theorem modIncr16_mod {N n : Nat} (hpos : 0 < N) (hN : N ≤ 2 ^ 16) :
    modIncr16 (n % N) N = (n + 1) % N := by
  rw [modIncr16_slot hN (Nat.mod_lt n hpos), slot, Nat.mod_add_mod]

/-- **One move.** -/
theorem PolledInOrder.move (h : PolledInOrder conf.perSessionReqNum evs s) (hpos : 0 < conf.perSessionReqNum)
    (hN : conf.perSessionReqNum ≤ 2 ^ 16)
    (hcount : s.lastPushedReq + (issuedOps new).length < 2 ^ 64)
    (hmore : s.stateAt s.cltPullPtr = .completed → s.lastPulledReq < s.lastPushedReq)
    (hmove : Move conf s s' new) : PolledInOrder conf.perSessionReqNum (evs ++ new) s' := by
  obtain ⟨hissued, hpolled, hpush, hpull⟩ := h
  cases hmove with
  | stay =>
    rw [List.append_nil]
    exact ⟨hissued, hpolled, hpush, hpull⟩
  | poll hcompleted =>
    have hlt := hmore hcompleted
    have hnum : u64 (s.lastPulledReq + 1) = s.lastPulledReq + 1 := u64_of_lt (by omega)
    refine ⟨?_, ?_, hpush, ?_⟩
    · show issuedSlots (evs ++ [_]) = requestSlots _ s.lastPushedReq
      simpa [issuedSlots] using hissued
    · show polledSlots (evs ++ [_]) = requestSlots _ (u64 (s.lastPulledReq + 1))
      rw [hnum, requestSlots_succ, ← hpolled, ← hpull]
      simp [polledSlots]
    · show modIncr16 s.cltPullPtr _ = u64 (s.lastPulledReq + 1) % _
      rw [hnum, hpull, modIncr16_mod hpos hN]
  | issue op hop =>
    have hnum : u64 (s.lastPushedReq + 1) = s.lastPushedReq + 1 := u64_of_lt hcount
    refine ⟨?_, ?_, ?_, hpull⟩
    · show issuedSlots (evs ++ [_]) = requestSlots _ (u64 (s.lastPushedReq + 1))
      rw [hnum, requestSlots_succ, ← hissued, ← hpush]
      simp [issuedSlots]
    · show polledSlots (evs ++ [_]) = requestSlots _ s.lastPulledReq
      simpa [polledSlots] using hpolled
    · show modIncr16 s.cltPushPtr _ = u64 (s.lastPushedReq + 1) % _
      rw [hnum, hpush, modIncr16_mod hpos hN]
  | fill op hst hop =>
    refine ⟨?_, ?_, hpush, hpull⟩
    · show issuedSlots (evs ++ [_]) = requestSlots _ s.lastPushedReq
      simpa [issuedSlots] using hissued
    · show polledSlots (evs ++ [_]) = requestSlots _ s.lastPulledReq
      simpa [polledSlots] using hpolled
  | complete i hi hst =>
    refine ⟨?_, ?_, hpush, hpull⟩
    · show issuedSlots (evs ++ [_]) = requestSlots _ s.lastPushedReq
      simpa [issuedSlots] using hissued
    · show polledSlots (evs ++ [_]) = requestSlots _ s.lastPulledReq
      simpa [polledSlots] using hpolled

theorem PolledInOrder.returned {N : Nat} (h : PolledInOrder N evs s) (blocking : Bool) (r : Int) :
    PolledInOrder N (evs ++ [.returned blocking r]) s := by
  refine ⟨?_, ?_, h.push, h.pull⟩
  · simpa [issuedSlots] using h.issued
  · simpa [polledSlots] using h.polled

end

/-- **The order holds in every run** of fewer than `2 ^ 64` requests. -/
theorem order_run {conf : ClientConf} (hpos : 0 < conf.perSessionReqNum)
    (hN : conf.perSessionReqNum ≤ 2 ^ 16) {ops : Nat → ClientOp} {tr : ClientTrace}
    {s : ClientState} (hrun : Run (clientStep conf) (.start ops) tr s)
    (hcount : (issuedOps (events tr)).length < 2 ^ 64) :
    PolledInOrder conf.perSessionReqNum (events tr) s.session := by
  refine hrun.invariant (fun tr s => (issuedOps (events tr)).length < 2 ^ 64 →
    PolledInOrder conf.perSessionReqNum (events tr) s.session) (fun _ => ?_) ?_ hcount
  · exact ⟨rfl, rfl, (Nat.zero_mod _).symm, (Nat.zero_mod _).symm⟩
  · intro tr s k s' new hrun ih hstep hcount
    rw [events_concat] at hcount ⊢
    have hold := Nat.lt_of_le_of_lt (length_issuedOps_le ..) hcount
    obtain ⟨⟨p, a, hring, -⟩, -⟩ := client_run hpos hN hrun hold
    obtain ⟨evs, hmove, hshows⟩ := clientStep_move hstep
    have hpushed := hring.pushed
    have hpulled := hring.pulled
    have hnew : (issuedOps (events tr ++ evs)).length < 2 ^ 64 := by
      cases hshows with
      | silent => exact hcount
      | returns blocking r _ =>
        rw [← List.append_assoc] at hcount
        exact Nat.lt_of_le_of_lt (length_issuedOps_le ..) hcount
    have hnext := (ih hold).move hpos hN
      (by rw [hpushed]; simpa [issuedOps] using hnew)
      (fun hst => by
        obtain ⟨hp, -⟩ := hring.ring.poll hst
        omega) hmove
    cases hshows with
    | silent => exact hnext
    | returns blocking r _ =>
      rw [← List.append_assoc]
      exact hnext.returned blocking r

/-! ## Tickets and counters -/

theorem issuedOps_append (evs new : List RingEvent) :
    issuedOps (evs ++ new) = issuedOps evs ++ issuedOps new := List.filterMap_append ..

/-- Returning from an access issues nothing more. -/
theorem issuedOps_returned (evs : List RingEvent) (blocking : Bool) (r : Int) :
    issuedOps (evs ++ [.returned blocking r]) = issuedOps evs := by
  rw [issuedOps_append]
  exact List.append_nil _

/-- Where a request was issued. -/
theorem exists_issued {evs : List RingEvent} {n : Nat} (h : n < (issuedOps evs).length) :
    ∃ past i op rest, evs = past ++ .issued i op :: rest ∧ (issuedOps past).length = n := by
  induction evs generalizing n with
  | nil => exact absurd h (Nat.not_lt_zero n)
  | cons e evs ih =>
    -- the request is the first event, or one of the others
    have hother : ∀ m, (issuedOps [e]).length + m = n → m < (issuedOps evs).length →
        ∃ past i op rest, e :: evs = past ++ .issued i op :: rest ∧
          (issuedOps past).length = n := by
      intro m hm hlt
      obtain ⟨past, i, op, rest, rfl, hpast⟩ := ih hlt
      refine ⟨e :: past, i, op, rest, rfl, ?_⟩
      have hcons : issuedOps (e :: past) = issuedOps [e] ++ issuedOps past :=
        issuedOps_append [e] past
      rw [hcons, List.length_append, hpast, hm]
    have hcons : issuedOps (e :: evs) = issuedOps [e] ++ issuedOps evs :=
      issuedOps_append [e] evs
    rw [hcons, List.length_append] at h
    cases e with
    | issued i op =>
      by_cases hn : n = 0
      · exact ⟨[], i, op, evs, rfl, hn.symm⟩
      · have hone : (issuedOps [.issued i op]).length = 1 := rfl
        exact hother (n - 1) (by omega) (by omega)
    | filled i op => exact hother n (Nat.zero_add n) (by simpa [issuedOps] using h)
    | completed i => exact hother n (Nat.zero_add n) (by simpa [issuedOps] using h)
    | polled i => exact hother n (Nat.zero_add n) (by simpa [issuedOps] using h)
    | returned b r => exact hother n (Nat.zero_add n) (by simpa [issuedOps] using h)

section

variable {conf : ClientConf} {evs : List RingEvent} {s : Session} {p a : Nat}

/-- The slot of a request, and how often it was used before. -/
theorem PolledInOrder.slot_of_issued {N : Nat} (h : PolledInOrder N evs s) {past rest : List RingEvent}
    {i : Nat} {op : ClientOp} (heq : evs = past ++ .issued i op :: rest) :
    i = (issuedOps past).length % N ∧ past.countP (RingEvent.issuedAt i) =
      (requestSlots N (issuedOps past).length).count i := by
  have hslots : issuedSlots past ++ i :: issuedSlots rest = requestSlots N s.lastPushedReq := by
    rw [← h.issued, heq]
    simp [issuedSlots]
  have hlen := length_issuedSlots past
  have htake : issuedSlots past = requestSlots N (issuedOps past).length := by
    have h₁ := congrArg (List.take (issuedOps past).length) hslots
    have hle : (issuedOps past).length ≤ s.lastPushedReq := by
      have h₂ := congrArg List.length hslots
      rw [List.length_append, List.length_cons, requestSlots, List.length_map,
        List.length_range] at h₂
      omega
    rw [← hlen, List.take_left, hlen, requestSlots, ← List.map_take, List.take_range,
      Nat.min_eq_left hle] at h₁
    exact h₁
  refine ⟨?_, by rw [countP_issuedAt, htake]⟩
  have hget := congrArg (·[(issuedOps past).length]?) hslots
  rw [← hlen, List.getElem?_append_right (Nat.le_refl _), Nat.sub_self, List.getElem?_cons_zero,
    requestSlots, List.getElem?_map] at hget
  obtain ⟨k, hk, hmod⟩ := Option.map_eq_some_iff.mp hget.symm
  obtain ⟨hk', rfl⟩ := List.getElem?_eq_some_iff.mp hk
  rw [List.getElem_range, hlen] at hmod
  exact hmod.symm

/-- **A request was polled when the counter has reached its number.** -/
theorem wasPolled_iff (h : PolledInOrder conf.perSessionReqNum evs s) (hring : RingInv conf evs s p a)
    {j : Nat} : WasPolled evs j ↔ 1 ≤ j ∧ j ≤ s.lastPulledReq := by
  have hpushed := hring.pushed
  have hpulled := hring.pulled
  constructor
  · rintro ⟨past, i, op, rest, heq, rfl, hlt⟩
    obtain ⟨rfl, hpast⟩ := h.slot_of_issued heq
    rw [hpast, countP_polledAt, h.polled, lt_count_requestSlots] at hlt
    omega
  · rintro ⟨hone, hle⟩
    have hissued : j - 1 < (issuedOps evs).length := by omega
    obtain ⟨past, i, op, rest, heq, hlen⟩ := exists_issued hissued
    obtain ⟨rfl, hpast⟩ := h.slot_of_issued heq
    refine ⟨past, _, op, rest, heq, by omega, ?_⟩
    rw [hpast, countP_polledAt, h.polled, lt_count_requestSlots]
    omega

/-- What was polled was completed before. -/
theorem wasCompleted_of_polled (h : PolledInOrder conf.perSessionReqNum evs s)
    (hring : RingInv conf evs s p a) {j : Nat} (hpolled : WasPolled evs j) :
    WasCompleted evs j := by
  obtain ⟨past, i, op, rest, heq, hlen, hlt⟩ := hpolled
  have hpull := hring.ring.pull_lt
  have hi : i < conf.perSessionReqNum := by
    rw [(h.slot_of_issued heq).1]
    exact Nat.mod_lt _ (by omega)
  have hlife := (hring.life i hi).completed
  exact ⟨past, i, op, rest, heq, hlen, by omega⟩

/-- The next request to poll, when it is completed, is in a slot that says so. -/
theorem completed_at_pull (h : PolledInOrder conf.perSessionReqNum evs s)
    (hring : RingInv conf evs s p a) (hdone : WasCompleted evs (s.lastPulledReq + 1)) :
    s.stateAt s.cltPullPtr = .completed := by
  obtain ⟨past, i, op, rest, heq, hlen, hlt⟩ := hdone
  obtain ⟨hi, hpast⟩ := h.slot_of_issued heq
  have hnum : (issuedOps past).length = s.lastPulledReq := by omega
  rw [hnum] at hi hpast
  have hpull : i = s.cltPullPtr := by rw [hi, h.pull]
  have hlife := (hring.life i (hpull ▸ hring.ring.pull_lt)).completed
  rw [hpast, hlife, countP_polledAt, h.polled, hpull] at hlt
  -- one more completion than polls at this slot
  by_contra hst
  have hzero : (s.stateAt s.cltPullPtr).isCompleted = 0 := by
    cases hs : s.stateAt s.cltPullPtr with
    | completed => exact absurd hs hst
    | invalid => rfl
    | active => rfl
    | inProgress => rfl
  omega

/-- **`poll` returns** where a slot at the push pointer that is taken is the one it polls. -/
theorem poll_returns_of (hor : s.cltPushPtr = s.cltPullPtr ∨ s.stateAt s.cltPushPtr = .invalid) :
    ∃ s' r new, s.poll conf = .ok (s', r, new) := by
  unfold Session.poll
  rw [Session.pollLoop]
  by_cases hst : s.stateAt s.cltPullPtr = .completed
  · rw [if_pos hst]
    have hstates : (s.setState s.cltPullPtr .invalid).stateAt =
        Function.update s.stateAt s.cltPullPtr .invalid := by
      unfold Session.setState
      rw [Session.stateAt_setOp]
    have hpush : (s.setState s.cltPullPtr .invalid).stateAt s.cltPushPtr = .invalid := by
      rw [hstates]
      by_cases heq : s.cltPushPtr = s.cltPullPtr
      · rw [heq, Function.update_self]
      · rw [Function.update_of_ne heq]
        exact hor.resolve_left heq
    have hround : s.pollRound conf s.cltPullPtr = .ok (s.pulled conf) := by
      have hcheck : conf.check ((s.setState s.cltPullPtr .invalid).stateAt
          (s.setState s.cltPullPtr .invalid).cltPushPtr == .invalid) = .ok () := by
        have htrue : ((s.setState s.cltPullPtr .invalid).stateAt
            (s.setState s.cltPullPtr .invalid).cltPushPtr == .invalid) = true :=
          beq_iff_eq.mpr hpush
        rw [htrue]
        unfold ClientConf.check
        rw [Bool.not_true, Bool.and_false]
        rfl
      unfold Session.pollRound
      dsimp only
      rw [hcheck]
      rfl
    have hafter : (s.pulled conf).stateAt s.cltPullPtr ≠ .completed := by
      show (s.setState s.cltPullPtr .invalid).stateAt s.cltPullPtr ≠ .completed
      rw [hstates, Function.update_self]
      exact fun h => by cases h
    rw [hround, ok_bind, Session.pollLoop, if_neg hafter]
    exact ⟨_, _, _, rfl⟩
  · rw [if_neg hst]
    exact ⟨_, _, _, rfl⟩

/-- **`poll` always returns**, with one more request pulled if the next one is completed. -/
theorem poll_returns (hring : RingInv conf evs s p a) :
    ∃ s' r new, s.poll conf = .ok (s', r, new) :=
  poll_returns_of hring.ring.push_pull_or_free

end

/-! ## Steps with tickets -/

section

variable {conf : ClientConf} {s s' : Ticketing} {e : TicketEvent}

theorem useTicket_eq_ok {i : Nat} {t : Ticket} (h : s.useTicket i = .ok t) :
    s.client.client = none ∧ s.waiting = none ∧ t ∈ s.tickets := by
  unfold Ticketing.useTicket at h
  split at h
  · rename_i hclient hwaiting hget
    cases h
    exact ⟨hclient, hwaiting, List.mem_of_getElem? hget⟩
  · nomatch h

/-- A call of `poll` by a client that is in no access. -/
theorem poll_clientStep {t : Session} {r : Nat} {evs : List RingEvent}
    (hclient : s.client.client = none) (h : s.client.session.poll conf = .ok (t, r, evs)) :
    clientStep conf s.client .poll = .ok (⟨t, none⟩, evs) := by
  unfold clientStep
  rw [hclient]
  dsimp only
  rw [h, ← hclient]
  rfl

/-- The worker neither polls nor issues. -/
theorem worker_keeps {client : ClientState} {k : ClientCmd} {evs : List RingEvent}
    (hworker : k.isWorker = true) (h : clientStep conf s.client k = .ok (client, evs)) :
    client.session.lastPulledReq = s.client.session.lastPulledReq ∧
    client.client = s.client.client ∧ issuedOps evs = [] ∧ ticketIn evs = none := by
  cases k with
  | fill workingSession =>
    rw [clientStep] at h
    split at h
    · obtain ⟨⟨t, op, evs⟩, hfill, h⟩ := bind_eq_ok.mp h
      cases h
      obtain ⟨clOp, -, rfl, rfl⟩ := odFillTraceOp_spec hfill
      exact ⟨rfl, rfl, rfl, rfl⟩
    · cases h
  | complete i =>
    rw [clientStep] at h
    split at h
    · obtain ⟨⟨t, evs⟩, hcomplete, h⟩ := bind_eq_ok.mp h
      cases h
      obtain ⟨rfl, rfl⟩ := signalCompletionToClient_spec hcomplete
      exact ⟨rfl, rfl, rfl, rfl⟩
    · cases h
  | access kind a => cases hworker
  | advance => cases hworker
  | poll => cases hworker

/-- What a step does, as far as the tickets are concerned. -/
structure TicketStepped (conf : ClientConf) (s s' : Ticketing) (e : TicketEvent) : Prop where
  /-- the ring took one step or none -/
  ring : (∃ k, clientStep conf s.client k = .ok (s'.client, e.ring)) ∨
    s'.client = s.client ∧ e.ring = []
  issued : s'.issued = s.issued + (issuedOps e.ring).length
  tickets : s'.tickets = s.tickets ++ e.given.toList
  given : e.given = (ticketIn e.ring).map (Ticket.mk · s'.issued)
  waiting : ∀ t target, s'.waiting = some (t, target) → s'.client.client = none ∧
    t ∈ s.tickets ∧ (∃ type, target = t.target type) ∧ s'.client.session.lastPulledReq < target
  passed : ∀ t, e.passed = some t →
    t ∈ s.tickets ∧ ∃ type, t.target type ≤ s'.client.session.lastPulledReq

/-- Polling issues nothing. -/
theorem poll_silent {t t' : Session} {r : Nat} {evs : List RingEvent}
    (h : t.poll conf = .ok (t', r, evs)) :
    r = t'.lastPulledReq ∧ issuedOps evs = [] ∧ ticketIn evs = none := by
  obtain ⟨hr, ⟨-, -, rfl⟩ | ⟨-, -, rfl⟩⟩ := poll_spec h
  · exact ⟨hr, rfl, rfl⟩
  · exact ⟨hr, rfl, rfl⟩

theorem ticketStep_spec {k : TicketCmd} (hwait : ∀ t target, s.waiting = some (t, target) →
      s.client.client = none ∧ t ∈ s.tickets ∧ (∃ type, target = t.target type) ∧
        s.client.session.lastPulledReq < target)
    (h : s.step conf k = .ok (s', e)) : TicketStepped conf s s' e := by
  cases k with
  | ring k =>
    rw [Ticketing.step] at h
    split at h
    · nomatch h
    rename_i hallowed
    obtain ⟨⟨client, evs⟩, hstep, h⟩ := bind_eq_ok.mp h
    cases h
    refine ⟨Or.inl ⟨k, hstep⟩, rfl, rfl, rfl, ?_, fun _ h => nomatch h⟩
    intro t target hwaiting
    have hworker : k.isWorker = true := by
      have hsome : s.waiting.isSome = true := by
        rw [show s.waiting = some (t, target) from hwaiting]
        rfl
      rw [hsome] at hallowed
      simpa using hallowed
    obtain ⟨hclient, hmem, htype, hlt⟩ := hwait t target hwaiting
    obtain ⟨hpulled, hsame, -, -⟩ := worker_keeps hworker hstep
    exact ⟨hsame.trans hclient, hmem, htype, by rw [hpulled]; exact hlt⟩
  | isPolled i type =>
    obtain ⟨t, huse, h⟩ := bind_eq_ok.mp h
    obtain ⟨hclient, hwaiting, hmem⟩ := useTicket_eq_ok huse
    cases h
    refine ⟨Or.inr ⟨rfl, rfl⟩, rfl, (List.append_nil _).symm, rfl, ?_, ?_⟩
    · intro t' target hw
      rw [hwaiting] at hw
      nomatch hw
    · intro t' hpassed
      dsimp only at hpassed
      split at hpassed
      · rename_i hanswer
        cases hpassed
        exact ⟨hmem, type, of_decide_eq_true hanswer⟩
      · nomatch hpassed
  | pollAReqAsync i type =>
    obtain ⟨t, huse, h⟩ := bind_eq_ok.mp h
    obtain ⟨hclient, hwaiting, hmem⟩ := useTicket_eq_ok huse
    obtain ⟨⟨session, answer, evs⟩, hasync, h⟩ := bind_eq_ok.mp h
    obtain ⟨⟨session', r, evs'⟩, hpoll, hasync⟩ := bind_eq_ok.mp hasync
    cases hasync
    cases h
    obtain ⟨hr, hissued, hticket⟩ := poll_silent hpoll
    refine ⟨Or.inl ⟨.poll, poll_clientStep hclient hpoll⟩, ?_, (List.append_nil _).symm, ?_, ?_, ?_⟩
    · dsimp only
      rw [hissued]
      rfl
    · dsimp only
      rw [hticket]
      rfl
    · intro t' target hw
      dsimp only at hw
      rw [hwaiting] at hw
      nomatch hw
    · intro t' hpassed
      dsimp only at hpassed
      split at hpassed
      · rename_i hanswer
        cases hpassed
        exact ⟨hmem, type, hr ▸ of_decide_eq_true hanswer⟩
      · nomatch hpassed
  | pollAReqBlocking i type =>
    obtain ⟨t, huse, h⟩ := bind_eq_ok.mp h
    obtain ⟨hclient, hwaiting, hmem⟩ := useTicket_eq_ok huse
    split at h
    · rename_i hle
      cases h
      refine ⟨Or.inr ⟨rfl, rfl⟩, rfl, (List.append_nil _).symm, rfl, ?_, ?_⟩
      · intro t' target hw
        rw [hwaiting] at hw
        nomatch hw
      · intro t' hpassed
        cases hpassed
        exact ⟨hmem, type, hle⟩
    · rename_i hlt
      cases h
      refine ⟨Or.inr ⟨rfl, rfl⟩, rfl, (List.append_nil _).symm, rfl, ?_, fun _ h => nomatch h⟩
      intro t' target hw
      cases hw
      exact ⟨hclient, hmem, ⟨type, rfl⟩, Nat.lt_of_not_le hlt⟩
  | wait =>
    rw [Ticketing.step] at h
    split at h
    · nomatch h
    rename_i t target hwaiting
    obtain ⟨⟨session, r, evs⟩, hpoll, h⟩ := bind_eq_ok.mp h
    obtain ⟨hclient, hmem, ⟨type, htype⟩, -⟩ := hwait t target hwaiting
    obtain ⟨hr, hissued, hticket⟩ := poll_silent hpoll
    dsimp only at h
    split at h
    · rename_i hlt
      cases h
      refine ⟨Or.inl ⟨.poll, poll_clientStep hclient hpoll⟩, ?_, (List.append_nil _).symm, ?_, ?_,
        fun _ h => nomatch h⟩
      · dsimp only
        rw [hissued]
        rfl
      · dsimp only
        rw [hticket]
        rfl
      · intro t' target' hw
        dsimp only at hw
        rw [hwaiting] at hw
        cases hw
        exact ⟨rfl, hmem, ⟨type, htype⟩, hr ▸ hlt⟩
    · rename_i hge
      cases h
      refine ⟨Or.inl ⟨.poll, poll_clientStep hclient hpoll⟩, ?_, (List.append_nil _).symm, ?_,
        (fun _ _ h => nomatch h), ?_⟩
      · dsimp only
        rw [hissued]
        rfl
      · dsimp only
        rw [hticket]
        rfl
      · intro t' hpassed
        cases hpassed
        refine ⟨hmem, type, ?_⟩
        show t.target type ≤ session.lastPulledReq
        omega

end

/-! ## Runs -/

theorem ringEvents_concat (tr : TicketTrace) (p : TicketCmd × TicketEvent) :
    ringEvents (tr ++ [p]) = ringEvents tr ++ p.2.ring := by
  simp [ringEvents]

/-- The invariant of a session and its tickets. -/
structure TicketInv (conf : ClientConf) (ops : Nat → ClientOp) (tr : TicketTrace)
    (s : Ticketing) : Prop where
  ring : ∃ tr', Run (clientStep conf) (.start ops) tr' s.client ∧ events tr' = ringEvents tr
  issued : s.issued = (issuedOps (ringEvents tr)).length
  tickets : ∀ t ∈ s.tickets, ∃ p ∈ tr, p.2.given = some t
  values : ∀ p ∈ tr, ∀ t, p.2.given = some t → t.value = toInt t.request ∧ 1 ≤ t.request
  waiting : ∀ t target, s.waiting = some (t, target) → s.client.client = none ∧
    t ∈ s.tickets ∧ (∃ type, target = t.target type) ∧ s.client.session.lastPulledReq < target

section

variable {conf : ClientConf} {ops : Nat → ClientOp} {tr : TicketTrace} {s s' : Ticketing}
  {k : TicketCmd} {e : TicketEvent}

/-- The ring under the tickets. -/
theorem TicketInv.inOrder (h : TicketInv conf ops tr s) (hpos : 0 < conf.perSessionReqNum)
    (hN : conf.perSessionReqNum ≤ 2 ^ 16) (hcount : (issuedOps (ringEvents tr)).length < 2 ^ 64) :
    PolledInOrder conf.perSessionReqNum (ringEvents tr) s.client.session ∧
    ∃ p a, RingInv conf (ringEvents tr) s.client.session p a := by
  obtain ⟨tr', hrun, hevents⟩ := h.ring
  rw [← hevents] at hcount ⊢
  obtain ⟨⟨p, a, hring, -⟩, -⟩ := client_run hpos hN hrun hcount
  exact ⟨order_run hpos hN hrun hcount, p, a, hring⟩

/-- A ticket is given for the last request that was issued. -/
theorem given_value {client : ClientState} {c : ClientCmd} {evs : List RingEvent} {r : Int}
    (h : clientStep conf s.client c = .ok (client, evs)) (hticket : ticketIn evs = some r) :
    r = toInt client.session.lastPushedReq ∧ (issuedOps evs).length = 1 := by
  obtain ⟨moved, hmove, hshows⟩ := clientStep_move h
  rcases client with ⟨session, client⟩
  dsimp only at hmove hshows ⊢
  cases hshows with
  | silent => cases hmove <;> nomatch hticket
  | returns blocking r' hr =>
    cases hmove with
    | issue op hop =>
      cases blocking with
      | true => nomatch hticket
      | false =>
        cases hticket
        exact ⟨hr _ _ rfl, rfl⟩
    | stay => nomatch hticket
    | poll hst => nomatch hticket
    | fill op hst hop => nomatch hticket
    | complete i hi hst => nomatch hticket

/-- **One step.** -/
theorem TicketInv.step (h : TicketInv conf ops tr s) (hpos : 0 < conf.perSessionReqNum)
    (hN : conf.perSessionReqNum ≤ 2 ^ 16)
    (hcount : (issuedOps (ringEvents (tr ++ [(k, e)]))).length < 2 ^ 64)
    (hs : s.step conf k = .ok (s', e)) :
    TicketInv conf ops (tr ++ [(k, e)]) s' ∧ TicketStepped conf s s' e := by
  have hspec := ticketStep_spec h.waiting hs
  obtain ⟨tr', hrun, hevents⟩ := h.ring
  have hissued : s'.issued = (issuedOps (ringEvents (tr ++ [(k, e)]))).length := by
    rw [hspec.issued, h.issued, ringEvents_concat, issuedOps_append, List.length_append]
  -- the ring's own run goes on
  obtain ⟨tr'', hrun', hevents'⟩ : ∃ tr'', Run (clientStep conf) (.start ops) tr'' s'.client ∧
      events tr'' = ringEvents (tr ++ [(k, e)]) := by
    rw [ringEvents_concat]
    rcases hspec.ring with ⟨c, hstep⟩ | ⟨hsame, hnil⟩
    · exact ⟨_, hrun.snoc hstep, by rw [events_concat, hevents]⟩
    · rw [hsame, show (k, e).2.ring = [] from hnil, List.append_nil]
      exact ⟨tr', hrun, hevents⟩
  have hvalue : ∀ t, e.given = some t → t.value = toInt t.request ∧ 1 ≤ t.request := by
    intro t hgiven
    rw [hspec.given] at hgiven
    obtain ⟨r, hr, rfl⟩ := Option.map_eq_some_iff.mp hgiven
    rcases hspec.ring with ⟨c, hstep⟩ | ⟨-, hnil⟩
    · obtain ⟨hr', hone⟩ := given_value hstep hr
      obtain ⟨⟨p, a, hring, -⟩, -⟩ := client_run hpos hN hrun' (hevents' ▸ hcount)
      have hpushed := hring.pushed
      rw [hevents', ← hissued] at hpushed
      refine ⟨?_, ?_⟩
      · rw [hr', hpushed]
      · show 1 ≤ s'.issued
        rw [hspec.issued, hone]
        exact Nat.le_add_left ..
    · rw [hnil] at hr
      nomatch hr
  refine ⟨⟨⟨tr'', hrun', hevents'⟩, hissued, ?_, ?_, ?_⟩, hspec⟩
  · intro t hmem
    rw [hspec.tickets] at hmem
    rcases List.mem_append.mp hmem with hold | hnew
    · obtain ⟨p, hp, hgiven⟩ := h.tickets t hold
      exact ⟨p, List.mem_append_left _ hp, hgiven⟩
    · exact ⟨(k, e), List.mem_append_right _ (List.mem_singleton_self _),
        Option.mem_toList.mp hnew⟩
  · intro p hp t hgiven
    rcases List.mem_append.mp hp with hold | hnew
    · exact h.values p hold t hgiven
    · rw [List.mem_singleton.mp hnew] at hgiven
      exact hvalue t hgiven
  · intro t target hw
    obtain ⟨hclient, hmem, htype, hlt⟩ := hspec.waiting t target hw
    exact ⟨hclient, by rw [hspec.tickets]; exact List.mem_append_left _ hmem, htype, hlt⟩

theorem ringEvents_append (tr tr' : TicketTrace) :
    ringEvents (tr ++ tr') = ringEvents tr ++ ringEvents tr' := by
  simp [ringEvents]

/-- **Every run** of fewer than `2 ^ 64` requests. -/
theorem ticket_run (hpos : 0 < conf.perSessionReqNum) (hN : conf.perSessionReqNum ≤ 2 ^ 16)
    (hrun : Run (Ticketing.step conf) (.start ops) tr s)
    (hcount : (issuedOps (ringEvents tr)).length < 2 ^ 64) : TicketInv conf ops tr s := by
  refine hrun.invariant (fun tr s => (issuedOps (ringEvents tr)).length < 2 ^ 64 →
    TicketInv conf ops tr s) (fun _ => ?_) ?_ hcount
  · exact ⟨⟨[], .start, rfl⟩, rfl, fun _ h => (nomatch h), fun _ h => (nomatch h), fun _ _ h => (nomatch h)⟩
  · intro tr s k s' e _ ih hs hcount
    have hold : (issuedOps (ringEvents tr)).length < 2 ^ 64 := by
      rw [ringEvents_concat] at hcount
      exact Nat.lt_of_le_of_lt (length_issuedOps_le ..) hcount
    exact ((ih hold).step hpos hN hcount hs).1

/-- **A ticket below `2 ^ 31` is the number of its request**, in every type it is kept in. -/
theorem target_eq {t : Ticket} (hvalue : t.value = toInt t.request) (hone : 1 ≤ t.request)
    (hlt : t.request < 2 ^ 31) : 0 < t.value ∧ ∀ type, t.target type = t.request := by
  have hint : t.value = t.request := by
    rw [hvalue]
    unfold toInt
    rw [Nat.mod_eq_of_lt (by omega), if_pos hlt]
  refine ⟨by omega, fun type => ?_⟩
  cases type with
  | uint32 =>
    show (t.value % 2 ^ 32).toNat = _
    rw [hint]
    omega
  | uint64 =>
    show (t.value % 2 ^ 64).toNat = _
    rw [hint]
    omega

/-- What is completed stays so. -/
theorem WasCompleted.append {evs : List RingEvent} {j : Nat} (h : WasCompleted evs j)
    (new : List RingEvent) : WasCompleted (evs ++ new) j := by
  obtain ⟨past, i, op, rest, rfl, hlen, hlt⟩ := h
  refine ⟨past, i, op, rest ++ new, by simp, hlen, ?_⟩
  rw [List.countP_append]
  omega

/-! ## Waiting -/

/-- The rounds of `poll_a_req_blocking` in a history. -/
def rounds (tr : TicketTrace) : Nat :=
  tr.countP fun p => match p.1 with
    | .wait => true
    | _ => false

/-- A client that waits is not elsewhere. -/
theorem useTicket_waiting {w : Ticket × Nat} (h : s.waiting = some w) (i : Nat) :
    s.useTicket i = .error .disabled := by
  unfold Ticketing.useTicket
  rw [h]
  split
  · rename_i hw _
    nomatch hw
  · rfl

/-- **One step, while a client waits** for requests that are completed: it gets what it waits for,
    or goes on, with one more request polled after each round. -/
theorem wait_step {t : Ticket} {target : Nat} (h : TicketInv conf ops tr s)
    (hpos : 0 < conf.perSessionReqNum) (hN : conf.perSessionReqNum ≤ 2 ^ 16)
    (hcount : (issuedOps (ringEvents tr)).length < 2 ^ 64) (hw : s.waiting = some (t, target))
    (hdone : ∀ j, 1 ≤ j → j ≤ target → WasCompleted (ringEvents tr) j)
    (hs : s.step conf k = .ok (s', e)) :
    e.passed = some t ∨
      s'.waiting = some (t, target) ∧ issuedOps e.ring = [] ∧
      s.client.session.lastPulledReq + rounds [(k, e)] ≤ s'.client.session.lastPulledReq := by
  obtain ⟨hclient, -, -, hlt⟩ := h.waiting t target hw
  cases k with
  | ring c =>
    rw [Ticketing.step] at hs
    split at hs
    · nomatch hs
    rename_i hallowed
    have hworker : c.isWorker = true := by
      rw [hw] at hallowed
      simpa using hallowed
    obtain ⟨⟨client, evs⟩, hstep, hs⟩ := bind_eq_ok.mp hs
    cases hs
    obtain ⟨hpulled, -, hissued, -⟩ := worker_keeps hworker hstep
    exact Or.inr ⟨hw, hissued, Nat.le_of_eq hpulled.symm⟩
  | isPolled i type =>
    rw [Ticketing.step, useTicket_waiting hw] at hs
    nomatch hs
  | pollAReqAsync i type =>
    rw [Ticketing.step, useTicket_waiting hw] at hs
    nomatch hs
  | pollAReqBlocking i type =>
    rw [Ticketing.step, useTicket_waiting hw] at hs
    nomatch hs
  | wait =>
    rw [Ticketing.step, hw] at hs
    obtain ⟨⟨session, r, evs⟩, hpoll, hs⟩ := bind_eq_ok.mp hs
    obtain ⟨hr, hissued, -⟩ := poll_silent hpoll
    dsimp only at hs
    split at hs
    · cases hs
      refine Or.inr ⟨rfl, hissued, ?_⟩
      -- the next request is completed, so this round polled it
      obtain ⟨horder, p, a, hring⟩ := h.inOrder hpos hN hcount
      have hnext := completed_at_pull horder hring (hdone _ (Nat.le_add_left ..) hlt)
      have hpushed : s.client.session.lastPushedReq < 2 ^ 64 := by
        rw [hring.pushed]
        exact hcount
      obtain ⟨-, ⟨hnot, -, -⟩ | ⟨-, rfl, -⟩⟩ := poll_spec hpoll
      · exact absurd hnext hnot
      · obtain ⟨-, hmore, -⟩ := hring.poll hN hpushed hnext
        exact Nat.le_of_eq hmore.symm
    · cases hs
      exact Or.inl rfl

/-- **A client does not wait forever** for requests that are completed. -/
theorem wait_run {t : Ticket} {target : Nat} {tr' : TicketTrace} (hpos : 0 < conf.perSessionReqNum)
    (hN : conf.perSessionReqNum ≤ 2 ^ 16) (hrun : Run (Ticketing.step conf) (.start ops) tr s)
    (hcount : (issuedOps (ringEvents tr)).length < 2 ^ 64) (hw : s.waiting = some (t, target))
    (hdone : ∀ j, 1 ≤ j → j ≤ target → WasCompleted (ringEvents tr) j)
    (hrun' : Run (Ticketing.step conf) s tr' s') :
    (∃ p ∈ tr', p.2.passed = some t) ∨
      s'.waiting = some (t, target) ∧ issuedOps (ringEvents tr') = [] ∧
      s.client.session.lastPulledReq + rounds tr' ≤ s'.client.session.lastPulledReq := by
  refine hrun'.invariant (fun tr' s' => (∃ p ∈ tr', p.2.passed = some t) ∨
    s'.waiting = some (t, target) ∧ issuedOps (ringEvents tr') = [] ∧
      s.client.session.lastPulledReq + rounds tr' ≤ s'.client.session.lastPulledReq)
    (Or.inr ⟨hw, rfl, Nat.le_refl _⟩) ?_
  intro tr₁ s₁ k s₂ e hrun₁ ih hs
  rcases ih with ⟨p, hp, hpassed⟩ | ⟨hw₁, hissued₁, hrounds₁⟩
  · exact Or.inl ⟨p, List.mem_append_left _ hp, hpassed⟩
  have hevents : issuedOps (ringEvents (tr ++ tr₁)) = issuedOps (ringEvents tr) := by
    rw [ringEvents_append, issuedOps_append, hissued₁, List.append_nil]
  have hcount₁ : (issuedOps (ringEvents (tr ++ tr₁))).length < 2 ^ 64 := by
    rw [hevents]
    exact hcount
  have hinv₁ := ticket_run hpos hN (hrun.trans hrun₁) hcount₁
  have hdone₁ : ∀ j, 1 ≤ j → j ≤ target → WasCompleted (ringEvents (tr ++ tr₁)) j := by
    intro j hj hle
    rw [ringEvents_append]
    exact (hdone j hj hle).append _
  rcases wait_step hinv₁ hpos hN hcount₁ hw₁ hdone₁ hs with hpassed | ⟨hw₂, hissued₂, hmore⟩
  · exact Or.inl ⟨(k, e), List.mem_append_right _ (List.mem_singleton_self _), hpassed⟩
  · refine Or.inr ⟨hw₂, ?_, ?_⟩
    · rw [ringEvents_concat, issuedOps_append, hissued₁]
      exact hissued₂
    · have hsum : rounds (tr₁ ++ [(k, e)]) = rounds tr₁ + rounds [(k, e)] := List.countP_append ..
      omega

/-! ## The result -/

/-- What tickets promise after the steps of `tr`. -/
structure TicketsCorrect (conf : ClientConf) (tr : TicketTrace) (s : Ticketing) : Prop where
  positive : ∀ p ∈ tr, ∀ t, p.2.given = some t → 0 < t.value
  /-- a call passes for a ticket only after its request and all before it -/
  passed : ∀ past p rest t, tr = past ++ p :: rest → p.2.passed = some t →
    ∀ j, 1 ≤ j → j ≤ t.request →
      WasCompleted (ringEvents (past ++ [p])) j ∧ WasPolled (ringEvents (past ++ [p])) j
  /-- a client that waits can go on, and once these are completed, it returns after some rounds,
      whatever the worker does in between -/
  waits : ∀ t target, s.waiting = some (t, target) →
    (∃ s' e, s.step conf .wait = .ok (s', e)) ∧
    ((∀ j, 1 ≤ j → j ≤ t.request → WasCompleted (ringEvents tr) j) →
      ∃ n, ∀ tr' s', Run (Ticketing.step conf) s tr' s' → n ≤ rounds tr' →
        ∃ p ∈ tr', p.2.passed = some t)

/-- **Tickets are honest** as long as `access_async` gives them for the first `2 ^ 31 - 1` requests
    of the session only, and the session has fewer than `2 ^ 64`. -/
theorem tickets_correct (hpos : 1 ≤ conf.perSessionReqNum) (hN : conf.perSessionReqNum ≤ 2 ^ 16)
    (hrun : Run (Ticketing.step conf) (.start ops) tr s)
    (hcount : (issuedOps (ringEvents tr)).length < 2 ^ 64)
    (hgiven : ∀ p ∈ tr, ∀ t, p.2.given = some t → t.request < 2 ^ 31) :
    TicketsCorrect conf tr s := by
  have hinv := ticket_run hpos hN hrun hcount
  have htarget : ∀ t ∈ s.tickets, 0 < t.value ∧ ∀ type, t.target type = t.request := by
    intro t ht
    obtain ⟨p, hp, hg⟩ := hinv.tickets t ht
    obtain ⟨hvalue, hone⟩ := hinv.values p hp t hg
    exact target_eq hvalue hone (hgiven p hp t hg)
  refine ⟨?_, ?_, ?_⟩
  · intro p hp t hg
    obtain ⟨hvalue, hone⟩ := hinv.values p hp t hg
    exact (target_eq hvalue hone (hgiven p hp t hg)).1
  · rintro past ⟨k, e⟩ rest t rfl hpassed j hj hle
    obtain ⟨s₀, s₁, hpast, hstep⟩ := hrun.split_step
    have hsplit : past ++ (k, e) :: rest = (past ++ [(k, e)]) ++ rest := by simp
    have hcount₁ : (issuedOps (ringEvents (past ++ [(k, e)]))).length < 2 ^ 64 := by
      rw [hsplit, ringEvents_append] at hcount
      exact Nat.lt_of_le_of_lt (length_issuedOps_le ..) hcount
    have hcount₀ : (issuedOps (ringEvents past)).length < 2 ^ 64 := by
      rw [ringEvents_concat] at hcount₁
      exact Nat.lt_of_le_of_lt (length_issuedOps_le ..) hcount₁
    have hinv₀ := ticket_run hpos hN hpast hcount₀
    obtain ⟨hinv₁, hspec⟩ := hinv₀.step hpos hN hcount₁ hstep
    obtain ⟨hmem, type, hreached⟩ := hspec.passed t hpassed
    obtain ⟨p, hp, hg⟩ := hinv₀.tickets t hmem
    obtain ⟨hvalue, hone⟩ := hinv₀.values p hp t hg
    rw [(target_eq hvalue hone (hgiven p (List.mem_append_left _ hp) t hg)).2 type] at hreached
    obtain ⟨horder, n, a, hring⟩ := hinv₁.inOrder hpos hN hcount₁
    have hpolled := (wasPolled_iff horder hring).mpr ⟨hj, Nat.le_trans hle hreached⟩
    exact ⟨wasCompleted_of_polled horder hring hpolled, hpolled⟩
  · intro t target hw
    obtain ⟨-, hmem, ⟨type, rfl⟩, -⟩ := hinv.waiting t target hw
    rw [(htarget t hmem).2 type] at hw
    obtain ⟨-, p, a, hring⟩ := hinv.inOrder hpos hN hcount
    refine ⟨?_, fun hdone => ⟨t.request, fun tr' s' hrun' hrounds => ?_⟩⟩
    · obtain ⟨session, r, evs, hpoll⟩ := poll_returns hring
      rw [Ticketing.step, hw]
      dsimp only
      rw [hpoll, ok_bind]
      dsimp only
      split
      · exact ⟨_, _, rfl⟩
      · exact ⟨_, _, rfl⟩
    · rcases wait_run hpos hN hrun hcount hw hdone hrun' with hpassed | ⟨hw', hissued', hmore⟩
      · exact hpassed
      · -- it would have polled more requests than it waits for
        have hcount' : (issuedOps (ringEvents (tr ++ tr'))).length < 2 ^ 64 := by
          rw [ringEvents_append, issuedOps_append, hissued', List.append_nil]
          exact hcount
        obtain ⟨-, -, -, hlt⟩ :=
          (ticket_run hpos hN (hrun.trans hrun') hcount').waiting t t.request hw'
        omega

end

/-- A client waits for its first read, and gets it. -/
theorem tickets_correct_one : ∃ tr s, Run (Ticketing.step (sessionConf 2))
    (.start fun _ => freeOp) tr s ∧ tr.map (fun p => p.2.passed.map Ticket.value) =
      [none, none, none, none, none, none, some 1] ∧ TicketsCorrect (sessionConf 2) tr s := by
  obtain ⟨tr, s, hexec, hpassed, hcount, hgiven⟩ : ∃ tr s,
      exec (Ticketing.step (sessionConf 2)) (.start fun _ => freeOp)
        [.ring (.access (.async false) readKeyZero), .ring .advance, .ring .advance,
         .pollAReqBlocking 0 .uint32, .ring (.fill 0), .ring (.complete 0), .wait] = .ok (tr, s) ∧
      tr.map (fun p => p.2.passed.map Ticket.value) =
        [none, none, none, none, none, none, some 1] ∧
      (issuedOps (ringEvents tr)).length = 1 ∧
      tr.map (fun p => p.2.given.map Ticket.request) =
        [none, none, some 1, none, none, none, none] := ⟨_, _, rfl, rfl, rfl, rfl⟩
  have hrun := run_of_exec hexec
  refine ⟨tr, s, hrun, hpassed, tickets_correct (by decide) (by decide) hrun ?_ ?_⟩
  · rw [hcount]
    decide
  · intro p hp t ht
    have hmem := List.mem_map_of_mem (f := fun p => p.2.given.map Ticket.request) hp
    rw [hgiven, ht] at hmem
    have hone : t.request = 1 := by simpa using hmem
    rw [hone]
    decide

/-! ## A ticket that is negative -/

/-- A run of the ring is one with tickets. -/
theorem ticket_run_of_run {conf : ClientConf} {ops : Nat → ClientOp} {tr : ClientTrace}
    {s : ClientState} (hrun : Run (clientStep conf) (.start ops) tr s) :
    ∃ tr' issued tickets,
      Run (Ticketing.step conf) (.start ops) tr' ⟨s, issued, tickets, none⟩ := by
  induction hrun with
  | start => exact ⟨[], 0, [], .start⟩
  | @snoc tr s s' k e _ hstep ih =>
    obtain ⟨tr', issued, tickets, hrun'⟩ := ih
    obtain ⟨issued', tickets', e', hstep'⟩ : ∃ issued' tickets' e',
        Ticketing.step conf ⟨s, issued, tickets, none⟩ (.ring k) =
          .ok (⟨s', issued', tickets', none⟩, e') := by
      rw [Ticketing.step, if_neg (by simp), Ticketing.ringStep]
      dsimp only
      rw [hstep]
      exact ⟨_, _, _, rfl⟩
    exact ⟨_, issued', tickets', hrun'.snoc hstep'⟩

/-- **Request `2 ^ 31`** of a session gets a negative ticket. -/
theorem ticket_negative : ∃ tr s p t, Run (Ticketing.step (sessionConf 2))
    (.start fun _ => activeOp) (tr ++ [p]) s ∧ p.2.given = some t ∧ t.value = -2 ^ 31 := by
  obtain ⟨past, hpast, -⟩ := run_many_polled (2 ^ 31 - 1) (by decide)
  obtain ⟨tr, issued, tickets, hrun⟩ := ticket_run_of_run hpast
  obtain ⟨p₁, p₂, p, s, t, hexec, hgiven, hvalue⟩ : ∃ p₁ p₂ p s t,
      exec (Ticketing.step (sessionConf 2)) ⟨⟨allPolled 1 (2 ^ 31 - 1), none⟩, issued, tickets, none⟩
        [.ring (.access (.async false) readKeyZero), .ring .advance, .ring .advance] =
          .ok ([p₁, p₂, p], s) ∧ p.2.given = some t ∧ t.value = -2 ^ 31 :=
    ⟨_, _, _, _, _, rfl, rfl, rfl⟩
  refine ⟨tr ++ [p₁, p₂], s, p, t, ?_, hgiven, hvalue⟩
  rw [List.append_assoc]
  exact hrun.trans (run_of_exec hexec)

end Odyssey
