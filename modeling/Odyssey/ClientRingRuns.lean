/-
  THE REQUEST RING IN EVERY INTERLEAVING.

  From `clt_pull_ptr` on, the ring holds the requests the worker has picked up and the client has
  not polled, then those the worker has not picked up, then free slots.  `Ring N st pull wrkr push
  p a` says so, with `p` requests of the first kind and `a` of the second; a full and an empty
  ring have the same pointers, and `p + a` tells them apart.

  Whatever step is taken, the session makes one of four moves or stays (`Move`), and each move
  shifts one boundary of the ring.  What the client knows inside an access is a fact about `p + a`
  (`StageFits`): it is full while the client polls for a slot, and not full once it is about to
  issue.  Only the client changes `p + a`, so these facts survive the steps of the worker.

  The history is kept in two ways.  The requests the worker picked up are the requests issued,
  less the last `a`, which still are in their slots: so each is picked up once, in issue order.
  And each slot goes through its life in a circle, issued, picked up, completed, polled (`Life`).

  The pointers are `uint16_t`s and the counters `uint64_t`s, so all of this needs a ring of at
  most `2 ^ 16` slots (`ring_too_large`) and fewer than `2 ^ 64` requests (`counter_wraps`).
-/
import Odyssey.ClientRing
import Odyssey.Lib.Cyclic
import Odyssey.Lib.Runs

namespace Odyssey

open Lib

/-! ## The shape of the ring -/

/-- From `pull` on: `p` requests picked up, `a` requests active, and free slots. -/
structure Ring (N : Nat) (st : Nat → ReqState) (pull wrkr push p a : Nat) : Prop where
  pull_lt : pull < N
  fits : p + a ≤ N
  wrkr_eq : wrkr = slot N pull p
  push_eq : push = slot N pull (p + a)
  held : ∀ k < p, st (slot N pull k) = .inProgress ∨ st (slot N pull k) = .completed
  active : ∀ k, p ≤ k → k < p + a → st (slot N pull k) = .active
  free : ∀ k, p + a ≤ k → k < N → st (slot N pull k) = .invalid

theorem modIncr16_slot {N x : Nat} (hN : N ≤ 2 ^ 16) (hx : x < N) : modIncr16 x N = slot N x 1 := by
  unfold modIncr16
  rw [← wrap_slot hx]
  by_cases h : x + 1 < 2 ^ 16
  · rw [u16_of_lt h]
  · have hfull : x + 1 = 2 ^ 16 := by omega
    rw [hfull, if_pos (by omega : 2 ^ 16 = N)]
    unfold u16
    rw [Nat.mod_self]
    split <;> rfl

namespace Ring

variable {N : Nat} {st : Nat → ReqState} {pull wrkr push p a i : Nat}

/-- Where a slot is. -/
theorem exists_place (h : Ring N st pull wrkr push p a) (hi : i < N) :
    ∃ k < N, i = slot N pull k := by
  have hpull := h.pull_lt
  refine ⟨(i + N - pull) % N, Nat.mod_lt _ (by omega), ?_⟩
  unfold slot
  rw [Nat.add_mod_mod]
  have hsum : pull + (i + N - pull) = i + N := by omega
  rw [hsum, Nat.add_mod_right, Nat.mod_eq_of_lt hi]

/-- The slot at the push pointer is free unless the ring is full. -/
theorem push_free (h : Ring N st pull wrkr push p a) : st push = .invalid ↔ p + a < N := by
  have hpull := h.pull_lt
  have hfits := h.fits
  rw [h.push_eq]
  constructor
  · intro hinv
    by_contra hfull
    have hn : p + a = N := by omega
    rw [hn, slot_full hpull] at hinv
    rw [← slot_zero hpull] at hinv
    by_cases hp : 0 < p
    · rcases h.held 0 hp with hst | hst <;> rw [hst] at hinv <;> nomatch hinv
    · rw [h.active 0 (by omega) (by omega)] at hinv
      nomatch hinv
  · intro hlt
    exact h.free _ (Nat.le_refl _) hlt

/-- In a full ring the slot at the push pointer holds the oldest request. -/
theorem push_pull_or_free (h : Ring N st pull wrkr push p a) :
    push = pull ∨ st push = .invalid := by
  have hfits := h.fits
  rcases Nat.lt_or_ge (p + a) N with hlt | hge
  · exact Or.inr (h.push_free.mpr hlt)
  · left
    rw [h.push_eq, show p + a = N by omega, slot_full h.pull_lt]

/-- The client polls the oldest request. -/
theorem poll (h : Ring N st pull wrkr push p a) (hst : st pull = .completed) :
    0 < p ∧ Ring N (Function.update st pull .invalid) (slot N pull 1) wrkr push (p - 1) a := by
  have hpull := h.pull_lt
  have hfits := h.fits
  have hp : 0 < p := by
    by_contra hp
    rw [← slot_zero hpull] at hst
    by_cases ha : 0 < a
    · rw [h.active 0 (by omega) (by omega)] at hst
      nomatch hst
    · rw [h.free 0 (by omega) (by omega)] at hst
      nomatch hst
  -- the other slots of the ring are one place nearer
  have hother : ∀ k, k + 1 < N → Function.update st pull .invalid (slot N (slot N pull 1) k) =
      st (slot N pull (k + 1)) := by
    intro k hk
    rw [slot_slot, Nat.add_comm 1 k, Function.update_of_ne]
    have hne := slot_ne hpull hk (by omega : 0 < N) (Nat.succ_ne_zero k)
    rwa [slot_zero hpull] at hne
  refine ⟨hp, slot_lt (by omega), by omega, ?_, ?_, ?_, ?_, ?_⟩
  · rw [slot_slot, h.wrkr_eq]
    congr 1
    omega
  · rw [slot_slot, h.push_eq]
    congr 1
    omega
  · intro k hk
    rw [hother k (by omega)]
    exact h.held (k + 1) (by omega)
  · intro k hk hk'
    rw [hother k (by omega)]
    exact h.active (k + 1) (by omega) (by omega)
  · intro k hk hk'
    by_cases hlast : k + 1 = N
    · rw [slot_slot, Nat.add_comm 1 k, hlast, slot_full hpull, Function.update_self]
    · rw [hother k (by omega)]
      exact h.free (k + 1) (by omega) (by omega)

/-- The client issues a request. -/
theorem issue (h : Ring N st pull wrkr push p a) (hn : p + a < N) :
    Ring N (Function.update st push .active) pull wrkr (slot N push 1) p (a + 1) := by
  have hpull := h.pull_lt
  have hother : ∀ k < N, k ≠ p + a →
      Function.update st push .active (slot N pull k) = st (slot N pull k) := by
    intro k hk hne
    rw [Function.update_of_ne]
    rw [h.push_eq]
    exact slot_ne hpull hk hn hne
  refine ⟨hpull, by omega, h.wrkr_eq, ?_, ?_, ?_, ?_⟩
  · rw [h.push_eq, slot_slot, Nat.add_assoc]
  · intro k hk
    rw [hother k (by omega) (by omega)]
    exact h.held k hk
  · intro k hk hk'
    by_cases hlast : k = p + a
    · rw [hlast, ← h.push_eq, Function.update_self]
    · rw [hother k (by omega) hlast]
      exact h.active k hk (by omega)
  · intro k hk hk'
    rw [hother k hk' (by omega)]
    exact h.free k (by omega) hk'

/-- The worker picks up a request. -/
theorem fill (h : Ring N st pull wrkr push p a) (hst : st wrkr = .active) :
    0 < a ∧ Ring N (Function.update st wrkr .inProgress) pull (slot N wrkr 1) push (p + 1) (a - 1) := by
  have hpull := h.pull_lt
  have hfits := h.fits
  have ha : 0 < a := by
    by_contra ha
    rw [h.wrkr_eq] at hst
    by_cases hp : p < N
    · rw [h.free p (by omega) hp] at hst
      nomatch hst
    · have hpN : p = N := by omega
      rw [hpN, slot_full hpull, ← slot_zero hpull] at hst
      rcases h.held 0 (by omega) with hst' | hst' <;> rw [hst'] at hst <;> nomatch hst
  have hother : ∀ k < N, k ≠ p →
      Function.update st wrkr .inProgress (slot N pull k) = st (slot N pull k) := by
    intro k hk hne
    rw [Function.update_of_ne]
    rw [h.wrkr_eq]
    exact slot_ne hpull hk (by omega) hne
  refine ⟨ha, hpull, by omega, ?_, ?_, ?_, ?_, ?_⟩
  · rw [h.wrkr_eq, slot_slot]
  · rw [h.push_eq]
    congr 1
    omega
  · intro k hk
    by_cases hlast : k = p
    · rw [hlast, ← h.wrkr_eq, Function.update_self]
      exact Or.inl rfl
    · rw [hother k (by omega) hlast]
      exact h.held k (by omega)
  · intro k hk hk'
    rw [hother k (by omega) (by omega)]
    exact h.active k (by omega) (by omega)
  · intro k hk hk'
    rw [hother k hk' (by omega)]
    exact h.free k (by omega) hk'

/-- The worker completes a request. -/
theorem complete (h : Ring N st pull wrkr push p a) (hi : i < N) (hst : st i = .inProgress) :
    Ring N (Function.update st i .completed) pull wrkr push p a := by
  have hpull := h.pull_lt
  have hfits := h.fits
  obtain ⟨k₀, hk₀, rfl⟩ := h.exists_place hi
  have hplace : k₀ < p := by
    by_contra hp
    by_cases ha : k₀ < p + a
    · rw [h.active k₀ (by omega) ha] at hst
      nomatch hst
    · rw [h.free k₀ (by omega) hk₀] at hst
      nomatch hst
  have hother : ∀ k < N, k ≠ k₀ →
      Function.update st (slot N pull k₀) .completed (slot N pull k) = st (slot N pull k) := by
    intro k hk hne
    rw [Function.update_of_ne]
    exact slot_ne hpull hk hk₀ hne
  refine ⟨hpull, hfits, h.wrkr_eq, h.push_eq, ?_, ?_, ?_⟩
  · intro k hk
    by_cases hself : k = k₀
    · rw [hself, Function.update_self]
      exact Or.inr rfl
    · rw [hother k (by omega) hself]
      exact h.held k hk
  · intro k hk hk'
    rw [hother k (by omega) (by omega)]
    exact h.active k hk hk'
  · intro k hk hk'
    rw [hother k hk' (by omega)]
    exact h.free k hk hk'

end Ring

/-! ## What a step can do to the session -/

namespace Session

variable (conf : ClientConf) (s : Session)

/-- The slot at the pull pointer is given back. -/
def pulled : Session :=
  { s.setState s.cltPullPtr .invalid with
    cltPullPtr := modIncr16 s.cltPullPtr conf.perSessionReqNum
    lastPulledReq := u64 (s.lastPulledReq + 1) }

/-- An active request is put at the push pointer. -/
def pushed (op : ClientOp) : Session :=
  { s.setOp s.cltPushPtr op with
    cltPushPtr := modIncr16 s.cltPushPtr conf.perSessionReqNum
    lastPushedReq := u64 (s.lastPushedReq + 1) }

/-- The request at the worker's pull pointer is in progress. -/
def taken (op : ClientOp) : Session :=
  { s.setOp s.wrkrPullPtr op with
    wrkrPullPtr := modIncr16 s.wrkrPullPtr conf.perSessionReqNum }

/-- The states of the slots after one of them has changed. -/
theorem stateAt_setOp (i : Nat) (op : ClientOp) :
    (s.setOp i op).stateAt = Function.update s.stateAt i op.state := by
  funext j
  show (Function.update s.reqArray i op j).state = _
  by_cases h : j = i
  · rw [h, Function.update_self, Function.update_self]
  · rw [Function.update_of_ne h, Function.update_of_ne h]
    rfl

end Session

/-- The moves of a session. -/
inductive Move (conf : ClientConf) (s : Session) : Session → List RingEvent → Prop
  | stay : Move conf s s []
  | poll : s.stateAt s.cltPullPtr = .completed →
      Move conf s (s.pulled conf) [.polled s.cltPullPtr]
  | issue (op : ClientOp) : op.state = .active →
      Move conf s (s.pushed conf op) [.issued s.cltPushPtr op]
  | fill (op : ClientOp) : s.stateAt s.wrkrPullPtr = .active → op.state = .inProgress →
      Move conf s (s.taken conf op) [.filled s.wrkrPullPtr (s.reqArray s.wrkrPullPtr)]
  | complete (i : Nat) : i < conf.perSessionReqNum → s.stateAt i = .inProgress →
      Move conf s (s.setState i .completed) [.completed i]

section Specs

variable {conf : ClientConf} {s s' : Session} {evs : List RingEvent}

/-- **`poll` pulls one request or none.** -/
theorem poll_spec {r : Nat} (h : s.poll conf = .ok (s', r, evs)) : r = s'.lastPulledReq ∧
    (s.stateAt s.cltPullPtr ≠ .completed ∧ s' = s ∧ evs = [] ∨
      s.stateAt s.cltPullPtr = .completed ∧ s' = s.pulled conf ∧ evs = [.polled s.cltPullPtr]) := by
  obtain ⟨⟨t, evs'⟩, hloop, h⟩ := bind_eq_ok.mp h
  cases h
  refine ⟨rfl, ?_⟩
  rw [Session.pollLoop] at hloop
  split at hloop
  · rename_i hcompleted
    obtain ⟨t₁, hround, hloop⟩ := bind_eq_ok.mp hloop
    obtain ⟨⟨t₂, evs₂⟩, hrest, hloop⟩ := bind_eq_ok.mp hloop
    cases hloop
    obtain ⟨-, -, hround⟩ := bind_eq_ok.mp hround
    cases hround
    -- the second test sees the slot that has just been given back
    rw [Session.pollLoop, if_neg] at hrest
    · cases hrest
      exact Or.inr ⟨hcompleted, rfl, rfl⟩
    · show (s.setState s.cltPullPtr .invalid).stateAt s.cltPullPtr ≠ .completed
      unfold Session.setState
      rw [Session.stateAt_setOp, Function.update_self]
      simp
  · rename_i hnot
    cases hloop
    exact Or.inl ⟨hnot, rfl, rfl⟩

theorem issue_spec {a : AccessArgs} (h : s.issue conf a = .ok (s', evs)) :
    ∃ op, op.state = .active ∧ s' = s.pushed conf op ∧ evs = [.issued s.cltPushPtr op] := by
  obtain ⟨op, -, h⟩ := bind_eq_ok.mp h
  cases h
  exact ⟨_, rfl, rfl, rfl⟩

theorem odFillTraceOp_spec {workingSession : Nat} {op : CtxTraceOp}
    (h : s.odFillTraceOp conf workingSession = .ok (s', op, evs)) :
    ∃ clOp, clOp.state = .inProgress ∧ s' = s.taken conf clOp ∧
      evs = [.filled s.wrkrPullPtr (s.reqArray s.wrkrPullPtr)] := by
  obtain ⟨op', hop, h⟩ := bind_eq_ok.mp h
  obtain ⟨-, -, hop⟩ := bind_eq_ok.mp hop
  cases hop
  obtain ⟨t, hsignal, h⟩ := bind_eq_ok.mp h
  obtain ⟨-, -, h⟩ := bind_eq_ok.mp h
  cases h
  obtain ⟨-, -, hsignal⟩ := bind_eq_ok.mp hsignal
  obtain ⟨-, -, hsignal⟩ := bind_eq_ok.mp hsignal
  cases hsignal
  by_cases hassert : conf.enableAssertions = true
  · refine ⟨{ s.reqArray s.wrkrPullPtr with key := ⟨0, 0, 0⟩, state := .inProgress }, rfl, ?_, rfl⟩
    unfold Session.taken Session.setState Session.setOp
    simp [hassert]
  · refine ⟨{ s.reqArray s.wrkrPullPtr with state := .inProgress }, rfl, ?_, rfl⟩
    unfold Session.taken Session.setState Session.setOp
    simp [hassert]

theorem signalCompletionToClient_spec {i : Nat}
    (h : s.signalCompletionToClient conf i = .ok (s', evs)) :
    s' = s.setState i .completed ∧ evs = [.completed i] := by
  obtain ⟨-, -, h⟩ := bind_eq_ok.mp h
  obtain ⟨-, -, h⟩ := bind_eq_ok.mp h
  cases h
  exact ⟨rfl, rfl⟩

end Specs

/-! ## The history of a run -/

/-- The requests issued, and the requests picked up, in order. -/
def issuedOps (evs : List RingEvent) : List ClientOp :=
  evs.filterMap fun
    | .issued _ op => some op
    | _ => none

def filledOps (evs : List RingEvent) : List ClientOp :=
  evs.filterMap fun
    | .filled _ op => some op
    | _ => none

/-- Requests are never taken back. -/
theorem length_issuedOps_le (evs new : List RingEvent) :
    (issuedOps evs).length ≤ (issuedOps (evs ++ new)).length := by
  unfold issuedOps
  rw [List.filterMap_append, List.length_append]
  omega

namespace RingEvent

def issuedAt (i : Nat) : RingEvent → Bool
  | .issued j _ => j == i
  | _ => false

def filledAt (i : Nat) : RingEvent → Bool
  | .filled j _ => j == i
  | _ => false

def completedAt (i : Nat) : RingEvent → Bool
  | .completed j => j == i
  | _ => false

def polledAt (i : Nat) : RingEvent → Bool
  | .polled j => j == i
  | _ => false

end RingEvent

/-- A request in this state has been issued, picked up, completed since the slot was last
    polled. -/
def ReqState.isIssued : ReqState → Nat
  | .invalid => 0
  | _ => 1

def ReqState.isFilled : ReqState → Nat
  | .inProgress | .completed => 1
  | _ => 0

def ReqState.isCompleted : ReqState → Nat
  | .completed => 1
  | _ => 0

/-- Slot `i`, now in state `st`, went round in a circle. -/
structure Life (st : ReqState) (i : Nat) (evs : List RingEvent) : Prop where
  issued : evs.countP (RingEvent.issuedAt i) = evs.countP (RingEvent.polledAt i) + st.isIssued
  filled : evs.countP (RingEvent.filledAt i) = evs.countP (RingEvent.polledAt i) + st.isFilled
  completed : evs.countP (RingEvent.completedAt i) = evs.countP (RingEvent.polledAt i) + st.isCompleted

/-- The next event at slot `i` is the one that its state allows. -/
theorem Life.concat {st st' : ReqState} {i : Nat} {evs : List RingEvent} (h : Life st i evs)
    (e : RingEvent)
    (hi : (e.issuedAt i).toNat + st.isIssued = (e.polledAt i).toNat + st'.isIssued)
    (hf : (e.filledAt i).toNat + st.isFilled = (e.polledAt i).toNat + st'.isFilled)
    (hc : (e.completedAt i).toNat + st.isCompleted = (e.polledAt i).toNat + st'.isCompleted) :
    Life st' i (evs ++ [e]) := by
  obtain ⟨h₁, h₂, h₃⟩ := h
  have hcount : ∀ f : RingEvent → Bool, (evs ++ [e]).countP f = evs.countP f + (f e).toNat := by
    intro f
    rw [List.countP_append, List.countP_singleton]
    cases f e <;> rfl
  refine ⟨?_, ?_, ?_⟩ <;> rw [hcount, hcount] <;> omega

/-- The invariant of a session: its shape, its counters and its history. -/
structure RingInv (conf : ClientConf) (evs : List RingEvent) (s : Session) (p a : Nat) :
    Prop where
  ring : Ring conf.perSessionReqNum s.stateAt s.cltPullPtr s.wrkrPullPtr s.cltPushPtr p a
  pushed : s.lastPushedReq = (issuedOps evs).length
  pulled : s.lastPushedReq = s.lastPulledReq + (p + a)
  /-- the requests that are not picked up are in the slots that are active -/
  pending : issuedOps evs =
    filledOps evs ++ (window conf.perSessionReqNum s.wrkrPullPtr a).map s.reqArray
  life : ∀ i < conf.perSessionReqNum, Life (s.stateAt i) i evs

theorem map_window_update {α : Type} {N w a i : Nat} (f : Nat → α) (x : α)
    (h : ∀ k < a, slot N w k ≠ i) :
    (window N w a).map (Function.update f i x) = (window N w a).map f := by
  apply List.map_congr_left
  intro j hj
  obtain ⟨k, hk, rfl⟩ := List.mem_map.mp hj
  exact Function.update_of_ne (h k (List.mem_range.mp hk)) ..

namespace RingInv

variable {conf : ClientConf} {evs : List RingEvent} {s : Session} {p a : Nat}

/-- A slot away from the one that changes. -/
theorem life_concat (h : RingInv conf evs s p a) {j : Nat} {op : ClientOp} {e : RingEvent}
    (hj : Life op.state j (evs ++ [e]))
    (hother : ∀ i, i ≠ j → e.issuedAt i = false ∧ e.filledAt i = false ∧
      e.completedAt i = false ∧ e.polledAt i = false) :
    ∀ i < conf.perSessionReqNum, Life ((s.setOp j op).stateAt i) i (evs ++ [e]) := by
  intro i hi
  rw [Session.stateAt_setOp]
  by_cases hij : i = j
  · subst hij
    rw [Function.update_self]
    exact hj
  · rw [Function.update_of_ne hij]
    obtain ⟨h₁, h₂, h₃, h₄⟩ := hother i hij
    apply (h.life i hi).concat <;> simp [h₁, h₂, h₃, h₄]

theorem returned (h : RingInv conf evs s p a) (blocking : Bool) (r : Int) :
    RingInv conf (evs ++ [.returned blocking r]) s p a := by
  refine ⟨h.ring, ?_, h.pulled, ?_, ?_⟩
  · simpa [issuedOps] using h.pushed
  · simpa [issuedOps, filledOps] using h.pending
  · exact fun i hi => (h.life i hi).concat _ rfl rfl rfl

theorem poll (h : RingInv conf evs s p a) (hN : conf.perSessionReqNum ≤ 2 ^ 16)
    (hpushed : s.lastPushedReq < 2 ^ 64) (hst : s.stateAt s.cltPullPtr = .completed) :
    0 < p ∧ (s.pulled conf).lastPulledReq = s.lastPulledReq + 1 ∧
      RingInv conf (evs ++ [.polled s.cltPullPtr]) (s.pulled conf) (p - 1) a := by
  obtain ⟨hp, hring⟩ := h.ring.poll hst
  have hpull := h.ring.pull_lt
  have hfits := h.ring.fits
  have hpulled := h.pulled
  have hcount : (s.pulled conf).lastPulledReq = s.lastPulledReq + 1 := u64_of_lt (by omega)
  refine ⟨hp, hcount, ?_, ?_, ?_, ?_, ?_⟩
  · show Ring _ (s.setState s.cltPullPtr .invalid).stateAt
      (modIncr16 s.cltPullPtr conf.perSessionReqNum) _ _ _ _
    unfold Session.setState
    rw [modIncr16_slot hN hpull, Session.stateAt_setOp]
    exact hring
  · show s.lastPushedReq = _
    simpa [issuedOps] using h.pushed
  · rw [hcount]
    show s.lastPushedReq = _
    omega
  · have hpending := h.pending
    show issuedOps (evs ++ [_]) = filledOps (evs ++ [_]) ++
      (window _ s.wrkrPullPtr a).map (Function.update s.reqArray s.cltPullPtr _)
    rw [map_window_update]
    · simpa [issuedOps, filledOps] using hpending
    · intro k hk
      rw [h.ring.wrkr_eq, slot_slot]
      have hne := slot_ne hpull (by omega : p + k < conf.perSessionReqNum)
        (by omega : 0 < conf.perSessionReqNum) (by omega)
      rwa [slot_zero hpull] at hne
  · refine h.life_concat ((h.life _ hpull).concat _ ?_ ?_ ?_) ?_
    · simp [hst, RingEvent.issuedAt, RingEvent.polledAt, ReqState.isIssued]
    · simp [hst, RingEvent.filledAt, RingEvent.polledAt, ReqState.isFilled]
    · simp [hst, RingEvent.completedAt, RingEvent.polledAt, ReqState.isCompleted]
    · intro i hi
      simp [RingEvent.issuedAt, RingEvent.filledAt, RingEvent.completedAt, RingEvent.polledAt,
        hi.symm]

theorem issue (h : RingInv conf evs s p a) (hN : conf.perSessionReqNum ≤ 2 ^ 16)
    (hpushed : s.lastPushedReq + 1 < 2 ^ 64) (hn : p + a < conf.perSessionReqNum)
    {op : ClientOp} (hop : op.state = .active) :
    (s.pushed conf op).lastPulledReq = s.lastPulledReq ∧
      RingInv conf (evs ++ [.issued s.cltPushPtr op]) (s.pushed conf op) p (a + 1) := by
  have hpull := h.ring.pull_lt
  have hst : s.stateAt s.cltPushPtr = .invalid := h.ring.push_free.mpr hn
  have hpush : s.cltPushPtr < conf.perSessionReqNum := by
    rw [h.ring.push_eq]
    exact slot_lt (by omega)
  have hcount : (s.pushed conf op).lastPushedReq = s.lastPushedReq + 1 := u64_of_lt hpushed
  have hlast : slot conf.perSessionReqNum s.wrkrPullPtr a = s.cltPushPtr := by
    rw [h.ring.wrkr_eq, slot_slot, h.ring.push_eq]
  refine ⟨rfl, ?_, ?_, ?_, ?_, ?_⟩
  · show Ring _ (s.setOp s.cltPushPtr op).stateAt _ _
      (modIncr16 s.cltPushPtr conf.perSessionReqNum) _ _
    rw [modIncr16_slot hN hpush, Session.stateAt_setOp, hop]
    exact h.ring.issue hn
  · rw [hcount, h.pushed]
    simp [issuedOps]
  · rw [hcount, h.pulled]
    rfl
  · have hpending := h.pending
    show issuedOps (evs ++ [_]) = filledOps (evs ++ [_]) ++
      (window _ s.wrkrPullPtr (a + 1)).map (Function.update s.reqArray s.cltPushPtr op)
    rw [window_succ, List.map_append, map_window_update, hlast, List.map_singleton,
      Function.update_self]
    · simp [issuedOps, filledOps] at hpending ⊢
      rw [hpending, List.append_assoc]
    · intro k hk
      rw [h.ring.wrkr_eq, slot_slot, h.ring.push_eq]
      exact slot_ne hpull (by omega) hn (by omega)
  · refine h.life_concat ((h.life _ hpush).concat _ ?_ ?_ ?_) ?_
    · simp [hst, hop, RingEvent.issuedAt, RingEvent.polledAt, ReqState.isIssued]
    · simp [hst, hop, RingEvent.filledAt, RingEvent.polledAt, ReqState.isFilled]
    · simp [hst, hop, RingEvent.completedAt, RingEvent.polledAt, ReqState.isCompleted]
    · intro i hi
      simp [RingEvent.issuedAt, RingEvent.filledAt, RingEvent.completedAt, RingEvent.polledAt,
        hi.symm]

theorem fill (h : RingInv conf evs s p a) (hN : conf.perSessionReqNum ≤ 2 ^ 16)
    (hst : s.stateAt s.wrkrPullPtr = .active) {op : ClientOp} (hop : op.state = .inProgress) :
    0 < a ∧ RingInv conf (evs ++ [.filled s.wrkrPullPtr (s.reqArray s.wrkrPullPtr)])
      (s.taken conf op) (p + 1) (a - 1) := by
  obtain ⟨ha, hring⟩ := h.ring.fill hst
  have hpull := h.ring.pull_lt
  have hfits := h.ring.fits
  have hwrkr : s.wrkrPullPtr < conf.perSessionReqNum := by
    rw [h.ring.wrkr_eq]
    exact slot_lt (by omega)
  refine ⟨ha, ?_, ?_, ?_, ?_, ?_⟩
  · show Ring _ (s.setOp s.wrkrPullPtr op).stateAt _
      (modIncr16 s.wrkrPullPtr conf.perSessionReqNum) _ _ _
    rw [modIncr16_slot hN hwrkr, Session.stateAt_setOp, hop]
    exact hring
  · show s.lastPushedReq = _
    simpa [issuedOps] using h.pushed
  · show s.lastPushedReq = s.lastPulledReq + (p + 1 + (a - 1))
    have hpulled := h.pulled
    omega
  · have hpending := h.pending
    have hwindow := window_cons (N := conf.perSessionReqNum) hwrkr (a - 1)
    rw [Nat.sub_add_cancel ha] at hwindow
    show issuedOps (evs ++ [_]) = filledOps (evs ++ [_]) ++
      (window _ (modIncr16 s.wrkrPullPtr conf.perSessionReqNum) (a - 1)).map
        (Function.update s.reqArray s.wrkrPullPtr op)
    rw [modIncr16_slot hN hwrkr, map_window_update]
    · rw [hwindow] at hpending
      simp [issuedOps, filledOps] at hpending ⊢
      exact hpending
    · intro k hk
      rw [slot_slot]
      have hne := slot_ne hwrkr (by omega : 1 + k < conf.perSessionReqNum)
        (by omega : 0 < conf.perSessionReqNum) (by omega)
      rwa [slot_zero hwrkr] at hne
  · refine h.life_concat ((h.life _ hwrkr).concat _ ?_ ?_ ?_) ?_
    · simp [hst, hop, RingEvent.issuedAt, RingEvent.polledAt, ReqState.isIssued]
    · simp [hst, hop, RingEvent.filledAt, RingEvent.polledAt, ReqState.isFilled]
    · simp [hst, hop, RingEvent.completedAt, RingEvent.polledAt, ReqState.isCompleted]
    · intro i hi
      simp [RingEvent.issuedAt, RingEvent.filledAt, RingEvent.completedAt, RingEvent.polledAt,
        hi.symm]

theorem complete (h : RingInv conf evs s p a) {i : Nat} (hi : i < conf.perSessionReqNum)
    (hst : s.stateAt i = .inProgress) :
    RingInv conf (evs ++ [.completed i]) (s.setState i .completed) p a := by
  refine ⟨?_, ?_, h.pulled, ?_, ?_⟩
  · unfold Session.setState
    rw [Session.stateAt_setOp]
    exact h.ring.complete hi hst
  · show s.lastPushedReq = _
    simpa [issuedOps] using h.pushed
  · have hpending := h.pending
    show issuedOps (evs ++ [_]) = filledOps (evs ++ [_]) ++
      (window _ s.wrkrPullPtr a).map (Function.update s.reqArray i _)
    rw [map_window_update]
    · simpa [issuedOps, filledOps] using hpending
    · intro k hk heq
      rw [h.ring.wrkr_eq, slot_slot] at heq
      have hactive := h.ring.active (p + k) (by omega) (by omega)
      rw [heq, hst] at hactive
      nomatch hactive
  · refine h.life_concat ((h.life _ hi).concat _ ?_ ?_ ?_) ?_
    · simp [hst, RingEvent.issuedAt, RingEvent.polledAt, ReqState.isIssued]
    · simp [hst, RingEvent.filledAt, RingEvent.polledAt, ReqState.isFilled]
    · simp [hst, RingEvent.completedAt, RingEvent.polledAt, ReqState.isCompleted]
    · intro j hj
      simp [RingEvent.issuedAt, RingEvent.filledAt, RingEvent.completedAt, RingEvent.polledAt,
        hj.symm]

end RingInv

/-! ## What the client knows -/

/-- What the stage of an access says, when `n` slots of the ring are taken. -/
def StageFits (N lastPulled n : Nat) : Option (AccessKind × AccessArgs × Stage) → Prop
  | some (_, _, .firstPoll) => n = N
  | some (_, _, .freeing largestPolled) => n = N ∧ largestPolled = lastPulled
  | some (_, _, .freed) => n < N
  | some (_, _, .issuing) => n < N
  | _ => True

/-- No slot is refilled before its previous request was completed and polled. -/
def RefillsInOrder (evs : List RingEvent) : Prop :=
  ∀ past i op rest, evs = past ++ .issued i op :: rest →
    past.countP (RingEvent.completedAt i) = past.countP (RingEvent.issuedAt i) ∧
      past.countP (RingEvent.polledAt i) = past.countP (RingEvent.issuedAt i)

theorem RefillsInOrder.concat {evs : List RingEvent} (h : RefillsInOrder evs) {e : RingEvent}
    (he : ∀ i op, e = .issued i op → Life .invalid i evs) : RefillsInOrder (evs ++ [e]) := by
  intro past i op rest heq
  rcases split_concat heq with ⟨rest', h'⟩ | ⟨hpast, he'⟩
  · exact h past i op rest' h'
  · subst hpast
    obtain ⟨hissued, -, hcompleted⟩ := he i op he'
    exact ⟨hcompleted.trans hissued.symm, hissued.symm⟩

/-- The invariant of the system. -/
structure ClientInv (conf : ClientConf) (evs : List RingEvent) (s : ClientState) : Prop where
  ring : ∃ p a, RingInv conf evs s.session p a ∧
    StageFits conf.perSessionReqNum s.session.lastPulledReq (p + a) s.client
  refills : RefillsInOrder evs

/-- A step that leaves the invariant, and after which an access that returned has an empty ring. -/
structure ClientStepped (conf : ClientConf) (evs : List RingEvent) (s' : ClientState)
    (new : List RingEvent) : Prop where
  inv : ClientInv conf (evs ++ new) s'
  returned : ∀ r, .returned true r ∈ new → 0 < r → s'.session.cltPushPtr = s'.session.cltPullPtr

section Steps

variable {conf : ClientConf} {evs new : List RingEvent} {s s' : ClientState} {t : Session}
  {p a : Nat} {client : Option (AccessKind × AccessArgs × Stage)}

/-- A step that does nothing to the session. -/
theorem ClientStepped.stay (hring : RingInv conf evs s.session p a) (hrefills : RefillsInOrder evs)
    (hfits : StageFits conf.perSessionReqNum s.session.lastPulledReq (p + a) client) :
    ClientStepped conf evs ⟨s.session, client⟩ [] := by
  refine ⟨?_, fun r hr => by nomatch hr⟩
  rw [List.append_nil]
  exact ⟨⟨p, a, hring, hfits⟩, hrefills⟩

/-- A call of `poll`, whatever the client does next. -/
theorem ClientStepped.poll (hN : conf.perSessionReqNum ≤ 2 ^ 16)
    (hring : RingInv conf evs s.session p a) (hrefills : RefillsInOrder evs)
    (hpushed : s.session.lastPushedReq < 2 ^ 64) {r : Nat}
    (h : s.session.poll conf = .ok (t, r, new))
    (hfits : ∀ n, p + a = n + (r - s.session.lastPulledReq) → s.session.lastPulledReq ≤ r →
      StageFits conf.perSessionReqNum r n client) :
    ClientStepped conf evs ⟨t, client⟩ new := by
  obtain ⟨hr, ⟨-, rfl, rfl⟩ | ⟨hcompleted, rfl, rfl⟩⟩ := poll_spec h
  · exact .stay hring hrefills (hr ▸ hfits (p + a) (by omega) (by omega))
  · obtain ⟨hp, hcount, hring'⟩ := hring.poll hN hpushed hcompleted
    refine ⟨⟨⟨p - 1, a, hring', ?_⟩, hrefills.concat (fun _ _ h => by nomatch h)⟩, ?_⟩
    · rw [← hr]
      exact hfits _ (by omega) (by omega)
    · intro r' hmem
      simp at hmem

/-- The client issues its request in a free slot, whatever it does next. -/
theorem ClientStepped.issue (hN : conf.perSessionReqNum ≤ 2 ^ 16)
    (hring : RingInv conf evs s.session p a) (hrefills : RefillsInOrder evs)
    (hfree : p + a < conf.perSessionReqNum) (hcount : (issuedOps (evs ++ new)).length < 2 ^ 64)
    {args : AccessArgs} (h : s.session.issue conf args = .ok (t, new))
    (hfits : ∀ n, StageFits conf.perSessionReqNum t.lastPulledReq n client) :
    ClientStepped conf evs ⟨t, client⟩ new := by
  obtain ⟨op, hop, rfl, rfl⟩ := issue_spec h
  have hpush : s.session.cltPushPtr < conf.perSessionReqNum := by
    rw [hring.ring.push_eq]
    exact slot_lt (by omega)
  have hlife := hring.life _ hpush
  rw [hring.ring.push_free.mpr hfree] at hlife
  have hbound : s.session.lastPushedReq + 1 < 2 ^ 64 := by
    rw [hring.pushed]
    simpa [issuedOps] using hcount
  obtain ⟨-, hring'⟩ := hring.issue hN hbound hfree hop
  refine ⟨⟨⟨p, a + 1, hring', hfits _⟩, hrefills.concat ?_⟩, by simp⟩
  intro i op' heq
  cases heq
  exact hlife

/-- After a step, the access returns. -/
theorem ClientStepped.andReturns (h : ClientStepped conf evs ⟨t, none⟩ new) (blocking : Bool)
    (r : Int) (hempty : blocking = true → t.cltPushPtr = t.cltPullPtr) :
    ClientStepped conf evs ⟨t, none⟩ (new ++ [.returned blocking r]) := by
  obtain ⟨⟨p, a, hring, hfits⟩, hrefills⟩ := h.inv
  refine ⟨?_, ?_⟩
  · rw [← List.append_assoc]
    exact ⟨⟨p, a, hring.returned .., hfits⟩, hrefills.concat (fun _ _ h => by nomatch h)⟩
  · intro r' hmem hpos
    rcases List.mem_append.mp hmem with hmem | hmem
    · exact h.returned r' hmem hpos
    · rw [List.mem_singleton] at hmem
      cases hmem
      exact hempty rfl

/-- The client starts an access. -/
theorem ClientInv.begin (h : ClientInv conf evs s) {kind : AccessKind} {args : AccessArgs}
    (hstep : s.begin conf kind args = .ok (s', new)) :
    ClientStepped conf evs s' new := by
  obtain ⟨⟨p, a, hring, hfits⟩, hrefills⟩ := h
  unfold ClientState.begin at hstep
  dsimp only at hstep
  split at hstep
  · rename_i hneg
    have hrejected : ∀ b r, r < 0 → ClientStepped conf evs s [.returned b r] := by
      intro b r hr
      refine ⟨⟨⟨p, a, hring.returned b r, hfits⟩, hrefills.concat (fun _ _ h => by nomatch h)⟩, ?_⟩
      intro r' hmem hpos
      simp at hmem
      omega
    cases kind with
    | blocking =>
      cases hstep
      exact hrejected _ _ hneg
    | async strong =>
      obtain ⟨-, -, hstep⟩ := bind_eq_ok.mp hstep
      cases hstep
      exact hrejected _ _ hneg
  · cases hstep
    exact .stay hring hrefills trivial

/-- The client goes on with its access. -/
theorem ClientInv.advance (hN : conf.perSessionReqNum ≤ 2 ^ 16) (h : ClientInv conf evs s)
    (hcount : (issuedOps (evs ++ new)).length < 2 ^ 64) {kind : AccessKind} {args : AccessArgs}
    {stage : Stage} (hclient : s.client = some (kind, args, stage))
    (hstep : s.advance conf kind args stage = .ok (s', new)) : ClientStepped conf evs s' new := by
  obtain ⟨⟨p, a, hring, hfits⟩, hrefills⟩ := h
  rw [hclient] at hfits
  have hle := hring.ring.fits
  have hpulled := hring.pulled
  have hpushed : s.session.lastPushedReq < 2 ^ 64 := by
    rw [hring.pushed]
    exact Nat.lt_of_le_of_lt (length_issuedOps_le evs new) hcount
  cases stage with
  | slotTest =>
    rw [ClientState.advance] at hstep
    split at hstep
    · rename_i hfree
      cases hstep
      exact .stay hring hrefills (hring.ring.push_free.mp hfree)
    · rename_i hbusy
      have hfull : p + a = conf.perSessionReqNum := by
        have hnot := mt hring.ring.push_free.mpr hbusy
        omega
      cases kind with
      | blocking =>
        cases hstep
        exact .stay hring hrefills hfull
      | async strong =>
        dsimp only at hstep
        obtain ⟨-, -, hstep⟩ := bind_eq_ok.mp hstep
        cases hstep
        exact .stay hring hrefills hfull
  | firstPoll =>
    obtain ⟨⟨t, r, evs'⟩, hpoll, hstep⟩ := bind_eq_ok.mp hstep
    cases hstep
    exact .poll hN hring hrefills hpushed hpoll (fun _ _ _ => trivial)
  | secondTest =>
    unfold ClientState.advance at hstep
    dsimp only at hstep
    split at hstep
    · rename_i hfree
      cases hstep
      exact .stay hring hrefills (hring.ring.push_free.mp hfree)
    · rename_i hbusy
      have hfull : p + a = conf.perSessionReqNum := by
        have hnot := mt hring.ring.push_free.mpr hbusy
        omega
      split at hstep
      · nomatch hstep
      · cases hstep
        exact .stay hring hrefills ⟨hfull, rfl⟩
      · cases hstep
        exact .stay hring hrefills ⟨hfull, rfl⟩
  | freeing largestPolled =>
    obtain ⟨⟨t, r, evs'⟩, hpoll, hstep⟩ := bind_eq_ok.mp hstep
    obtain ⟨hfull, rfl⟩ : p + a = conf.perSessionReqNum ∧ largestPolled = s.session.lastPulledReq :=
      hfits
    dsimp only at hstep
    split at hstep
    · rename_i hmore
      cases hstep
      refine .poll hN hring hrefills hpushed hpoll ?_
      rw [hclient]
      intro n hn hr
      exact ⟨by omega, by omega⟩
    · rename_i hdone
      cases hstep
      -- one request was polled, so one slot is free
      exact .poll hN hring hrefills hpushed hpoll (fun n hn hr => by
        show n < _
        omega)
  | freed =>
    have hfree : p + a < conf.perSessionReqNum := hfits
    cases kind with
    | blocking =>
      rw [ClientState.advance] at hstep
      dsimp only at hstep
      rw [if_neg] at hstep
      · cases hstep
        exact .stay hring hrefills hfree
      · simpa using hring.ring.push_free.mpr hfree
    | async strong =>
      unfold ClientState.advance at hstep
      dsimp only at hstep
      obtain ⟨-, -, hstep⟩ := bind_eq_ok.mp hstep
      cases hstep
      exact .stay hring hrefills hfree
  | issuing =>
    have hfree : p + a < conf.perSessionReqNum := hfits
    cases kind with
    | blocking =>
      unfold ClientState.advance at hstep
      dsimp only at hstep
      obtain ⟨⟨t, evs'⟩, hissue, hstep⟩ := bind_eq_ok.mp hstep
      cases hstep
      exact .issue hN hring hrefills hfree hcount hissue (fun _ => trivial)
    | async strong =>
      unfold ClientState.advance at hstep
      dsimp only at hstep
      obtain ⟨-, -, hstep⟩ := bind_eq_ok.mp hstep
      obtain ⟨⟨t, evs'⟩, hissue, hstep⟩ := bind_eq_ok.mp hstep
      cases hstep
      have hcount' : (issuedOps (evs ++ evs')).length < 2 ^ 64 := by
        simpa [issuedOps] using hcount
      have hissued : ClientStepped conf evs ⟨t, none⟩ evs' :=
        .issue hN hring hrefills hfree hcount' hissue (fun _ => trivial)
      exact hissued.andReturns _ _ (fun h => by nomatch h)
  | awaiting =>
    obtain ⟨⟨t, r, evs'⟩, hpoll, hstep⟩ := bind_eq_ok.mp hstep
    dsimp only at hstep
    split at hstep
    · cases hstep
      refine .poll hN hring hrefills hpushed hpoll ?_
      rw [hclient]
      exact fun _ _ _ => trivial
    · rename_i hdone
      obtain ⟨-, -, hstep⟩ := bind_eq_ok.mp hstep
      cases hstep
      have hpolled : ClientStepped conf evs ⟨t, none⟩ evs' :=
        .poll hN hring hrefills hpushed hpoll (fun _ _ _ => trivial)
      -- as many requests were pulled as pushed, so the ring is empty
      refine hpolled.andReturns _ _ (fun _ => ?_)
      obtain ⟨⟨p', a', hring', -⟩, -⟩ := hpolled.inv
      obtain ⟨hr, -⟩ := poll_spec hpoll
      have hpulled' := hring'.pulled
      dsimp only at hpulled'
      have hzero : p' + a' = 0 := by omega
      have hpush := hring'.ring.push_eq
      rw [hzero, slot_zero hring'.ring.pull_lt] at hpush
      exact hpush

/-- **One step**, of the client or of the worker. -/
theorem ClientInv.step (hN : conf.perSessionReqNum ≤ 2 ^ 16) (h : ClientInv conf evs s)
    (hcount : (issuedOps (evs ++ new)).length < 2 ^ 64) {k : ClientCmd}
    (hstep : clientStep conf s k = .ok (s', new)) : ClientStepped conf evs s' new := by
  have hinv := h
  obtain ⟨⟨p, a, hring, hfits⟩, hrefills⟩ := h
  have hpushed : s.session.lastPushedReq < 2 ^ 64 := by
    rw [hring.pushed]
    exact Nat.lt_of_le_of_lt (length_issuedOps_le evs new) hcount
  cases k with
  | access kind args =>
    rw [clientStep] at hstep
    split at hstep
    · exact hinv.begin hstep
    · nomatch hstep
  | advance =>
    rw [clientStep] at hstep
    split at hstep
    · nomatch hstep
    · rename_i hclient
      exact hinv.advance hN hcount hclient hstep
  | poll =>
    rw [clientStep] at hstep
    split at hstep
    · rename_i hclient
      obtain ⟨⟨t, r, evs'⟩, hpoll, hstep⟩ := bind_eq_ok.mp hstep
      cases hstep
      refine .poll hN hring hrefills hpushed hpoll ?_
      rw [hclient]
      exact fun _ _ _ => trivial
    · nomatch hstep
  | fill workingSession =>
    rw [clientStep] at hstep
    split at hstep
    · rename_i hactive
      obtain ⟨⟨t, op, evs'⟩, hfill, hstep⟩ := bind_eq_ok.mp hstep
      cases hstep
      obtain ⟨clOp, hstate, rfl, rfl⟩ := odFillTraceOp_spec hfill
      obtain ⟨ha, hring'⟩ := hring.fill hN (by simpa [Session.isClientReqActive] using hactive) hstate
      refine ⟨⟨⟨p + 1, a - 1, hring', ?_⟩, hrefills.concat (fun _ _ h => by nomatch h)⟩, by simp⟩
      have hsum : p + 1 + (a - 1) = p + a := by omega
      rw [hsum]
      exact hfits
    · nomatch hstep
  | complete i =>
    rw [clientStep] at hstep
    split at hstep
    · rename_i hi
      obtain ⟨⟨t, evs'⟩, hcomplete, hstep⟩ := bind_eq_ok.mp hstep
      cases hstep
      obtain ⟨rfl, rfl⟩ := signalCompletionToClient_spec hcomplete
      exact ⟨⟨⟨p, a, hring.complete hi.1 hi.2, hfits⟩,
        hrefills.concat (fun _ _ h => by nomatch h)⟩, by simp⟩
    · nomatch hstep

end Steps

/-! ## Runs -/

/-- What has happened at a session, oldest first. -/
abbrev ClientTrace := List (ClientCmd × List RingEvent)

def events (tr : ClientTrace) : List RingEvent := tr.flatMap Prod.snd

theorem events_concat (tr : ClientTrace) (k : ClientCmd) (new : List RingEvent) :
    events (tr ++ [(k, new)]) = events tr ++ new := by
  simp [events]

theorem ClientInv.start (conf : ClientConf) (ops : Nat → ClientOp)
    (hpos : 0 < conf.perSessionReqNum) : ClientInv conf [] (.start ops) := by
  refine ⟨⟨0, 0, ⟨⟨hpos, by omega, (slot_zero hpos).symm, (slot_zero hpos).symm, ?_, ?_, ?_⟩, rfl,
    rfl, rfl, ?_⟩, trivial⟩, ?_⟩
  · intro k hk
    exact absurd hk (Nat.not_lt_zero k)
  · intro k _ hk
    exact absurd hk (Nat.not_lt_zero k)
  · intro k _ _
    rfl
  · exact fun i _ => ⟨rfl, rfl, rfl⟩
  · intro past i op rest h
    simp at h

/-- **The invariant holds in every run** of fewer than `2 ^ 64` requests. -/
theorem client_run {conf : ClientConf} (hpos : 0 < conf.perSessionReqNum)
    (hN : conf.perSessionReqNum ≤ 2 ^ 16) {ops : Nat → ClientOp} {tr : ClientTrace}
    {s : ClientState} (hrun : Run (clientStep conf) (.start ops) tr s)
    (hcount : (issuedOps (events tr)).length < 2 ^ 64) : ClientInv conf (events tr) s := by
  refine hrun.invariant (fun tr s => (issuedOps (events tr)).length < 2 ^ 64 →
    ClientInv conf (events tr) s) (fun _ => .start conf ops hpos) ?_ hcount
  intro tr s k s' new _ ih hstep hcount
  rw [events_concat] at hcount ⊢
  exact ((ih (Nat.lt_of_le_of_lt (length_issuedOps_le ..) hcount)).step hN hcount hstep).inv

/-! ## The result -/

/-- What the ring promises in a state: its shape, how its counters and its history agree with the
    shape, and that one blocking poll frees the slot. -/
structure RingCorrect (N : Nat) (evs : List RingEvent) (s : ClientState) : Prop where
  shape : ∃ p a,
    Ring N s.session.stateAt s.session.cltPullPtr s.session.wrkrPullPtr s.session.cltPushPtr p a ∧
    sub64 s.session.lastPushedReq s.session.lastPulledReq = p + a ∧
    (List.range N).countP (fun i => s.session.stateAt i != .invalid) = p + a ∧
    issuedOps evs = filledOps evs ++ (window N s.session.wrkrPullPtr a).map s.session.reqArray
  refills : RefillsInOrder evs
  freed : ∀ kind args, s.client = some (kind, args, .freed) →
    s.session.stateAt s.session.cltPushPtr = .invalid

/-- The slots that are not free are the first `p + a` of the ring. -/
theorem Ring.countP {N pull wrkr push p a : Nat} {st : Nat → ReqState}
    (h : Ring N st pull wrkr push p a) :
    (List.range N).countP (fun i => st i != .invalid) = p + a := by
  apply countP_range_of_window h.pull_lt h.fits
  intro k hk
  by_cases hp : k < p
  · have hlt : k < p + a := by omega
    rw [decide_eq_true hlt]
    rcases h.held k hp with hst | hst <;> rw [hst] <;> rfl
  · by_cases ha : k < p + a
    · rw [h.active k (by omega) ha, decide_eq_true ha]
      rfl
    · rw [h.free k (by omega) hk, decide_eq_false ha]
      rfl

theorem ClientInv.correct {conf : ClientConf} {evs : List RingEvent} {s : ClientState}
    (h : ClientInv conf evs s) (hcount : (issuedOps evs).length < 2 ^ 64) :
    RingCorrect conf.perSessionReqNum evs s := by
  obtain ⟨⟨p, a, hring, hfits⟩, hrefills⟩ := h
  refine ⟨⟨p, a, hring.ring, ?_, hring.ring.countP, hring.pending⟩, hrefills, ?_⟩
  · have hpulled := hring.pulled
    have hpushed := hring.pushed
    rw [sub64_of_le (by omega) (by omega)]
    omega
  · intro kind args hclient
    rw [hclient] at hfits
    exact hring.ring.push_free.mpr hfits

/-- **The ring is correct in every interleaving**, and empty when an `access_blocking` that issued
    its request returns. -/
theorem clientRing_correct {conf : ClientConf} (hpos : 1 ≤ conf.perSessionReqNum)
    (hN : conf.perSessionReqNum ≤ 2 ^ 16) {ops : Nat → ClientOp} {tr : ClientTrace}
    {s : ClientState} (hrun : Run (clientStep conf) (.start ops) tr s)
    (hcount : (issuedOps (events tr)).length < 2 ^ 64) :
    RingCorrect conf.perSessionReqNum (events tr) s ∧
    ∀ past k new rest r, tr = past ++ (k, new) :: rest → .returned true r ∈ new → 0 < r →
      ∃ s₁, Run (clientStep conf) (.start ops) (past ++ [(k, new)]) s₁ ∧
        s₁.session.cltPushPtr = s₁.session.cltPullPtr := by
  refine ⟨(client_run hpos hN hrun hcount).correct hcount, ?_⟩
  rintro past k new rest r rfl hmem hr
  obtain ⟨s₀, s₁, hpast, hstep⟩ := hrun.split_step
  have hsplit : events (past ++ (k, new) :: rest) = events past ++ new ++ events rest := by
    simp [events]
  rw [hsplit] at hcount
  have hcount' := Nat.lt_of_le_of_lt (length_issuedOps_le (events past ++ new) _) hcount
  have hpast' := Nat.lt_of_le_of_lt (length_issuedOps_le (events past) new) hcount'
  exact ⟨s₁, hpast.snoc hstep,
    ((client_run hpos hN hpast hpast').step hN hcount' hstep).returned r hmem hr⟩

/-- A session with `n` slots, and a read of key 0. -/
def sessionConf (n : Nat) : ClientConf where
  perSessionReqNum := n
  sessionsPerMachine := 1
  kvsNumKeys := 1
  valueSize := 32
  shiftBits := 0
  enableAssertions := false
  cityHash := fun _ => 0

def readKeyZero : AccessArgs where
  keyId := 0
  valueToRead := some 0
  valueToWrite := none
  valLen := 1
  casResult := none
  rmwIsWeak := false
  sessionId := 0
  type := .rlxdRead

def freeOp : ClientOp := ⟨.invalid, 0, 0, none, ⟨0, 0, 0⟩, none, fun _ => 0⟩

/-- A ring of two slots: a blocking read finds it full, frees a slot, and returns. -/
theorem clientRing_correct_two : ∃ tr s,
    tr = tr.dropLast ++ [(.advance, [.polled 0, .returned true 1])] ∧
    RingCorrect 2 (events tr) s ∧
    ∀ past k new rest r, tr = past ++ (k, new) :: rest → .returned true r ∈ new → 0 < r →
      ∃ s₁, Run (clientStep (sessionConf 2)) (.start fun _ => freeOp) (past ++ [(k, new)]) s₁ ∧
        s₁.session.cltPushPtr = s₁.session.cltPullPtr := by
  obtain ⟨tr, s, hexec, hlast, hcount⟩ : ∃ tr s,
      exec (clientStep (sessionConf 2)) (.start fun _ => freeOp)
        [.access (.async false) readKeyZero, .advance, .advance,
         .access (.async false) readKeyZero, .advance, .advance, .fill 0,
         .access .blocking readKeyZero, .advance, .advance, .advance, .fill 0, .complete 1,
         .advance, .complete 0, .advance, .advance, .advance, .advance, .fill 0, .complete 0,
         .advance] = .ok (tr, s) ∧
      tr = tr.dropLast ++ [(.advance, [.polled 0, .returned true 1])] ∧
      (issuedOps (events tr)).length = 3 := ⟨_, _, rfl, rfl, rfl⟩
  exact ⟨tr, s, hlast, clientRing_correct (by decide) (by decide) (run_of_exec hexec)
    (by rw [hcount]; decide)⟩

/-! ## A ring that is too large -/

/-- The request in a slot after a read of key 0 was issued there. -/
def activeOp : ClientOp := ⟨.active, kvsOpGet, 1, none, .ofHash 0, some 0, fun _ => 0⟩

/-- A session after `k` reads and nothing else. -/
def manyPushed (k : Nat) : Session where
  reqArray := fun i => if i < k then activeOp else freeOp
  cltPushPtr := k % 2 ^ 16
  cltPullPtr := 0
  wrkrPullPtr := 0
  lastPushedReq := k
  lastPulledReq := 0

theorem manyPushed_next (k : Nat) : (manyPushed k).reqArray k = freeOp := if_neg (Nat.lt_irrefl k)

theorem issue_manyPushed {k : Nat} (hk : k < 2 ^ 16) :
    (manyPushed k).issue (sessionConf (2 ^ 16 + 1)) readKeyZero =
      .ok (manyPushed (k + 1), [.issued k activeOp]) := by
  have hpush : k % 2 ^ 16 = k := Nat.mod_eq_of_lt hk
  have hfill : fillClientOp (sessionConf (2 ^ 16 + 1)) freeOp readKeyZero =
      .ok { activeOp with state := .invalid } := rfl
  have harray : Function.update (manyPushed k).reqArray k activeOp =
      (manyPushed (k + 1)).reqArray := by
    funext i
    by_cases hi : i = k
    · rw [hi, Function.update_self]
      exact (if_pos (Nat.lt_succ_self k)).symm
    · rw [Function.update_of_ne hi]
      unfold manyPushed
      by_cases hlt : i < k
      · simp only [if_pos hlt, if_pos (Nat.lt_succ_of_lt hlt)]
      · simp only [if_neg hlt, if_neg (show ¬ i < k + 1 by omega)]
  have hincr : modIncr16 k (2 ^ 16 + 1) = (k + 1) % 2 ^ 16 := by
    unfold modIncr16
    have hlt : u16 (k + 1) < 2 ^ 16 := Nat.mod_lt _ (by decide)
    rw [if_neg (by omega)]
    rfl
  have hcount : u64 (k + 1) = k + 1 := u64_of_lt (by omega)
  have hptr : (manyPushed k).cltPushPtr = k := hpush
  unfold Session.issue
  rw [hptr]
  dsimp only
  rw [manyPushed_next, hfill, ok_bind]
  refine congrArg Except.ok (Prod.ext ?_ rfl)
  show Session.mk (Function.update (manyPushed k).reqArray k activeOp)
    (modIncr16 (k % 2 ^ 16) (2 ^ 16 + 1)) 0 0 (u64 (k + 1)) 0 =
      Session.mk (manyPushed (k + 1)).reqArray ((k + 1) % 2 ^ 16) 0 0 (k + 1) 0
  rw [harray, hpush, hincr, hcount]

/-- One more read is issued, in three steps. -/
theorem run_manyPushed {k : Nat} (hk : k < 2 ^ 16) :
    Run (clientStep (sessionConf (2 ^ 16 + 1))) ⟨manyPushed k, none⟩
      [(.access (.async false) readKeyZero, []), (.advance, []),
       (.advance, [.issued k activeOp, .returned false (toInt (k + 1))])]
      ⟨manyPushed (k + 1), none⟩ := by
  have hfree : (manyPushed k).stateAt (k % 2 ^ 16) = .invalid := by
    unfold Session.stateAt
    rw [Nat.mod_eq_of_lt hk, manyPushed_next]
    rfl
  have hcall : clientStep (sessionConf (2 ^ 16 + 1)) ⟨manyPushed k, none⟩
      (.access (.async false) readKeyZero) =
      .ok (⟨manyPushed k, some (.async false, readKeyZero, .slotTest)⟩, []) := rfl
  have htest : clientStep (sessionConf (2 ^ 16 + 1))
      ⟨manyPushed k, some (.async false, readKeyZero, .slotTest)⟩ .advance =
      .ok (⟨manyPushed k, some (.async false, readKeyZero, .issuing)⟩, []) := if_pos hfree
  have hissue : clientStep (sessionConf (2 ^ 16 + 1))
      ⟨manyPushed k, some (.async false, readKeyZero, .issuing)⟩ .advance =
      .ok (⟨manyPushed (k + 1), none⟩, [.issued k activeOp, .returned false (toInt (k + 1))]) := by
    have hcheck : ∀ b, (sessionConf (2 ^ 16 + 1)).check b = .ok () := fun _ => rfl
    unfold clientStep
    dsimp only
    unfold ClientState.advance
    dsimp only
    rw [hcheck, ok_bind, issue_manyPushed hk]
    rfl
  exact ((Run.start.snoc hcall).snoc htest).snoc hissue

theorem run_many : ∀ k ≤ 2 ^ 16, ∃ tr, Run (clientStep (sessionConf (2 ^ 16 + 1)))
    (.start fun _ => freeOp) tr ⟨manyPushed k, none⟩ ∧ (issuedOps (events tr)).length = k := by
  intro k
  induction k with
  | zero => exact fun _ => ⟨[], .start, rfl⟩
  | succ k ih =>
    intro hk
    obtain ⟨tr, hrun, hlen⟩ := ih (by omega)
    refine ⟨_, hrun.trans (run_manyPushed (by omega)), ?_⟩
    simp [issuedOps, events] at hlen ⊢
    exact hlen

/-- **A ring of `2 ^ 16 + 1` slots** is not walked around: after `2 ^ 16` reads the push pointer is
    back at the pull pointer, with one slot free. -/
theorem ring_too_large : ∃ tr s, Run (clientStep (sessionConf (2 ^ 16 + 1)))
    (.start fun _ => freeOp) tr s ∧ (issuedOps (events tr)).length = 2 ^ 16 ∧
    ¬ RingCorrect (2 ^ 16 + 1) (events tr) s := by
  obtain ⟨tr, hrun, hlen⟩ := run_many (2 ^ 16) (Nat.le_refl _)
  refine ⟨tr, _, hrun, hlen, ?_⟩
  rintro ⟨⟨p, a, hring, -, -, -⟩, -, -⟩
  have hfirst : (manyPushed (2 ^ 16)).stateAt 0 = .active := rfl
  have hlast : (manyPushed (2 ^ 16)).stateAt (2 ^ 16) = .invalid := rfl
  have hend : slot (2 ^ 16 + 1) 0 (2 ^ 16) = 2 ^ 16 := by decide
  have hpush : 0 = slot (2 ^ 16 + 1) 0 (p + a) := hring.push_eq
  have hfits := hring.fits
  rw [slot_eq (by decide) hfits, Nat.zero_add] at hpush
  by_cases hsome : p + a < 2 ^ 16 + 1
  · -- the pointers say the ring is empty, but slot 0 is active
    rw [if_pos hsome] at hpush
    have hfree := hring.free 0 (by omega) (by decide)
    have hfree' : (manyPushed (2 ^ 16)).stateAt 0 = .invalid := hfree
    rw [hfirst] at hfree'
    nomatch hfree'
  · -- the pointers say the ring is full, but the last slot is free
    by_cases hp : 2 ^ 16 < p
    · have hheld := hring.held (2 ^ 16) hp
      dsimp only [manyPushed] at hheld
      rw [hend] at hheld
      rcases hheld with h | h
      · exact absurd (hlast.symm.trans h) (by decide)
      · exact absurd (hlast.symm.trans h) (by decide)
    · have hactive := hring.active (2 ^ 16) (by omega) (by omega)
      dsimp only [manyPushed] at hactive
      rw [hend] at hactive
      exact absurd (hlast.symm.trans hactive) (by decide)

/-! ## A counter that wraps -/

/-- A session of two slots with all of its `k` reads polled, and its pointers at slot `i`. -/
def allPolled (i k : Nat) : Session where
  reqArray := fun _ => { activeOp with state := .invalid }
  cltPushPtr := i
  cltPullPtr := i
  wrkrPullPtr := i
  lastPushedReq := k
  lastPulledReq := k

/-- The commands of a read that is issued in slot `i`, picked up, completed and polled. -/
def wholeRead (i : Nat) : List ClientCmd :=
  [.access (.async false) readKeyZero, .advance, .advance, .fill 0, .complete i, .poll]

/-- Without assertions, the check of the neighbours passes. -/
theorem check_sessionConf (n : Nat) (s : Session) (i : Nat) :
    s.checkClientReqStateWhenFillingOp (sessionConf n) i = .ok () := by
  unfold Session.checkClientReqStateWhenFillingOp
  dsimp only
  split
  · rfl
  · rfl

theorem run_allPolled {i : Nat} (hi : i < 2) (k : Nat) : ∃ tr,
    Run (clientStep (sessionConf 2)) ⟨allPolled i k, none⟩ tr
      ⟨allPolled (1 - i) (u64 (k + 1)), none⟩ ∧ (issuedOps (events tr)).length = 1 := by
  have hsame (f : Nat → ClientOp) (op₁ op₂ op₃ op₄ : ClientOp) (h : op₄ = f i) :
      Function.update (Function.update (Function.update (Function.update f i op₁) i op₂) i op₃) i
        op₄ = f := by
    rw [h, Function.update_idem, Function.update_idem, Function.update_idem, Function.update_eq_self]
  obtain ⟨tr, s, hexec, hs, hlen⟩ : ∃ tr s,
      exec (clientStep (sessionConf 2)) ⟨allPolled i k, none⟩ (wholeRead i) = .ok (tr, s) ∧
      s = ⟨allPolled (1 - i) (u64 (k + 1)), none⟩ ∧ (issuedOps (events tr)).length = 1 := by
    unfold wholeRead clientStep Session.odFillTraceOp Session.createInputsOfOp
    simp only [check_sessionConf]
    rcases (show i = 0 ∨ i = 1 by omega) with rfl | rfl
    · exact ⟨_, _, rfl, congrArg (ClientState.mk · none)
        (congrArg (Session.mk · 1 1 1 _ _) (hsame _ _ _ _ _ rfl)), rfl⟩
    · exact ⟨_, _, rfl, congrArg (ClientState.mk · none)
        (congrArg (Session.mk · 0 0 0 _ _) (hsame _ _ _ _ _ rfl)), rfl⟩
  exact ⟨tr, hs ▸ run_of_exec hexec, hlen⟩

theorem run_many_polled : ∀ k < 2 ^ 64, ∃ tr, Run (clientStep (sessionConf 2))
    (.start fun _ => activeOp) tr ⟨allPolled (k % 2) k, none⟩ ∧
    (issuedOps (events tr)).length = k := by
  intro k
  induction k with
  | zero => exact fun _ => ⟨[], .start, rfl⟩
  | succ k ih =>
    intro hk
    obtain ⟨past, hpast, hlen⟩ := ih (by omega)
    obtain ⟨tr, hrun, hone⟩ := run_allPolled (Nat.mod_lt k (by decide)) k
    rw [u64_of_lt hk, show 1 - k % 2 = (k + 1) % 2 by omega] at hrun
    refine ⟨_, hpast.trans hrun, ?_⟩
    simp [issuedOps, events] at hlen hone ⊢
    omega

/-- **A read that is not waited for**: the counter of pushed requests is back at 0, so the blocking
    read returns without a poll, with its request `ACTIVE` and the ring not empty. -/
theorem counter_wraps : ∃ past new s, Run (clientStep (sessionConf 2))
    (.start fun _ => activeOp) (past ++ [(.advance, new)]) s ∧ .returned true 1 ∈ new ∧
    s.session.cltPushPtr ≠ s.session.cltPullPtr := by
  obtain ⟨past, hpast, -⟩ := run_many_polled (2 ^ 64 - 1) (by decide)
  obtain ⟨tr, s, hexec, hptrs⟩ : ∃ tr s,
      exec (clientStep (sessionConf 2)) ⟨allPolled 1 (2 ^ 64 - 1), none⟩
        [.access .blocking readKeyZero, .advance, .advance, .advance] =
          .ok (tr ++ [(.advance, [.returned true 1])], s) ∧
      s.session.cltPushPtr ≠ s.session.cltPullPtr :=
    ⟨[_, _, _], _, rfl, by decide⟩
  refine ⟨past ++ tr, [.returned true 1], s, ?_, .head _, hptrs⟩
  rw [List.append_assoc]
  exact hpast.trans (run_of_exec hexec)

/-- Both limits are needed: of the ring, and of the requests counted. -/
theorem clientRing_limits :
    (∃ tr s, Run (clientStep (sessionConf (2 ^ 16 + 1))) (.start fun _ => freeOp) tr s ∧
      (issuedOps (events tr)).length = 2 ^ 16 ∧ ¬ RingCorrect (2 ^ 16 + 1) (events tr) s) ∧
    ∃ past new s, Run (clientStep (sessionConf 2)) (.start fun _ => activeOp)
      (past ++ [(.advance, new)]) s ∧ .returned true 1 ∈ new ∧
      s.session.cltPushPtr ≠ s.session.cltPullPtr :=
  ⟨ring_too_large, counter_wraps⟩

end Odyssey
