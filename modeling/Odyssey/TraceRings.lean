/-
  THE RING OF A SESSION THAT A TRACE IS FED TO.

  The clients that replay a trace do not count their requests, so the invariant of a session
  (`RingInv`) is kept here without the counters (`Fed`), and the moves are their own: a client gives
  a slot back (`Session.gaveBack`), or puts a request into one (`Session.given`).

  A client does not see what a worker does to a slot that is taken, but for its state
  (`Session.Same`).
-/
import Odyssey.TraceClient

namespace Odyssey

open Lib

/-! ## The ring of a session -/

namespace Session

variable (conf : ClientConf) (s : Session)

/-- The slot at the pull pointer is free again. -/
def gaveBack : Session :=
  { s.setState s.cltPullPtr .invalid with
    cltPullPtr := modIncr16 s.cltPullPtr conf.perSessionReqNum }

/-- A request is put at the push pointer. -/
def given (op : ClientOp) : Session :=
  { s.setOp s.cltPushPtr op with
    cltPushPtr := modIncr16 s.cltPushPtr conf.perSessionReqNum }

/-- Nothing has changed that the client of the session looks at. -/
structure Same (s s' : Session) : Prop where
  pull : s'.cltPullPtr = s.cltPullPtr
  push : s'.cltPushPtr = s.cltPushPtr
  free : ∀ i, s'.stateAt i = .invalid ↔ s.stateAt i = .invalid
  fields : ∀ i, (s'.reqArray i).valLen = (s.reqArray i).valLen ∧
    (s'.reqArray i).valueToRead = (s.reqArray i).valueToRead ∧
    (s'.reqArray i).rmwIsSuccessful = (s.reqArray i).rmwIsSuccessful

theorem Same.refl (s : Session) : Same s s :=
  ⟨rfl, rfl, fun _ => Iff.rfl, fun _ => ⟨rfl, rfl, rfl⟩⟩

/-- A slot that was taken, and is, has changed. -/
theorem same_setOp {s : Session} {i : Nat} {op : ClientOp} (hst : s.stateAt i ≠ .invalid)
    (hop : op.state ≠ .invalid) (hfields : op.valLen = (s.reqArray i).valLen ∧
      op.valueToRead = (s.reqArray i).valueToRead ∧
      op.rmwIsSuccessful = (s.reqArray i).rmwIsSuccessful) : Same s (s.setOp i op) := by
  refine ⟨rfl, rfl, fun j => ?_, fun j => ?_⟩
  · rw [stateAt_setOp]
    by_cases hj : j = i
    · rw [hj, Function.update_self]
      exact ⟨fun hc => absurd hc hop, fun hc => absurd hc hst⟩
    · rw [Function.update_of_ne hj]
  · show (Function.update s.reqArray i op j).valLen = _ ∧ _
    by_cases hj : j = i
    · subst hj
      simpa only [setOp, Function.update_self] using hfields
    · simp only [setOp, Function.update_of_ne hj, and_self]

end Session

/-- The invariant of a session that a trace is fed to: `p` of its requests are picked up, and `a`
    are active. -/
structure Fed (conf : ClientConf) (evs : List RingEvent) (s : Session) (p a : Nat) : Prop where
  ring : Ring conf.perSessionReqNum s.stateAt s.cltPullPtr s.wrkrPullPtr s.cltPushPtr p a
  /-- the requests that are not picked up are in the slots that are active -/
  pending : issuedOps evs =
    filledOps evs ++ (window conf.perSessionReqNum s.wrkrPullPtr a).map s.reqArray
  life : ∀ i < conf.perSessionReqNum, Life (s.stateAt i) i evs
  refills : RefillsInOrder evs

namespace Fed

variable {conf : ClientConf} {evs : List RingEvent} {s : Session} {p a : Nat}

/-- One slot goes on with its life. -/
theorem life_setOp (h : Fed conf evs s p a) {j : Nat} {op : ClientOp} {e : RingEvent}
    (hj : j < conf.perSessionReqNum → Life op.state j (evs ++ [e]))
    (hother : ∀ i, i ≠ j → e.issuedAt i = false ∧ e.filledAt i = false ∧
      e.completedAt i = false ∧ e.polledAt i = false) :
    ∀ i < conf.perSessionReqNum, Life ((s.setOp j op).stateAt i) i (evs ++ [e]) := by
  intro i hi
  rw [Session.stateAt_setOp]
  by_cases hij : i = j
  · subst hij
    rw [Function.update_self]
    exact hj hi
  · rw [Function.update_of_ne hij]
    obtain ⟨h₁, h₂, h₃, h₄⟩ := hother i hij
    apply (h.life i hi).concat <;> simp [h₁, h₂, h₃, h₄]

theorem push_lt (h : Fed conf evs s p a) : s.cltPushPtr < conf.perSessionReqNum := by
  rw [h.ring.push_eq]
  exact slot_lt (Nat.lt_of_le_of_lt (Nat.zero_le _) h.ring.pull_lt)

theorem wrkr_lt (h : Fed conf evs s p a) : s.wrkrPullPtr < conf.perSessionReqNum := by
  rw [h.ring.wrkr_eq]
  exact slot_lt (Nat.lt_of_le_of_lt (Nat.zero_le _) h.ring.pull_lt)

/-- **The client polls.** -/
theorem poll (h : Fed conf evs s p a) (hN : conf.perSessionReqNum ≤ 2 ^ 16)
    (hst : s.stateAt s.cltPullPtr = .completed) :
    Fed conf (evs ++ [.polled s.cltPullPtr]) (s.gaveBack conf) (p - 1) a := by
  obtain ⟨hp, hring⟩ := h.ring.poll hst
  have hpull := h.ring.pull_lt
  have hfits := h.ring.fits
  refine ⟨?_, ?_, ?_, h.refills.concat fun i op hc => by cases hc⟩
  · show Ring _ (s.setState s.cltPullPtr .invalid).stateAt
      (modIncr16 s.cltPullPtr conf.perSessionReqNum) _ _ _ _
    unfold Session.setState
    rw [modIncr16_slot hN hpull, Session.stateAt_setOp]
    exact hring
  · have hpending := h.pending
    show issuedOps (evs ++ [_]) = filledOps (evs ++ [_]) ++
      (window _ s.wrkrPullPtr a).map (Function.update s.reqArray s.cltPullPtr _)
    rw [map_window_update]
    · simpa [issuedOps, filledOps] using hpending
    · intro k hk
      rw [h.ring.wrkr_eq, slot_slot]
      have hne := slot_ne hpull (by omega : p + k < conf.perSessionReqNum)
        (by omega : 0 < conf.perSessionReqNum) (by omega)
      rwa [slot_zero hpull] at hne
  · refine h.life_setOp (fun _ => (h.life _ hpull).concat _ ?_ ?_ ?_) ?_
    · simp [hst, RingEvent.issuedAt, RingEvent.polledAt, ReqState.isIssued]
    · simp [hst, RingEvent.filledAt, RingEvent.polledAt, ReqState.isFilled]
    · simp [hst, RingEvent.completedAt, RingEvent.polledAt, ReqState.isCompleted]
    · intro i hi
      simp [RingEvent.issuedAt, RingEvent.filledAt, RingEvent.completedAt, RingEvent.polledAt,
        hi.symm]

/-- **The client issues a request.** -/
theorem issue (h : Fed conf evs s p a) (hN : conf.perSessionReqNum ≤ 2 ^ 16)
    (hst : s.stateAt s.cltPushPtr = .invalid) {op : ClientOp} (hop : op.state = .active) :
    Fed conf (evs ++ [.issued s.cltPushPtr op]) (s.given conf op) p (a + 1) := by
  have hpull := h.ring.pull_lt
  have hn := h.ring.push_free.mp hst
  have hpush := h.push_lt
  have hlast : slot conf.perSessionReqNum s.wrkrPullPtr a = s.cltPushPtr := by
    rw [h.ring.wrkr_eq, slot_slot, h.ring.push_eq]
  refine ⟨?_, ?_, ?_, h.refills.concat fun i op' hc => ?_⟩
  · show Ring _ (s.setOp s.cltPushPtr op).stateAt _ _
      (modIncr16 s.cltPushPtr conf.perSessionReqNum) _ _
    rw [modIncr16_slot hN hpush, Session.stateAt_setOp, hop]
    exact h.ring.issue hn
  · have hpending := h.pending
    show issuedOps (evs ++ [_]) = filledOps (evs ++ [_]) ++
      (window _ s.wrkrPullPtr (a + 1)).map (Function.update s.reqArray s.cltPushPtr op)
    rw [window_succ, List.map_append, map_window_update, hlast, List.map_singleton,
      Function.update_self]
    · simp [issuedOps, filledOps] at hpending ⊢
      rw [hpending, List.append_assoc]
    · intro k hk
      rw [h.ring.wrkr_eq, slot_slot, h.ring.push_eq]
      exact slot_ne hpull (by omega) hn (by omega)
  · refine h.life_setOp (fun _ => (h.life _ hpush).concat _ ?_ ?_ ?_) ?_
    · simp [hst, hop, RingEvent.issuedAt, RingEvent.polledAt, ReqState.isIssued]
    · simp [hst, hop, RingEvent.filledAt, RingEvent.polledAt, ReqState.isFilled]
    · simp [hst, hop, RingEvent.completedAt, RingEvent.polledAt, ReqState.isCompleted]
    · intro i hi
      simp [RingEvent.issuedAt, RingEvent.filledAt, RingEvent.completedAt, RingEvent.polledAt,
        hi.symm]
  · cases hc
    rw [← hst]
    exact h.life _ hpush

/-- **The worker picks up a request.** -/
theorem fill (h : Fed conf evs s p a) (hN : conf.perSessionReqNum ≤ 2 ^ 16)
    (hst : s.stateAt s.wrkrPullPtr = .active) {op : ClientOp} (hop : op.state = .inProgress) :
    Fed conf (evs ++ [.filled s.wrkrPullPtr (s.reqArray s.wrkrPullPtr)]) (s.taken conf op)
      (p + 1) (a - 1) := by
  obtain ⟨ha, hring⟩ := h.ring.fill hst
  have hfits := h.ring.fits
  have hwrkr := h.wrkr_lt
  refine ⟨?_, ?_, ?_, h.refills.concat fun i op hc => by cases hc⟩
  · show Ring _ (s.setOp s.wrkrPullPtr op).stateAt _
      (modIncr16 s.wrkrPullPtr conf.perSessionReqNum) _ _ _
    rw [modIncr16_slot hN hwrkr, Session.stateAt_setOp, hop]
    exact hring
  · have hpending := h.pending
    have hwindow := window_cons (N := conf.perSessionReqNum) hwrkr (a - 1)
    rw [Nat.sub_add_cancel ha] at hwindow
    show issuedOps (evs ++ [_]) = filledOps (evs ++ [_]) ++
      (window _ (modIncr16 s.wrkrPullPtr conf.perSessionReqNum) (a - 1)).map
        (Function.update s.reqArray s.wrkrPullPtr op)
    rw [modIncr16_slot hN hwrkr, map_window_update]
    · rw [hwindow] at hpending
      simp [issuedOps, filledOps] at hpending ⊢
      exact hpending
    · intro k hk
      rw [slot_slot]
      have hne := slot_ne hwrkr (by omega : 1 + k < conf.perSessionReqNum)
        (by omega : 0 < conf.perSessionReqNum) (by omega)
      rwa [slot_zero hwrkr] at hne
  · refine h.life_setOp (fun _ => (h.life _ hwrkr).concat _ ?_ ?_ ?_) ?_
    · simp [hst, hop, RingEvent.issuedAt, RingEvent.polledAt, ReqState.isIssued]
    · simp [hst, hop, RingEvent.filledAt, RingEvent.polledAt, ReqState.isFilled]
    · simp [hst, hop, RingEvent.completedAt, RingEvent.polledAt, ReqState.isCompleted]
    · intro i hi
      simp [RingEvent.issuedAt, RingEvent.filledAt, RingEvent.completedAt, RingEvent.polledAt,
        hi.symm]

/-- **The worker completes a request.** -/
theorem complete (h : Fed conf evs s p a) {i : Nat} (hi : i < conf.perSessionReqNum)
    (hst : s.stateAt i = .inProgress) :
    Fed conf (evs ++ [.completed i]) (s.setState i .completed) p a := by
  refine ⟨?_, ?_, ?_, h.refills.concat fun i op hc => by cases hc⟩
  · unfold Session.setState
    rw [Session.stateAt_setOp]
    exact h.ring.complete hi hst
  · have hpending := h.pending
    show issuedOps (evs ++ [_]) = filledOps (evs ++ [_]) ++
      (window _ s.wrkrPullPtr a).map (Function.update s.reqArray i _)
    rw [map_window_update]
    · simpa [issuedOps, filledOps] using hpending
    · intro k hk heq
      have hfits := h.ring.fits
      rw [h.ring.wrkr_eq, slot_slot] at heq
      have hactive := h.ring.active (p + k) (by omega) (by omega)
      rw [heq, hst] at hactive
      cases hactive
  · refine h.life_setOp (fun _ => (h.life _ hi).concat _ ?_ ?_ ?_) ?_
    · simp [hst, RingEvent.issuedAt, RingEvent.polledAt, ReqState.isIssued]
    · simp [hst, RingEvent.filledAt, RingEvent.polledAt, ReqState.isFilled]
    · simp [hst, RingEvent.completedAt, RingEvent.polledAt, ReqState.isCompleted]
    · intro j hj
      simp [RingEvent.issuedAt, RingEvent.filledAt, RingEvent.completedAt, RingEvent.polledAt,
        hj.symm]

/-- **A ring where nothing has happened** is empty. -/
theorem idle (h : Fed conf [] s p a) : p = 0 ∧ a = 0 ∧
    ∀ i < conf.perSessionReqNum, s.stateAt i = .invalid := by
  have hfree : ∀ i < conf.perSessionReqNum, s.stateAt i = .invalid := by
    intro i hi
    have hissued := (h.life i hi).issued
    cases hst : s.stateAt i with
    | invalid => rfl
    | _ =>
      rw [hst] at hissued
      cases hissued
  have hpull := h.ring.pull_lt
  have hp : p = 0 := by
    by_contra hc
    have hslot := hfree (slot conf.perSessionReqNum s.cltPullPtr 0) (slot_lt (by omega))
    rcases h.ring.held 0 (by omega) with hst | hst <;> rw [hslot] at hst <;> cases hst
  have ha : a = 0 := by
    by_contra hc
    have hslot := hfree (slot conf.perSessionReqNum s.cltPullPtr p) (slot_lt (by omega))
    have hst := h.ring.active p (Nat.le_refl p) (by omega)
    rw [hslot] at hst
    cases hst
  exact ⟨hp, ha, hfree⟩

/-- What the requests in an empty ring are does not matter. -/
theorem withOps (h : Fed conf [] s p a) {ops : Nat → ClientOp}
    (hops : ∀ i, (ops i).state = s.stateAt i) : Fed conf [] { s with reqArray := ops } p a := by
  obtain ⟨rfl, rfl, -⟩ := h.idle
  have hstates : Session.stateAt { s with reqArray := ops } = s.stateAt := funext hops
  refine ⟨?_, rfl, ?_, h.refills⟩
  · rw [hstates]
    exact h.ring
  · rw [hstates]
    exact h.life

end Fed

end Odyssey
