/-
  WHAT IS ON A RING.

  The slots of a ring are, from the pull pointer on: those of requests that were executed, and wait
  to be signalled or to be polled; those of requests that the worker has picked up and that are not
  executed, in order; and those of requests that are active.  `OnRing` says so, and what each party
  does to it is a lemma about these four numbers and lists.

  A request is the same one wherever it is.  The worker copies a part of it out of the slot when it
  picks it up, and reads the rest there when it executes it: the bytes to write and where the result
  of a compare-and-swap goes.  Nobody has touched these in between.
-/
import Odyssey.RingSessions
import Odyssey.ClientRingRuns

namespace Odyssey

open Lib

/-! ## A request is the same in its slot and in the hands of the worker -/

namespace ClientRequest

/-- Copying the value in. -/
theorem copyValue_spec {clOp clOp' : ClientOp} {a : AccessArgs}
    (h : clOp.copyValue a = .ok clOp') :
    readAt clOp'.valueToWrite 0 a.valLen
        = readAt (a.valueToWrite.getD fun _ => 0) 0 a.valLen ∧
      clOp' = { clOp with valueToWrite := clOp'.valueToWrite } := by
  unfold ClientOp.copyValue at h
  cases hmem : a.valueToWrite with
  | none =>
    rw [hmem] at h
    cases h
  | some mem =>
    rw [hmem] at h
    cases h
    have hself := readAt_writeAt_self clOp.valueToWrite 0 (readAt mem 0 a.valLen)
    rw [length_readAt] at hself
    exact ⟨hself, rfl⟩

/-- **What the client asks for is in the slot.** -/
theorem ofSlot_of_fill {conf : ClientConf} {clOp clOp' : ClientOp} {a : AccessArgs}
    (h : fillClientOp conf clOp a = .ok clOp') : ofSlot clOp' = ofArgs conf a := by
  unfold fillClientOp at h
  unfold ofSlot ofArgs ofFields opcodeOf
  cases htype : a.type with
  | rlxdRead | acquire =>
    rw [htype] at h
    cases h
    rfl
  | rlxdWrite | release | faa =>
    rw [htype] at h
    obtain ⟨op, hop, h⟩ := bind_eq_ok.mp h
    cases h
    obtain ⟨hvalue, hop⟩ := copyValue_spec hop
    rw [hop, hvalue]
    rfl
  | cas =>
    rw [htype] at h
    obtain ⟨op, hop, h⟩ := bind_eq_ok.mp h
    cases h
    obtain ⟨hvalue, hop⟩ := copyValue_spec hop
    rw [hop, hvalue]
  | other =>
    rw [htype] at h
    cases h

/-- A request that was picked up, while others change other slots, or only the state of its own. -/
theorem ofTraceOp_congr {s s' : Session} {op : CtxTraceOp}
    (hvalue : (s'.reqArray op.valueToWrite).valueToWrite
      = (s.reqArray op.valueToWrite).valueToWrite)
    (hresult : (s'.reqArray op.indexToReqArray).rmwIsSuccessful
      = (s.reqArray op.indexToReqArray).rmwIsSuccessful) :
    ofTraceOp s' op = ofTraceOp s op := by
  unfold ofTraceOp
  rw [hvalue, hresult]

theorem ofTraceOp_setOp {s : Session} {op : CtxTraceOp} {i : Nat} {clOp : ClientOp}
    (hvalue : clOp.valueToWrite = (s.reqArray i).valueToWrite)
    (hresult : clOp.rmwIsSuccessful = (s.reqArray i).rmwIsSuccessful) :
    ofTraceOp (s.setOp i clOp) op = ofTraceOp s op := by
  apply ofTraceOp_congr
  · show (Function.update s.reqArray i clOp _).valueToWrite = _
    by_cases hi : op.valueToWrite = i
    · rw [hi, Function.update_self, hvalue]
    · rw [Function.update_of_ne hi]
  · show (Function.update s.reqArray i clOp _).rmwIsSuccessful = _
    by_cases hi : op.indexToReqArray = i
    · rw [hi, Function.update_self, hresult]
    · rw [Function.update_of_ne hi]

theorem ofTraceOp_setOp_of_ne {s : Session} {op : CtxTraceOp} {i : Nat} {clOp : ClientOp}
    (hvalue : op.valueToWrite ≠ i) (hresult : op.indexToReqArray ≠ i) :
    ofTraceOp (s.setOp i clOp) op = ofTraceOp s op := by
  apply ofTraceOp_congr
  · show (Function.update s.reqArray i clOp _).valueToWrite = _
    rw [Function.update_of_ne hvalue]
  · show (Function.update s.reqArray i clOp _).rmwIsSuccessful = _
    rw [Function.update_of_ne hresult]

end ClientRequest

/-- **The client puts its request into the slot.** -/
theorem issue_request {conf : ClientConf} {s s' : Session} {a : AccessArgs}
    {evs : List RingEvent} (h : s.issue conf a = .ok (s', evs)) :
    ∃ op, op.state = .active ∧ ClientRequest.ofSlot op = ClientRequest.ofArgs conf a ∧
      s' = s.pushed conf op ∧ evs = [.issued s.cltPushPtr op] := by
  obtain ⟨clOp, hfill, h⟩ := bind_eq_ok.mp h
  have hreq := ClientRequest.ofSlot_of_fill hfill
  cases h
  exact ⟨{ clOp with state := .active }, rfl, hreq, rfl, rfl⟩

/-- **The worker picks up the request in its slot.** -/
theorem odFillTraceOp_request {conf : ClientConf} {s s' : Session} {workingSession : Nat}
    {op : CtxTraceOp} {evs : List RingEvent}
    (h : s.odFillTraceOp conf workingSession = .ok (s', op, evs)) :
    ∃ clOp, (∃ key, clOp = { s.reqArray s.wrkrPullPtr with key := key, state := .inProgress }) ∧
      s' = s.taken conf clOp ∧ evs = [.filled s.wrkrPullPtr (s.reqArray s.wrkrPullPtr)] ∧
      op.indexToReqArray = s.wrkrPullPtr ∧ op.valueToWrite = s.wrkrPullPtr ∧
      ClientRequest.ofTraceOp s op = ClientRequest.ofSlot (s.reqArray s.wrkrPullPtr) := by
  obtain ⟨op', hop, h⟩ := bind_eq_ok.mp h
  obtain ⟨-, -, hop⟩ := bind_eq_ok.mp hop
  cases hop
  obtain ⟨t, hsignal, h⟩ := bind_eq_ok.mp h
  obtain ⟨-, -, h⟩ := bind_eq_ok.mp h
  cases h
  obtain ⟨-, -, hsignal⟩ := bind_eq_ok.mp hsignal
  obtain ⟨-, -, hsignal⟩ := bind_eq_ok.mp hsignal
  cases hsignal
  by_cases hassert : conf.enableAssertions = true
  · refine ⟨_, ⟨⟨0, 0, 0⟩, rfl⟩, ?_, rfl, rfl, rfl, rfl⟩
    unfold Session.taken Session.setState Session.setOp
    simp [hassert]
  · refine ⟨_, ⟨(s.reqArray s.wrkrPullPtr).key, rfl⟩, ?_, rfl, rfl, rfl, rfl⟩
    unfold Session.taken Session.setState Session.setOp
    simp [hassert]

/-! ## What the client does to the ring -/

namespace ClientState

/-- Has an access at this stage issued its request? -/
def hasIssued : Stage → Bool
  | .awaiting => true
  | _ => false

/-- The access that the client is in, until its request is issued. -/
def pending (s : ClientState) : List AccessArgs :=
  match s.client with
  | none => []
  | some (_, a, stage) => if hasIssued stage then [] else [a]

/-- `evs`, and at most that the access returned. -/
def Returns (evs new : List RingEvent) : Prop :=
  new = evs ∨ ∃ blocking r, new = evs ++ [.returned blocking r]

variable {conf : ClientConf} {s s' : ClientState} {new : List RingEvent}

/-- **Calling the interface** does nothing to the ring. -/
theorem begin_spec {kind : AccessKind} {a : AccessArgs} (hclient : s.client = none)
    (h : s.begin conf kind a = .ok (s', new)) :
    s'.session = s.session ∧ Returns [] new ∧
      s'.pending = if 0 ≤ checkInputs conf a then [a] else [] := by
  unfold ClientState.begin at h
  dsimp only at h
  have hnone : s.pending = [] := by
    unfold pending
    rw [hclient]
  split at h
  · rename_i hneg
    rw [if_neg (by omega)]
    cases kind with
    | blocking =>
      cases h
      exact ⟨rfl, Or.inr ⟨_, _, rfl⟩, hnone⟩
    | async strong =>
      obtain ⟨-, -, h⟩ := bind_eq_ok.mp h
      cases h
      exact ⟨rfl, Or.inr ⟨_, _, rfl⟩, hnone⟩
  · rename_i hpos
    rw [if_pos (by omega)]
    cases h
    exact ⟨rfl, Or.inl rfl, rfl⟩

/-- **Going on with an access**: the client looks at the ring, polls, or issues the request. -/
theorem advance_spec {kind : AccessKind} {a : AccessArgs} {stage : Stage}
    (hclient : s.client = some (kind, a, stage)) (h : s.advance conf kind a stage = .ok (s', new)) :
    (s'.session = s.session ∧ new = [] ∧ s'.pending = s.pending) ∨
    (∃ r evs, s.session.poll conf = .ok (s'.session, r, evs) ∧ Returns evs new ∧
      s'.pending = s.pending) ∨
    (∃ evs, s.session.issue conf a = .ok (s'.session, evs) ∧ Returns evs new ∧ stage = .issuing ∧
      s.pending = [a] ∧ s'.pending = []) := by
  have hpending : s.pending = if hasIssued stage then [] else [a] := by
    unfold pending
    rw [hclient]
  cases stage with
  | slotTest =>
    rw [advance] at h
    split at h
    · cases h
      exact Or.inl ⟨rfl, rfl, hpending.symm⟩
    · cases kind with
      | blocking =>
        cases h
        exact Or.inl ⟨rfl, rfl, hpending.symm⟩
      | async strong =>
        dsimp only at h
        obtain ⟨-, -, h⟩ := bind_eq_ok.mp h
        cases h
        exact Or.inl ⟨rfl, rfl, hpending.symm⟩
  | firstPoll =>
    obtain ⟨⟨t, r, evs⟩, hpoll, h⟩ := bind_eq_ok.mp h
    cases h
    exact Or.inr (Or.inl ⟨r, _, hpoll, Or.inl rfl, hpending.symm⟩)
  | secondTest =>
    unfold advance at h
    dsimp only at h
    split at h
    · cases h
      exact Or.inl ⟨rfl, rfl, hpending.symm⟩
    · split at h
      · cases h
      · cases h
        exact Or.inl ⟨rfl, rfl, hpending.symm⟩
      · cases h
        exact Or.inl ⟨rfl, rfl, hpending.symm⟩
  | freeing largestPolled =>
    obtain ⟨⟨t, r, evs⟩, hpoll, h⟩ := bind_eq_ok.mp h
    dsimp only at h
    split at h
    · cases h
      exact Or.inr (Or.inl ⟨r, _, hpoll, Or.inl rfl, rfl⟩)
    · cases h
      exact Or.inr (Or.inl ⟨r, _, hpoll, Or.inl rfl, hpending.symm⟩)
  | freed =>
    cases kind with
    | blocking =>
      rw [advance] at h
      dsimp only at h
      split at h
      · cases h
      · cases h
        exact Or.inl ⟨rfl, rfl, hpending.symm⟩
    | async strong =>
      unfold advance at h
      dsimp only at h
      obtain ⟨-, -, h⟩ := bind_eq_ok.mp h
      cases h
      exact Or.inl ⟨rfl, rfl, hpending.symm⟩
  | issuing =>
    cases kind with
    | blocking =>
      unfold advance at h
      dsimp only at h
      obtain ⟨⟨t, evs⟩, hissue, h⟩ := bind_eq_ok.mp h
      cases h
      exact Or.inr (Or.inr ⟨_, hissue, Or.inl rfl, rfl, hpending, rfl⟩)
    | async strong =>
      unfold advance at h
      dsimp only at h
      obtain ⟨-, -, h⟩ := bind_eq_ok.mp h
      obtain ⟨⟨t, evs⟩, hissue, h⟩ := bind_eq_ok.mp h
      cases h
      exact Or.inr (Or.inr ⟨evs, hissue, Or.inr ⟨_, _, rfl⟩, rfl, hpending, rfl⟩)
  | awaiting =>
    obtain ⟨⟨t, r, evs⟩, hpoll, h⟩ := bind_eq_ok.mp h
    dsimp only at h
    split at h
    · cases h
      exact Or.inr (Or.inl ⟨r, _, hpoll, Or.inl rfl, rfl⟩)
    · obtain ⟨-, -, h⟩ := bind_eq_ok.mp h
      cases h
      exact Or.inr (Or.inl ⟨r, evs, hpoll, Or.inr ⟨_, _, rfl⟩, hpending.symm⟩)

end ClientState

/-! ## What is on the ring -/

/-- **The slots of a ring**: from the pull pointer on, `e` of requests that were executed, those of
    the requests that are picked up, in order, and `a` that are active. -/
structure OnRing (conf : ClientConf) (evs : List RingEvent) (s : Session)
    (pulled : List CtxTraceOp) (executed : List Nat) (e a : Nat) : Prop where
  inv : RingInv conf evs s (e + pulled.length) a
  slots : pulled.map CtxTraceOp.indexToReqArray =
    window conf.perSessionReqNum (slot conf.perSessionReqNum s.cltPullPtr e) pulled.length
  values : ∀ op ∈ pulled, op.valueToWrite = op.indexToReqArray
  waiting : ∀ op ∈ pulled, s.stateAt op.indexToReqArray = .inProgress ∧
    op.indexToReqArray ∉ executed
  served : ∀ k < e, s.stateAt (slot conf.perSessionReqNum s.cltPullPtr k) = .completed ∨
    slot conf.perSessionReqNum s.cltPullPtr k ∈ executed
  signals : ∀ i ∈ executed, i < conf.perSessionReqNum ∧ s.stateAt i = .inProgress
  once : executed.Nodup

/-- The requests on a ring that were not executed, oldest first. -/
def requestsOn (conf : ClientConf) (s : Session) (pulled : List CtxTraceOp) (a : Nat) :
    List ClientRequest :=
  pulled.map (ClientRequest.ofTraceOp s) ++
    (window conf.perSessionReqNum s.wrkrPullPtr a).map fun i => ClientRequest.ofSlot (s.reqArray i)

namespace OnRing

variable {conf : ClientConf} {evs : List RingEvent} {s : Session} {pulled : List CtxTraceOp}
  {executed : List Nat} {e a : Nat}

theorem pull_lt (h : OnRing conf evs s pulled executed e a) :
    s.cltPullPtr < conf.perSessionReqNum := h.inv.ring.pull_lt

/-- An access that returns leaves the ring as it is. -/
theorem returns {evs' new : List RingEvent}
    (h : OnRing conf (evs ++ evs') s pulled executed e a) (hnew : ClientState.Returns evs' new) :
    OnRing conf (evs ++ new) s pulled executed e a := by
  rcases hnew with rfl | ⟨blocking, r, rfl⟩
  · exact h
  · rw [← List.append_assoc]
    exact { h with inv := h.inv.returned blocking r }

/-- The slots of the requests that are picked up are different ones. -/
theorem nodup_slots (h : OnRing conf evs s pulled executed e a) :
    (pulled.map CtxTraceOp.indexToReqArray).Nodup := by
  have hpull := h.pull_lt
  have hfits := h.inv.ring.fits
  rw [h.slots]
  exact window_nodup (slot_lt (by omega)) (by omega)

/-- **The client polls the oldest request**, which was executed. -/
theorem poll (h : OnRing conf evs s pulled executed e a) (hN : conf.perSessionReqNum ≤ 2 ^ 16)
    (hpushed : s.lastPushedReq < 2 ^ 64) (hst : s.stateAt s.cltPullPtr = .completed) :
    ∃ e', e = e' + 1 ∧
      OnRing conf (evs ++ [.polled s.cltPullPtr]) (s.pulled conf) pulled executed e' a ∧
      requestsOn conf (s.pulled conf) pulled a = requestsOn conf s pulled a := by
  have hpull := h.pull_lt
  have hfits := h.inv.ring.fits
  obtain ⟨hp, -, hinv⟩ := h.inv.poll hN hpushed hst
  have hstates : (s.pulled conf).stateAt = Function.update s.stateAt s.cltPullPtr .invalid :=
    s.stateAt_setOp s.cltPullPtr _
  have hnext : (s.pulled conf).cltPullPtr = slot conf.perSessionReqNum s.cltPullPtr 1 :=
    modIncr16_slot hN hpull
  have hother : ∀ i, s.stateAt i = .inProgress → (s.pulled conf).stateAt i = .inProgress := by
    intro i hi
    rw [hstates, Function.update_of_ne fun hc => by rw [hc, hst] at hi; cases hi]
    exact hi
  have hpos : e ≠ 0 := by
    rintro rfl
    cases hpulled : pulled with
    | nil =>
      rw [hpulled] at hp
      exact absurd hp (Nat.lt_irrefl 0)
    | cons op rest =>
      -- the slot at the pull pointer is in the hands of the worker
      have hslots := h.slots
      rw [hpulled, List.map_cons, List.length_cons, slot_zero hpull, window_cons hpull] at hslots
      have hwaiting := (h.waiting op (by rw [hpulled]; exact List.mem_cons_self)).1
      rw [(List.cons.inj hslots).1, hst] at hwaiting
      cases hwaiting
  obtain ⟨e', rfl⟩ := Nat.exists_eq_succ_of_ne_zero hpos
  refine ⟨e', rfl, ?_, ?_⟩
  · constructor
    · have hlen : e' + 1 + pulled.length - 1 = e' + pulled.length := by omega
      rw [← hlen]
      exact hinv
    · rw [hnext, slot_slot, Nat.add_comm 1 e']
      exact h.slots
    · exact h.values
    · exact fun op hop => ⟨hother _ (h.waiting op hop).1, (h.waiting op hop).2⟩
    · intro k hk
      rw [hnext, slot_slot, Nat.add_comm 1 k, hstates]
      have hne : slot conf.perSessionReqNum s.cltPullPtr (k + 1) ≠ s.cltPullPtr := by
        have hne := slot_ne hpull (by omega : k + 1 < _) (by omega : 0 < _) (Nat.succ_ne_zero k)
        rwa [slot_zero hpull] at hne
      rw [Function.update_of_ne hne]
      exact h.served (k + 1) (by omega)
    · exact fun i hi => ⟨(h.signals i hi).1, hother i (h.signals i hi).2⟩
    · exact h.once
  · unfold requestsOn
    congr 1
    · apply List.map_congr_left
      intro op _
      exact ClientRequest.ofTraceOp_setOp rfl rfl
    · apply List.map_congr_left
      intro i _
      show ClientRequest.ofSlot (Function.update s.reqArray s.cltPullPtr _ i) = _
      by_cases hi : i = s.cltPullPtr
      · rw [hi, Function.update_self]
        rfl
      · rw [Function.update_of_ne hi]

/-- **The client issues a request.** -/
theorem issue (h : OnRing conf evs s pulled executed e a) (hN : conf.perSessionReqNum ≤ 2 ^ 16)
    (hpushed : s.lastPushedReq + 1 < 2 ^ 64)
    (hfree : e + pulled.length + a < conf.perSessionReqNum) {op : ClientOp}
    (hop : op.state = .active) :
    OnRing conf (evs ++ [.issued s.cltPushPtr op]) (s.pushed conf op) pulled executed e (a + 1) ∧
      requestsOn conf (s.pushed conf op) pulled (a + 1)
        = requestsOn conf s pulled a ++ [.ofSlot op] := by
  have hpull := h.pull_lt
  obtain ⟨-, hinv⟩ := h.inv.issue hN hpushed hfree hop
  have hstates : (s.pushed conf op).stateAt = Function.update s.stateAt s.cltPushPtr .active := by
    rw [← hop]
    exact s.stateAt_setOp s.cltPushPtr op
  have hinvalid := h.inv.ring.push_free.mpr hfree
  have hne : ∀ i, s.stateAt i ≠ .invalid → i ≠ s.cltPushPtr := by
    rintro i hi rfl
    exact hi hinvalid
  have hother : ∀ i, s.stateAt i ≠ .invalid → (s.pushed conf op).stateAt i = s.stateAt i := by
    intro i hi
    rw [hstates, Function.update_of_ne (hne i hi)]
  have hbusy : ∀ op ∈ pulled, op.indexToReqArray ≠ s.cltPushPtr := fun op hop => hne _ (by
    rw [(h.waiting op hop).1]
    exact fun hc => by cases hc)
  refine ⟨?_, ?_⟩
  · constructor
    · exact hinv
    · exact h.slots
    · exact h.values
    · intro op hop
      obtain ⟨hst, hnot⟩ := h.waiting op hop
      rw [hother _ (by rw [hst]; exact fun hc => by cases hc)]
      exact ⟨hst, hnot⟩
    · intro k hk
      rcases h.served k hk with hst | hmem
      · refine Or.inl ?_
        show (s.pushed conf op).stateAt (slot _ s.cltPullPtr k) = _
        rw [hother _ (by rw [hst]; exact fun hc => by cases hc)]
        exact hst
      · exact Or.inr hmem
    · intro i hi
      obtain ⟨hlt, hst⟩ := h.signals i hi
      rw [hother _ (by rw [hst]; exact fun hc => by cases hc)]
      exact ⟨hlt, hst⟩
    · exact h.once
  · have hlast : slot conf.perSessionReqNum s.wrkrPullPtr a = s.cltPushPtr := by
      rw [h.inv.ring.wrkr_eq, h.inv.ring.push_eq, slot_slot]
    unfold requestsOn
    rw [List.append_assoc]
    congr 1
    · apply List.map_congr_left
      intro op' hop'
      exact ClientRequest.ofTraceOp_setOp_of_ne (by rw [h.values op' hop']; exact hbusy op' hop')
        (hbusy op' hop')
    · show (window _ s.wrkrPullPtr (a + 1)).map
        (fun i => ClientRequest.ofSlot (Function.update s.reqArray s.cltPushPtr op i)) = _
      rw [window_succ, List.map_append, hlast, List.map_singleton, Function.update_self]
      congr 1
      apply List.map_congr_left
      intro i hi
      obtain ⟨k, hk, rfl⟩ := List.mem_map.mp hi
      have hlt := List.mem_range.mp hk
      rw [Function.update_of_ne]
      rw [← hlast]
      have hwrkr : s.wrkrPullPtr < conf.perSessionReqNum := by
        rw [h.inv.ring.wrkr_eq]
        exact slot_lt (by omega)
      exact slot_ne hwrkr (by omega) (by omega) (by omega)

/-- **The worker picks a request up.** -/
theorem fill (h : OnRing conf evs s pulled executed e a) (hN : conf.perSessionReqNum ≤ 2 ^ 16)
    (hst : s.stateAt s.wrkrPullPtr = .active) {clOp : ClientOp} {op : CtxTraceOp}
    (hstate : clOp.state = .inProgress)
    (hvalue : clOp.valueToWrite = (s.reqArray s.wrkrPullPtr).valueToWrite)
    (hresult : clOp.rmwIsSuccessful = (s.reqArray s.wrkrPullPtr).rmwIsSuccessful)
    (hslot : op.indexToReqArray = s.wrkrPullPtr) (hptr : op.valueToWrite = s.wrkrPullPtr)
    (hreq : ClientRequest.ofTraceOp s op = ClientRequest.ofSlot (s.reqArray s.wrkrPullPtr)) :
    ∃ a', a = a' + 1 ∧
      OnRing conf (evs ++ [.filled s.wrkrPullPtr (s.reqArray s.wrkrPullPtr)]) (s.taken conf clOp)
        (pulled ++ [op]) executed e a' ∧
      requestsOn conf (s.taken conf clOp) (pulled ++ [op]) a' = requestsOn conf s pulled a := by
  have hpull := h.pull_lt
  have hfits := h.inv.ring.fits
  obtain ⟨ha, hinv⟩ := h.inv.fill hN hst hstate
  obtain ⟨a', rfl⟩ := Nat.exists_eq_succ_of_ne_zero (Nat.pos_iff_ne_zero.mp ha)
  have hwrkr : s.wrkrPullPtr < conf.perSessionReqNum := by
    rw [h.inv.ring.wrkr_eq]
    exact slot_lt (by omega)
  have hstates : (s.taken conf clOp).stateAt
      = Function.update s.stateAt s.wrkrPullPtr .inProgress := by
    rw [← hstate]
    exact s.stateAt_setOp s.wrkrPullPtr clOp
  have hother : ∀ i, s.stateAt i ≠ .active → (s.taken conf clOp).stateAt i = s.stateAt i := by
    intro i hi
    rw [hstates, Function.update_of_ne]
    rintro rfl
    exact hi hst
  refine ⟨a', rfl, ?_, ?_⟩
  · constructor
    · rw [List.length_append, List.length_singleton, ← Nat.add_assoc]
      exact hinv
    · show (pulled ++ [op]).map _ = window _ (slot _ s.cltPullPtr e) _
      rw [List.length_append, List.length_singleton, window_succ, List.map_append, h.slots,
        slot_slot, List.map_singleton, hslot, h.inv.ring.wrkr_eq]
    · intro op' hop'
      rcases List.mem_append.mp hop' with hold | hnew
      · exact h.values op' hold
      · rw [List.mem_singleton.mp hnew, hptr, hslot]
    · intro op' hop'
      rcases List.mem_append.mp hop' with hold | hnew
      · obtain ⟨hprog, hnot⟩ := h.waiting op' hold
        rw [hother _ (by rw [hprog]; exact fun hc => by cases hc)]
        exact ⟨hprog, hnot⟩
      · rw [List.mem_singleton.mp hnew, hslot, hstates, Function.update_self]
        refine ⟨rfl, fun hmem => ?_⟩
        rw [(h.signals _ hmem).2] at hst
        cases hst
    · intro k hk
      rcases h.served k hk with hdone | hmem
      · refine Or.inl ?_
        show (s.taken conf clOp).stateAt (slot _ s.cltPullPtr k) = _
        rw [hother _ (by rw [hdone]; exact fun hc => by cases hc)]
        exact hdone
      · exact Or.inr hmem
    · intro i hi
      obtain ⟨hlt, hprog⟩ := h.signals i hi
      rw [hother _ (by rw [hprog]; exact fun hc => by cases hc)]
      exact ⟨hlt, hprog⟩
    · exact h.once
  · have hnext : (s.taken conf clOp).wrkrPullPtr = slot conf.perSessionReqNum s.wrkrPullPtr 1 :=
      modIncr16_slot hN hwrkr
    have hsame : ∀ op' : CtxTraceOp,
        ClientRequest.ofTraceOp (s.taken conf clOp) op' = ClientRequest.ofTraceOp s op' :=
      fun op' => ClientRequest.ofTraceOp_setOp hvalue hresult
    unfold requestsOn
    rw [hnext, Nat.succ_eq_add_one, window_cons hwrkr, List.map_append, List.map_singleton,
      List.map_cons, hsame op, hreq, List.append_assoc, List.singleton_append]
    congr 1
    · exact List.map_congr_left fun op' _ => hsame op'
    · congr 1
      apply List.map_congr_left
      intro i hi
      obtain ⟨k, hk, rfl⟩ := List.mem_map.mp hi
      have hlt := List.mem_range.mp hk
      show ClientRequest.ofSlot (Function.update s.reqArray s.wrkrPullPtr clOp _) = _
      rw [Function.update_of_ne]
      rw [slot_slot]
      have hne := slot_ne hwrkr (by omega : 1 + k < conf.perSessionReqNum)
        (by omega : 0 < conf.perSessionReqNum) (by omega)
      rwa [slot_zero hwrkr] at hne

/-- **The oldest request that was picked up is executed.** -/
theorem execute {op : CtxTraceOp} (h : OnRing conf evs s (op :: pulled) executed e a) :
    OnRing conf evs s pulled (op.indexToReqArray :: executed) (e + 1) a := by
  have hpull := h.pull_lt
  have hslots := h.slots
  have hslot : slot conf.perSessionReqNum s.cltPullPtr e < conf.perSessionReqNum :=
    slot_lt (by omega)
  rw [List.map_cons, List.length_cons, window_cons hslot, slot_slot] at hslots
  obtain ⟨hfirst, hrest⟩ := List.cons.inj hslots
  obtain ⟨hprog, hnot⟩ := h.waiting op List.mem_cons_self
  constructor
  · have hlen : e + 1 + pulled.length = e + (op :: pulled).length := by
      rw [List.length_cons]
      omega
    rw [hlen]
    exact h.inv
  · exact hrest
  · exact fun op' hop' => h.values op' (List.mem_cons_of_mem _ hop')
  · intro op' hop'
    obtain ⟨hst, hnot'⟩ := h.waiting op' (List.mem_cons_of_mem _ hop')
    refine ⟨hst, fun hmem => ?_⟩
    rcases List.mem_cons.mp hmem with heq | hmem
    · have hnodup := h.nodup_slots
      rw [List.map_cons, List.nodup_cons] at hnodup
      exact hnodup.1 (List.mem_map.mpr ⟨op', hop', heq⟩)
    · exact hnot' hmem
  · intro k hk
    by_cases hlast : k = e
    · rw [hlast, ← hfirst]
      exact Or.inr List.mem_cons_self
    · rcases h.served k (by omega) with hst | hmem
      · exact Or.inl hst
      · exact Or.inr (List.mem_cons_of_mem _ hmem)
  · intro i hi
    rcases List.mem_cons.mp hi with rfl | hi
    · refine ⟨?_, hprog⟩
      rw [hfirst]
      exact hslot
    · exact h.signals i hi
  · exact List.nodup_cons.mpr ⟨hnot, h.once⟩

/-- **The worker signals a request that was executed.** -/
theorem complete (h : OnRing conf evs s pulled executed e a) {i : Nat} (hi : i ∈ executed) :
    OnRing conf (evs ++ [.completed i]) (s.setState i .completed) pulled (executed.erase i) e a ∧
      requestsOn conf (s.setState i .completed) pulled a = requestsOn conf s pulled a := by
  obtain ⟨hlt, hst⟩ := h.signals i hi
  have hstates : (s.setState i .completed).stateAt = Function.update s.stateAt i .completed :=
    s.stateAt_setOp i _
  have hgone : ∀ j, j ∈ executed.erase i ↔ j ≠ i ∧ j ∈ executed := fun j =>
    h.once.mem_erase_iff
  refine ⟨?_, ?_⟩
  · constructor
    · exact h.inv.complete hlt hst
    · exact h.slots
    · exact h.values
    · intro op hop
      obtain ⟨hprog, hnot⟩ := h.waiting op hop
      have hne : op.indexToReqArray ≠ i := fun hc => hnot (hc ▸ hi)
      rw [hstates, Function.update_of_ne hne]
      exact ⟨hprog, fun hmem => hnot ((hgone _).mp hmem).2⟩
    · intro k hk
      show (s.setState i .completed).stateAt (slot _ s.cltPullPtr k) = _ ∨ _
      rw [hstates]
      by_cases hslot : slot conf.perSessionReqNum s.cltPullPtr k = i
      · rw [hslot, Function.update_self]
        exact Or.inl rfl
      · rw [Function.update_of_ne hslot]
        rcases h.served k hk with hdone | hmem
        · exact Or.inl hdone
        · exact Or.inr ((hgone _).mpr ⟨hslot, hmem⟩)
    · intro j hj
      obtain ⟨hne, hmem⟩ := (hgone j).mp hj
      rw [hstates, Function.update_of_ne hne]
      exact h.signals j hmem
    · exact h.once.erase i
  · unfold requestsOn
    congr 1
    · exact List.map_congr_left fun op _ => ClientRequest.ofTraceOp_setOp rfl rfl
    · apply List.map_congr_left
      intro j _
      show ClientRequest.ofSlot (Function.update s.reqArray i _ j) = _
      by_cases hj : j = i
      · rw [hj, Function.update_self]
        rfl
      · rw [Function.update_of_ne hj]

end OnRing

end Odyssey
