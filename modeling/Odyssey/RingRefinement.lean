/-
  THE RINGS CARRY THE SESSIONS.

  A session over the atomic store has a queue of requests that are issued and not executed.  On its
  ring they are, oldest first: what the worker has picked up and not executed; what is active in
  the slots; the access that the client is in, before it is issued; and the rest of the pass
  (`Carries`).  The requests of a pass enter the queue above when the pass begins, and are issued
  below one by one.  So a pass and an execution are one step above, and all other steps are none:
  every interleaving of clients, workers and store over the rings is one of the sessions over an
  atomic store, with the same passes and the same executions in the same order (`Carried.run`).

  `poll_a_req_blocking` waits until enough requests were polled; those were executed, so above it
  does not wait (`Carries.pass`).
-/
import Odyssey.RingSlots
import Odyssey.Lib.Simulation

namespace Odyssey

open Lib RingProgram

/-! ## What the client has asked for -/

/-- The request that a command of the client asks for. -/
def called (conf : ClientConf) : ClientCmd → List AccessArgs
  | .access _ a => if 0 ≤ checkInputs conf a then [a] else []
  | _ => []

/-- The commands of the client. -/
def ofClient : ClientCmd → Bool
  | .access _ _ | .advance | .poll => true
  | _ => false

/-- **A step of the client** on its ring: it looks, it polls, or it issues its request. -/
theorem client_spec {conf : ClientConf} {s s' : ClientState} {k : ClientCmd}
    {new : List RingEvent} (hk : ofClient k = true) (h : clientStep conf s k = .ok (s', new)) :
    (s'.session = s.session ∧ ClientState.Returns [] new ∧
      s'.pending = s.pending ++ called conf k) ∨
    (∃ r evs, s.session.poll conf = .ok (s'.session, r, evs) ∧ ClientState.Returns evs new ∧
      s'.pending = s.pending ++ called conf k) ∨
    (∃ kind a evs, s.session.issue conf a = .ok (s'.session, evs) ∧ ClientState.Returns evs new ∧
      s.client = some (kind, a, .issuing) ∧ s.pending = [a] ∧ s'.pending = [] ∧
      called conf k = []) := by
  cases k with
  | access kind a =>
    rw [clientStep] at h
    split at h
    · rename_i hclient
      obtain ⟨hsession, hnew, hpending⟩ := ClientState.begin_spec hclient h
      refine Or.inl ⟨hsession, hnew, ?_⟩
      have hnone : s.pending = [] := by
        unfold ClientState.pending
        rw [hclient]
      rw [hpending, hnone]
      rfl
    · cases h
  | advance =>
    rw [clientStep] at h
    split at h
    · cases h
    · rename_i kind a stage hclient
      have hnone : ∀ l : List AccessArgs, l ++ called conf .advance = l := fun l =>
        List.append_nil l
      rw [hnone]
      rcases ClientState.advance_spec hclient h with ⟨hsession, rfl, hpending⟩ |
        ⟨r, evs, hpoll, hnew, hpending⟩ | ⟨evs, hissue, hnew, rfl, hpending, hpending'⟩
      · exact Or.inl ⟨hsession, Or.inl rfl, hpending⟩
      · exact Or.inr (Or.inl ⟨r, evs, hpoll, hnew, hpending⟩)
      · exact Or.inr (Or.inr ⟨kind, a, evs, hissue, hnew, hclient, hpending, hpending', rfl⟩)
  | poll =>
    rw [clientStep] at h
    split at h
    · rename_i hclient
      obtain ⟨⟨t, r, evs⟩, hpoll, h⟩ := bind_eq_ok.mp h
      cases h
      refine Or.inr (Or.inl ⟨r, _, hpoll, Or.inl rfl, ?_⟩)
      show _ = s.pending ++ []
      rw [List.append_nil]
      rfl
    · cases h
  | fill workingSession => cases hk
  | complete i => cases hk

variable {S C L R E : Type}

/-- **The ring of a session carries the session** `y`: `n` is how many accesses were called. -/
structure Carries (p : RingProgram S C L R E) (g n : Nat) (evs : List RingEvent)
    (x : RingSession L R) (y : Issuer L R) (e a : Nat) : Prop where
  info : y.info = x.info
  client : ClientInv p.conf evs x.ring
  ring : OnRing p.conf evs x.ring.session x.pulled x.executed e a
  queue : y.queue.map p.request = requestsOn p.conf x.ring.session x.pulled a ++
    x.ring.pending.map (ClientRequest.ofArgs p.conf) ++ (x.todo.filter (p.accepted g)).map p.request
  issued : y.issued = x.ring.session.lastPushedReq + x.ring.pending.length +
    (x.todo.filter (p.accepted g)).length
  count : x.ring.session.lastPushedReq + x.ring.pending.length ≤ n

namespace Carries

variable {p : RingProgram S C L R E} {g n : Nat} {evs : List RingEvent} {x : RingSession L R}
  {y : Issuer L R} {e a : Nat}

/-- The requests that were executed: those that were polled, and those that will be. -/
theorem executed_eq (h : Carries p g n evs x y e a) :
    y.executed = x.ring.session.lastPulledReq + e ∧ y.queue.length ≤ y.issued := by
  have hlen := congrArg List.length h.queue
  have hpulled := h.ring.inv.pulled
  have hissued := h.issued
  simp only [requestsOn, List.length_append, List.length_map, length_window] at hlen
  unfold Issuer.executed
  omega

/-- **A step of the client** is none of the session. -/
theorem clientStep (h : Carries p g n evs x y e a) (hN : p.conf.perSessionReqNum ≤ 2 ^ 16)
    {k : ClientCmd} (hk : ofClient k = true) {ring : ClientState} {new : List RingEvent}
    (hstep : clientStep p.conf x.ring k = .ok (ring, new)) {n' : Nat}
    (hn : n + (called p.conf k).length ≤ n') (hn' : n' < 2 ^ 64) (todo : List R)
    (htodo : (x.todo.filter (p.accepted g)).map p.request
      = (called p.conf k).map (ClientRequest.ofArgs p.conf) ++
        (todo.filter (p.accepted g)).map p.request) :
    ∃ e' a', Carries p g n' (evs ++ new) { x with ring := ring, todo := todo } y e' a' := by
  have hpushed := h.ring.inv.pushed
  have hcount := h.count
  have hissued := h.issued
  have hlen := congrArg List.length htodo
  simp only [List.length_append, List.length_map] at hlen
  have hnone : ∀ {evs' : List RingEvent}, issuedOps evs' = [] → ClientState.Returns evs' new →
      (issuedOps (evs ++ new)).length < 2 ^ 64 := by
    intro evs' hevs hnew
    have hsame : issuedOps new = [] := by
      rcases hnew with rfl | ⟨blocking, r, rfl⟩
      · exact hevs
      · unfold issuedOps at hevs ⊢
        rw [List.filterMap_append, hevs]
        rfl
    unfold issuedOps at hsame hpushed ⊢
    rw [List.filterMap_append, hsame, List.append_nil, ← hpushed]
    omega
  have hqueue := h.queue
  rw [htodo, List.append_assoc, ← List.append_assoc (List.map _ x.ring.pending),
    ← List.map_append] at hqueue
  -- what is left, whatever the client has done to the ring
  have hfinish : ∀ {e' a' : Nat}, (issuedOps (evs ++ new)).length < 2 ^ 64 →
      OnRing p.conf (evs ++ new) ring.session x.pulled x.executed e' a' →
      requestsOn p.conf ring.session x.pulled a' ++ ring.pending.map (ClientRequest.ofArgs p.conf) =
        requestsOn p.conf x.ring.session x.pulled a ++
          (x.ring.pending ++ called p.conf k).map (ClientRequest.ofArgs p.conf) →
      ring.session.lastPushedReq + ring.pending.length =
        x.ring.session.lastPushedReq + (x.ring.pending.length + (called p.conf k).length) →
      ∃ e' a', Carries p g n' (evs ++ new) { x with ring := ring, todo := todo } y e' a' := by
    intro e' a' hfew hring hreqs hnum
    refine ⟨e', a', h.info, (h.client.step hN hfew hstep).inv, hring, ?_, ?_, ?_⟩
    · show _ = requestsOn _ ring.session _ _ ++ ring.pending.map _ ++ _
      rw [hreqs, List.append_assoc]
      exact hqueue
    · show _ = ring.session.lastPushedReq + ring.pending.length + (todo.filter _).length
      omega
    · show ring.session.lastPushedReq + ring.pending.length ≤ n'
      omega
  have hsame : OnRing p.conf (evs ++ []) x.ring.session x.pulled x.executed e a := by
    rw [List.append_nil]
    exact h.ring
  rcases client_spec hk hstep with ⟨hsession, hnew, hpending⟩ |
    ⟨r, evs', hpoll, hnew, hpending⟩ |
    ⟨kind, args, evs', hissue, hnew, hclient, hpending, hpending', hcalled⟩
  · rw [hsession, hpending, List.length_append] at hfinish
    exact hfinish (hnone rfl hnew) (hsame.returns hnew) rfl rfl
  · rw [hpending, List.length_append] at hfinish
    obtain ⟨-, ⟨-, hsession, rfl⟩ | ⟨hst, hsession, rfl⟩⟩ := poll_spec hpoll
    · -- there was nothing to poll
      rw [hsession] at hfinish
      exact hfinish (hnone rfl hnew) (hsame.returns hnew) rfl rfl
    · rw [hsession] at hfinish
      obtain ⟨e', -, hring, hreqs⟩ := h.ring.poll hN (by omega) hst
      refine hfinish (hnone rfl hnew) (hring.returns hnew) ?_ rfl
      rw [hreqs]
  · obtain ⟨clOp, hactive, hrequest, hsession, rfl⟩ := issue_request hissue
    rw [hpending, List.length_singleton] at hcount
    rw [hsession, hpending', hpending, hcalled] at hfinish
    have hfree : e + x.pulled.length + a < p.conf.perSessionReqNum := by
      obtain ⟨⟨p', a', hring', hfits⟩, -⟩ := h.client
      rw [hclient] at hfits
      have hlt : p' + a' < p.conf.perSessionReqNum := hfits
      have hpulled' := hring'.pulled
      have hpulled := h.ring.inv.pulled
      omega
    obtain ⟨hring, hreqs⟩ := h.ring.issue hN (by omega) hfree hactive
    have hfew : (issuedOps (evs ++ new)).length < 2 ^ 64 := by
      have hone : issuedOps new = [clOp] := by
        rcases hnew with rfl | ⟨blocking, r, rfl⟩ <;> rfl
      unfold issuedOps at hone hpushed ⊢
      rw [List.filterMap_append, hone, List.length_append, ← hpushed, List.length_singleton]
      omega
    refine hfinish hfew (hring.returns hnew) ?_ ?_
    · rw [hreqs, hrequest]
      simp
    · show u64 (x.ring.session.lastPushedReq + 1) + 0 = _
      rw [u64_of_lt (by omega)]
      rfl

/-- **A pass** is a pass of the session. -/
theorem pass (h : Carries p g n evs x y e a) (hfew : n < 2 ^ 64)
    (hidle : x.ring.client = none) (htodo : x.todo = [])
    (hwait : p.target x.info ≤ x.ring.session.lastPulledReq) (info : L) (requests : List R) :
    pollAReqBlocking y (p.target y.info) = .ok () ∧ y.issued = x.ring.session.lastPushedReq ∧
      Carries p g n evs { x with info := info, todo := requests }
        ⟨info, y.queue ++ requests.filter (p.accepted g),
          y.issued + (requests.filter (p.accepted g)).length⟩ e a := by
  obtain ⟨hexecuted, hlen⟩ := h.executed_eq
  have hcount := h.count
  have hissued := h.issued
  have hpulled := h.ring.inv.pulled
  have hpending : x.ring.pending = [] := by
    unfold ClientState.pending
    rw [hidle]
  rw [hpending, htodo] at hissued
  have hnum : y.issued = x.ring.session.lastPushedReq := hissued
  refine ⟨?_, hnum, rfl, h.client, h.ring, ?_, ?_, h.count⟩
  · unfold pollAReqBlocking
    rw [if_pos]
    rw [u64_of_lt (by omega), h.info, hexecuted]
    omega
  · have hqueue := h.queue
    rw [htodo] at hqueue
    show (y.queue ++ _).map _ = _
    rw [List.map_append, hqueue]
    simp
  · show y.issued + _ = _ + _ + (requests.filter _).length
    rw [hnum, hpending]
    rfl

/-- **The worker picks up a request**, which is none of the session. -/
theorem fill (h : Carries p g n evs x y e a) (hN : p.conf.perSessionReqNum ≤ 2 ^ 16)
    (hfew : n < 2 ^ 64)
    (hactive : x.ring.session.isClientReqActive x.ring.session.wrkrPullPtr = true)
    {workingSession : Nat} {session : Session} {op : CtxTraceOp} {new : List RingEvent}
    (hfill : x.ring.session.odFillTraceOp p.conf workingSession = .ok (session, op, new)) :
    ∃ e' a', Carries p g n (evs ++ new) { x with
      ring := { x.ring with session := session }, pulled := x.pulled ++ [op] } y e' a' := by
  have hcount := h.count
  have hpushed := h.ring.inv.pushed
  obtain ⟨clOp, ⟨key, hclOp⟩, hsession, rfl, hslot, hptr, hreq⟩ := odFillTraceOp_request hfill
  have hstate : clOp.state = .inProgress := by rw [hclOp]
  have hvalue : clOp.valueToWrite
      = (x.ring.session.reqArray x.ring.session.wrkrPullPtr).valueToWrite := by rw [hclOp]
  have hresult : clOp.rmwIsSuccessful
      = (x.ring.session.reqArray x.ring.session.wrkrPullPtr).rmwIsSuccessful := by rw [hclOp]
  have hst : x.ring.session.stateAt x.ring.session.wrkrPullPtr = .active := by
    simpa [Session.isClientReqActive] using hactive
  obtain ⟨a', -, hring, hreqs⟩ := h.ring.fill hN hst hstate hvalue hresult hslot hptr hreq
  rw [← hsession] at hring hreqs
  have hnum : session.lastPushedReq = x.ring.session.lastPushedReq := by
    rw [hsession]
    rfl
  have hstep : Odyssey.clientStep p.conf x.ring (.fill workingSession) =
      .ok ({ x.ring with session := session }, [.filled x.ring.session.wrkrPullPtr
        (x.ring.session.reqArray x.ring.session.wrkrPullPtr)]) := by
    rw [Odyssey.clientStep, if_pos hactive, hfill]
    rfl
  have hclient := (h.client.step hN (by
    unfold issuedOps at hpushed ⊢
    rw [List.filterMap_append, List.length_append, ← hpushed]
    show _ + 0 < _
    omega) hstep).inv
  refine ⟨e, a', h.info, hclient, hring, ?_, ?_, ?_⟩
  · show _ = requestsOn _ session (x.pulled ++ [op]) a' ++ _ ++ _
    rw [hreqs]
    exact h.queue
  · show _ = session.lastPushedReq + _ + _
    rw [hnum]
    exact h.issued
  · show session.lastPushedReq + _ ≤ n
    rw [hnum]
    exact hcount

/-- **A request is executed**, which is the oldest of the session. -/
theorem execute (h : Carries p g n evs x y e a) {op : CtxTraceOp} {pulled : List CtxTraceOp}
    (hpulled : x.pulled = op :: pulled) (info : L) :
    ∃ r queue, y.queue = r :: queue ∧ p.request r = .ofTraceOp x.ring.session op ∧
      Carries p g n evs { x with
        info := info, pulled := pulled, executed := op.indexToReqArray :: x.executed }
        ⟨info, queue, y.issued⟩ (e + 1) a := by
  have hqueue := h.queue
  have hring := h.ring
  rw [hpulled] at hqueue hring
  cases hy : y.queue with
  | nil =>
    rw [hy] at hqueue
    simp [requestsOn] at hqueue
  | cons r queue =>
    rw [hy] at hqueue
    obtain ⟨hfirst, hrest⟩ := List.cons.inj hqueue
    exact ⟨r, queue, rfl, hfirst, rfl, h.client, hring.execute, hrest, h.issued, h.count⟩

/-- **The worker signals a request**, which is none of the session. -/
theorem complete (h : Carries p g n evs x y e a) (hN : p.conf.perSessionReqNum ≤ 2 ^ 16)
    (hfew : n < 2 ^ 64) {i : Nat} (hi : i ∈ x.executed) {session : Session} {new : List RingEvent}
    (hsignal : x.ring.session.signalCompletionToClient p.conf i = .ok (session, new)) :
    Carries p g n (evs ++ new) { x with
      ring := { x.ring with session := session }, executed := x.executed.erase i } y e a := by
  have hcount := h.count
  have hpushed := h.ring.inv.pushed
  obtain ⟨hlt, hst⟩ := h.ring.signals i hi
  obtain ⟨hring, hreqs⟩ := h.ring.complete hi
  obtain ⟨hsession, rfl⟩ := signalCompletionToClient_spec hsignal
  rw [← hsession] at hring hreqs
  have hnum : session.lastPushedReq = x.ring.session.lastPushedReq := by
    rw [hsession]
    rfl
  have hstep : Odyssey.clientStep p.conf x.ring (.complete i) =
      .ok ({ x.ring with session := session }, [.completed i]) := by
    rw [Odyssey.clientStep, if_pos ⟨hlt, hst⟩, hsignal]
    rfl
  have hclient := (h.client.step hN (by
    unfold issuedOps at hpushed ⊢
    rw [List.filterMap_append, List.length_append, ← hpushed]
    show _ + 0 < _
    omega) hstep).inv
  refine ⟨h.info, hclient, hring, ?_, ?_, ?_⟩
  · show _ = requestsOn _ session x.pulled a ++ _ ++ _
    rw [hreqs]
    exact h.queue
  · show _ = session.lastPushedReq + _ + _
    rw [hnum]
    exact h.issued
  · show session.lastPushedReq + _ ≤ n
    rw [hnum]
    exact hcount

end Carries

/-! ## All sessions -/

/-- **What is below carries what is above.** -/
structure Carried (p : RingProgram S C L R E) (tr : List (RingCmd × RingShown E))
    (s : RingSys S C L R) (t : Sessions S C L R) : Prop where
  store : t.store = s.store
  shared : t.shared = s.shared
  session : ∀ g, ∃ evs e a, Carries p g (accesses g tr) evs (s.session g) (t.session g) e a

/-- Fewer accesses than 64 bits can count. -/
def Countable (tr : List (RingCmd × RingShown E)) : Prop := ∀ g, accesses g tr < 2 ^ 64

theorem accesses_concat (tr : List (RingCmd × RingShown E)) (k : RingCmd) (e : RingShown E)
    (g : Nat) : accesses g (tr ++ [(k, e)]) = accesses g tr + if k = .access g then 1 else 0 := by
  simp [accesses, List.countP_append, List.countP_singleton]

namespace Carried

variable {p : RingProgram S C L R E} {tr : List (RingCmd × RingShown E)} {s : RingSys S C L R}
  {t : Sessions S C L R}

/-- **A step changes one session.** -/
theorem update (h : Carried p tr s t) {k : RingCmd} {e : RingShown E} {g : Nat}
    (hk : ∀ g', g' ≠ g → k ≠ .access g') (store : S) (shared : Nat → C) {x : RingSession L R}
    {y : Issuer L R}
    (hxy : ∃ evs e' a, Carries p g (accesses g (tr ++ [(k, e)])) evs x y e' a) :
    Carried p (tr ++ [(k, e)]) ⟨store, shared, Function.update s.session g x⟩
      ⟨store, shared, Function.update t.session g y⟩ := by
  refine ⟨rfl, rfl, fun g' => ?_⟩
  by_cases hg : g' = g
  · subst hg
    simp only [Function.update_self]
    exact hxy
  · simp only [Function.update_of_ne hg]
    rw [accesses_concat, if_neg (hk g' hg)]
    exact h.session g'

/-- A step that is none above. -/
theorem stay (h : Carried p tr s t) {k : RingCmd} {e : RingShown E} {g : Nat}
    (hk : ∀ g', g' ≠ g → k ≠ .access g') {x : RingSession L R}
    (hx : ∃ evs e' a, Carries p g (accesses g (tr ++ [(k, e)])) evs x (t.session g) e' a) :
    Carried p (tr ++ [(k, e)]) (s.set g x) t := by
  have hsame := h.update hk s.store s.shared hx
  rw [Function.update_eq_self] at hsame
  have ht : t = ⟨s.store, s.shared, t.session⟩ := by
    rw [← h.store, ← h.shared]
  rw [ht]
  exact hsame

/-- **One step.** -/
theorem step (h : Carried p tr s t) (hN : p.conf.perSessionReqNum ≤ 2 ^ 16) {k : RingCmd}
    {s' : RingSys S C L R} {e : RingShown E} (hfew : Countable (tr ++ [(k, e)]))
    (hstep : p.step s k = .ok (s', e)) :
    ∃ t', Run p.service.step t (seen (k, e)) t' ∧ Carried p (tr ++ [(k, e)]) s' t' := by
  have hmine : ∀ g, (∀ g', k ≠ .access g') → accesses g (tr ++ [(k, e)]) = accesses g tr := by
    intro g hk
    rw [accesses_concat, if_neg (hk g), Nat.add_zero]
  cases k with
  | pass g =>
    have hnone : ∀ g', RingCmd.pass g ≠ .access g' := fun g' hc => by cases hc
    obtain ⟨evs, e', a, hg⟩ := h.session g
    simp only [RingProgram.step] at hstep
    split at hstep
    · rename_i hidle
      split at hstep
      · rename_i hwait
        obtain ⟨⟨c, info, requests, shown⟩, hpass, hstep⟩ := bind_eq_ok.mp hstep
        cases hstep
        simp only [Bool.and_eq_true, Option.isNone_iff_eq_none, List.isEmpty_iff] at hidle
        have hbound := hfew g
        rw [hmine g hnone] at hbound
        obtain ⟨hpoll, hnum, hnext⟩ := hg.pass hbound hidle.1 hidle.2 hwait info requests
        refine ⟨_, Run.single (k := Turn.client g) ?_, h.update (fun g' _ => hnone g') s.store _
          ⟨evs, e', a, by rw [hmine g hnone]; exact hnext⟩⟩
        rw [← hg.info, ← hnum, ← h.shared] at hpass
        simp only [Service.step, RingProgram.service, hpoll, ok_bind, hpass, pure_bind]
        rw [← h.store, ← h.shared]
        rfl
      · cases hstep
    · cases hstep
  | poll g =>
    have hnone : ∀ g', RingCmd.poll g ≠ .access g' := fun g' hc => by cases hc
    obtain ⟨evs, e', a, hg⟩ := h.session g
    simp only [RingProgram.step] at hstep
    split at hstep
    · obtain ⟨⟨ring, new⟩, hclient, hstep⟩ := bind_eq_ok.mp hstep
      cases hstep
      refine ⟨t, .start, h.stay (fun g' _ => hnone g') ?_⟩
      obtain ⟨e'', a', hnext⟩ := hg.clientStep hN rfl hclient (Nat.le_refl _)
        (by rw [← hmine g hnone]; exact hfew g) _ rfl
      rw [hmine g hnone]
      exact ⟨_, e'', a', hnext⟩
    · cases hstep
  | access g =>
    obtain ⟨evs, e', a, hg⟩ := h.session g
    simp only [RingProgram.step] at hstep
    split at hstep
    · cases hstep
    · rename_i r todo htodo
      obtain ⟨⟨ring, new⟩, hclient, hstep⟩ := bind_eq_ok.mp hstep
      cases hstep
      refine ⟨t, .start, h.stay (fun g' hne hc => hne (by cases hc; rfl)) ?_⟩
      have hmore : accesses g (tr ++ [(RingCmd.access g, ((none, new) : RingShown E))])
          = accesses g tr + 1 := by
        rw [accesses_concat, if_pos rfl]
      have hone : (called p.conf (.access (p.access r).1 (p.args g r))).length ≤ 1 := by
        simp only [called]
        split <;> simp
      obtain ⟨e'', a', hnext⟩ := hg.clientStep hN rfl hclient
        (by rw [hmore]; omega) (hfew g) todo (by
          -- the first request of the rest of the pass is the one that is called
          rw [htodo, List.filter_cons]
          simp only [RingProgram.accepted, called, decide_eq_true_eq]
          split <;> rfl)
      exact ⟨_, e'', a', hnext⟩
  | advance g =>
    have hnone : ∀ g', RingCmd.advance g ≠ .access g' := fun g' hc => by cases hc
    obtain ⟨evs, e', a, hg⟩ := h.session g
    obtain ⟨⟨ring, new⟩, hclient, hstep⟩ := bind_eq_ok.mp hstep
    cases hstep
    refine ⟨t, .start, h.stay (fun g' _ => hnone g') ?_⟩
    obtain ⟨e'', a', hnext⟩ := hg.clientStep hN rfl hclient (Nat.le_refl _)
      (by rw [← hmine g hnone]; exact hfew g) _ rfl
    rw [hmine g hnone]
    exact ⟨_, e'', a', hnext⟩
  | fill g workingSession =>
    have hnone : ∀ g', RingCmd.fill g workingSession ≠ .access g' := fun g' hc => by cases hc
    obtain ⟨evs, e', a, hg⟩ := h.session g
    simp only [RingProgram.step] at hstep
    split at hstep
    · rename_i hactive
      obtain ⟨⟨session, op, new⟩, hfill, hstep⟩ := bind_eq_ok.mp hstep
      cases hstep
      refine ⟨t, .start, h.stay (fun g' _ => hnone g') ?_⟩
      obtain ⟨e'', a', hnext⟩ := hg.fill hN (by rw [← hmine g hnone]; exact hfew g) hactive hfill
      rw [hmine g hnone]
      exact ⟨_, e'', a', hnext⟩
    · cases hstep
  | execute g spurious =>
    have hnone : ∀ g', RingCmd.execute g spurious ≠ .access g' := fun g' hc => by cases hc
    obtain ⟨evs, e', a, hg⟩ := h.session g
    simp only [RingProgram.step] at hstep
    split at hstep
    · cases hstep
    · rename_i op pulled hpulled
      cases hstep
      obtain ⟨r, queue, hqueue, hreq, hnext⟩ := hg.execute hpulled
        (p.serve spurious s.store (s.session g).info (.ofTraceOp (s.session g).ring.session op)).2.1
      refine ⟨_, Run.single (k := Turn.store g spurious) ?_, h.update (fun g' _ => hnone g') _
        s.shared ⟨evs, e' + 1, a, by rw [hmine g hnone]; exact hnext⟩⟩
      simp only [Service.step, hqueue, RingProgram.service, hreq, hg.info, h.store]
      rw [← h.shared]
  | complete g i =>
    have hnone : ∀ g', RingCmd.complete g i ≠ .access g' := fun g' hc => by cases hc
    obtain ⟨evs, e', a, hg⟩ := h.session g
    simp only [RingProgram.step] at hstep
    split at hstep
    · rename_i hi
      obtain ⟨⟨session, new⟩, hsignal, hstep⟩ := bind_eq_ok.mp hstep
      cases hstep
      refine ⟨t, .start, h.stay (fun g' _ => hnone g') ?_⟩
      rw [hmine g hnone]
      exact ⟨_, e', a, hg.complete hN (by rw [← hmine g hnone]; exact hfew g) hi hsignal⟩
    · cases hstep

/-- Empty rings carry empty sessions. -/
theorem start (hpos : 0 < p.conf.perSessionReqNum) (store : S) (shared : Nat → C) (info : Nat → L)
    (ops : Nat → Nat → ClientOp) :
    Carried p [] (RingProgram.start store shared info ops)
      (RingProgram.sessions store shared info) := by
  refine ⟨rfl, rfl, fun g => ?_⟩
  have hclient := ClientInv.start p.conf (ops g) hpos
  obtain ⟨⟨held, active, hring, -⟩, -⟩ := hclient
  have hzero : 0 = 0 + (held + active) := hring.pulled
  obtain ⟨rfl, rfl⟩ : held = 0 ∧ active = 0 := by omega
  refine ⟨[], 0, 0, rfl, ClientInv.start p.conf (ops g) hpos, ?_, rfl, rfl, Nat.zero_le _⟩
  refine ⟨hring, rfl, ?_, ?_, ?_, ?_, List.nodup_nil⟩
  · exact fun op hop => by cases hop
  · exact fun op hop => by cases hop
  · exact fun k hk => absurd hk (Nat.not_lt_zero k)
  · exact fun i hi => by cases hi

/-- **Every run below is a run above.** -/
theorem run (hpos : 0 < p.conf.perSessionReqNum) (hN : p.conf.perSessionReqNum ≤ 2 ^ 16)
    {store : S} {shared : Nat → C} {info : Nat → L} {ops : Nat → Nat → ClientOp}
    (hrun : Run p.step (RingProgram.start store shared info ops) tr s) (hfew : Countable tr) :
    ∃ t, Run p.service.step (RingProgram.sessions store shared info) (tr.flatMap seen) t ∧
      Carried p tr s t := by
  refine hrun.simulate seen Countable (Carried p) ?_ (start hpos store shared info ops) ?_ hfew
  · intro tr q hq g
    have hg := hq g
    rw [accesses_concat] at hg
    omega
  · intro tr s t k s' e h hgood hstep
    exact h.step hN hgood hstep

end Carried

end Odyssey
