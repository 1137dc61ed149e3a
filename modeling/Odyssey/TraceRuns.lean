/-
  RUNS OF THE CLIENTS THAT REPLAY A TRACE.

  All clients and workers step at the same time.  The results are for every run:

  * what a client issues, over all of its sessions, is its trace again and again, and every request
    of it carries the value length and the buffers that `init_clt_trace` has set; each session gets
    the requests of one client, its worker picks them up in the order of their issue, and no slot
    is filled again before its request was completed and polled (`requests_replay_trace`);
  * no assertion fails, the trace is never read behind its end, and a client can always go on
    (`trace_clients_never_fault`);
  * with manufactured traces, what the workers get are requests of the interface to keys of the
    store (`workers_get_requests`).

  The local pointer of a client may be an old one; then its slot is one that the client has just
  polled or filled, and the test of it fails (`AtLoc`).
-/
import Odyssey.TraceSetUp

namespace Odyssey

open Lib TraceConf

namespace TraceFeed

variable {f : TraceFeed}

/-! ## The trace -/

/-- **The next request of a trace**: behind the last comes the first. -/
theorem nextPtr_spec {entries : List TraceEntry} (hend : period entries < entries.length)
    (hshort : entries.length ≤ 2 ^ 32) {ptr : Nat} (hptr : ptr < period entries) :
    nextPtr entries ptr = .ok ((ptr + 1) % period entries) := by
  cases entries with
  | nil => cases hend
  | cons first rest =>
    have hperiod : period (first :: rest) = 1 + rest.findIdx (·.opcode == nop) := rfl
    rw [hperiod] at hend hptr ⊢
    rw [List.length_cons] at hend hshort
    have hin : ptr < rest.length := by omega
    unfold nextPtr
    rw [u32_of_lt (by omega), List.getElem?_cons_succ, List.getElem?_eq_getElem hin]
    dsimp only
    by_cases hlast : ptr = rest.findIdx (·.opcode == nop)
    · have hfound : (rest[ptr].opcode == nop) = true := by
        subst hlast
        have hfirst := List.findIdx_getElem (w := hin)
        exact hfirst
      rw [if_pos (beq_iff_eq.mp hfound), hlast, Nat.add_comm, Nat.mod_self]
    · have hnot := List.not_of_lt_findIdx (show ptr < rest.findIdx (·.opcode == nop) by omega)
      rw [if_neg (beq_eq_false_iff_ne.mp hnot), Nat.mod_eq_of_lt (by omega)]

/-! ## What a run shows -/

theorem eventsAt_concat (w i : Nat) (tr : List (TraceCmd × TraceShown)) (k : TraceCmd)
    (here : Nat × Nat) (evs : List RingEvent) :
    eventsAt w i (tr ++ [(k, here, evs)])
      = eventsAt w i tr ++ if here = (w, i) then evs else [] := by
  unfold eventsAt
  rw [List.flatMap_append, List.flatMap_singleton]

/-- A step where nothing happens at a ring. -/
theorem eventsAt_silent (w i : Nat) (tr : List (TraceCmd × TraceShown)) (k : TraceCmd)
    (here : Nat × Nat) : eventsAt w i (tr ++ [(k, here, [])]) = eventsAt w i tr := by
  rw [eventsAt_concat]
  split <;> exact List.append_nil _

theorem issuedBy_concat (tId : Nat) (tr : List (TraceCmd × TraceShown)) (k : TraceCmd)
    (here : Nat × Nat) (evs : List RingEvent) :
    issuedBy tId (tr ++ [(k, here, evs)])
      = issuedBy tId tr ++ if k = .client tId then issuedOps evs else [] := by
  unfold issuedBy
  rw [List.flatMap_append, List.flatMap_singleton]

/-- What has happened at session `g`. -/
def eventsOf (f : TraceFeed) (g : Nat) (tr : List (TraceCmd × TraceShown)) : List RingEvent :=
  eventsAt (f.wrkr g) (f.sI g) tr

theorem issuedOps_append (evs new : List RingEvent) :
    issuedOps (evs ++ new) = issuedOps evs ++ issuedOps new := List.filterMap_append ..

/-! ## The invariant -/

/-- A request carries what `init_clt_trace` has put into the slots of session `g`. -/
structure Prepared (f : TraceFeed) (tId g : Nat) (op : ClientOp) : Prop where
  valLen : op.valLen = u32 f.conf.valueSize
  valueToRead : op.valueToRead = some (f.buffer tId g)
  rmwIsSuccessful : op.rmwIsSuccessful = some (f.buffer tId g)

/-- The `k`-th request of a client: the trace says which it is. -/
structure Replays (f : TraceFeed) (tId k : Nat) (op : ClientOp) : Prop where
  entry : ∃ entry, (f.trace tId)[k % period (f.trace tId)]? = some entry ∧
    op.opcode = entry.opcode ∧ op.key = entry.keyHash
  prepared : ∃ g, f.Owns tId g ∧ Prepared f tId g op

/-- Where a client is, and what it knows of the slot it is about to test. -/
def AtLoc (f : TraceFeed) (interface : Interface) (tId : Nat) (c : TraceClient) : Prop :=
  match c.loc with
  | .starting => True
  | .polling g pullPtr => c.trInfo = f.info tId ∧ f.Owns tId g ∧
      (pullPtr = (f.session interface g).cltPullPtr ∨
        (f.session interface g).stateAt pullPtr = .invalid)
  | .pushing g pushPtr => c.trInfo = f.info tId ∧ f.Owns tId g ∧
      (pushPtr = (f.session interface g).cltPushPtr ∨
        (f.session interface g).stateAt pushPtr ≠ .invalid)

/-- The invariant of a client. -/
structure ClientOk (f : TraceFeed) (tr : List (TraceCmd × TraceShown)) (interface : Interface)
    (tId : Nat) (c : TraceClient) : Prop where
  loc : AtLoc f interface tId c
  begun : c.loc ≠ .starting → ∀ g, f.Owns tId g → ∀ i < f.conf.perSessionReqNum,
    Prepared f tId g ((f.session interface g).reqArray i)
  quiet : c.loc = .starting → issuedBy tId tr = [] ∧ ∀ g, f.Owns tId g → f.eventsOf g tr = []
  ptr : c.tracePtr = (issuedBy tId tr).length % period (f.trace tId)
  replays : ∀ k op, (issuedBy tId tr)[k]? = some op → Replays f tId k op
  home : ∀ g, f.Owns tId g → (issuedOps (f.eventsOf g tr)).Sublist (issuedBy tId tr)

/-- The invariant of all of them. -/
structure FeedInv (f : TraceFeed) (tr : List (TraceCmd × TraceShown)) (s : TraceSys) : Prop where
  owned : ∀ w i, eventsAt w i tr ≠ [] → ∃ tId < f.clientsPerMachine, ∃ g, f.Owns tId g ∧
    (w, i) = (f.wrkr g, f.sI g)
  rings : ∀ w i, ∃ p a, Fed f.conf (eventsAt w i tr) (s.interface w i) p a
  clients : ∀ tId < f.clientsPerMachine, ClientOk f tr s.interface tId (s.client tId)

/-- One ring moves, the others stay. -/
theorem rings_set {tr : List (TraceCmd × TraceShown)} {interface : Interface} {w i : Nat}
    {x : Session} {evs : List RingEvent} (k : TraceCmd)
    (h : ∀ w i, ∃ p a, Fed f.conf (eventsAt w i tr) (interface w i) p a)
    (hx : ∃ p a, Fed f.conf (eventsAt w i tr ++ evs) x p a) (w' i' : Nat) :
    ∃ p a, Fed f.conf (eventsAt w' i' (tr ++ [(k, (w, i), evs)]))
      (interface.set w i x w' i') p a := by
  rw [eventsAt_concat, set_at]
  by_cases hhere : (w', i') = (w, i)
  · obtain ⟨rfl, rfl⟩ := Prod.mk.inj hhere
    rw [if_pos rfl, if_pos rfl]
    exact hx
  · rw [if_neg hhere, if_neg fun hc => hhere hc.symm, List.append_nil]
    exact h w' i'

/-- Things happen at the sessions of clients. -/
theorem owned_step {tr : List (TraceCmd × TraceShown)} {here : Nat × Nat} {evs : List RingEvent}
    (k : TraceCmd)
    (h : ∀ w i, eventsAt w i tr ≠ [] → ∃ tId < f.clientsPerMachine, ∃ g, f.Owns tId g ∧
      (w, i) = (f.wrkr g, f.sI g))
    (hhere : ∃ tId < f.clientsPerMachine, ∃ g, f.Owns tId g ∧ here = (f.wrkr g, f.sI g)) :
    ∀ w i, eventsAt w i (tr ++ [(k, here, evs)]) ≠ [] → ∃ tId < f.clientsPerMachine,
      ∃ g, f.Owns tId g ∧ (w, i) = (f.wrkr g, f.sI g) := by
  intro w i hevs
  by_cases heq : here = (w, i)
  · rw [← heq]
    exact hhere
  · rw [eventsAt_concat, if_neg heq, List.append_nil] at hevs
    exact h w i hevs

/-- **A step of somebody else**: the sessions of the client look the same to it, and nobody else
    issues a request to them, or does anything before it has begun. -/
theorem ClientOk.keeps {tr : List (TraceCmd × TraceShown)} {interface interface' : Interface}
    {tId : Nat} {c : TraceClient} (h : ClientOk f tr interface tId c) {k : TraceCmd}
    {here : Nat × Nat} {evs : List RingEvent} (hk : k ≠ .client tId)
    (hsame : ∀ g, f.Owns tId g → Session.Same (f.session interface g) (f.session interface' g))
    (hhere : ∀ g, f.Owns tId g → here = (f.wrkr g, f.sI g) →
      issuedOps evs = [] ∧ (c.loc = .starting → evs = [])) :
    ClientOk f (tr ++ [(k, here, evs)]) interface' tId c := by
  have hissued : issuedBy tId (tr ++ [(k, here, evs)]) = issuedBy tId tr := by
    rw [issuedBy_concat, if_neg hk, List.append_nil]
  have hevents : ∀ g, f.eventsOf g (tr ++ [(k, here, evs)])
      = f.eventsOf g tr ++ if here = (f.wrkr g, f.sI g) then evs else [] := fun g =>
    eventsAt_concat ..
  refine ⟨?_, ?_, ?_, hissued ▸ h.ptr, hissued ▸ h.replays, ?_⟩
  · have hloc := h.loc
    unfold AtLoc at hloc ⊢
    split
    · trivial
    · rename_i g pullPtr heq
      rw [heq] at hloc
      obtain ⟨hinfo, hown, hptr⟩ := hloc
      refine ⟨hinfo, hown, ?_⟩
      rw [(hsame g hown).pull, (hsame g hown).free]
      exact hptr
    · rename_i g pushPtr heq
      rw [heq] at hloc
      obtain ⟨hinfo, hown, hptr⟩ := hloc
      refine ⟨hinfo, hown, ?_⟩
      rw [(hsame g hown).push, ne_eq, (hsame g hown).free]
      exact hptr
  · intro hbegun g hown i hi
    obtain ⟨hlen, hread, hrmw⟩ := h.begun hbegun g hown i hi
    obtain ⟨h₁, h₂, h₃⟩ := (hsame g hown).fields i
    exact ⟨h₁.trans hlen, h₂.trans hread, h₃.trans hrmw⟩
  · intro hstarting
    obtain ⟨hnone, hquiet⟩ := h.quiet hstarting
    refine ⟨hissued.trans hnone, fun g hown => ?_⟩
    rw [hevents g, hquiet g hown]
    split
    · rename_i hc
      exact (hhere g hown hc).2 hstarting
    · rfl
  · intro g hown
    rw [hissued, hevents g, issuedOps_append]
    have hnone : issuedOps (if here = (f.wrkr g, f.sI g) then evs else []) = [] := by
      split
      · rename_i hc
        exact (hhere g hown hc).1
      · rfl
    rw [hnone, List.append_nil]
    exact h.home g hown

/-! ## Steps -/

/-- Two clients have no session in common. -/
theorem Fits.place_ne (h : f.Fits) {tId tId' g g' : Nat} (ht : tId < f.clientsPerMachine)
    (ht' : tId' < f.clientsPerMachine) (hne : tId' ≠ tId) (hg : f.Owns tId g)
    (hg' : f.Owns tId' g') : (f.wrkr g, f.sI g) ≠ (f.wrkr g', f.sI g') := by
  intro hc
  have heq := place_inj (h.session_lt ht hg) (h.session_lt ht' hg') hc
  subst heq
  exact hne (hg'.symm.trans hg)

/-- Another client does not touch the sessions of this one. -/
theorem Fits.other_client (h : f.Fits) {tr : List (TraceCmd × TraceShown)} {s : TraceSys}
    {tId g : Nat} (hinv : FeedInv f tr s) (ht : tId < f.clientsPerMachine) (hg : f.Owns tId g)
    {interface' : Interface}
    (hout : ∀ w i, (∀ g', f.Owns tId g' → (w, i) ≠ (f.wrkr g', f.sI g')) →
      interface' w i = s.interface w i) (evs : List RingEvent) {tId' : Nat}
    (ht' : tId' < f.clientsPerMachine) (hne : tId' ≠ tId) :
    ClientOk f (tr ++ [(.client tId, (f.wrkr g, f.sI g), evs)]) interface' tId'
      (s.client tId') := by
  refine (hinv.clients tId' ht').keeps (fun hc => hne (by cases hc; rfl)) (fun g' hg' => ?_)
    (fun g' hg' hc => absurd hc (h.place_ne ht ht' hne hg hg'))
  have hstay : f.session interface' g' = f.session s.interface g' :=
    hout _ _ fun g'' hg'' hc => h.place_ne ht ht' hne hg'' hg' hc.symm
  rw [hstay]
  exact .refl _

/-- The client that steps, and the others. -/
theorem clients_update {tr : List (TraceCmd × TraceShown)} {interface : Interface} {tId : Nat}
    {client : Nat → TraceClient} {c : TraceClient} (hme : ClientOk f tr interface tId c)
    (hothers : ∀ tId' < f.clientsPerMachine, tId' ≠ tId →
      ClientOk f tr interface tId' (client tId')) :
    ∀ tId' < f.clientsPerMachine, ClientOk f tr interface tId'
      (Function.update client tId c tId') := by
  intro tId' ht'
  by_cases heq : tId' = tId
  · subst heq
    rw [Function.update_self]
    exact hme
  · rw [Function.update_of_ne heq]
    exact hothers tId' ht' heq

/-- **A client begins.** -/
theorem FeedInv.begin (hf : f.Fits) {tr : List (TraceCmd × TraceShown)} {s : TraceSys} {tId : Nat}
    (h : FeedInv f tr s) (ht : tId < f.clientsPerMachine) (hloc : (s.client tId).loc = .starting) :
    ∃ s' here, f.clientStep s tId = .ok (s', here, []) ∧
      FeedInv f (tr ++ [(.client tId, here, [])]) s' := by
  obtain ⟨interface', hinit, hin, hout⟩ := hf.initCltTrace_spec ht s.interface
  have hc := h.clients tId ht
  have hfirst : f.Owns tId (f.info tId).minSess := owns_iff.mpr ⟨Nat.le_refl _, by
    show tId * f.sessionsPerClient ≤ tId * f.sessionsPerClient + (f.sessionsPerClient - 1)
    omega⟩
  have hissued : ∀ here, issuedBy tId (tr ++ [(.client tId, here, ([] : List RingEvent))])
      = issuedBy tId tr := by
    intro here
    rw [issuedBy_concat, if_pos rfl]
    exact List.append_nil _
  refine ⟨_, _, by
    unfold clientStep
    dsimp only
    rw [hloc]
    dsimp only
    rw [hinit]
    rfl, owned_step _ h.owned ⟨tId, ht, _, hfirst, rfl⟩, ?_, ?_⟩
  · intro w i
    show ∃ p a, Fed f.conf _ (interface' w i) p a
    rw [eventsAt_silent]
    by_cases hmine : ∃ g, f.Owns tId g ∧ (w, i) = (f.wrkr g, f.sI g)
    · obtain ⟨g, hg, hplace⟩ := hmine
      obtain ⟨rfl, rfl⟩ := Prod.mk.inj hplace
      have hquiet : eventsAt (f.wrkr g) (f.sI g) tr = [] := (hc.quiet hloc).2 g hg
      obtain ⟨p, a, hring⟩ := h.rings (f.wrkr g) (f.sI g)
      have hsession : interface' (f.wrkr g) (f.sI g) = _ := hin g hg
      rw [hquiet] at hring ⊢
      rw [hsession]
      refine ⟨p, a, hring.withOps fun j => ?_⟩
      unfold Session.stateAt
      split <;> rfl
    · rw [hout w i fun g hg hplace => hmine ⟨g, hg, hplace⟩]
      exact h.rings w i
  · refine clients_update ⟨?_, ?_, (fun hc => by cases hc), ?_, ?_, ?_⟩ fun tId' ht' hne =>
      hf.other_client h ht hfirst hout [] ht' hne
    · exact ⟨rfl, hfirst, Or.inl rfl⟩
    · intro _ g hg i hi
      rw [hin g hg]
      unfold initSlots
      dsimp only
      rw [if_pos hi]
      exact ⟨rfl, rfl, rfl⟩
    · rw [hissued, (hc.quiet hloc).1]
      rfl
    · rw [hissued]
      exact hc.replays
    · intro g hg
      rw [hissued]
      show (issuedOps (eventsAt _ _ _)).Sublist _
      rw [eventsAt_silent]
      exact hc.home g hg

/-- **A step of the client that issues nothing.** -/
theorem ClientOk.moves {tr : List (TraceCmd × TraceShown)} {interface interface' : Interface}
    {tId : Nat} {c c' : TraceClient} (h : ClientOk f tr interface tId c) {here : Nat × Nat}
    {evs : List RingEvent} (hevs : issuedOps evs = []) (hptr : c'.tracePtr = c.tracePtr)
    (hloc : AtLoc f interface' tId c') (hbegun : c'.loc ≠ .starting)
    (hprepared : ∀ g, f.Owns tId g → ∀ i < f.conf.perSessionReqNum,
      Prepared f tId g ((f.session interface' g).reqArray i)) :
    ClientOk f (tr ++ [(.client tId, here, evs)]) interface' tId c' := by
  have hissued : issuedBy tId (tr ++ [(.client tId, here, evs)]) = issuedBy tId tr := by
    rw [issuedBy_concat, if_pos rfl, hevs, List.append_nil]
  refine ⟨hloc, fun _ => hprepared, fun hc => absurd hc hbegun, ?_, hissued ▸ h.replays, ?_⟩
  · rw [hissued, hptr]
    exact h.ptr
  · intro g hg
    rw [hissued]
    show (issuedOps (eventsAt _ _ _)).Sublist _
    rw [eventsAt_concat, issuedOps_append]
    have hnone : issuedOps (if here = (f.wrkr g, f.sI g) then evs else []) = [] := by
      split
      · exact hevs
      · rfl
    rw [hnone, List.append_nil]
    exact h.home g hg

/-- **A step of the client that issues a request.** -/
theorem ClientOk.issues {tr : List (TraceCmd × TraceShown)} {interface interface' : Interface}
    {tId g : Nat} {c c' : TraceClient} (h : ClientOk f tr interface tId c) {here : Nat × Nat}
    {evs : List RingEvent} {op : ClientOp} (hevs : issuedOps evs = [op]) {entry : TraceEntry}
    (hentry : (f.trace tId)[c.tracePtr]? = some entry)
    (hop : op.opcode = entry.opcode ∧ op.key = entry.keyHash)
    (hg : f.Owns tId g) (hprep : Prepared f tId g op)
    (hptr : c'.tracePtr = (c.tracePtr + 1) % period (f.trace tId))
    (hloc : AtLoc f interface' tId c') (hbegun : c'.loc ≠ .starting)
    (hprepared : ∀ g, f.Owns tId g → ∀ i < f.conf.perSessionReqNum,
      Prepared f tId g ((f.session interface' g).reqArray i)) :
    ClientOk f (tr ++ [(.client tId, here, evs)]) interface' tId c' := by
  have hissued : issuedBy tId (tr ++ [(.client tId, here, evs)]) = issuedBy tId tr ++ [op] := by
    rw [issuedBy_concat, if_pos rfl, hevs]
  refine ⟨hloc, fun _ => hprepared, fun hc => absurd hc hbegun, ?_, ?_, ?_⟩
  · rw [hissued, List.length_append, List.length_singleton, hptr, h.ptr, Nat.mod_add_mod]
  · intro k op' hop'
    rw [hissued, List.getElem?_append] at hop'
    split at hop'
    · exact h.replays k op' hop'
    · rename_i hk
      obtain ⟨hlt, rfl⟩ := List.getElem?_eq_some_iff.mp hop'
      rw [List.length_singleton] at hlt
      have hlast : k = (issuedBy tId tr).length := by omega
      rw [List.getElem_singleton]
      refine ⟨⟨entry, ?_, hop⟩, g, hg, hprep⟩
      rw [hlast, ← h.ptr]
      exact hentry
  · intro g' hg'
    rw [hissued]
    show (issuedOps (eventsAt _ _ _)).Sublist _
    rw [eventsAt_concat, issuedOps_append]
    refine (h.home g' hg').append ?_
    split
    · rw [hevs]
    · exact List.nil_sublist _

/-- The sessions of a client after one of them has changed. -/
theorem Fits.session_set (hf : f.Fits) {tId g g' : Nat} (ht : tId < f.clientsPerMachine)
    (hg : f.Owns tId g) (hg' : f.Owns tId g') (interface : Interface) (x : Session) :
    f.session (f.setSession interface g x) g' = if g' = g then x else f.session interface g' := by
  show f.setSession interface g x (f.wrkr g') (f.sI g') = _
  rw [setSession, set_at]
  by_cases heq : g' = g
  · rw [heq, if_pos rfl, if_pos rfl]
  · rw [if_neg heq, if_neg fun hc =>
      heq (place_inj (hf.session_lt ht hg') (hf.session_lt ht hg) hc)]
    rfl

theorem setSession_of_ne {tId g : Nat} (hg : f.Owns tId g) (interface : Interface) (x : Session) :
    ∀ w i, (∀ g', f.Owns tId g' → (w, i) ≠ (f.wrkr g', f.sI g')) →
      f.setSession interface g x w i = interface w i := by
  intro w i hne
  rw [setSession, set_at, if_neg (hne g hg)]

/-- The slots stay prepared if those of the session that changes do. -/
theorem Fits.prepared_set (hf : f.Fits) {tId g : Nat} (ht : tId < f.clientsPerMachine)
    (hg : f.Owns tId g) {interface : Interface} {x : Session}
    (h : ∀ g, f.Owns tId g → ∀ i < f.conf.perSessionReqNum,
      Prepared f tId g ((f.session interface g).reqArray i))
    (hx : ∀ i < f.conf.perSessionReqNum, Prepared f tId g (x.reqArray i)) :
    ∀ g', f.Owns tId g' → ∀ i < f.conf.perSessionReqNum,
      Prepared f tId g' ((f.session (f.setSession interface g x) g').reqArray i) := by
  intro g' hg' i hi
  rw [hf.session_set ht hg hg']
  by_cases heq : g' = g
  · rw [if_pos heq, heq]
    exact hx i hi
  · rw [if_neg heq]
    exact h g' hg' i hi

/-- A slot that is prepared stays so when its state changes. -/
theorem prepared_setOp {tId g j : Nat} {x : Session} {op : ClientOp}
    (h : ∀ i < f.conf.perSessionReqNum, Prepared f tId g (x.reqArray i))
    (hop : Prepared f tId g op) :
    ∀ i < f.conf.perSessionReqNum, Prepared f tId g ((x.setOp j op).reqArray i) := by
  intro i hi
  show Prepared f tId g (Function.update x.reqArray j op i)
  by_cases hij : i = j
  · rw [hij, Function.update_self]
    exact hop
  · rw [Function.update_of_ne hij]
    exact h i hi

/-- **A client goes to its next session**, or to the first of them in its other loop. -/
theorem FeedInv.visit (hf : f.Fits) {tr : List (TraceCmd × TraceShown)} {s : TraceSys} {tId g : Nat}
    (h : FeedInv f tr s) (ht : tId < f.clientsPerMachine) (hg : f.Owns tId g)
    (hinfo : (s.client tId).trInfo = f.info tId) (hbegun : (s.client tId).loc ≠ .starting)
    {loc : TraceLoc} (hloc : (∃ g', f.Owns tId g' ∧ loc = f.pollVisit s.interface g') ∨
      ∃ g', f.Owns tId g' ∧ loc = f.pushVisit s.interface g') :
    FeedInv f (tr ++ [(.client tId, (f.wrkr g, f.sI g), [])])
      { s with client := Function.update s.client tId { s.client tId with loc := loc } } := by
  have hc := h.clients tId ht
  refine ⟨owned_step _ h.owned ⟨tId, ht, g, hg, rfl⟩, fun w i => ?_,
    clients_update (hc.moves rfl rfl ?_ ?_ (hc.begun hbegun))
      fun tId' ht' hne => hf.other_client h ht hg (fun _ _ _ => rfl) [] ht' hne⟩
  · rw [eventsAt_silent]
    exact h.rings w i
  · rcases hloc with ⟨g', hg', rfl⟩ | ⟨g', hg', rfl⟩
    · exact ⟨hinfo, hg', Or.inl rfl⟩
    · exact ⟨hinfo, hg', Or.inl rfl⟩
  · rcases hloc with ⟨g', -, rfl⟩ | ⟨g', -, rfl⟩
    · exact fun hc => by cases hc
    · exact fun hc => by cases hc

/-- The sessions around session `g`: the next, if there is one, and the first. -/
theorem owns_next {tId g : Nat} (hg : f.Owns tId g) :
    (g + 1 ≤ (f.info tId).maxSess → f.Owns tId (g + 1)) ∧ f.Owns tId (f.info tId).minSess := by
  obtain ⟨hmin, hmax⟩ := owns_iff.mp hg
  exact ⟨fun hnext => owns_iff.mpr ⟨by omega, hnext⟩, owns_iff.mpr ⟨Nat.le_refl _, by omega⟩⟩

/-- **A step of a client in its polling loop.** -/
theorem FeedInv.polls (hf : f.Fits) {tr : List (TraceCmd × TraceShown)} {s : TraceSys}
    {tId g pullPtr : Nat} (h : FeedInv f tr s) (ht : tId < f.clientsPerMachine)
    (hloc : (s.client tId).loc = .polling g pullPtr) :
    ∃ s' here evs, f.clientStep s tId = .ok (s', here, evs) ∧
      FeedInv f (tr ++ [(.client tId, here, evs)]) s' := by
  have hc := h.clients tId ht
  have hat := hc.loc
  unfold AtLoc at hat
  rw [hloc] at hat
  obtain ⟨hinfo, hg, hptr⟩ := hat
  have hbegun : (s.client tId).loc ≠ .starting := by
    rw [hloc]
    exact fun hc => by cases hc
  unfold clientStep
  dsimp only
  rw [hloc]
  dsimp only
  by_cases hst : (f.session s.interface g).stateAt pullPtr = .completed
  · rw [if_pos hst]
    -- the slot is not the one that was polled last, so the pointer is not an old one
    have hnew : pullPtr = (f.session s.interface g).cltPullPtr := by
      rcases hptr with hnew | hold
      · exact hnew
      · rw [hst] at hold
        cases hold
    subst hnew
    obtain ⟨p, a, hring⟩ := h.rings (f.wrkr g) (f.sI g)
    refine ⟨_, _, _, rfl, owned_step _ h.owned ⟨tId, ht, g, hg, rfl⟩,
      rings_set _ h.rings ⟨_, _, hring.poll hf.ring hst⟩, fun tId' ht' => ?_⟩
    by_cases heq : tId' = tId
    · subst heq
      refine hc.moves rfl rfl ?_ hbegun (hf.prepared_set ht hg (hc.begun hbegun) ?_)
      · unfold AtLoc
        rw [hloc]
        refine ⟨hinfo, hg, Or.inr ?_⟩
        rw [hf.session_set ht hg hg, if_pos rfl]
        show ((f.session s.interface g).setState _ .invalid).stateAt _ = _
        rw [Session.setState, Session.stateAt_setOp, Function.update_self]
      · have hslot := hc.begun hbegun g hg _ hring.ring.pull_lt
        exact prepared_setOp (hc.begun hbegun g hg)
          ⟨hslot.valLen, hslot.valueToRead, hslot.rmwIsSuccessful⟩
    · exact hf.other_client h ht hg (setSession_of_ne hg _ _) _ ht' heq
  · rw [if_neg hst]
    refine ⟨_, _, _, rfl, h.visit hf ht hg hinfo hbegun ?_⟩
    rw [hinfo]
    split
    · rename_i hnext
      exact Or.inl ⟨_, (owns_next hg).1 hnext, rfl⟩
    · exact Or.inr ⟨_, (owns_next hg).2, rfl⟩

/-- **A step of a client in its pushing loop.** -/
theorem FeedInv.pushes (hf : f.Fits) {tr : List (TraceCmd × TraceShown)} {s : TraceSys}
    {tId g pushPtr : Nat} (h : FeedInv f tr s) (ht : tId < f.clientsPerMachine)
    (hloc : (s.client tId).loc = .pushing g pushPtr) :
    ∃ s' here evs, f.clientStep s tId = .ok (s', here, evs) ∧
      FeedInv f (tr ++ [(.client tId, here, evs)]) s' := by
  have hc := h.clients tId ht
  have hat := hc.loc
  unfold AtLoc at hat
  rw [hloc] at hat
  obtain ⟨hinfo, hg, hptr⟩ := hat
  have hbegun : (s.client tId).loc ≠ .starting := by
    rw [hloc]
    exact fun hc => by cases hc
  unfold clientStep
  dsimp only
  rw [hloc]
  dsimp only
  by_cases hst : (f.session s.interface g).stateAt pushPtr = .invalid
  · rw [if_pos hst]
    -- the slot is not the one that was filled last
    have hnew : pushPtr = (f.session s.interface g).cltPushPtr := by
      rcases hptr with hnew | hold
      · exact hnew
      · exact absurd hst hold
    subst hnew
    have hend := hf.ends tId ht
    have hat : (s.client tId).tracePtr < period (f.trace tId) := by
      rw [hc.ptr]
      exact Nat.mod_lt _ (by unfold period; omega)
    obtain ⟨entry, hentry⟩ : ∃ entry, (f.trace tId)[(s.client tId).tracePtr]? = some entry :=
      ⟨_, List.getElem?_eq_getElem (by omega)⟩
    rw [hentry]
    dsimp only
    rw [nextPtr_spec hend (hf.short tId ht) hat]
    obtain ⟨p, a, hring⟩ := h.rings (f.wrkr g) (f.sI g)
    have hslot := hc.begun hbegun g hg _ hring.push_lt
    have hprep : Prepared f tId g (fillSlot ((f.session s.interface g).reqArray
        (f.session s.interface g).cltPushPtr) entry) :=
      ⟨hslot.valLen, hslot.valueToRead, hslot.rmwIsSuccessful⟩
    refine ⟨_, _, _, rfl, owned_step _ h.owned ⟨tId, ht, g, hg, rfl⟩,
      rings_set _ h.rings ⟨_, _, hring.issue hf.ring hst rfl⟩, clients_update ?_ fun tId' ht' hne =>
        hf.other_client h ht hg (setSession_of_ne hg _ _) _ ht' hne⟩
    refine hc.issues rfl hentry ⟨rfl, rfl⟩ hg hprep rfl ⟨hinfo, hg, Or.inr ?_⟩
      (fun hc => by cases hc) (hf.prepared_set ht hg (hc.begun hbegun)
        (prepared_setOp (hc.begun hbegun g hg) hprep))
    show (f.session (f.setSession _ _ _) g).stateAt _ ≠ _
    rw [hf.session_set ht hg hg, if_pos rfl]
    show ((f.session s.interface g).setOp _ _).stateAt _ ≠ _
    rw [Session.stateAt_setOp, Function.update_self]
    exact fun hc => by cases hc
  · rw [if_neg hst]
    refine ⟨_, _, _, rfl, h.visit hf ht hg hinfo hbegun ?_⟩
    rw [hinfo]
    split
    · rename_i hnext
      exact Or.inr ⟨_, (owns_next hg).1 hnext, rfl⟩
    · exact Or.inl ⟨_, (owns_next hg).2, rfl⟩

/-- **A step of a client.** -/
theorem FeedInv.client_step (hf : f.Fits) {tr : List (TraceCmd × TraceShown)} {s : TraceSys}
    {tId : Nat} (h : FeedInv f tr s) (ht : tId < f.clientsPerMachine) :
    ∃ s' here evs, f.clientStep s tId = .ok (s', here, evs) ∧
      FeedInv f (tr ++ [(.client tId, here, evs)]) s' := by
  cases hloc : (s.client tId).loc with
  | starting =>
    obtain ⟨s', here, hstep, hinv⟩ := h.begin hf ht hloc
    exact ⟨s', here, [], hstep, hinv⟩
  | polling g pullPtr => exact h.polls hf ht hloc
  | pushing g pushPtr => exact h.pushes hf ht hloc

/-- **A step of a worker**, at a ring where something has happened. -/
theorem FeedInv.worker_step {tr : List (TraceCmd × TraceShown)} {s : TraceSys} {w i : Nat}
    (h : FeedInv f tr s) (hbusy : eventsAt w i tr ≠ []) {x : Session} {evs : List RingEvent}
    (hring : ∃ p a, Fed f.conf (eventsAt w i tr ++ evs) x p a)
    (hsame : Session.Same (s.interface w i) x) (hevs : issuedOps evs = []) {k : TraceCmd}
    (hk : ∀ tId, k ≠ .client tId) :
    FeedInv f (tr ++ [(k, (w, i), evs)]) { s with interface := s.interface.set w i x } := by
  refine ⟨owned_step _ h.owned (h.owned w i hbusy), rings_set _ h.rings hring, fun tId ht => ?_⟩
  have hc := h.clients tId ht
  refine hc.keeps (hk tId) (fun g hg => ?_) (fun g hg hplace => ⟨hevs, fun hloc => ?_⟩)
  · show Session.Same (s.interface (f.wrkr g) (f.sI g)) (s.interface.set w i x (f.wrkr g) (f.sI g))
    rw [set_at]
    by_cases heq : (f.wrkr g, f.sI g) = (w, i)
    · obtain ⟨rfl, rfl⟩ := Prod.mk.inj heq
      rw [if_pos rfl]
      exact hsame
    · rw [if_neg heq]
      exact .refl _
  · obtain ⟨rfl, rfl⟩ := Prod.mk.inj hplace
    exact absurd ((hc.quiet hloc).2 g hg) hbusy

/-- A ring with a slot that is taken is one where something has happened. -/
theorem FeedInv.busy {tr : List (TraceCmd × TraceShown)} {s : TraceSys} (h : FeedInv f tr s)
    {w i j : Nat} (hj : j < f.conf.perSessionReqNum)
    (hst : (s.interface w i).stateAt j ≠ .invalid) : eventsAt w i tr ≠ [] := by
  intro hc
  obtain ⟨p, a, hring⟩ := h.rings w i
  rw [hc] at hring
  exact hst (hring.idle.2.2 j hj)

/-- **A step is taken or it is not possible then**, and it keeps the invariant. -/
theorem FeedInv.step (hf : f.Fits) {tr : List (TraceCmd × TraceShown)} {s : TraceSys}
    (h : FeedInv f tr s) (k : TraceCmd) :
    f.step s k = .error .disabled ∨
      ∃ s' e, f.step s k = .ok (s', e) ∧ FeedInv f (tr ++ [(k, e)]) s' := by
  cases k with
  | client tId =>
    by_cases ht : tId < f.clientsPerMachine
    · obtain ⟨s', here, evs, hstep, hinv⟩ := h.client_step hf ht
      refine Or.inr ⟨s', (here, evs), ?_, hinv⟩
      rw [TraceFeed.step, if_pos ht]
      exact hstep
    · left
      rw [TraceFeed.step, if_neg ht]
  | fill w i =>
    obtain ⟨p, a, hring⟩ := h.rings w i
    rw [TraceFeed.step]
    dsimp only
    by_cases hactive : (s.interface w i).isClientReqActive (s.interface w i).wrkrPullPtr = true
    · have hst : (s.interface w i).stateAt (s.interface w i).wrkrPullPtr = .active := by
        simpa [Session.isClientReqActive] using hactive
      obtain ⟨x, op, evs, hfill⟩ := hring.ring.fill_ok hst i
      obtain ⟨clOp, ⟨key, hclOp⟩, hx, hevs, -⟩ := odFillTraceOp_request hfill
      have hstate : clOp.state = .inProgress := by rw [hclOp]
      have hbusy := h.busy hring.wrkr_lt (by
        rw [hst]
        exact fun hc => by cases hc)
      have hsame : Session.Same (s.interface w i) x := by
        have hop : Session.Same (s.interface w i)
            ((s.interface w i).setOp (s.interface w i).wrkrPullPtr clOp) := by
          refine Session.same_setOp ?_ ?_ ?_
          · rw [hst]
            exact fun hc => by cases hc
          · rw [hstate]
            exact fun hc => by cases hc
          · rw [hclOp]
            exact ⟨rfl, rfl, rfl⟩
        rw [hx]
        exact ⟨hop.pull, hop.push, hop.free, hop.fields⟩
      right
      rw [if_pos hactive, hfill]
      refine ⟨_, _, rfl, h.worker_step hbusy ⟨p + 1, a - 1, ?_⟩ hsame ?_
        (fun tId hc => by cases hc)⟩
      · rw [hx, hevs]
        exact hring.fill hf.ring hst hstate
      · rw [hevs]
        rfl
    · left
      rw [if_neg hactive]
  | complete w i j =>
    obtain ⟨p, a, hring⟩ := h.rings w i
    rw [TraceFeed.step]
    dsimp only
    by_cases hprogress : j < f.conf.perSessionReqNum ∧ (s.interface w i).stateAt j = .inProgress
    · obtain ⟨hj, hst⟩ := hprogress
      have htaken : (s.interface w i).stateAt j ≠ .invalid := by
        rw [hst]
        exact fun hc => by cases hc
      have hsignal : (s.interface w i).signalCompletionToClient f.conf j
          = .ok ((s.interface w i).setState j .completed, [.completed j]) := by
        unfold Session.signalCompletionToClient
        rw [check_eq (decide_eq_true hj), ok_bind, check_eq (beq_iff_eq.mpr hst)]
        rfl
      right
      rw [if_pos ⟨hj, hst⟩, hsignal]
      exact ⟨_, _, rfl, h.worker_step (h.busy hj htaken) ⟨p, a, hring.complete hj hst⟩
        (Session.same_setOp htaken (fun hc => by cases hc) ⟨rfl, rfl, rfl⟩) rfl
        (fun tId hc => by cases hc)⟩
    · left
      rw [if_neg hprogress]

/-! ## Runs -/

/-- All rings are empty. -/
theorem FeedInv.start (hpos : 0 < f.conf.perSessionReqNum) (ops : Nat → Nat → Nat → ClientOp) :
    FeedInv f [] (TraceFeed.start ops) := by
  refine ⟨fun w i hc => absurd rfl hc, fun w i => ?_, fun tId _ => ?_⟩
  · obtain ⟨⟨p, a, hring, -⟩, -⟩ := ClientInv.start f.conf (ops w i) hpos
    refine ⟨p, a, hring.ring, hring.pending, hring.life, ?_⟩
    intro l₁ j op l₂ hc
    exact absurd hc (by simp [eventsAt])
  · refine ⟨trivial, fun hc => absurd rfl hc, fun _ => ⟨rfl, fun _ _ => rfl⟩,
      (Nat.zero_mod _).symm, ?_, fun _ _ => List.Sublist.refl _⟩
    intro k op hop
    cases hop

theorem FeedInv.run (hf : f.Fits) {ops : Nat → Nat → Nat → ClientOp}
    {tr : List (TraceCmd × TraceShown)} {s : TraceSys}
    (hrun : Run f.step (TraceFeed.start ops) tr s) : FeedInv f tr s := by
  refine hrun.invariant (FeedInv f) (.start hf.ringPos ops) ?_
  intro tr s k s' e _ hinv hstep
  rcases hinv.step hf k with hnot | ⟨t, e', hok, hnext⟩
  · rw [hstep] at hnot
    cases hnot
  · rw [hstep] at hok
    cases hok
    exact hnext

/-- What a run shows of the requests. -/
structure Served (f : TraceFeed) (tr : List (TraceCmd × TraceShown)) : Prop where
  /-- the requests of a client are those of its trace, again and again -/
  replays : ∀ tId < f.clientsPerMachine, ∀ k op, (issuedBy tId tr)[k]? = some op →
    Replays f tId k op
  /-- a session gets requests of one client, in the order of their issue -/
  home : ∀ tId < f.clientsPerMachine, ∀ g, f.Owns tId g →
    (issuedOps (f.eventsOf g tr)).Sublist (issuedBy tId tr)
  /-- only the sessions of the clients get any -/
  owned : ∀ w i, eventsAt w i tr ≠ [] → ∃ tId < f.clientsPerMachine, ∃ g, f.Owns tId g ∧
    (w, i) = (f.wrkr g, f.sI g)
  /-- a worker picks them up in that order, and all but those on the ring -/
  fifo : ∀ w i, ∃ pending, issuedOps (eventsAt w i tr) = filledOps (eventsAt w i tr) ++ pending ∧
    pending.length ≤ f.conf.perSessionReqNum
  /-- a slot is filled again when its request was completed and polled -/
  refills : ∀ w i, RefillsInOrder (eventsAt w i tr)

/-- **THE CLIENTS REPLAY THEIR TRACES**, in every run. -/
theorem requests_replay_trace (hf : f.Fits) {ops : Nat → Nat → Nat → ClientOp}
    {tr : List (TraceCmd × TraceShown)} {s : TraceSys}
    (hrun : Run f.step (TraceFeed.start ops) tr s) : f.Served tr := by
  have hinv := FeedInv.run hf hrun
  refine ⟨fun tId ht => (hinv.clients tId ht).replays, fun tId ht => (hinv.clients tId ht).home,
    hinv.owned, fun w i => ?_, fun w i => ?_⟩
  · obtain ⟨p, a, hring⟩ := hinv.rings w i
    have hfits := hring.ring.fits
    refine ⟨_, hring.pending, ?_⟩
    rw [List.length_map, length_window]
    omega
  · obtain ⟨p, a, hring⟩ := hinv.rings w i
    exact hring.refills

/-- **NO CLIENT FAULTS**: in every state that is reached each client can go on, and whatever else a
    worker could do then it can do. -/
theorem trace_clients_never_fault (hf : f.Fits) {ops : Nat → Nat → Nat → ClientOp}
    {tr : List (TraceCmd × TraceShown)} {s : TraceSys}
    (hrun : Run f.step (TraceFeed.start ops) tr s) :
    (∀ tId < f.clientsPerMachine, ∃ r, f.step s (.client tId) = .ok r) ∧
    ∀ k, (∃ r, f.step s k = .ok r) ∨ f.step s k = .error .disabled := by
  have hinv := FeedInv.run hf hrun
  constructor
  · intro tId ht
    obtain ⟨s', here, evs, hstep, -⟩ := hinv.client_step hf ht
    refine ⟨(s', here, evs), ?_⟩
    rw [TraceFeed.step, if_pos ht]
    exact hstep
  · intro k
    rcases hinv.step hf k with hnot | ⟨s', e, hstep, -⟩
    · exact Or.inr hnot
    · exact Or.inl ⟨_, hstep⟩

/-! ## Manufactured traces -/

/-- A trace that ends is one whose period does. -/
theorem period_le {entries : List TraceEntry} (hpos : 0 < entries.length) :
    period (entries ++ [traceEnd]) ≤ entries.length := by
  cases entries with
  | nil => cases hpos
  | cons first rest =>
    have hend : ∃ entry ∈ rest ++ [traceEnd], (entry.opcode == nop) = true :=
      ⟨traceEnd, List.mem_append_right _ List.mem_cons_self, rfl⟩
    have hfind := List.findIdx_lt_length_of_exists hend
    rw [List.length_append, List.length_singleton] at hfind
    show 1 + (rest ++ [traceEnd]).findIdx (·.opcode == nop) ≤ rest.length + 1
    omega

/-- A build whose clients manufacture their traces. -/
structure Manufactured (f : TraceFeed) (tc : TraceConf) (machineId : Nat) (draws : Nat → Draws) :
    Prop where
  trace : ∀ tId < f.clientsPerMachine,
    f.trace tId = (tc.manufactureTrace machineId tId (draws tId)).1
  keys : ∀ tId < f.clientsPerMachine, KeysFit tc machineId tId
  pos : 0 < tc.traceSize
  short : tc.traceSize < 2 ^ 32
  names : tc.namesRmws = true

/-- Its traces are fit to be replayed. -/
theorem Manufactured.fits {tc : TraceConf} {machineId : Nat} {draws : Nat → Draws}
    (h : Manufactured f tc machineId draws) (hf : f.Sized) : f.Fits := by
  have hlen : ∀ tId < f.clientsPerMachine, period (f.trace tId) ≤ tc.traceSize ∧
      (f.trace tId).length = tc.traceSize + 1 := by
    intro tId ht
    have hlength := (manufacture_entries tc machineId tId tc.traceSize
      ⟨0, 0, 0, 0, 0, 0, 0⟩ 0 (draws tId)).length
    rw [h.trace tId ht, manufactureTrace_eq, List.length_append, hlength, List.length_singleton]
    exact ⟨(period_le (by rw [hlength]; exact h.pos)).trans (Nat.le_of_eq hlength), rfl⟩
  refine { hf with ends := fun tId ht => ?_, short := fun tId ht => ?_ }
  · have hend := hlen tId ht
    omega
  · have hend := hlen tId ht
    have hshort := h.short
    omega

/-- **WHAT THE WORKERS GET** from clients that manufacture their traces: requests of the interface,
    to keys of the store, for values of the size of the store. -/
theorem workers_get_requests {tc : TraceConf} {machineId : Nat} {draws : Nat → Draws}
    (h : Manufactured f tc machineId draws) (hf : f.Sized) {ops : Nat → Nat → Nat → ClientOp}
    {tr : List (TraceCmd × TraceShown)} {s : TraceSys}
    (hrun : Run f.step (TraceFeed.start ops) tr s) (w i : Nat) :
    ∀ op ∈ filledOps (eventsAt w i tr), isApiOpcode op.opcode = true ∧
      (∃ keyId < tc.kvsNumKeys, op.key = .ofHash (tc.cityHash keyId)) ∧
      op.valLen = u32 f.conf.valueSize := by
  have hinv := FeedInv.run (h.fits hf) hrun
  intro op hop
  obtain ⟨p, a, hring⟩ := hinv.rings w i
  have hissued : op ∈ issuedOps (eventsAt w i tr) := by
    rw [hring.pending]
    exact List.mem_append_left _ hop
  obtain ⟨tId, ht, g, hg, hplace⟩ := hinv.owned w i (by
    intro hc
    rw [hc] at hop
    cases hop)
  obtain ⟨rfl, rfl⟩ := Prod.mk.inj hplace
  obtain ⟨k, hk⟩ := List.mem_iff_getElem?.mp (((hinv.clients tId ht).home g hg).subset hissued)
  obtain ⟨⟨entry, hentry, hopcode, hkey⟩, g', -, hprep⟩ := (hinv.clients tId ht).replays k op hk
  have hmade := manufacture_entries tc machineId tId tc.traceSize ⟨0, 0, 0, 0, 0, 0, 0⟩ 0
    (draws tId)
  have hkeys := manufacture_keys (h.keys tId ht) tc.traceSize ⟨0, 0, 0, 0, 0, 0, 0⟩ 0 (draws tId)
    (h.keys tId ht).window
  -- the end of the trace is never read
  have hmem : entry ∈ (tc.manufacture machineId tId tc.traceSize ⟨0, 0, 0, 0, 0, 0, 0⟩ 0
      (draws tId)).1 := by
    have hlt : k % period (f.trace tId) < period (f.trace tId) :=
      Nat.mod_lt _ (by unfold period; omega)
    have hperiod := ((h.fits hf).ends tId ht)
    have hlength := hmade.length
    rw [h.trace tId ht, manufactureTrace_eq] at hentry hlt hperiod
    rw [List.length_append, List.length_singleton] at hperiod
    rw [List.getElem?_append_left (by omega)] at hentry
    exact List.mem_of_getElem? hentry
  obtain ⟨hhash, hapi⟩ := hmade.sound entry hmem
  refine ⟨?_, ⟨entry.keyId, (hkeys entry hmem).1, hkey.trans hhash⟩, hprep.valLen⟩
  rw [hopcode]
  rcases hapi with hapi | ⟨-, hnames⟩
  · exact hapi
  · rw [h.names] at hnames
    cases hnames

end TraceFeed

/-! ## A small build

Two clients with two sessions each, that replay the traces of `twoThreads`. -/

open TraceFeed

def twoClients : TraceFeed where
  conf := { sessionConf 2 with sessionsPerMachine := 4 }
  sessionsPerThread := 2
  clientsPerMachine := 2
  valuePtr tId wrkr := 10 * tId + wrkr
  trace tId := (twoThreads.manufactureTrace 0 tId someDraws).1

theorem twoClients_sized : twoClients.Sized := ⟨by decide, by decide, by decide, by decide⟩

theorem twoClients_manufactured : Manufactured twoClients twoThreads 0 fun _ => someDraws :=
  ⟨fun _ _ => rfl, fun tId ht => twoThreads_fits 0 tId (by decide) ht, by decide, by decide,
    by decide⟩

/-- Client 1 begins, finds nothing to poll, and gives each of its sessions a request; worker 1
    serves the first of them, and on its next round the client polls that one and begins its trace
    anew. -/
def oneRound : List TraceCmd :=
  [.client 1, .client 1, .client 1, .client 1, .client 1, .client 1, .fill 1 0, .client 1,
    .complete 1 0 0, .client 1, .client 1, .client 1, .client 1]

theorem oneRound_run : ∃ tr s, Run twoClients.step (TraceFeed.start fun _ _ _ => freeOp) tr s ∧
    (issuedBy 1 tr).map ClientOp.key = [20, 21, 20].map MicaKey.ofHash ∧
      (filledOps (eventsAt 1 0 tr)).map ClientOp.key = [20].map MicaKey.ofHash := by
  have h : (do
      let r ← exec twoClients.step (TraceFeed.start fun _ _ _ => freeOp) oneRound
      return decide ((issuedBy 1 r.1).map ClientOp.key = [20, 21, 20].map MicaKey.ofHash ∧
        (filledOps (eventsAt 1 0 r.1)).map ClientOp.key = [20].map MicaKey.ofHash)) = .ok true := by
    decide +kernel
  obtain ⟨⟨tr, s⟩, hexec, h⟩ := bind_eq_ok.mp h
  obtain ⟨hissued, hfilled⟩ := of_decide_eq_true (Except.ok.inj h)
  exact ⟨tr, s, run_of_exec hexec, hissued, hfilled⟩

/-- The third request is the first of the trace again. -/
theorem requests_replay_trace_oneRound : ∃ tr s,
    Run twoClients.step (TraceFeed.start fun _ _ _ => freeOp) tr s ∧
      (issuedBy 1 tr).map ClientOp.key = [20, 21, 20].map MicaKey.ofHash ∧
      twoClients.Served tr := by
  obtain ⟨tr, s, hrun, hissued, -⟩ := oneRound_run
  exact ⟨tr, s, hrun, hissued,
    requests_replay_trace (twoClients_manufactured.fits twoClients_sized) hrun⟩

/-- Client 0 can begin then. -/
theorem trace_clients_never_fault_oneRound : ∃ tr s,
    Run twoClients.step (TraceFeed.start fun _ _ _ => freeOp) tr s ∧
      (issuedBy 1 tr).map ClientOp.key = [20, 21, 20].map MicaKey.ofHash ∧
      ∃ r, twoClients.step s (.client 0) = .ok r := by
  obtain ⟨tr, s, hrun, hissued, -⟩ := oneRound_run
  exact ⟨tr, s, hrun, hissued, (trace_clients_never_fault
    (twoClients_manufactured.fits twoClients_sized) hrun).1 0 (by decide)⟩

/-- The request that worker 1 got. -/
theorem workers_get_requests_oneRound : ∃ tr s,
    Run twoClients.step (TraceFeed.start fun _ _ _ => freeOp) tr s ∧
      (filledOps (eventsAt 1 0 tr)).map ClientOp.key = [20].map MicaKey.ofHash ∧
      ∀ op ∈ filledOps (eventsAt 1 0 tr), isApiOpcode op.opcode = true ∧
        (∃ keyId < 1000, op.key = .ofHash keyId) ∧ op.valLen = 32 := by
  obtain ⟨tr, s, hrun, -, hfilled⟩ := oneRound_run
  exact ⟨tr, s, hrun, hfilled,
    workers_get_requests twoClients_manufactured twoClients_sized hrun 1 0⟩

end Odyssey
