/-
  THE SET-UP OF A BENCHMARK in `od_client.c`.

  The first client (`machine_id == 0 && t_id == 0`) sets the store up: it issues asynchronous
  writes in its session 0, and last of all releases a flag.  It does not wait for them.  The other
  clients read the flag, each in its first session, until they see it set.

  * `waitForInit` is the wait of the benchmarks that have one, with the flag as a parameter.
  * `WaitPhases` is what holds while clients wait: their sessions have not begun.
  * `SetUpBy` says how a benchmark sets its store up, and `SettingUp` what holds until that was
    executed, if no other session of the first client begins before (`SetUpFirst`): the requests
    that are left lead to the store that is set up, and every session is where it began, but for
    the first pass of session 0.
-/
import Odyssey.ClientSessions

namespace Odyssey

open Lib

variable {S L R E : Type} {d : Deployment}

/-! ## The wait -/

/-- Where a client is: before `blocking_read` of the flag, in it, or in the loop over its
    sessions. -/
inductive InitPhase
  | waiting
  | reading
  | running
  deriving DecidableEq

/-- What the sessions of a client share: where it is, and `queue_id_cntr`. -/
structure BenchClient where
  phase : InitPhase
  queueIdCntr : Nat

namespace Deployment

variable (d : Deployment)

/-- `MOD_INCR` of `queue_id_cntr`; there are as many queues, or lists, as sessions. -/
def incrQueueId (cntr : Nat) : Nat :=
  if u32 (cntr + 1) = d.globalSessionNum then 0 else u32 (cntr + 1)

theorem incrQueueId_lt {cntr : Nat} (hcntr : cntr < d.globalSessionNum) :
    d.incrQueueId cntr < d.globalSessionNum := by
  have hle : u32 (cntr + 1) ≤ cntr + 1 := Nat.mod_le ..
  rw [Deployment.incrQueueId]
  split
  · omega
  · omega

/-- The session in which a client waits, `t_id * SESSIONS_PER_CLIENT` on its machine. -/
def firstSession (client : Nat) : Nat :=
  client / d.clientsPerMachine * d.sessionsPerMachine +
    u16 (client % d.clientsPerMachine * d.sessionsPerClient)

/-- `ms_wait_for_init` and `hm_wait_for_init`: the flag is read in the first session of the client,
    until it is `done`. -/
def waitForInit (readFlag : R) (flag done : Nat) (g : Nat) (client : BenchClient)
    (x : Issuer L R) : Outcome (BenchClient × L × List R) :=
  if g = d.firstSession (d.clientOf g) then
    match client.phase with
    | .waiting => .ok ({ client with phase := .reading }, x.info, [readFlag])
    | .reading =>
      if x.queue = [] then
        .ok ({ client with phase := if flag = done then .running else .waiting }, x.info, [])
      else .error .waiting
    | .running => .error .disabled
  else .error .disabled

end Deployment

/-- What a pass of a client that waits does. -/
theorem waitForInit_cases {readFlag : R} {flag done g : Nat} {client client' : BenchClient}
    {x : Issuer L R} {info : L} {requests : List R}
    (h : d.waitForInit readFlag flag done g client x = .ok (client', info, requests)) :
    g = d.firstSession (d.clientOf g) ∧ info = x.info ∧
      ((client.phase = .waiting ∧ client' = { client with phase := .reading } ∧
          requests = [readFlag]) ∨
        (client.phase = .reading ∧ x.queue = [] ∧ requests = [] ∧
          client' = { client with phase := if flag = done then .running else .waiting })) := by
  unfold Deployment.waitForInit at h
  split at h
  · rename_i hfirst
    cases hphase : client.phase with
    | waiting =>
      rw [hphase] at h
      cases h
      exact ⟨hfirst, rfl, Or.inl ⟨rfl, rfl, rfl⟩⟩
    | reading =>
      rw [hphase] at h
      dsimp only at h
      split at h
      · rename_i hempty
        cases h
        exact ⟨hfirst, rfl, Or.inr ⟨rfl, hempty, rfl, rfl⟩⟩
      · nomatch h
    | running =>
      rw [hphase] at h
      nomatch h
  · nomatch h

/-! ## While clients wait -/

/-- A client that waits has not begun, and asks for the flag in one session. -/
structure WaitPhases (d : Deployment) (idle : L → Prop) (ask : R) (s : Sessions S BenchClient L R) :
    Prop where
  idle : ∀ g, g < d.globalSessionNum → (s.shared (d.clientOf g)).phase ≠ .running →
    idle (s.session g).info ∧ ((s.session g).queue = [] ∨ (s.session g).queue = [ask])
  asking : ∀ g, g < d.globalSessionNum → (s.session g).queue = [ask] →
    (s.shared (d.clientOf g)).phase = .reading ∧ g = d.firstSession (d.clientOf g)

namespace WaitPhases

variable {idle : L → Prop} {ask : R} {s : Sessions S BenchClient L R} {g : Nat}

/-- A session whose requests are not of the flag is one of a client that runs. -/
theorem running_of_queue (h : WaitPhases d idle ask s) (hg : g < d.globalSessionNum)
    (hne : (s.session g).queue ≠ []) (hask : (s.session g).queue ≠ [ask]) :
    (s.shared (d.clientOf g)).phase = .running := by
  by_contra hc
  rcases (h.idle g hg hc).2 with hempty | hreq
  · exact hne hempty
  · exact hask hreq

/-- A session that has begun is one of a client that runs. -/
theorem running_of_begun (h : WaitPhases d idle ask s) (hg : g < d.globalSessionNum)
    (hbegun : ¬ idle (s.session g).info) : (s.shared (d.clientOf g)).phase = .running := by
  by_contra hc
  exact hbegun (h.idle g hg hc).1

/-- A step of a client that runs. -/
theorem running (h : WaitPhases d idle ask s) {store : S} {shared : Nat → BenchClient}
    {x : Issuer L R} (hphase : ∀ c, (shared c).phase = (s.shared c).phase)
    (hrunning : (s.shared (d.clientOf g)).phase = .running) (hask : x.queue ≠ [ask]) :
    WaitPhases d idle ask ⟨store, shared, Function.update s.session g x⟩ where
  idle g' hg' hwaiting := by
    show idle (Function.update s.session g x g').info ∧
      ((Function.update s.session g x g').queue = [] ∨
        (Function.update s.session g x g').queue = [ask])
    have hold : (s.shared (d.clientOf g')).phase ≠ .running := by
      rw [← hphase]
      exact hwaiting
    have hne : g' ≠ g := by
      rintro rfl
      exact hold hrunning
    rw [Function.update_of_ne hne]
    exact h.idle g' hg' hold
  asking g' hg' hreq := by
    show (shared (d.clientOf g')).phase = _ ∧ _
    change (Function.update s.session g x g').queue = _ at hreq
    have hne : g' ≠ g := by
      rintro rfl
      rw [Function.update_self] at hreq
      exact hask hreq
    rw [Function.update_of_ne hne] at hreq
    rw [hphase]
    exact h.asking g' hg' hreq

/-- The flag was read. -/
theorem answered (h : WaitPhases d idle ask s) {store : S} {x : Issuer L R}
    (hidle : idle x.info) (hqueue : x.queue = []) :
    WaitPhases d idle ask ⟨store, s.shared, Function.update s.session g x⟩ where
  idle g' hg' hwaiting := by
    show idle (Function.update s.session g x g').info ∧
      ((Function.update s.session g x g').queue = [] ∨
        (Function.update s.session g x g').queue = [ask])
    by_cases hne : g' = g
    · rw [hne, Function.update_self]
      exact ⟨hidle, Or.inl hqueue⟩
    · rw [Function.update_of_ne hne]
      exact h.idle g' hg' hwaiting
  asking g' hg' hreq := by
    change (Function.update s.session g x g').queue = _ at hreq
    have hne : g' ≠ g := by
      rintro rfl
      rw [Function.update_self, hqueue] at hreq
      nomatch hreq
    rw [Function.update_of_ne hne] at hreq
    exact h.asking g' hg' hreq

/-- What a pass of a client that waits leaves in its session. -/
theorem asks (h : WaitPhases d idle ask s) (hg : g < d.globalSessionNum)
    (hwaits : (s.shared (d.clientOf g)).phase ≠ .running) {flag done : Nat} {client : BenchClient}
    {info : L} {requests : List R} (hpass : d.waitForInit ask flag done g (s.shared (d.clientOf g))
      (s.session g) = .ok (client, info, requests)) :
    ((s.session g).queue ++ requests = [ask] ∧ client.phase = .reading) ∨
      (s.session g).queue ++ requests = [] := by
  obtain ⟨-, hqueue⟩ := h.idle g hg hwaits
  obtain ⟨-, -, ⟨hphase, rfl, rfl⟩ | ⟨-, hempty, rfl, -⟩⟩ := waitForInit_cases hpass
  · rcases hqueue with hempty | hasked
    · exact Or.inl ⟨by rw [hempty]; rfl, rfl⟩
    · have hreading := (h.asking g hg hasked).1
      rw [hphase] at hreading
      nomatch hreading
  · exact Or.inr (by rw [hempty]; rfl)

/-- A pass of a client that waits. -/
theorem waitPass (h : WaitPhases d idle ask s) (hg : g < d.globalSessionNum)
    (hwaits : (s.shared (d.clientOf g)).phase ≠ .running) {store : S} {flag done issued : Nat}
    {client : BenchClient} {info : L} {requests : List R}
    (hpass : d.waitForInit ask flag done g (s.shared (d.clientOf g)) (s.session g)
      = .ok (client, info, requests)) :
    WaitPhases d idle ask ⟨store, Function.update s.shared (d.clientOf g) client,
      Function.update s.session g ⟨info, (s.session g).queue ++ requests, issued⟩⟩ := by
  have hnew := h.asks hg hwaits hpass
  obtain ⟨hfirst, rfl, -⟩ := waitForInit_cases hpass
  constructor
  · intro g' hg' hidle
    show idle (Function.update s.session g _ g').info ∧
      ((Function.update s.session g _ g').queue = [] ∨
        (Function.update s.session g _ g').queue = [ask])
    change (Function.update s.shared (d.clientOf g) _ (d.clientOf g')).phase ≠ _ at hidle
    by_cases hne : g' = g
    · rw [hne, Function.update_self]
      refine ⟨(h.idle g hg hwaits).1, ?_⟩
      rcases hnew with ⟨hreq, -⟩ | hreq
      · exact Or.inr hreq
      · exact Or.inl hreq
    · rw [Function.update_of_ne hne]
      refine h.idle g' hg' ?_
      by_cases hsame : d.clientOf g' = d.clientOf g
      · rw [hsame]
        exact hwaits
      · rw [Function.update_of_ne hsame] at hidle
        exact hidle
  · intro g' hg' hreq
    show (Function.update s.shared (d.clientOf g) _ (d.clientOf g')).phase = _ ∧ _
    change (Function.update s.session g _ g').queue = _ at hreq
    by_cases hne : g' = g
    · rw [hne, Function.update_self] at hreq
      rw [hne, Function.update_self]
      rcases hnew with ⟨-, hphase⟩ | hempty
      · exact ⟨hphase, hfirst⟩
      · nomatch hempty.symm.trans hreq
    · rw [Function.update_of_ne hne] at hreq
      obtain ⟨hreading, hfirst'⟩ := h.asking g' hg' hreq
      -- a client asks in one session only
      have hother : d.clientOf g' ≠ d.clientOf g := by
        intro hsame
        refine hne ?_
        rw [hfirst', hsame]
        exact hfirst.symm
      rw [Function.update_of_ne hother]
      exact ⟨hreading, hfirst'⟩

end WaitPhases

/-! ## The set-up -/

/-- How a benchmark sets its store up. -/
structure SetUpBy (d : Deployment) (p : Service S BenchClient L R E) where
  /-- what the sessions hold at first -/
  init : Nat → L
  /-- they have not begun -/
  idle : L → Prop
  ask : R
  release : R
  writes : List R
  apply : S → R → S
  /-- the flag is not set -/
  unset : S → Prop
  flag : L → Nat
  done : Nat
  /-- what session 0 holds, with the number of its requests and those behind the set-up -/
  first : L → Nat → List R → Prop
  /-- a step that shows nothing -/
  quiet : E → Prop
  clientOf_eq : p.clientOf = d.clientOf
  release_ne : release ≠ ask
  idle_init : ∀ g, idle (init g)
  flag_init : ∀ g, flag (init g) ≠ done
  first_init : ∀ n, first (init 0) n []
  pass_lt : ∀ {g c x r}, p.pass g c x = .ok r → g < d.globalSessionNum
  first_pass : ∀ {c x requests w c' info more e}, c.phase = .running →
    first x.info x.issued requests → x.queue = w ++ release :: requests →
    x.queue.length ≤ x.issued → x.issued < 2 ^ 32 → p.pass 0 c x = .ok (c', info, more, e) →
    c'.phase = .running ∧ c'.queueIdCntr = c.queueIdCntr ∧ quiet e ∧
      first info (x.issued + more.length) (requests ++ more)
  wait_pass : ∀ {g c x c' info more e}, c.phase ≠ .running → p.pass g c x = .ok (c', info, more, e) →
    quiet e ∧ d.waitForInit ask (flag x.info) done g c x = .ok (c', info, more)
  serve_write : ∀ {spurious store info r store' info' e}, r ∈ writes →
    p.serve spurious store info r = (store', info', e) →
    store' = apply store r ∧ info' = info ∧ quiet e
  serve_ask : ∀ {spurious store g store' info' e}, unset store →
    p.serve spurious store (init g) ask = (store', info', e) →
    store' = store ∧ info' = init g ∧ quiet e
  unset_apply : ∀ {store r}, r ∈ writes → unset store → unset (apply store r)

/-- No other session of the first client begins before the `requests` of the set-up were executed. -/
def SetUpFirst (d : Deployment) (requests : Nat) (tr : List (Turn × E)) : Prop :=
  ∀ tr₁ t tr₂, tr = tr₁ ++ t :: tr₂ → ∀ g, t.1 = .client g → d.clientOf g = 0 → g ≠ 0 →
    requests ≤ Service.servedOf 0 tr₁

/-! ## While the set-up is executed -/

variable {p : Service S BenchClient L R E}

/-- **Before the store is set up**: the requests `w` of the set-up are left to do. -/
structure SettingUp (b : SetUpBy d p) (store₀ : S) (tr : List (Turn × E))
    (s : Sessions S BenchClient L R) (w : List R) : Prop where
  first : ∃ requests, (s.session 0).queue = w ++ b.release :: requests ∧
    b.first (s.session 0).info (s.session 0).issued requests
  others : ∀ g, g ≠ 0 → (s.session g).info = b.init g ∧
    ((s.session g).queue = [] ∨ (s.session g).queue = [b.ask])
  outside : ∀ g, d.globalSessionNum ≤ g → (s.session g).queue = [] ∧ (s.session g).issued = 0
  phases : WaitPhases d b.idle b.ask s
  running : ∀ c, (s.shared c).phase = .running ↔ c = 0
  cntr_lt : ∀ c, (s.shared c).queueIdCntr < d.globalSessionNum
  writes : ∀ r ∈ w, r ∈ b.writes
  stored : w.foldl b.apply s.store = b.writes.foldl b.apply store₀
  unset : b.unset s.store
  executed : Service.servedOf 0 tr + w.length = b.writes.length
  events : ∀ t ∈ tr, b.quiet t.2

/-- How the sessions are when the first client has issued the set-up. -/
structure SetUpBy.Start (b : SetUpBy d p) (s : Sessions S BenchClient L R) : Prop where
  first : s.session 0 = ⟨b.init 0, b.writes ++ [b.release], b.writes.length + 1⟩
  others : ∀ g, g ≠ 0 → s.session g = ⟨b.init g, [], 0⟩
  running : ∀ c, (s.shared c).phase = .running ↔ c = 0
  cntr_lt : ∀ c, (s.shared c).queueIdCntr < d.globalSessionNum
  unset : b.unset s.store

namespace SettingUp

variable {b : SetUpBy d p} {store₀ : S} {tr : List (Turn × E)} {s : Sessions S BenchClient L R}
  {w : List R} {g : Nat}

theorem clientOf_zero (d : Deployment) : d.clientOf 0 = 0 := by
  unfold Deployment.clientOf Deployment.machineId Deployment.realSessI
  rw [Nat.zero_div, Nat.zero_mod, Nat.zero_div, Nat.zero_mul]

theorem queue_ne_ask (b : SetUpBy d p) (w requests : List R) : w ++ b.release :: requests ≠ [b.ask] := by
  intro hc
  have hmem : b.release ∈ [b.ask] := by
    rw [← hc]
    exact List.mem_append_right _ List.mem_cons_self
  exact b.release_ne (List.mem_singleton.mp hmem)

/-- The start. -/
theorem start (b : SetUpBy d p) (hpos : 0 < d.globalSessionNum) (h : b.Start s) :
    SettingUp b s.store [] s b.writes where
  first := by
    rw [h.first]
    exact ⟨[], rfl, b.first_init _⟩
  others g hg := by
    rw [h.others g hg]
    exact ⟨rfl, Or.inl rfl⟩
  outside g hg := by
    have hne : g ≠ 0 := by
      rintro rfl
      exact absurd hpos (Nat.not_lt.mpr hg)
    rw [h.others g hne]
    exact ⟨rfl, rfl⟩
  phases := by
    constructor
    · intro g hg hidle
      have hne : g ≠ 0 := by
        rintro rfl
        refine hidle ?_
        rw [clientOf_zero]
        exact (h.running 0).mpr rfl
      rw [h.others g hne]
      exact ⟨b.idle_init g, Or.inl rfl⟩
    · intro g hg hreq
      by_cases hne : g = 0
      · rw [hne, h.first] at hreq
        exact absurd hreq (queue_ne_ask b _ _)
      · rw [h.others g hne] at hreq
        nomatch hreq
  running := h.running
  cntr_lt := h.cntr_lt
  writes _ hr := hr
  stored := rfl
  unset := h.unset
  executed := Nat.zero_add _
  events t ht := nomatch ht

theorem events_concat (h : SettingUp b store₀ tr s w) {turn : Turn} {e : E} (he : b.quiet e) :
    ∀ t ∈ tr ++ [(turn, e)], b.quiet t.2 := by
  intro t ht
  rcases List.mem_append.mp ht with ht | ht
  · exact h.events t ht
  · rw [List.mem_singleton.mp ht]
    exact he

/-- A step of session 0, whose client runs. -/
theorem first_step (h : SettingUp b store₀ tr s w) (hpos : 0 < d.globalSessionNum) {turn : Turn}
    {e : E} (he : b.quiet e) {store : S} {shared : Nat → BenchClient} {x : Issuer L R}
    {w' : List R}
    (hfirst : ∃ requests, x.queue = w' ++ b.release :: requests ∧ b.first x.info x.issued requests)
    (hshared : ∀ c, (shared c).phase = (s.shared c).phase ∧
      (shared c).queueIdCntr = (s.shared c).queueIdCntr)
    (hwrites : ∀ r ∈ w', r ∈ b.writes)
    (hstored : w'.foldl b.apply store = b.writes.foldl b.apply store₀) (hunset : b.unset store)
    (hexecuted : Service.servedOf 0 (tr ++ [(turn, e)]) + w'.length = b.writes.length) :
    SettingUp b store₀ (tr ++ [(turn, e)]) ⟨store, shared, Function.update s.session 0 x⟩ w' where
  first := by
    show ∃ requests, (Function.update s.session 0 x 0).queue = _ ∧
      b.first (Function.update s.session 0 x 0).info (Function.update s.session 0 x 0).issued _
    rw [Function.update_self]
    exact hfirst
  others g hg := by
    show (Function.update s.session 0 x g).info = _ ∧ _
    simp only [Function.update_of_ne hg]
    exact h.others g hg
  outside g hg := by
    have hne : g ≠ 0 := by
      rintro rfl
      exact absurd hpos (Nat.not_lt.mpr hg)
    show (Function.update s.session 0 x g).queue = _ ∧ (Function.update s.session 0 x g).issued = _
    rw [Function.update_of_ne hne]
    exact h.outside g hg
  phases := by
    obtain ⟨requests, hqueue, -⟩ := hfirst
    refine h.phases.running (fun c => (hshared c).1) ?_ ?_
    · rw [clientOf_zero]
      exact (h.running 0).mpr rfl
    · rw [hqueue]
      exact queue_ne_ask b _ _
  running c := by
    show (shared c).phase = _ ↔ _
    rw [(hshared c).1]
    exact h.running c
  cntr_lt c := by
    show (shared c).queueIdCntr < _
    rw [(hshared c).2]
    exact h.cntr_lt c
  writes := hwrites
  stored := hstored
  unset := hunset
  executed := hexecuted
  events := h.events_concat he

/-- A step of another session, whose client waits. -/
theorem other_step (h : SettingUp b store₀ tr s w) (hg : g ≠ 0) (hlt : g < d.globalSessionNum)
    {turn : Turn} {e : E} (he : b.quiet e) {shared : Nat → BenchClient} {x : Issuer L R}
    (hinfo : x.info = b.init g) (hqueue : x.queue = [] ∨ x.queue = [b.ask])
    (hphases : WaitPhases d b.idle b.ask ⟨s.store, shared, Function.update s.session g x⟩)
    (hrunning : ∀ c, (shared c).phase = .running ↔ c = 0)
    (hcntr : ∀ c, (shared c).queueIdCntr = (s.shared c).queueIdCntr)
    (hexecuted : Service.servedOf 0 (tr ++ [(turn, e)]) = Service.servedOf 0 tr) :
    SettingUp b store₀ (tr ++ [(turn, e)])
      ⟨s.store, shared, Function.update s.session g x⟩ w where
  first := by
    show ∃ requests, (Function.update s.session g x 0).queue = _ ∧
      b.first (Function.update s.session g x 0).info (Function.update s.session g x 0).issued _
    rw [Function.update_of_ne hg.symm]
    exact h.first
  others g' hg' := by
    show (Function.update s.session g x g').info = _ ∧ ((Function.update s.session g x g').queue = _ ∨
      (Function.update s.session g x g').queue = _)
    by_cases hne : g' = g
    · rw [hne, Function.update_self]
      exact ⟨hinfo, hqueue⟩
    · rw [Function.update_of_ne hne]
      exact h.others g' hg'
  outside g' hg' := by
    show (Function.update s.session g x g').queue = _ ∧ (Function.update s.session g x g').issued = _
    rw [Function.update_of_ne (by omega)]
    exact h.outside g' hg'
  phases := hphases
  running := hrunning
  cntr_lt c := by
    show (shared c).queueIdCntr < _
    rw [hcntr]
    exact h.cntr_lt c
  writes := h.writes
  stored := h.stored
  unset := h.unset
  executed := by
    rw [hexecuted]
    exact h.executed
  events := h.events_concat he

theorem servedOf_client (tr : List (Turn × E)) (g : Nat) (e : E) :
    Service.servedOf 0 (tr ++ [(Turn.client g, e)]) = Service.servedOf 0 tr := by
  rw [Service.servedOf, List.countP_append]
  rfl

/-- A write of the set-up. -/
theorem write {r : R} (h : SettingUp b store₀ tr s (r :: w)) (hpos : 0 < d.globalSessionNum)
    {spurious : Bool} {queue : List R} {store : S} {info : L} {e : E}
    (hqueue : (s.session 0).queue = r :: queue)
    (hserve : p.serve spurious s.store (s.session 0).info r = (store, info, e)) :
    SettingUp b store₀ (tr ++ [(.store 0 spurious, e)])
      ⟨store, s.shared, Function.update s.session 0 ⟨info, queue, (s.session 0).issued⟩⟩ w := by
  have hr := h.writes r List.mem_cons_self
  obtain ⟨rfl, rfl, he⟩ := b.serve_write hr hserve
  obtain ⟨requests, hfirst, hpass⟩ := h.first
  rw [hqueue] at hfirst
  refine h.first_step hpos he ⟨requests, (List.cons.inj hfirst).2, hpass⟩ (fun c => ⟨rfl, rfl⟩)
    (fun r hr => h.writes r (List.mem_cons_of_mem _ hr)) h.stored (b.unset_apply hr h.unset) ?_
  have hleft := h.executed
  rw [List.length_cons] at hleft
  have hmore : Service.servedOf 0 (tr ++ [(Turn.store 0 spurious, e)])
      = Service.servedOf 0 tr + 1 := by
    rw [Service.servedOf, List.countP_append]
    rfl
  rw [hmore]
  omega

/-- **A pass of the first client** in session 0. -/
theorem firstPass (h : SettingUp b store₀ tr s w) (hpos : 0 < d.globalSessionNum)
    (hle : (s.session 0).queue.length ≤ (s.session 0).issued)
    (hfew : (s.session 0).issued < 2 ^ 32) {client : BenchClient} {info : L} {more : List R} {e : E}
    (hpass : p.pass 0 (s.shared 0) (s.session 0) = .ok (client, info, more, e)) :
    SettingUp b store₀ (tr ++ [(.client 0, e)]) ⟨s.store, Function.update s.shared 0 client,
      Function.update s.session 0
        ⟨info, (s.session 0).queue ++ more, (s.session 0).issued + more.length⟩⟩ w := by
  obtain ⟨requests, hqueue, hfirst⟩ := h.first
  obtain ⟨hphase, hcntr, he, hmore⟩ :=
    b.first_pass ((h.running 0).mpr rfl) hfirst hqueue hle hfew hpass
  refine h.first_step hpos he ⟨requests ++ more, ?_, hmore⟩ (fun c => ?_) h.writes h.stored h.unset ?_
  · show (s.session 0).queue ++ _ = _
    rw [hqueue, List.append_assoc]
    rfl
  · by_cases hc : c = 0
    · rw [hc, Function.update_self]
      exact ⟨hphase.trans ((h.running 0).mpr rfl).symm, hcntr⟩
    · rw [Function.update_of_ne hc]
      exact ⟨rfl, rfl⟩
  · rw [servedOf_client]
    exact h.executed

/-- **A pass of a client that waits.** -/
theorem waitPass (h : SettingUp b store₀ tr s w) (hg : g ≠ 0) (hlt : g < d.globalSessionNum)
    (hother : d.clientOf g ≠ 0) {client : BenchClient} {info : L} {more : List R} {e : E}
    (hpass : p.pass g (s.shared (d.clientOf g)) (s.session g) = .ok (client, info, more, e)) :
    SettingUp b store₀ (tr ++ [(.client g, e)])
      ⟨s.store, Function.update s.shared (d.clientOf g) client, Function.update s.session g
        ⟨info, (s.session g).queue ++ more, (s.session g).issued + more.length⟩⟩ w := by
  obtain ⟨hinfo, -⟩ := h.others g hg
  have hidle : (s.shared (d.clientOf g)).phase ≠ .running := fun hc =>
    hother ((h.running _).mp hc)
  obtain ⟨he, hwait⟩ := b.wait_pass hidle hpass
  have hcases := waitForInit_cases hwait
  -- the flag that it has read was not set
  have hflag : b.flag (s.session g).info ≠ b.done := by
    rw [hinfo]
    exact b.flag_init g
  rw [if_neg hflag] at hcases
  have hclient : client.phase ≠ .running ∧
      client.queueIdCntr = (s.shared (d.clientOf g)).queueIdCntr := by
    obtain ⟨-, -, ⟨-, rfl, -⟩ | ⟨-, -, -, rfl⟩⟩ := hcases
    · exact ⟨(fun hc => nomatch hc), rfl⟩
    · exact ⟨(fun hc => nomatch hc), rfl⟩
  refine h.other_step hg hlt he ?_ ?_ (h.phases.waitPass hlt hidle hwait) (fun c => ?_) (fun c => ?_)
    (servedOf_client ..)
  · obtain ⟨-, rfl, -⟩ := hcases
    exact hinfo
  · rcases h.phases.asks hlt hidle hwait with ⟨hreq, -⟩ | hreq
    · exact Or.inr hreq
    · exact Or.inl hreq
  · by_cases hc : c = d.clientOf g
    · rw [hc, Function.update_self]
      exact ⟨fun hrun => absurd hrun hclient.1, fun hzero => absurd hzero hother⟩
    · rw [Function.update_of_ne hc]
      exact h.running c
  · by_cases hc : c = d.clientOf g
    · rw [hc, Function.update_self]
      exact hclient.2
    · rw [Function.update_of_ne hc]

/-- The flag is read, and is not set yet. -/
theorem asked (h : SettingUp b store₀ tr s w) (hg : g ≠ 0) {spurious : Bool} {r : R}
    {queue : List R} {store : S} {info : L} {e : E} (hqueue : (s.session g).queue = r :: queue)
    (hserve : p.serve spurious s.store (s.session g).info r = (store, info, e)) :
    SettingUp b store₀ (tr ++ [(.store g spurious, e)])
      ⟨store, s.shared, Function.update s.session g ⟨info, queue, (s.session g).issued⟩⟩ w := by
  have hlt : g < d.globalSessionNum := by
    by_contra hc
    have hnone := (h.outside g (Nat.le_of_not_lt hc)).1
    rw [hqueue] at hnone
    nomatch hnone
  obtain ⟨hinfo, hempty | hasked⟩ := h.others g hg
  · rw [hqueue] at hempty
    nomatch hempty
  · rw [hqueue] at hasked
    obtain ⟨rfl, rfl⟩ := List.cons.inj hasked
    rw [hinfo] at hserve
    obtain ⟨rfl, rfl, he⟩ := b.serve_ask h.unset hserve
    refine h.other_step hg hlt he rfl (Or.inl rfl) (h.phases.answered (b.idle_init g) rfl) h.running
      (fun _ => rfl) ?_
    rw [Service.servedOf, Service.servedOf, List.countP_append, List.countP_singleton,
      if_neg (by simpa using hg), Nat.add_zero]

/-- **A turn** while the set-up is executed: what is left is less, or the flag is released. -/
theorem step (h : SettingUp b store₀ tr s w) (hpos : 0 < d.globalSessionNum)
    {turn : Turn} {s' : Sessions S BenchClient L R} {e : E}
    (hle : (s.session 0).queue.length ≤ (s.session 0).issued)
    (hfew : (s.session 0).issued < 2 ^ 32)
    (hfirst : ∀ g, turn = .client g → d.clientOf g = 0 → g ≠ 0 →
      b.writes.length + 1 ≤ Service.servedOf 0 tr)
    (hstep : p.step s turn = .ok (s', e)) :
    (∃ w', SettingUp b store₀ (tr ++ [(turn, e)]) s' w') ∨
      ∃ spurious requests store info, w = [] ∧ turn = .store 0 spurious ∧
        b.first (s.session 0).info (s.session 0).issued requests ∧
        p.serve spurious s.store (s.session 0).info b.release = (store, info, e) ∧
        s' = ⟨store, s.shared,
          Function.update s.session 0 ⟨info, requests, (s.session 0).issued⟩⟩ := by
  rcases Service.step_cases hstep with ⟨g, c, info, requests, rfl, hpass, rfl⟩ |
    ⟨g, spurious, r, queue, store, info, rfl, hqueue, hserve, rfl⟩
  · left
    have hg := b.pass_lt hpass
    rw [b.clientOf_eq] at hpass ⊢
    by_cases hne : g = 0
    · subst hne
      rw [clientOf_zero] at hpass ⊢
      exact ⟨w, h.firstPass hpos hle hfew hpass⟩
    · by_cases hother : d.clientOf g = 0
      · have hlate := hfirst g rfl hother hne
        have hleft := h.executed
        omega
      · exact ⟨w, h.waitPass hne hg hother hpass⟩
  · by_cases hne : g = 0
    · subst hne
      obtain ⟨requests, hqueue', hfirst⟩ := h.first
      rw [hqueue] at hqueue'
      cases w with
      | nil =>
        obtain ⟨rfl, rfl⟩ := List.cons.inj hqueue'
        exact Or.inr ⟨spurious, queue, store, info, rfl, rfl, hfirst, hserve, rfl⟩
      | cons r' w =>
        obtain ⟨rfl, -⟩ := List.cons.inj hqueue'
        exact Or.inl ⟨w, h.write hpos hqueue hserve⟩
    · exact Or.inl ⟨w, h.asked hne hqueue hserve⟩

end SettingUp

/-! ## What else session 0 holds -/

/-- The same set-up, with something that the first passes of session 0 keep. -/
def SetUpBy.also (b : SetUpBy d p) (Q : L → Nat → List R → Prop) (hinit : ∀ n, Q (b.init 0) n [])
    (hpass : ∀ c x requests w c' info more e, c.phase = .running →
      b.first x.info x.issued requests → Q x.info x.issued requests →
      x.queue = w ++ b.release :: requests → x.queue.length ≤ x.issued → x.issued < 2 ^ 32 →
      p.pass 0 c x = .ok (c', info, more, e) → Q info (x.issued + more.length) (requests ++ more)) :
    SetUpBy d p :=
  { b with
    first := fun info issued requests => b.first info issued requests ∧ Q info issued requests
    first_init := fun n => ⟨b.first_init n, hinit n⟩
    first_pass := by
      intro c x requests w c' info more e hphase hfirst hqueue hle hfew h
      obtain ⟨hrunning, hcntr, hquiet, hnew⟩ := b.first_pass hphase hfirst.1 hqueue hle hfew h
      refine ⟨hrunning, hcntr, hquiet, hnew, ?_⟩
      exact hpass _ _ _ _ _ _ _ _ hphase hfirst.1 hfirst.2 hqueue hle hfew h }

section Also

variable {b : SetUpBy d p} {Q : L → Nat → List R → Prop} {hinit : ∀ n, Q (b.init 0) n []}
  {hpass : ∀ c x requests w c' info more e, c.phase = .running →
    b.first x.info x.issued requests → Q x.info x.issued requests →
    x.queue = w ++ b.release :: requests → x.queue.length ≤ x.issued → x.issued < 2 ^ 32 →
    p.pass 0 c x = .ok (c', info, more, e) → Q info (x.issued + more.length) (requests ++ more)}

theorem SetUpBy.Start.also {s : Sessions S BenchClient L R} (h : b.Start s) :
    (b.also Q hinit hpass).Start s :=
  ⟨h.first, h.others, h.running, h.cntr_lt, h.unset⟩

theorem SettingUp.of_also {store₀ : S} {tr : List (Turn × E)} {s : Sessions S BenchClient L R}
    {w : List R} (h : SettingUp (b.also Q hinit hpass) store₀ tr s w) : SettingUp b store₀ tr s w where
  first := by
    obtain ⟨requests, hqueue, hfirst, -⟩ := h.first
    exact ⟨requests, hqueue, hfirst⟩
  others := h.others
  outside := h.outside
  phases := h.phases
  running := h.running
  cntr_lt := h.cntr_lt
  writes := h.writes
  stored := h.stored
  unset := h.unset
  executed := h.executed
  events := h.events

end Also

/-! ## Every run -/

/-- At the start, what was issued is waiting. -/
theorem SetUpBy.Start.issued_eq {b : SetUpBy d p} {s₀ : Sessions S BenchClient L R}
    (h : b.Start s₀) (g : Nat) : (s₀.session g).queue.length = (s₀.session g).issued := by
  by_cases hg : g = 0
  · rw [hg, h.first]
    exact List.length_append
  · rw [h.others g hg]
    rfl

/-- **Run rule** for a benchmark with a set-up: what holds when the flag is released, and is kept
    by every step from then on, holds of every run in which the set-up was executed, while no
    session has issued `2^32` requests. -/
theorem SetUpBy.run_rule (b : SetUpBy d p) (hpos : 0 < d.globalSessionNum)
    {s₀ : Sessions S BenchClient L R} (hstart : b.Start s₀)
    (Inv : List (Turn × E) → Sessions S BenchClient L R → Prop)
    (hdone : ∀ tr s spurious requests store info e, SettingUp b s₀.store tr s [] →
      b.first (s.session 0).info (s.session 0).issued requests →
      p.serve spurious s.store (s.session 0).info b.release = (store, info, e) →
      Inv (tr ++ [(.store 0 spurious, e)]) ⟨store, s.shared,
        Function.update s.session 0 ⟨info, requests, (s.session 0).issued⟩⟩)
    (hkeep : ∀ tr s k s' e, Run p.step s₀ tr s → Inv tr s →
      (∀ g, (s.session g).queue.length ≤ (s.session g).issued) →
      (∀ g, g < d.globalSessionNum → (s.session g).issued < 2 ^ 32) →
      p.step s k = .ok (s', e) → Inv (tr ++ [(k, e)]) s')
    {tr : List (Turn × E)} {s : Sessions S BenchClient L R} (hrun : Run p.step s₀ tr s)
    (hfew : ∀ g, g < d.globalSessionNum → (s.session g).issued < 2 ^ 32)
    (hfirst : SetUpFirst d (b.writes.length + 1) tr) :
    (∃ w, SettingUp b s₀.store tr s w) ∨ Inv tr s := by
  induction hrun with
  | start => exact Or.inl ⟨_, .start b hpos hstart⟩
  | @snoc tr s s' turn e hrun hstep ih =>
    have hbefore : ∀ g, g < d.globalSessionNum → (s.session g).issued < 2 ^ 32 := fun g hg =>
      Nat.lt_of_le_of_lt (Service.issued_mono hstep g) (hfew g hg)
    have hle := Service.queue_le_issued (fun g => Nat.le_of_eq (hstart.issued_eq g)) hrun
    obtain ⟨hold, hnew⟩ := forall_concat.mp hfirst
    rcases ih hbefore hold with ⟨w, h⟩ | h
    · rcases h.step hpos (hle 0) (hbefore 0 hpos) hnew hstep with
        hmore | ⟨spurious, requests, store, info, rfl, rfl, hpass, hserve, rfl⟩
      · exact Or.inl hmore
      · exact Or.inr (hdone _ _ _ _ _ _ _ h hpass hserve)
    · exact Or.inr (hkeep tr s turn s' e hrun h hle hbefore hstep)

/-- **Invariant rule**: the same, with a bound on the requests that were executed. -/
theorem SetUpBy.invariant (b : SetUpBy d p) (hsessions : d.globalSessionNum ≤ 2 ^ 16)
    (hpos : 0 < d.globalSessionNum) {s₀ : Sessions S BenchClient L R} (hstart : b.Start s₀)
    (Inv : List (Turn × E) → Sessions S BenchClient L R → Prop)
    (hdone : ∀ tr s spurious requests store info e, SettingUp b s₀.store tr s [] →
      b.first (s.session 0).info (s.session 0).issued requests →
      p.serve spurious s.store (s.session 0).info b.release = (store, info, e) →
      Inv (tr ++ [(.store 0 spurious, e)]) ⟨store, s.shared,
        Function.update s.session 0 ⟨info, requests, (s.session 0).issued⟩⟩)
    (houtside : ∀ tr s, Inv tr s → ∀ g, d.globalSessionNum ≤ g → (s.session g).issued = 0)
    (hkeep : ∀ tr s k s' e, Inv tr s → (∀ g, (s.session g).queue.length ≤ (s.session g).issued) →
      (∀ g, g < d.globalSessionNum → (s.session g).issued < 2 ^ 32) →
      Service.served tr + 2 < 2 ^ 64 → p.step s k = .ok (s', e) → Inv (tr ++ [(k, e)]) s')
    {tr : List (Turn × E)} {s : Sessions S BenchClient L R} (hrun : Run p.step s₀ tr s)
    (hfew : ∀ g, g < d.globalSessionNum → (s.session g).issued < 2 ^ 32)
    (hfirst : SetUpFirst d (b.writes.length + 1) tr) :
    (∃ w, SettingUp b s₀.store tr s w) ∨ Inv tr s := by
  refine b.run_rule hpos hstart Inv hdone ?_ hrun hfew hfirst
  intro tr s k s' e hrun h hle hbefore hstep
  have hserved := Service.served_le hstart.issued_eq hrun (houtside tr s h)
    fun g hg => Nat.le_of_lt (hbefore g hg)
  have hsmall : d.globalSessionNum * 2 ^ 32 ≤ 2 ^ 16 * 2 ^ 32 :=
    Nat.mul_le_mul_right _ hsessions
  exact hkeep tr s k s' e h hle hbefore (by omega) hstep

end Odyssey
