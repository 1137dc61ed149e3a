/-
  WHAT THE SESSIONS KEEP, THE RINGS KEEP.

  To prove something of a program over the rings, one proves it over the atomic store: an invariant
  that every turn keeps, and under which a pass asks only for what `check_inputs` takes
  (`RingProgram.Keeps`).  Then it holds in every run over the rings (`Carried.keeps`), and a step of
  such a run can fail only where the program itself does (`Carried.faults`).

  Such an invariant may need that a session has issued few requests; over the rings, it is the
  accesses that are counted.
-/
import Odyssey.RingSafety

namespace Odyssey

open Lib RingProgram

variable {S C L R E : Type}

/-- **An invariant of the sessions**, while a session issues fewer than `limit` requests. -/
structure RingProgram.Keeps (p : RingProgram S C L R E) (limit : Nat)
    (Inv : List (Turn × E) → Sessions S C L R → Prop) : Prop where
  /-- a turn keeps it -/
  step : ∀ {tr t k t' e}, Inv tr t → (∀ g, k = .client g → (t.session g).issued < limit) →
    p.service.step t k = .ok (t', e) → Inv (tr ++ [(k, e)]) t'
  /-- the interface takes what a pass asks for -/
  takes : ∀ {tr t g c info requests e}, Inv tr t → (t.session g).issued < limit →
    pollAReqBlocking (t.session g) (p.target (t.session g).info) = .ok () →
    p.pass g (t.shared (p.clientOf g)) (t.session g).info (t.session g).issued
      = .ok (c, info, requests, e) → ∀ r ∈ requests, p.accepted g r = true
  /-- no access is weak -/
  waits : ∀ r, (p.access r).1 ≠ .async false

/-- A program that asks for nothing else, whatever it has got. -/
structure RingProgram.Proper (p : RingProgram S C L R E) : Prop where
  accepted : ∀ g r, p.accepted g r = true
  waits : ∀ r, (p.access r).1 ≠ .async false
  pass : ∀ g c info n, p.pass g c info n ≠ .error .undefined

/-- **A pass of the sessions fails** only when that of the program does. -/
theorem client_fails {p : RingProgram S C L R E} {t : Sessions S C L R} {g : Nat}
    (hstep : p.service.step t (.client g) = .error .undefined) :
    pollAReqBlocking (t.session g) (p.target (t.session g).info) = .ok () ∧
      p.pass g (t.shared (p.clientOf g)) (t.session g).info (t.session g).issued
        = .error .undefined := by
  cases hpoll : pollAReqBlocking (t.session g) (p.target (t.session g).info) with
  | error e =>
    simp only [Service.step, RingProgram.service, hpoll] at hstep
    unfold pollAReqBlocking at hpoll
    split at hpoll
    · cases hpoll
    · cases hpoll
      cases hstep
  | ok u =>
    simp only [Service.step, RingProgram.service, hpoll, ok_bind] at hstep
    refine ⟨rfl, ?_⟩
    rcases bind_eq_error.mp hstep with hfiltered | ⟨y, -, hy⟩
    · rcases bind_eq_error.mp hfiltered with hpass | ⟨y, -, hy⟩
      · exact hpass
      · cases hy
    · cases hy

/-- Nothing needs to be known of a proper program. -/
theorem RingProgram.Proper.keeps {p : RingProgram S C L R E} (hp : p.Proper) (limit : Nat) :
    p.Keeps limit fun _ _ => True where
  step _ _ _ := trivial
  takes _ _ _ _ r _ := hp.accepted _ r
  waits := hp.waits

/-- A step takes the requests of a pass one by one. -/
theorem Takes.step {p : RingProgram S C L R E} {s s' : RingSys S C L R} {k : RingCmd}
    {e : RingShown E} (h : Takes p s)
    (hpass : ∀ g c info requests shown, k = .pass g →
      p.pass g (s.shared (p.clientOf g)) (s.session g).info
        (s.session g).ring.session.lastPushedReq = .ok (c, info, requests, shown) →
      ∀ r ∈ requests, p.accepted g r = true)
    (hstep : p.step s k = .ok (s', e)) : Takes p s' := by
  have hset : ∀ {g : Nat} {x : RingSession L R} {store : S} {shared : Nat → C},
      (∀ r ∈ x.todo, p.accepted g r = true) →
        Takes p ⟨store, shared, Function.update s.session g x⟩ := by
    intro g x store shared hx g' r hr
    by_cases hg : g' = g
    · subst hg
      simp only [Function.update_self] at hr
      exact hx r hr
    · simp only [Function.update_of_ne hg] at hr
      exact h g' r hr
  cases k with
  | pass g =>
    simp only [RingProgram.step] at hstep
    split at hstep
    · split at hstep
      · obtain ⟨⟨c, info, requests, shown⟩, hgo, hstep⟩ := bind_eq_ok.mp hstep
        cases hstep
        exact hset (hpass g c info requests shown rfl hgo)
      · cases hstep
    · cases hstep
  | poll g =>
    simp only [RingProgram.step] at hstep
    split at hstep
    · obtain ⟨⟨ring, new⟩, -, hstep⟩ := bind_eq_ok.mp hstep
      cases hstep
      exact hset (h g)
    · cases hstep
  | access g =>
    simp only [RingProgram.step] at hstep
    split at hstep
    · cases hstep
    · rename_i r todo htodo
      obtain ⟨⟨ring, new⟩, -, hstep⟩ := bind_eq_ok.mp hstep
      cases hstep
      exact hset fun r' hr' => h g r' (htodo ▸ List.mem_cons_of_mem r hr')
  | advance g =>
    obtain ⟨⟨ring, new⟩, -, hstep⟩ := bind_eq_ok.mp hstep
    cases hstep
    exact hset (h g)
  | fill g workingSession =>
    simp only [RingProgram.step] at hstep
    split at hstep
    · obtain ⟨⟨session, op, new⟩, -, hstep⟩ := bind_eq_ok.mp hstep
      cases hstep
      exact hset (h g)
    · cases hstep
  | execute g spurious =>
    simp only [RingProgram.step] at hstep
    split at hstep
    · cases hstep
    · cases hstep
      exact hset (h g)
  | complete g i =>
    simp only [RingProgram.step] at hstep
    split at hstep
    · obtain ⟨⟨session, new⟩, -, hstep⟩ := bind_eq_ok.mp hstep
      cases hstep
      exact hset (h g)
    · cases hstep

/-- A step over the rings is one turn at most. -/
theorem seen_cases (k : RingCmd) (e : RingShown E) : seen (k, e) = [] ∨
    ∃ turn shown, seen (k, e) = [(turn, shown)] ∧ ∀ g, turn = .client g → k = .pass g := by
  obtain ⟨e, evs⟩ := e
  cases e with
  | none => cases k <;> exact Or.inl rfl
  | some shown =>
    cases k with
    | pass g => exact Or.inr ⟨_, shown, rfl, fun g' hg => by cases hg; rfl⟩
    | execute g spurious => exact Or.inr ⟨_, shown, rfl, fun g' hg => by cases hg⟩
    | poll g => exact Or.inl rfl
    | access g => exact Or.inl rfl
    | advance g => exact Or.inl rfl
    | fill g workingSession => exact Or.inl rfl
    | complete g i => exact Or.inl rfl

namespace Carried

variable {p : RingProgram S C L R E} {tr : List (RingCmd × RingShown E)} {s : RingSys S C L R}
  {t : Sessions S C L R} {limit : Nat} {Inv : List (Turn × E) → Sessions S C L R → Prop}

/-- Every session has called fewer accesses than `limit`. -/
def Within (limit : Nat) (tr : List (RingCmd × RingShown E)) : Prop := ∀ g, accesses g tr < limit

theorem Within.before {q : RingCmd × RingShown E} (h : Within limit (tr ++ [q])) :
    Within limit tr := by
  intro g
  have hg := h g
  rw [accesses_concat] at hg
  omega

theorem within_of_length (h : tr.length < limit) : Within limit tr :=
  fun _ => Nat.lt_of_le_of_lt List.countP_le_length h

/-- **What a pass finds above** is what it finds below. -/
theorem pass_found (h : Carried p tr s t) (hfew : Countable tr) {g : Nat}
    (hidle : (s.session g).ring.client = none) (htodo : (s.session g).todo = [])
    (hwait : p.target (s.session g).info ≤ (s.session g).ring.session.lastPulledReq) :
    (t.session g).info = (s.session g).info ∧
      (t.session g).issued = (s.session g).ring.session.lastPushedReq ∧
      (t.session g).issued ≤ accesses g tr ∧
      pollAReqBlocking (t.session g) (p.target (t.session g).info) = .ok () := by
  obtain ⟨evs, e, a, hg⟩ := h.session g
  obtain ⟨hpoll, hnum, -⟩ := hg.pass (hfew g) hidle htodo hwait (s.session g).info []
  have hcount := hg.count
  exact ⟨hg.info, hnum, by omega, hpoll⟩

/-- **The invariant holds over the rings.** -/
theorem keeps (hkeeps : p.Keeps limit Inv) (hlimit : limit ≤ 2 ^ 64)
    (hpos : 0 < p.conf.perSessionReqNum) (hN : p.conf.perSessionReqNum ≤ 2 ^ 16)
    {store : S} {shared : Nat → C} {info : Nat → L} {ops : Nat → Nat → ClientOp}
    (h0 : Inv [] (RingProgram.sessions store shared info))
    (hrun : Run p.step (RingProgram.start store shared info ops) tr s) (hfew : Within limit tr) :
    ∃ t, Run p.service.step (RingProgram.sessions store shared info) (tr.flatMap seen) t ∧
      Carried p tr s t ∧ Inv (tr.flatMap seen) t ∧ Asked p s ∧ Takes p s := by
  refine hrun.simulate seen (Within limit)
    (fun tr s t => Carried p tr s t ∧ Inv (tr.flatMap seen) t ∧ Asked p s ∧ Takes p s)
    (fun _ _ => Within.before)
    ⟨Carried.start hpos store shared info ops, h0, (fun g c hc => by cases hc),
      (fun g r hr => by cases hr)⟩ ?_ hfew
  rintro tr s t k s' e ⟨hcarried, hinv, hasked, htakes⟩ hgood hstep
  have hcountable : Countable (tr ++ [(k, e)]) := fun g => Nat.lt_of_lt_of_le (hgood g) hlimit
  obtain ⟨t', hnext, hcarried'⟩ := hcarried.step hN hcountable hstep
  have hold : Countable tr := Within.before hcountable
  -- a pass below is one above, and it has issued as little
  have hfound : ∀ g, k = .pass g → (t.session g).info = (s.session g).info ∧
      (t.session g).issued = (s.session g).ring.session.lastPushedReq ∧
      (t.session g).issued < limit ∧
      pollAReqBlocking (t.session g) (p.target (t.session g).info) = .ok () := by
    rintro g rfl
    simp only [RingProgram.step] at hstep
    split at hstep
    · rename_i hidle
      split at hstep
      · rename_i hwait
        simp only [Bool.and_eq_true, Option.isNone_iff_eq_none, List.isEmpty_iff] at hidle
        obtain ⟨hinfo, hnum, hle, hpoll⟩ := hcarried.pass_found hold hidle.1 hidle.2 hwait
        have hmine := Within.before hgood g
        exact ⟨hinfo, hnum, by omega, hpoll⟩
      · cases hstep
    · cases hstep
  refine ⟨t', hnext, hcarried', ?_, hasked.step htakes hkeeps.waits hstep, htakes.step ?_ hstep⟩
  · rw [List.flatMap_append, List.flatMap_singleton]
    rcases seen_cases k e with hnil | ⟨turn, shown, hone, hpass⟩
    · rw [hnil] at hnext ⊢
      rw [hnext.eq_of_nil rfl, List.append_nil]
      exact hinv
    · rw [hone] at hnext ⊢
      exact hkeeps.step hinv (fun g hg => (hfound g (hpass g hg)).2.2.1) hnext.step_of_single
  · intro g c info requests shown hk hgo
    obtain ⟨hinfo, hnum, hlt, hpoll⟩ := hfound g hk
    rw [← hinfo, ← hnum, ← hcarried.shared] at hgo
    exact hkeeps.takes hinv hlt hpoll hgo

/-- **What fails in such a run** is a pass of the program, in a state with the invariant. -/
theorem faults (hkeeps : p.Keeps limit Inv) (hlimit : limit ≤ 2 ^ 64)
    (hpos : 0 < p.conf.perSessionReqNum) (hN : p.conf.perSessionReqNum ≤ 2 ^ 16)
    {store : S} {shared : Nat → C} {info : Nat → L} {ops : Nat → Nat → ClientOp}
    (h0 : Inv [] (RingProgram.sessions store shared info))
    (hrun : Run p.step (RingProgram.start store shared info ops) tr s) (hfew : Within limit tr)
    {k : RingCmd} (hstep : p.step s k = .error .undefined) :
    ∃ g t, k = .pass g ∧ (s.session g).ring.client = none ∧ (s.session g).todo = [] ∧
      p.target (s.session g).info ≤ (s.session g).ring.session.lastPulledReq ∧
      Inv (tr.flatMap seen) t ∧ (t.session g).info = (s.session g).info ∧
      (t.session g).issued < limit ∧ p.service.step t (.client g) = .error .undefined := by
  obtain ⟨t, -, hcarried, hinv, hasked, htakes⟩ := keeps hkeeps hlimit hpos hN h0 hrun hfew
  have hcountable : Countable tr := fun g => Nat.lt_of_lt_of_le (hfew g) hlimit
  obtain ⟨g, hk, hidle, htodo, hwait, hle, hfails⟩ :=
    hcarried.step_fails hasked htakes hN hcountable hstep
  obtain ⟨evs, e, a, hg⟩ := hcarried.session g
  exact ⟨g, t, hk, hidle, htodo, hwait, hinv, hg.info, Nat.lt_of_le_of_lt hle (hfew g), hfails⟩

end Carried

end Odyssey
