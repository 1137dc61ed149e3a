/-
  TURNS THAT CAN BE EXCHANGED.

  Two turns of different sessions do not see each other, unless both are passes of one client or
  the store executes requests of both that do not commute.  So they can be taken in either order,
  and the end is the same.  What follows is a rule for runs: a step that can be exchanged with every
  step of a run can be taken before the run.

  * `RunWhere` is a run of which every step is taken where a condition holds, and
    `RunWhere.advance` is the rule.
  * `Service.step_swap` says which turns of a service can be exchanged.
-/
import Odyssey.Lib.Sessions

namespace Lib

/-! ## Runs -/

section Runs

variable {σ κ ε : Type} {step : σ → κ → Outcome (σ × ε)} {P : σ → κ → Prop}

/-- A run of which every step is taken where `P` holds. -/
inductive RunWhere (step : σ → κ → Outcome (σ × ε)) (P : σ → κ → Prop) (s₀ : σ) :
    List (κ × ε) → σ → Prop
  | start : RunWhere step P s₀ [] s₀
  | snoc {tr : List (κ × ε)} {s s' : σ} {k : κ} {e : ε} : RunWhere step P s₀ tr s → P s k →
      step s k = .ok (s', e) → RunWhere step P s₀ (tr ++ [(k, e)]) s'

namespace RunWhere

variable {s₀ s : σ} {tr : List (κ × ε)}

theorem run (h : RunWhere step P s₀ tr s) : Run step s₀ tr s := by
  induction h with
  | start => exact .start
  | snoc _ _ hstep ih => exact .snoc ih hstep

/-- What every step keeps, where it is taken. -/
theorem invariant (I : List (κ × ε) → σ → Prop) (h0 : I [] s₀)
    (hstep : ∀ tr s k s' e, I tr s → P s k → step s k = .ok (s', e) → I (tr ++ [(k, e)]) s')
    (h : RunWhere step P s₀ tr s) : I tr s := by
  induction h with
  | start => exact h0
  | snoc _ hP hs ih => exact hstep _ _ _ _ _ ih hP hs

/-- **A step is taken before a run**, if it can be exchanged with every step of it. -/
theorem advance {Q : σ → κ → Prop} (hswap : ∀ s s₁ s₂ j k e e', P s j → step s j = .ok (s₁, e) →
      Q s₁ k → step s₁ k = .ok (s₂, e') →
      Q s k ∧ ∃ s', step s k = .ok (s', e') ∧ P s' j ∧ step s' j = .ok (s₂, e))
    {k : κ} {e : ε} (h : RunWhere step P s₀ tr s) :
    ∀ {s'}, Q s k → step s k = .ok (s', e) →
      ∃ s₀', step s₀ k = .ok (s₀', e) ∧ RunWhere step P s₀' tr s' := by
  induction h with
  | start => exact fun _ hk => ⟨_, hk, .start⟩
  | snoc _ hP hstep ih =>
    intro s' hQ hk
    obtain ⟨hQ', t, hkt, hPt, htj⟩ := hswap _ _ _ _ _ _ _ hP hstep hQ hk
    obtain ⟨s₀', hk₀, hrun⟩ := ih hQ' hkt
    exact ⟨s₀', hk₀, hrun.snoc hPt htj⟩

end RunWhere

end Runs

/-! ## Turns -/

/-- The session of a turn. -/
def Turn.session : Turn → Nat
  | .client g => g
  | .store g _ => g

namespace Service

variable {S C L R E : Type} {p : Service S C L R E} {s s₁ s₂ : Sessions S C L R} {e e' : E}

theorem step_client {g : Nat} {c : C} {info : L} {requests : List R}
    (h : p.pass g (s.shared (p.clientOf g)) (s.session g) = .ok (c, info, requests, e)) :
    p.step s (.client g) = .ok (⟨s.store, Function.update s.shared (p.clientOf g) c,
      Function.update s.session g
        ⟨info, (s.session g).queue ++ requests, (s.session g).issued + requests.length⟩⟩, e) :=
  bind_eq_ok.mpr ⟨_, h, rfl⟩

theorem step_store {g : Nat} {spurious : Bool} {r : R} {queue : List R} {store : S} {info : L}
    (hqueue : (s.session g).queue = r :: queue)
    (h : p.serve spurious s.store (s.session g).info r = (store, info, e)) :
    p.step s (.store g spurious) = .ok (⟨store, s.shared,
      Function.update s.session g ⟨info, queue, (s.session g).issued⟩⟩, e) := by
  simp only [step, hqueue, h]

/-- Another session is as it was. -/
theorem step_session {k : Turn} {g : Nat} (h : p.step s k = .ok (s₁, e)) (hg : k.session ≠ g) :
    s₁.session g = s.session g := by
  rcases step_cases h with ⟨g', c, info, requests, rfl, -, rfl⟩ |
    ⟨g', spurious, r, queue, store, info, rfl, -, -, rfl⟩
  · exact Function.update_of_ne hg.symm _ _
  · exact Function.update_of_ne hg.symm _ _

/-- And what the sessions of another client share. -/
theorem step_shared {k : Turn} {c : Nat} (h : p.step s k = .ok (s₁, e))
    (hc : p.clientOf k.session ≠ c) : s₁.shared c = s.shared c := by
  rcases step_cases h with ⟨g', c', info, requests, rfl, -, rfl⟩ |
    ⟨g', spurious, r, queue, store, info, rfl, -, -, rfl⟩
  · exact Function.update_of_ne hc.symm _ _
  · rfl

variable (p) in
/-- It does not matter which of two requests is executed first, for two sessions. -/
def Commute (r r' : R) : Prop :=
  ∀ spurious spurious' store info info',
    (p.serve spurious' (p.serve spurious store info r).1 info' r').1
        = (p.serve spurious (p.serve spurious' store info' r').1 info r).1 ∧
      (p.serve spurious' (p.serve spurious store info r).1 info' r').2
        = (p.serve spurious' store info' r').2 ∧
      (p.serve spurious (p.serve spurious' store info' r').1 info r).2
        = (p.serve spurious store info r).2

/-- The requests that two turns of the store execute commute. -/
def ServesCommute (p : Service S C L R E) (s : Sessions S C L R) (j k : Turn) : Prop :=
  ∀ g spurious g' spurious' r queue r' queue', j = .store g spurious → k = .store g' spurious' →
    (s.session g).queue = r :: queue → (s.session g').queue = r' :: queue' → p.Commute r r'

/-- **Two turns are exchanged**: of different sessions, and of different clients if both are
    passes. -/
theorem step_swap {j k : Turn} (hsession : j.session ≠ k.session)
    (hclient : ∀ g g', j = .client g → k = .client g' → p.clientOf g ≠ p.clientOf g')
    (hserve : p.ServesCommute s j k) (hj : p.step s j = .ok (s₁, e))
    (hk : p.step s₁ k = .ok (s₂, e')) :
    ∃ s', p.step s k = .ok (s', e') ∧ p.step s' j = .ok (s₂, e) := by
  rcases step_cases hj with ⟨g, c, info, requests, rfl, hpass, rfl⟩ |
    ⟨g, spurious, r, queue, store, info, rfl, hqueue, hserved, rfl⟩
  · rcases step_cases hk with ⟨g', c', info', requests', rfl, hpass', rfl⟩ |
      ⟨g', spurious', r', queue', store', info', rfl, hqueue', hserved', rfl⟩
    · have hne : g ≠ g' := hsession
      have hother := hclient g g' rfl rfl
      simp only [Function.update_of_ne hne.symm, Function.update_of_ne hother.symm] at hpass' ⊢
      refine ⟨_, step_client hpass', ?_⟩
      rw [← Function.update_of_ne hne ⟨info', _, _⟩ s.session,
        ← Function.update_of_ne hother c' s.shared] at hpass
      refine (step_client hpass).trans ?_
      simp only [Function.update_of_ne hne, Function.update_comm hne, Function.update_comm hother]
    · have hne : g ≠ g' := hsession
      simp only [Function.update_of_ne hne.symm] at hqueue' hserved' ⊢
      refine ⟨_, step_store hqueue' hserved', ?_⟩
      rw [← Function.update_of_ne hne ⟨info', queue', (s.session g').issued⟩ s.session] at hpass
      refine (step_client hpass).trans ?_
      simp only [Function.update_of_ne hne, Function.update_comm hne]
  · rcases step_cases hk with ⟨g', c', info', requests', rfl, hpass', rfl⟩ |
      ⟨g', spurious', r', queue', store', info', rfl, hqueue', hserved', rfl⟩
    · have hne : g ≠ g' := hsession
      simp only [Function.update_of_ne hne.symm] at hpass' ⊢
      refine ⟨_, step_client hpass', ?_⟩
      rw [← Function.update_of_ne hne ⟨info', _, _⟩ s.session] at hqueue hserved
      refine (step_store hqueue hserved).trans ?_
      simp only [Function.update_of_ne hne, Function.update_comm hne]
    · have hne : g ≠ g' := hsession
      simp only [Function.update_of_ne hne.symm] at hqueue' hserved' ⊢
      obtain ⟨hstore, hsecond, hfirst⟩ := hserve g spurious g' spurious' r queue r' queue' rfl rfl
        hqueue hqueue' spurious spurious' s.store (s.session g).info (s.session g').info
      rw [hserved] at hstore hsecond hfirst
      dsimp only at hstore hsecond hfirst
      rw [hserved'] at hstore hsecond
      dsimp only at hstore hsecond
      -- session `g'` is answered as it was behind the other request, and then session `g`
      have hbefore : p.serve spurious' s.store (s.session g').info r' = (_, info', e') :=
        Prod.ext rfl hsecond.symm
      have hbehind : p.serve spurious (p.serve spurious' s.store (s.session g').info r').1
          (s.session g).info r = (store', info, e) := Prod.ext hstore.symm hfirst
      refine ⟨_, step_store hqueue' hbefore, ?_⟩
      rw [← Function.update_of_ne hne ⟨info', queue', (s.session g').issued⟩ s.session]
        at hqueue hbehind
      refine (step_store hqueue hbehind).trans ?_
      simp only [Function.update_of_ne hne, Function.update_comm hne]

end Service

end Lib
