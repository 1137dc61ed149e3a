/-
  RUNS OF A SYSTEM, STEP AFTER STEP.

  A system is a partial step function `step s k`: on the command `k` it returns the next state
  with the event the step showed, or it is stuck.  Every choice the environment makes (which
  party moves, what the network delivers, what a callback answers) is part of the command, so a
  statement about every run of `step` is a statement about every interleaving.

  `Run step s₀ tr s`: from `s₀`, the commands and events of `tr`, oldest first, lead to `s`.
  Two rules, each the induction on the run packaged once:

  * `Run.invariant`: what holds at the start and is kept by every step holds of every run; the
    invariant sees the trace so far, so it can relate the state to the history;
  * `Run.forall_steps`: what one step shows when taken from a reachable state, every step of
    the run showed.
-/
import Odyssey.Lib.Outcome

namespace Lib

/-- One item is marked in a history that has just grown: it is the new one or an old one. -/
theorem split_concat {α : Type} {l l₁ l₂ : List α} {a b : α} (h : l ++ [a] = l₁ ++ b :: l₂) :
    (∃ l₃, l = l₁ ++ b :: l₃) ∨ (l₁ = l ∧ a = b) := by
  rcases List.eq_nil_or_concat l₂ with rfl | ⟨l₃, c, rfl⟩
  · right
    obtain ⟨hl, hab⟩ := List.append_inj' h rfl
    exact ⟨hl.symm, by simpa using hab⟩
  · left
    have h' : l ++ [a] = (l₁ ++ b :: l₃) ++ [c] := by simpa using h
    exact ⟨l₃, (List.append_inj' h' rfl).1⟩

/-- What holds of every item with the history before it holds of the old ones and of the new. -/
theorem forall_concat {α : Type} {P : List α → α → Prop} {l : List α} {b : α} :
    (∀ l₁ a l₂, l ++ [b] = l₁ ++ a :: l₂ → P l₁ a) ↔
      (∀ l₁ a l₂, l = l₁ ++ a :: l₂ → P l₁ a) ∧ P l b := by
  constructor
  · intro h
    refine ⟨fun l₁ a l₂ heq => ?_, h l b [] rfl⟩
    exact h l₁ a (l₂ ++ [b]) (by rw [heq, List.append_assoc, List.cons_append])
  · rintro ⟨hold, hnew⟩ l₁ a l₂ heq
    rcases split_concat heq with ⟨l₃, hl⟩ | ⟨rfl, rfl⟩
    · exact hold l₁ a l₃ hl
    · exact hnew

variable {σ κ ε : Type}

/-- `Run step s₀ tr s`: the trace `tr` of commands and events leads from `s₀` to `s`. -/
inductive Run (step : σ → κ → Outcome (σ × ε)) (s₀ : σ) : List (κ × ε) → σ → Prop
  | start : Run step s₀ [] s₀
  | snoc {tr : List (κ × ε)} {s s' : σ} {k : κ} {e : ε} :
      Run step s₀ tr s → step s k = .ok (s', e) → Run step s₀ (tr ++ [(k, e)]) s'

namespace Run

variable {step : σ → κ → Outcome (σ × ε)} {s₀ s : σ} {tr : List (κ × ε)}

/-- **Invariant rule.** -/
theorem invariant (Inv : List (κ × ε) → σ → Prop) (h0 : Inv [] s₀)
    (hstep : ∀ tr s k s' e, Run step s₀ tr s → Inv tr s → step s k = .ok (s', e) →
      Inv (tr ++ [(k, e)]) s')
    (h : Run step s₀ tr s) : Inv tr s := by
  induction h with
  | start => exact h0
  | snoc hrun hs ih => exact hstep _ _ _ _ _ hrun ih hs

/-- **Step rule**: a property of the steps taken from reachable states holds of every step of
    the trace. -/
theorem forall_steps {P : κ → ε → Prop}
    (hstep : ∀ tr s k s' e, Run step s₀ tr s → step s k = .ok (s', e) → P k e)
    (h : Run step s₀ tr s) : ∀ p ∈ tr, P p.1 p.2 := by
  induction h with
  | start => intro p hp; nomatch hp
  | snoc hrun hs ih =>
    intro p hp
    rcases List.mem_append.mp hp with hp | hp
    · exact ih p hp
    · rw [List.mem_singleton] at hp
      subst hp
      exact hstep _ _ _ _ _ hrun hs

/-- Runs compose. -/
theorem trans {s₁ : σ} {tr₁ : List (κ × ε)} (h₁ : Run step s₀ tr₁ s₁) (h : Run step s₁ tr s) :
    Run step s₀ (tr₁ ++ tr) s := by
  induction h with
  | start => simpa using h₁
  | snoc _ hs ih =>
    rw [← List.append_assoc]
    exact .snoc ih hs

/-- **A step in the middle of a run**, and the run before it. -/
theorem split_step {tr₁ tr₂ : List (κ × ε)} {k : κ} {e : ε}
    (h : Run step s₀ (tr₁ ++ (k, e) :: tr₂) s) :
    ∃ s₁ s₂, Run step s₀ tr₁ s₁ ∧ step s₁ k = .ok (s₂, e) := by
  generalize htr : tr₁ ++ (k, e) :: tr₂ = tr at h
  induction h generalizing tr₂ with
  | start => exact absurd htr (by simp)
  | snoc hrun hs ih =>
    rcases split_concat htr.symm with ⟨tr₃, h₃⟩ | ⟨h₁, h₂⟩
    · exact ih h₃.symm
    · cases h₁
      cases h₂
      exact ⟨_, _, hrun, hs⟩

/-- **Runs split** where their traces do. -/
theorem split {tr₁ tr₂ : List (κ × ε)} (h : Run step s₀ (tr₁ ++ tr₂) s) :
    ∃ s₁, Run step s₀ tr₁ s₁ ∧ Run step s₁ tr₂ s := by
  generalize htr : tr₁ ++ tr₂ = tr at h
  induction h generalizing tr₂ with
  | start =>
    obtain ⟨rfl, rfl⟩ := List.append_eq_nil_iff.mp htr
    exact ⟨s₀, .start, .start⟩
  | @snoc tr s s' k e hrun hs ih =>
    rcases List.eq_nil_or_concat tr₂ with rfl | ⟨tr₃, p, rfl⟩
    · rw [List.append_nil] at htr
      exact ⟨s', htr ▸ .snoc hrun hs, .start⟩
    · rw [List.concat_eq_append, ← List.append_assoc] at htr
      obtain ⟨htr₁, hp⟩ := List.append_inj' htr rfl
      obtain ⟨s₁, h₁, h₂⟩ := ih htr₁
      cases hp
      exact ⟨s₁, h₁, List.concat_eq_append ▸ .snoc h₂ hs⟩

/-- **The commands decide a run.** -/
theorem eq_of_run {s' : σ} (h : Run step s₀ tr s) (h' : Run step s₀ tr s') : s' = s := by
  induction h generalizing s' with
  | start =>
    generalize htr : ([] : List (κ × ε)) = tr at h'
    cases h' with
    | start => rfl
    | snoc => exact absurd htr (by simp)
  | @snoc tr s₁ s₂ k e hrun hs ih =>
    generalize htr : tr ++ [(k, e)] = tr' at h'
    cases h' with
    | start => exact absurd htr (by simp)
    | snoc hrun' hs' =>
      obtain ⟨rfl, hp⟩ := List.append_inj' htr rfl
      cases hp
      rw [ih hrun', hs] at hs'
      cases hs'
      rfl

/-- A run of no step. -/
theorem eq_of_nil (h : Run step s₀ tr s) (htr : tr = []) : s = s₀ := by
  cases h with
  | start => rfl
  | snoc => exact absurd htr (by simp)

/-- A run of one step. -/
theorem single {s' : σ} {k : κ} {e : ε} (h : step s k = .ok (s', e)) :
    Run step s [(k, e)] s' :=
  (Run.snoc .start h : Run step s ([] ++ [(k, e)]) s')

/-- The step of a run of one step. -/
theorem step_of_single {k : κ} {e : ε} (h : Run step s₀ [(k, e)] s) : step s₀ k = .ok (s, e) := by
  generalize htr : [(k, e)] = tr at h
  cases h with
  | start => cases htr
  | snoc hrun hs =>
    have hsplit : ([] : List (κ × ε)) ++ [(k, e)] = _ ++ [_] := htr
    obtain ⟨hnil, hp⟩ := List.append_inj' hsplit rfl
    cases hp
    rw [hrun.eq_of_nil hnil.symm] at hs
    exact hs

end Run

/-! ## Executing a list of commands -/

/-- The run that takes the commands of a list in order. -/
def exec (step : σ → κ → Outcome (σ × ε)) : σ → List κ → Outcome (List (κ × ε) × σ)
  | s, [] => .ok ([], s)
  | s, k :: ks => do
    let (s', e) ← step s k
    let (tr, t) ← exec step s' ks
    return ((k, e) :: tr, t)

/-- What `exec` computes is a run. -/
theorem run_of_exec {step : σ → κ → Outcome (σ × ε)} {ks : List κ} :
    ∀ {s t : σ} {tr : List (κ × ε)}, exec step s ks = .ok (tr, t) → Run step s tr t := by
  induction ks with
  | nil =>
    intro s t tr h
    cases h
    exact .start
  | cons k ks ih =>
    intro s t tr h
    obtain ⟨⟨s', e⟩, hs, h⟩ := bind_eq_ok.mp h
    obtain ⟨⟨tr', t'⟩, htr, h⟩ := bind_eq_ok.mp h
    cases h
    exact (Run.single hs).trans (ih htr)

end Lib
