/-
  A SYSTEM THAT CARRIES ANOTHER.

  A system at a lower level takes many steps where the one above it takes one, and some of its steps
  are none at all up there.  `seen` says which steps of the upper system a step of the lower one
  is; if every step of the lower one, from states that are related, is matched in this way, then
  every run of the lower system is a run of the upper one with the steps that are seen
  (`Run.simulate`).  So what holds of every run above holds of every run below.

  The relation may look at the history, and is only asked for while the history is `good`: a bound
  on how much has happened is such a condition.
-/
import Odyssey.Lib.Runs

namespace Lib

variable {σ κ ε τ μ η : Type}

/-- **Forward simulation**: the runs of a system that carries another. -/
theorem Run.simulate {step : σ → κ → Outcome (σ × ε)} {step' : τ → μ → Outcome (τ × η)}
    {s₀ s : σ} {t₀ : τ} {tr : List (κ × ε)} (seen : κ × ε → List (μ × η))
    (good : List (κ × ε) → Prop) (Rel : List (κ × ε) → σ → τ → Prop)
    (hgood : ∀ tr p, good (tr ++ [p]) → good tr) (h0 : Rel [] s₀ t₀)
    (hstep : ∀ tr s t k s' e, Rel tr s t → good (tr ++ [(k, e)]) → step s k = .ok (s', e) →
      ∃ t', Run step' t (seen (k, e)) t' ∧ Rel (tr ++ [(k, e)]) s' t')
    (h : Run step s₀ tr s) (hg : good tr) :
    ∃ t, Run step' t₀ (tr.flatMap seen) t ∧ Rel tr s t := by
  induction h with
  | start => exact ⟨t₀, .start, h0⟩
  | @snoc tr s s' k e hrun hs ih =>
    obtain ⟨t, hup, hrel⟩ := ih (hgood tr (k, e) hg)
    obtain ⟨t', hnext, hrel'⟩ := hstep tr s t k s' e hrel hg hs
    refine ⟨t', ?_, hrel'⟩
    rw [List.flatMap_append, List.flatMap_singleton]
    exact hup.trans hnext

end Lib
