/-
  RUNS THAT COME TO AN END.

  Every party of a system goes through its stages once, and a stage has a rank.  If a step moves one
  party to a stage of higher rank and leaves the others where they are, the sum of the ranks grows
  with every step, so that no run is longer than the sum can get (`Run.length_le_rank`).  Together
  with "as long as someone is not done, some step is possible" this is termination under every
  schedule.

  The parties are the places of a grid, `i < m` and `j < n`.
-/
import Odyssey.Lib.Runs
import Mathlib.Algebra.Order.BigOperators.Group.Finset

namespace Lib

variable {σ κ ε : Type}

/-- **A run whose every step raises the rank is no longer than the rank.** -/
theorem Run.length_le_rank {step : σ → κ → Outcome (σ × ε)} {s₀ s : σ} {tr : List (κ × ε)}
    (rank : σ → Nat) (h : Run step s₀ tr s)
    (hstep : ∀ tr s k s' e, Run step s₀ tr s → step s k = .ok (s', e) → rank s < rank s') :
    tr.length ≤ rank s := by
  induction h with
  | start => exact Nat.zero_le _
  | snoc hrun hs ih =>
    have hlt := hstep _ _ _ _ _ hrun hs
    simp only [List.length_append, List.length_singleton]
    omega

/-- The sum of a rank over a grid. -/
def gridSum (m n : Nat) (rank : Nat → Nat → Nat) : Nat :=
  (Finset.range m).sum fun i => (Finset.range n).sum fun j => rank i j

/-- **One place of the grid is raised** and the others stay. -/
theorem gridSum_lt {m n i j : Nat} {rank rank' : Nat → Nat → Nat} (hi : i < m) (hj : j < n)
    (hup : rank i j < rank' i j) (hle : ∀ i' j', rank i' j' ≤ rank' i' j') :
    gridSum m n rank < gridSum m n rank' := by
  apply Finset.sum_lt_sum
  · intro i' _
    exact Finset.sum_le_sum fun j' _ => hle i' j'
  · refine ⟨i, Finset.mem_range.mpr hi, ?_⟩
    apply Finset.sum_lt_sum
    · intro j' _
      exact hle i j'
    · exact ⟨j, Finset.mem_range.mpr hj, hup⟩

/-- A rank that is bounded at every place. -/
theorem gridSum_le {m n b : Nat} {rank : Nat → Nat → Nat}
    (h : ∀ i < m, ∀ j < n, rank i j ≤ b) : gridSum m n rank ≤ m * (n * b) := by
  have hrow : ∀ i ∈ Finset.range m, ((Finset.range n).sum fun j => rank i j) ≤ n * b := by
    intro i hi
    have hsum := Finset.sum_le_card_nsmul (Finset.range n) (fun j => rank i j) b
      fun j hj => h i (Finset.mem_range.mp hi) j (Finset.mem_range.mp hj)
    rwa [Finset.card_range] at hsum
  have hsum := Finset.sum_le_card_nsmul (Finset.range m) _ (n * b) hrow
  rwa [Finset.card_range] at hsum

end Lib
