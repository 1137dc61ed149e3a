/-
  ATOMIC REGISTERS.

  What a memory cell is for, whatever its contents are made of: a read returns the value of the
  latest write before it.  `Legal v₀ ops` says this of a sequence of operations that starts with
  the value `v₀` in the cell.

  A concurrent implementation is correct if there is an order of its operations, one that agrees
  with real time, that is `Legal`.  Where the implementation shows the moment at which each
  operation takes effect, that order is simply the order of the moments, and the rules are
  `Legal.write` and `Legal.read`: a history stays legal when the operation that takes effect next
  is a write, or reads what is latest now.
-/
import Mathlib.Data.List.Basic

namespace Lib

variable {α : Type}

/-- An operation on a register, with the value it writes or returns. -/
inductive RegOp (α : Type)
  | write (v : α)
  | read (v : α)

/-- The value in the register after some operations. -/
def latest : α → List (RegOp α) → α
  | v₀, [] => v₀
  | _, .write v :: ops => latest v ops
  | v₀, .read _ :: ops => latest v₀ ops

/-- Every read returns what is in the register. -/
def Legal : α → List (RegOp α) → Prop
  | _, [] => True
  | _, .write v :: ops => Legal v ops
  | v₀, .read v :: ops => v = v₀ ∧ Legal v₀ ops

/-- The values written, in order. -/
def written (ops : List (RegOp α)) : List α :=
  ops.filterMap fun
    | .write v => some v
    | .read _ => none

theorem latest_append (v₀ : α) (ops ops' : List (RegOp α)) :
    latest v₀ (ops ++ ops') = latest (latest v₀ ops) ops' := by
  induction ops generalizing v₀ with
  | nil => rfl
  | cons o ops ih =>
    cases o with
    | write v => exact ih v
    | read v => exact ih v₀

theorem legal_append (v₀ : α) (ops ops' : List (RegOp α)) :
    Legal v₀ (ops ++ ops') ↔ Legal v₀ ops ∧ Legal (latest v₀ ops) ops' := by
  induction ops generalizing v₀ with
  | nil => exact (and_iff_right trivial).symm
  | cons o ops ih =>
    cases o with
    | write v => exact ih v
    | read v =>
      show (v = v₀ ∧ Legal v₀ (ops ++ ops')) ↔ (v = v₀ ∧ Legal v₀ ops) ∧ Legal (latest v₀ ops) ops'
      rw [ih v₀, and_assoc]

/-- What is in the register is the last value written. -/
theorem latest_eq_getLastD (v₀ : α) (ops : List (RegOp α)) :
    latest v₀ ops = (written ops).getLastD v₀ := by
  induction ops generalizing v₀ with
  | nil => rfl
  | cons o ops ih =>
    cases o with
    | write v => exact (ih v).trans (List.getLastD_cons ..).symm
    | read v => exact ih v₀

/-- A write is always legal. -/
theorem Legal.write {v₀ : α} {ops : List (RegOp α)} (h : Legal v₀ ops) (v : α) :
    Legal v₀ (ops ++ [.write v]) :=
  (legal_append ..).mpr ⟨h, trivial⟩

/-- **Linearization rule.**  A read is legal when it returns what is latest. -/
theorem Legal.read {v₀ v : α} {ops : List (RegOp α)} (h : Legal v₀ ops) (hv : v = latest v₀ ops) :
    Legal v₀ (ops ++ [.read v]) :=
  (legal_append ..).mpr ⟨h, hv, trivial⟩

end Lib
