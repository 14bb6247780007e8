import Mathlib.Algebra.BigOperators.Group.List.Basic
import Mathlib.Algebra.GroupWithZero.Nat
import Mathlib.Data.Nat.Basic

/-!
# Sums that saturate

A counter of fixed width that is added to with saturation stands still at its greatest value.
It never falls, so saturating after every addition is the same as saturating once, at the end:
the counter holds the true sum or, if that is too large for it, the greatest value.
-/
namespace Saturation

variable {α : Type} {limit : ℕ}

/-- Add to a counter that goes up to a limit. -/
def saturatingAdd (limit left right : ℕ) : ℕ := min (left + right) limit

theorem saturatingAdd_le (left right : ℕ) : saturatingAdd limit left right ≤ limit :=
  Nat.min_le_right _ _

theorem saturatingAdd_eq {left right : ℕ} (fits : left + right ≤ limit) :
    saturatingAdd limit left right = left + right := Nat.min_eq_left fits

@[simp] theorem saturatingAdd_min_left (left right : ℕ) :
    saturatingAdd limit (min left limit) right = saturatingAdd limit left right := by
  unfold saturatingAdd
  omega

@[simp] theorem saturatingAdd_min_right (left right : ℕ) :
    saturatingAdd limit left (min right limit) = saturatingAdd limit left right := by
  unfold saturatingAdd
  omega

/-- The parts of a list, each of them a number, added to a counter one by one. -/
def saturatingSum (limit : ℕ) (part : α → ℕ) (parts : List α) : ℕ :=
  parts.foldl (fun total item => saturatingAdd limit total (part item)) 0

/-- From any start the counter holds the true sum as far as it can. -/
theorem foldl_saturatingAdd (part : α → ℕ) (parts : List α) {start : ℕ} (fits : start ≤ limit) :
    parts.foldl (fun total item => saturatingAdd limit total (part item)) start =
      min (start + (parts.map part).sum) limit := by
  induction parts generalizing start with
  | nil => exact (Nat.min_eq_left fits).symm
  | cons item parts inductionHypothesis =>
    rw [List.foldl_cons, inductionHypothesis (saturatingAdd_le _ _), List.map_cons, List.sum_cons]
    unfold saturatingAdd
    omega

theorem saturatingSum_eq (part : α → ℕ) (parts : List α) :
    saturatingSum limit part parts = min (parts.map part).sum limit := by
  rw [saturatingSum, foldl_saturatingAdd part parts (Nat.zero_le limit), Nat.zero_add]

end Saturation
