import Mathlib.Algebra.BigOperators.Group.List.Basic

namespace FastS3.Data

/-! Arrays of counters as functions, changed one cell at a time. -/

variable {ι M α : Type} [DecidableEq ι]

/-- Adds `amount` to one cell. -/
def bump [Add M] (cells : ι → M) (i : ι) (amount : M) : ι → M :=
  Function.update cells i (cells i + amount)

/-- What a list of changes adds up to at cell `i`. -/
def total [AddCommMonoid M] (address : α → ι) (amount : α → M) (changes : List α) (i : ι) : M :=
  ((changes.filter fun change => address change = i).map amount).sum

section Sums

variable [AddCommMonoid M] (address : α → ι) (amount : α → M)

@[simp] theorem total_nil (i : ι) : total address amount [] i = 0 := rfl

theorem total_cons (change : α) (rest : List α) (i : ι) :
    total address amount (change :: rest) i =
      (if address change = i then amount change else 0) + total address amount rest i := by
  by_cases same : address change = i
  · simp [total, same]
  · simp [total, same]

theorem total_append (left right : List α) (i : ι) :
    total address amount (left ++ right) i =
      total address amount left i + total address amount right i := by
  simp [total]

theorem bump_apply (cells : ι → M) (i j : ι) (added : M) :
    bump cells i added j = cells j + if i = j then added else 0 := by
  by_cases same : i = j
  · subst same
    simp [bump]
  · have other : j ≠ i := fun equal => same equal.symm
    simp [bump, same, Function.update_of_ne other]

end Sums

theorem foldl_preserves {σ β : Type} {step : σ → α → σ} {field : σ → β}
    (unchanged : ∀ state x, field (step state x) = field state) (xs : List α) (state : σ) :
    field (xs.foldl step state) = field state := by
  induction xs generalizing state with
  | nil => rfl
  | cons x rest ih => rw [List.foldl_cons, ih, unchanged]

end FastS3.Data
