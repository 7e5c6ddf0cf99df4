import Mathlib.Order.Basic

namespace FastS3.Data

/-! Invariants of runs.

A run takes its steps one after another.  Where an invariant is kept by exactly the steps that meet
a condition in the state before them, it holds throughout a run exactly if every step meets it.
-/

variable {σ α : Type}

def AlwaysHolds (step : σ → α → σ) (invariant : σ → Prop) (start : σ) (steps : List α) : Prop :=
  ∀ earlier later, steps = earlier ++ later → invariant (earlier.foldl step start)

def EveryStep (step : σ → α → σ) (condition : σ → α → Prop) (start : σ) (steps : List α) : Prop :=
  ∀ earlier next later, steps = earlier ++ next :: later → condition (earlier.foldl step start) next

section

variable {step : σ → α → σ} {invariant : σ → Prop} {condition : σ → α → Prop} {start : σ}
  {next : α} {steps : List α}

theorem alwaysHolds_cons :
    AlwaysHolds step invariant start (next :: steps) ↔
      invariant start ∧ AlwaysHolds step invariant (step start next) steps := by
  constructor
  · intro always
    refine ⟨always [] _ rfl, ?_⟩
    intro earlier later split
    exact always (next :: earlier) later (by rw [split, List.cons_append])
  · intro both earlier later split
    cases earlier with
    | nil => exact both.1
    | cons first earlier =>
      obtain ⟨rfl, rest⟩ := List.cons.inj split
      exact both.2 earlier later rest

theorem everyStep_cons :
    EveryStep step condition start (next :: steps) ↔
      condition start next ∧ EveryStep step condition (step start next) steps := by
  constructor
  · intro every
    refine ⟨every [] next steps rfl, ?_⟩
    intro earlier other later split
    exact every (next :: earlier) other later (by rw [split, List.cons_append])
  · intro both earlier other later split
    cases earlier with
    | nil =>
      obtain ⟨rfl, _⟩ := List.cons.inj split
      exact both.1
    | cons first earlier =>
      obtain ⟨rfl, rest⟩ := List.cons.inj split
      exact both.2 earlier other later rest

theorem everyStep_nil : EveryStep step condition start [] := by
  intro earlier next later split
  cases earlier <;> cases split

instance decidableEveryStep [∀ state next, Decidable (condition state next)] :
    ∀ (start : σ) (steps : List α), Decidable (EveryStep step condition start steps)
  | _, [] => isTrue everyStep_nil
  | start, next :: steps =>
    have := decidableEveryStep (step start next) steps
    decidable_of_iff (condition start next ∧ EveryStep step condition (step start next) steps)
      everyStep_cons.symm

theorem alwaysHolds_iff
    (keeps : ∀ state next, invariant state → (invariant (step state next) ↔ condition state next))
    (holds : invariant start) :
    AlwaysHolds step invariant start steps ↔ EveryStep step condition start steps := by
  induction steps generalizing start with
  | nil =>
    refine iff_of_true ?_ everyStep_nil
    intro earlier later split
    obtain ⟨rfl, _⟩ := List.append_eq_nil_iff.mp split.symm
    exact holds
  | cons next steps ih =>
    rw [alwaysHolds_cons, everyStep_cons, ← keeps start next holds]
    constructor
    · intro both
      have stepped : invariant (step start next) := both.2 [] steps rfl
      exact ⟨stepped, (ih stepped).mp both.2⟩
    · intro both
      exact ⟨holds, (ih both.1).mpr both.2⟩

theorem alwaysHolds_of_keeps
    (keeps : ∀ state next, invariant state → condition state next → invariant (step state next))
    (holds : invariant start) (every : EveryStep step condition start steps) :
    AlwaysHolds step invariant start steps := by
  induction steps generalizing start with
  | nil =>
    intro earlier later split
    obtain ⟨rfl, _⟩ := List.append_eq_nil_iff.mp split.symm
    exact holds
  | cons next steps ih =>
    obtain ⟨first, rest⟩ := everyStep_cons.mp every
    exact alwaysHolds_cons.mpr ⟨holds, ih (keeps start next holds first) rest⟩

/-- A property that an invariant implies holds throughout a run exactly if every step meets the
condition under which a step keeps the property, and with it the invariant. -/
theorem alwaysHolds_iff_of_invariant {property : σ → Prop}
    (implied : ∀ state, invariant state → property state)
    (stepwise : ∀ state next, invariant state → (property (step state next) ↔ condition state next))
    (keeps : ∀ state next, invariant state → condition state next → invariant (step state next))
    (holds : invariant start) :
    AlwaysHolds step property start steps ↔ EveryStep step condition start steps := by
  induction steps generalizing start with
  | nil =>
    refine iff_of_true ?_ everyStep_nil
    intro earlier later split
    obtain ⟨rfl, _⟩ := List.append_eq_nil_iff.mp split.symm
    exact implied start holds
  | cons next steps ih =>
    rw [alwaysHolds_cons, everyStep_cons]
    constructor
    · intro both
      have met : condition start next := (stepwise start next holds).mp (both.2 [] steps rfl)
      exact ⟨met, (ih (keeps start next holds met)).mp both.2⟩
    · intro both
      exact ⟨implied start holds, (ih (keeps start next holds both.1)).mpr both.2⟩

end

end FastS3.Data
