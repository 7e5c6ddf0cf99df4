import Mathlib

namespace FastS3.Data

/-! A match whose arms are tried in order: the first arm that holds gives the result. -/

section Dispatch

variable {α β : Type} (holds : α → Bool)

def firstMatch : List (α × β) → β → β
  | [], other => other
  | (guard, result) :: rest, other =>
    if holds guard then result else firstMatch rest other

variable {holds} {arms : List (α × β)} {other : β}

theorem firstMatch_source : firstMatch holds arms other = other ∨
    ∃ arm ∈ arms, holds arm.1 = true ∧ firstMatch holds arms other = arm.2 := by
  induction arms with
  | nil => exact .inl rfl
  | cons arm rest ih =>
    obtain ⟨guard, result⟩ := arm
    cases held : holds guard with
    | true =>
      refine .inr ⟨(guard, result), List.mem_cons_self, held, ?_⟩
      simp only [firstMatch, held, ↓reduceIte]
    | false =>
      simp only [firstMatch, held, Bool.false_eq_true, ↓reduceIte]
      obtain reached | ⟨arm, inside, holding, found⟩ := ih
      · exact .inl reached
      · exact .inr ⟨arm, List.mem_cons_of_mem _ inside, holding, found⟩

theorem firstMatch_mem : firstMatch holds arms other ∈ other :: arms.map Prod.snd := by
  have source : firstMatch holds arms other = other ∨ _ := firstMatch_source
  obtain reached | ⟨arm, inside, -, found⟩ := source
  · rw [reached]
    exact List.mem_cons_self
  · rw [found]
    exact List.mem_cons_of_mem _ (List.mem_map_of_mem inside)

theorem firstMatch_ne {result : β} (absent : result ∉ other :: arms.map Prod.snd) :
    firstMatch holds arms other ≠ result := by
  intro same
  rw [← same] at absent
  exact absent firstMatch_mem

theorem firstMatch_append (before after : List (α × β)) :
    firstMatch holds (before ++ after) other = firstMatch holds before (firstMatch holds after other) := by
  induction before with
  | nil => rfl
  | cons arm rest ih =>
    obtain ⟨guard, result⟩ := arm
    simp only [List.cons_append, firstMatch, ih]

theorem firstMatch_of_none (none : ∀ arm ∈ arms, holds arm.1 = false) :
    firstMatch holds arms other = other := by
  induction arms with
  | nil => rfl
  | cons arm rest ih =>
    obtain ⟨guard, result⟩ := arm
    have quiet : holds guard = false := none (guard, result) List.mem_cons_self
    simp only [firstMatch, quiet, Bool.false_eq_true, ↓reduceIte]
    exact ih fun arm inside => none arm (List.mem_cons_of_mem _ inside)

theorem firstMatch_eq_other_iff (fresh : other ∉ arms.map Prod.snd) :
    firstMatch holds arms other = other ↔ ∀ arm ∈ arms, holds arm.1 = false := by
  constructor
  · intro reached
    induction arms with
    | nil => intro arm inside; cases inside
    | cons arm rest ih =>
      obtain ⟨guard, result⟩ := arm
      have apart : other ≠ result ∧ other ∉ rest.map Prod.snd := by
        simpa only [List.map_cons, List.mem_cons, not_or] using fresh
      cases held : holds guard with
      | true =>
        simp only [firstMatch, held, ↓reduceIte] at reached
        exact absurd reached.symm apart.1
      | false =>
        simp only [firstMatch, held, Bool.false_eq_true, ↓reduceIte] at reached
        intro arm inside
        cases List.mem_cons.mp inside with
        | inl same => rw [same]; exact held
        | inr inside => exact ih apart.2 reached arm inside
  · exact firstMatch_of_none

theorem firstMatch_at_iff (before after : List (α × β)) {guard : α} {result : β}
    (held : holds guard = true) (fresh : result ∉ before.map Prod.snd) :
    firstMatch holds (before ++ (guard, result) :: after) other = result ↔
      ∀ arm ∈ before, holds arm.1 = false := by
  have reach : firstMatch holds ((guard, result) :: after) other = result := by
    simp only [firstMatch, held, ↓reduceIte]
  rw [firstMatch_append, reach]
  exact firstMatch_eq_other_iff fresh

/-- Where a guard is a test and a rest, only the arms that pass the test are left; what is seen of the
result is seen of each arm. -/
theorem firstMatch_select {γ δ : Type} {applies : α → Bool} {rest : α → γ} {left : γ → Bool}
    (view : β → δ) (parted : ∀ guard, holds guard = (applies guard && left (rest guard))) :
    view (firstMatch holds arms other) =
      firstMatch left ((arms.filter fun arm => applies arm.1).map fun arm => (rest arm.1, view arm.2))
        (view other) := by
  induction arms with
  | nil => rfl
  | cons arm tail ih =>
    obtain ⟨guard, result⟩ := arm
    cases passed : applies guard with
    | false =>
      have quiet : holds guard = false := by rw [parted, passed, Bool.false_and]
      simp only [firstMatch, quiet, passed, Bool.false_eq_true, ↓reduceIte, not_false_eq_true,
        List.filter_cons_of_neg, ih]
    | true =>
      have same : holds guard = left (rest guard) := by rw [parted, passed, Bool.true_and]
      simp only [firstMatch, same, passed, List.filter_cons_of_pos, List.map_cons, ← ih]
      cases left (rest guard) <;> rfl

end Dispatch

end FastS3.Data
