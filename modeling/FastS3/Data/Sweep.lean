import Mathlib.Data.List.Basic

namespace FastS3.Data

/-! Targets that are tried in their order, up to the first one that refuses. -/

variable {τ : Type} {accepts : τ → Bool} {target : τ} {targets : List τ} {answer : Bool}

def sweep (accepts : τ → Bool) : List τ → List (τ × Bool)
  | [] => []
  | target :: rest =>
    if accepts target then (target, true) :: sweep accepts rest else [(target, false)]

def Reached (accepts : τ → Bool) (targets : List τ) (target : τ) : Prop :=
  ∃ before after, targets = before ++ target :: after ∧ ∀ earlier ∈ before, accepts earlier = true

theorem sweep_all : (sweep accepts targets).all Prod.snd = targets.all accepts := by
  induction targets with
  | nil => rfl
  | cons first rest ih =>
    rw [sweep]
    cases first_accepts : accepts first with
    | true => simp [first_accepts, ih]
    | false => simp [first_accepts]

theorem answer_of_mem_sweep (member : (target, answer) ∈ sweep accepts targets) :
    answer = accepts target := by
  induction targets with
  | nil => cases member
  | cons first rest ih =>
    rw [sweep] at member
    split at member
    · next accepted =>
        rcases List.mem_cons.mp member with same | later
        · cases same
          exact accepted.symm
        · exact ih later
    · next refused =>
        cases List.mem_singleton.mp member
        exact (Bool.not_eq_true _ ▸ refused : accepts target = false).symm

theorem reached_tail_iff {first : τ} {rest : List τ} :
    Reached accepts (first :: rest) target ↔
      target = first ∨ accepts first = true ∧ Reached accepts rest target := by
  constructor
  · rintro ⟨before, after, split, accepted⟩
    cases before with
    | nil => exact .inl (List.cons.inj split).1.symm
    | cons earlier before =>
      obtain ⟨rfl, tail⟩ := List.cons.inj split
      obtain ⟨own, others⟩ := List.forall_mem_cons.mp accepted
      exact .inr ⟨own, before, after, tail, others⟩
  · rintro (rfl | ⟨accepted, before, after, rfl, others⟩)
    · exact ⟨[], rest, rfl, fun _ inside => nomatch inside⟩
    · exact ⟨first :: before, after, rfl, List.forall_mem_cons.mpr ⟨accepted, others⟩⟩

theorem mem_sweep_iff :
    (∃ answer, (target, answer) ∈ sweep accepts targets) ↔ Reached accepts targets target := by
  induction targets with
  | nil =>
    constructor
    · rintro ⟨answer, member⟩
      cases member
    · rintro ⟨before, after, split, -⟩
      cases before <;> cases split
  | cons first rest ih =>
    rw [reached_tail_iff, ← ih, sweep]
    split
    · next accepted =>
        simp only [List.mem_cons, Prod.mk.injEq, accepted, true_and]
        constructor
        · rintro ⟨answer, ⟨same, -⟩ | later⟩
          · exact .inl same
          · exact .inr ⟨answer, later⟩
        · rintro (same | ⟨answer, later⟩)
          · exact ⟨true, .inl ⟨same, rfl⟩⟩
          · exact ⟨answer, .inr later⟩
    · next refused =>
        simp only [List.mem_singleton, Prod.mk.injEq]
        constructor
        · rintro ⟨answer, same, -⟩
          exact .inl same
        · rintro (same | ⟨accepted, -⟩)
          · exact ⟨false, same, rfl⟩
          · exact absurd accepted refused

theorem sweep_complete (all : targets.all accepts = true) (member : target ∈ targets) :
    (target, true) ∈ sweep accepts targets := by
  rw [List.all_eq_true] at all
  obtain ⟨before, after, rfl⟩ := List.append_of_mem member
  obtain ⟨answer, tried⟩ := mem_sweep_iff.mpr ⟨before, after, rfl,
    fun earlier inside => all earlier (List.mem_append_left _ inside)⟩
  rw [answer_of_mem_sweep tried, all target member] at tried
  exact tried

end FastS3.Data
