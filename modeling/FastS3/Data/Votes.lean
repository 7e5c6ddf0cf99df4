import Mathlib.Data.List.Basic

namespace FastS3.Data

/-! Decisions that are made from several votes.

A denial overrides every other vote, and without one a single permission is enough.  The outcome
depends on the set of the votes only.
-/

inductive Decision where
  | allow
  | deny
  | noMatch
deriving Repr, DecidableEq

namespace Decision

def tally : Bool → List Decision → Decision
  | allowed, [] => if allowed then .allow else .noMatch
  | _, .deny :: _ => .deny
  | _, .allow :: rest => tally true rest
  | allowed, .noMatch :: rest => tally allowed rest

def combine (votes : List Decision) : Decision :=
  tally false votes

variable {votes other : List Decision} {allowed : Bool}

theorem tally_eq_deny : tally allowed votes = .deny ↔ .deny ∈ votes := by
  induction votes generalizing allowed with
  | nil => cases allowed <;> simp [tally]
  | cons vote rest ih =>
    cases vote with
    | deny => simp [tally]
    | allow => simp [tally, ih]
    | noMatch => simp [tally, ih]

theorem tally_eq_allow :
    tally allowed votes = .allow ↔ .deny ∉ votes ∧ (allowed = true ∨ .allow ∈ votes) := by
  induction votes generalizing allowed with
  | nil => cases allowed <;> simp [tally]
  | cons vote rest ih =>
    cases vote with
    | deny => simp [tally]
    | allow => simp [tally, ih]
    | noMatch => simp [tally, ih]

theorem combine_eq_deny : combine votes = .deny ↔ .deny ∈ votes :=
  tally_eq_deny

theorem combine_eq_allow : combine votes = .allow ↔ .deny ∉ votes ∧ .allow ∈ votes := by
  rw [combine, tally_eq_allow]
  simp only [Bool.false_eq_true, false_or]

theorem combine_eq_noMatch : combine votes = .noMatch ↔ .deny ∉ votes ∧ .allow ∉ votes := by
  have denied : combine votes = .deny ↔ .deny ∈ votes := combine_eq_deny
  have allowed : combine votes = .allow ↔ .deny ∉ votes ∧ .allow ∈ votes := combine_eq_allow
  cases outcome : combine votes with
  | deny =>
    rw [outcome, eq_self_iff_true, true_iff] at denied
    exact iff_of_false nofun fun neither => neither.1 denied
  | allow =>
    rw [outcome, eq_self_iff_true, true_iff] at allowed
    exact iff_of_false nofun fun neither => neither.2 allowed.2
  | noMatch =>
    rw [outcome] at denied allowed
    have undenied : .deny ∉ votes := fun found => nomatch denied.mpr found
    exact iff_of_true rfl ⟨undenied, fun found => nomatch allowed.mpr ⟨undenied, found⟩⟩

theorem combine_congr (same : ∀ vote, vote ∈ votes ↔ vote ∈ other) : combine votes = combine other := by
  cases outcome : combine other with
  | deny =>
    rw [combine_eq_deny] at outcome ⊢
    exact (same _).mpr outcome
  | allow =>
    rw [combine_eq_allow] at outcome ⊢
    rw [same, same]
    exact outcome
  | noMatch =>
    rw [combine_eq_noMatch] at outcome ⊢
    rw [same, same]
    exact outcome

def firstAllows : List Decision → Bool
  | [] => false
  | .deny :: _ => false
  | .allow :: _ => true
  | .noMatch :: rest => firstAllows rest

def DeniesFirst (votes : List Decision) : Prop :=
  ∀ earlier later, votes = earlier ++ .allow :: later → .deny ∈ earlier ∨ .deny ∉ later

theorem firstAllows_split (allows : firstAllows votes = true) :
    ∃ earlier later, votes = earlier ++ .allow :: later ∧ .deny ∉ earlier := by
  induction votes with
  | nil => cases allows
  | cons vote rest ih =>
    cases vote with
    | deny => cases allows
    | allow => exact ⟨[], rest, rfl, List.not_mem_nil⟩
    | noMatch =>
      obtain ⟨earlier, later, split, undenied⟩ := ih allows
      refine ⟨.noMatch :: earlier, later, by rw [split, List.cons_append], ?_⟩
      simp [undenied]

theorem firstAllows_of_split {earlier later : List Decision} (undenied : .deny ∉ earlier) :
    firstAllows (earlier ++ .allow :: later) = true := by
  induction earlier with
  | nil => rfl
  | cons vote rest ih =>
    cases vote with
    | deny => exact absurd List.mem_cons_self undenied
    | allow => rfl
    | noMatch => exact ih fun inside => undenied (List.mem_cons_of_mem _ inside)

theorem firstAllows_iff_combine :
    (firstAllows votes = true ↔ combine votes = .allow) ↔ DeniesFirst votes := by
  rw [combine_eq_allow]
  constructor
  · rintro same earlier later rfl
    by_cases before : .deny ∈ earlier
    · exact .inl before
    · obtain ⟨undenied, _⟩ := same.mp (firstAllows_of_split before)
      right
      intro behind
      exact undenied (List.mem_append_right _ (List.mem_cons_of_mem _ behind))
  · intro ordered
    constructor
    · intro allows
      obtain ⟨earlier, later, rfl, undenied⟩ := firstAllows_split allows
      have rest : .deny ∉ later := (ordered earlier later rfl).resolve_left undenied
      simp [undenied, rest]
    · rintro ⟨undenied, allowed⟩
      obtain ⟨earlier, later, rfl⟩ := List.append_of_mem allowed
      apply firstAllows_of_split
      intro inside
      exact undenied (List.mem_append_left _ inside)

end Decision

end FastS3.Data
