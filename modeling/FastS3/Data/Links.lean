import Mathlib.Logic.Function.Basic
import Mathlib.Logic.Relation

namespace FastS3.Data

/-! Links between nodes, each of which points to one other node at most. -/

variable {α : Type}

def Points (link : α → Option α) (x y : α) : Prop :=
  link x = some y

/-- A node is led to from itself and from every node that points to one that leads to it. -/
def Leads (link : α → Option α) : α → α → Prop :=
  Relation.ReflTransGen (Points link)

def Acyclic (link : α → Option α) : Prop :=
  ∀ x, ¬Relation.TransGen (Points link) x x

theorem acyclic_nowhere : Acyclic fun _ : α => none := by
  intro x cycle
  obtain ⟨y, points, _⟩ := Relation.TransGen.head'_iff.mp cycle
  cases points

theorem leads_iff {link : α → Option α} {x y : α} :
    Leads link x y ↔ x = y ∨ ∃ next, link x = some next ∧ Leads link next y := by
  constructor
  · intro leads
    obtain rfl | ⟨next, points, rest⟩ := Relation.ReflTransGen.cases_head leads
    · exact .inl rfl
    · exact .inr ⟨next, points, rest⟩
  · intro either
    obtain rfl | ⟨next, points, rest⟩ := either
    · exact Relation.ReflTransGen.refl
    · exact Relation.ReflTransGen.head points rest

section

variable [DecidableEq α] {link : α → Option α} {x y : α} {target : Option α}

theorem points_update_of_ne {a b : α} (other : a ≠ x) :
    Points (Function.update link x target) a b ↔ Points link a b := by
  rw [Points, Function.update_of_ne other, Points]

theorem leads_update (leads : Leads link y x) : Leads (Function.update link x target) y x := by
  induction leads using Relation.ReflTransGen.head_induction_on with
  | refl => exact Relation.ReflTransGen.refl
  | @head a b points _ ih =>
    by_cases here : a = x
    · rw [here]
      exact Relation.ReflTransGen.refl
    · exact Relation.ReflTransGen.head ((points_update_of_ne here).mpr points) ih

theorem transGen_update {a b : α}
    (way : Relation.TransGen (Points (Function.update link x (some y))) a b) :
    Relation.TransGen (Points link) a b ∨ (Leads link a x ∧ Leads link y b) := by
  have step : ∀ c d, Points (Function.update link x (some y)) c d →
      Points link c d ∨ (c = x ∧ d = y) := by
    intro c d points
    by_cases here : c = x
    · rw [here, Points, Function.update_self] at points
      exact .inr ⟨here, (Option.some.inj points).symm⟩
    · exact .inl ((points_update_of_ne here).mp points)
  induction way with
  | single points =>
    obtain old | ⟨rfl, rfl⟩ := step _ _ points
    · exact .inl (.single old)
    · exact .inr ⟨.refl, .refl⟩
  | tail _ points ih =>
    obtain old | ⟨rfl, rfl⟩ := step _ _ points
    · obtain before | ⟨toX, fromY⟩ := ih
      · exact .inl (before.tail old)
      · exact .inr ⟨toX, fromY.tail old⟩
    · obtain before | ⟨toX, _⟩ := ih
      · exact .inr ⟨before.to_reflTransGen, .refl⟩
      · exact .inr ⟨toX, .refl⟩

/-- A new link closes a cycle exactly if the node that it points to led to the one it starts at. -/
theorem acyclic_update (acyclic : Acyclic link) :
    Acyclic (Function.update link x (some y)) ↔ ¬Leads link y x := by
  constructor
  · intro still leads
    have points : Points (Function.update link x (some y)) x y := by
      rw [Points, Function.update_self]
    exact still x (Relation.TransGen.head' points (leads_update leads))
  · intro apart a cycle
    obtain before | ⟨toX, fromY⟩ := transGen_update cycle
    · exact acyclic a before
    · exact apart (fromY.trans toX)

theorem acyclic_drop (acyclic : Acyclic link) : Acyclic (Function.update link x none) := by
  intro a cycle
  have before : ∀ c d, Points (Function.update link x none) c d → Points link c d := by
    intro c d points
    by_cases here : c = x
    · rw [here, Points, Function.update_self] at points
      cases points
    · exact (points_update_of_ne here).mp points
  exact acyclic a (Relation.TransGen.lift id before a a cycle)

end

end FastS3.Data
