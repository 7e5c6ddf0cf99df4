import Mathlib.Data.List.Lex
import Mathlib.Data.UInt

namespace FastS3.Data

/-! The lexicographic order of lists and their prefixes. -/

instance byteOrder : LinearOrder UInt8 where
  le_refl := UInt8.le_refl
  le_trans := fun _ _ _ => UInt8.le_trans
  lt_iff_le_not_ge := by
    intro left right
    rw [UInt8.lt_iff_toNat_lt, UInt8.le_iff_toNat_le, UInt8.le_iff_toNat_le]
    omega
  le_antisymm := fun _ _ => UInt8.le_antisymm
  le_total := UInt8.le_total
  toDecidableLE := inferInstance

section Separator

variable {α : Type} {sep : α} {left right rest rest' : List α}

theorem append_sep_inj (leftFree : sep ∉ left) (rightFree : sep ∉ right)
    (same : left ++ sep :: rest = right ++ sep :: rest') : left = right ∧ rest = rest' := by
  induction left generalizing right with
  | nil =>
    cases right with
    | nil => exact ⟨rfl, (List.cons.inj same).2⟩
    | cons item right => exact absurd (List.cons.inj same).1 (List.ne_of_not_mem_cons rightFree)
  | cons item left ih =>
    cases right with
    | nil => exact absurd (List.cons.inj same).1.symm (List.ne_of_not_mem_cons leftFree)
    | cons other right =>
      obtain ⟨rfl, tails⟩ := List.cons.inj same
      obtain ⟨rfl, rfl⟩ := ih (List.not_mem_of_not_mem_cons leftFree)
        (List.not_mem_of_not_mem_cons rightFree) tails
      exact ⟨rfl, rfl⟩

theorem sep_prefix_iff (leftFree : sep ∉ left) (rightFree : sep ∉ right) :
    left ++ [sep] <+: right ++ sep :: rest ↔ left = right := by
  constructor
  · rintro ⟨tail, same⟩
    rw [List.append_assoc] at same
    exact (append_sep_inj leftFree rightFree same).1
  · rintro rfl
    exact ⟨rest, by rw [List.append_assoc, List.singleton_append]⟩

end Separator

section Order

variable {α : Type} [LinearOrder α]

theorem append_lt_append_iff (head left right : List α) :
    head ++ left < head ++ right ↔ left < right := by
  induction head with
  | nil => rfl
  | cons item head ih =>
    rw [List.cons_append, List.cons_append, List.cons_lt_cons_iff]
    constructor
    · rintro (less | ⟨_, rest⟩)
      · exact absurd less (lt_irrefl item)
      · exact ih.mp rest
    · intro less
      exact .inr ⟨rfl, ih.mpr less⟩

theorem not_append_lt (head tail : List α) : ¬ head ++ tail < head := by
  have appended := append_lt_append_iff head tail []
  rw [List.append_nil] at appended
  rw [appended]
  exact List.not_lt_nil tail

theorem le_of_begins {part whole : List α} (begins : part <+: whole) : part ≤ whole := by
  obtain ⟨rest, rfl⟩ := begins
  exact not_lt.mp (not_append_lt part rest)

theorem prefix_of_between {part whole middle : List α} (begins : part <+: whole)
    (above : part ≤ middle) (below : middle < whole) : part <+: middle := by
  induction part generalizing whole middle with
  | nil => exact List.nil_prefix
  | cons item part ih =>
    obtain ⟨rest, rfl⟩ := begins
    cases middle with
    | nil => exact absurd above (not_le_of_gt (List.nil_lt_cons item part))
    | cons other middle =>
      rw [List.cons_append, List.cons_lt_cons_iff] at below
      have atMost := not_lt.mpr above
      rw [List.cons_lt_cons_iff] at atMost
      rcases below with less | ⟨rfl, below⟩
      · exact absurd (.inl less) atMost
      · have above' : part ≤ middle := by
          apply not_lt.mp
          intro less
          exact atMost (.inr ⟨rfl, less⟩)
        obtain ⟨suffix, rfl⟩ := ih ⟨rest, rfl⟩ above' below
        exact ⟨suffix, rfl⟩

theorem append_lt_append_of_apart {left right : List α} (apart : ¬ left <+: right)
    (apart' : ¬ right <+: left) (rest rest' : List α) :
    left ++ rest < right ++ rest' ↔ left < right := by
  induction left generalizing right with
  | nil => exact absurd List.nil_prefix apart
  | cons item left ih =>
    cases right with
    | nil => exact absurd List.nil_prefix apart'
    | cons other right =>
      rw [List.cons_append, List.cons_append, List.cons_lt_cons_iff, List.cons_lt_cons_iff]
      apply or_congr Iff.rfl
      apply and_congr_right
      rintro rfl
      apply ih
      · intro begins
        exact apart (List.cons_prefix_cons.mpr ⟨rfl, begins⟩)
      · intro begins
        exact apart' (List.cons_prefix_cons.mpr ⟨rfl, begins⟩)

end Order

end FastS3.Data
