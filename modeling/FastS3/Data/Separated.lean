import Mathlib.Data.List.Basic

namespace FastS3.Data

/-! Texts that are put together from parts, and how the parts are found again.

A part without a separator ends at the first separator behind it, so two equal texts have the same parts.
-/

namespace Separated

variable {α : Type} {separator : α} {left right : List α}

theorem first_part {rest rest' : List α} (clean : separator ∉ left) (clean' : separator ∉ right)
    (same : left ++ separator :: rest = right ++ separator :: rest') : left = right ∧ rest = rest' := by
  induction left generalizing right with
  | nil =>
    cases right with
    | nil => exact ⟨rfl, (List.cons.inj same).2⟩
    | cons head tail =>
      have first : separator = head := (List.cons.inj same).1
      exact absurd (first ▸ List.mem_cons_self) clean'
  | cons head tail ih =>
    cases right with
    | nil =>
      have first : head = separator := (List.cons.inj same).1
      exact absurd (first ▸ List.mem_cons_self) clean
    | cons other others =>
      obtain ⟨rfl, later⟩ := List.cons.inj same
      obtain ⟨rfl, rest⟩ := ih (fun inside => clean (List.mem_cons_of_mem _ inside))
        (fun inside => clean' (List.mem_cons_of_mem _ inside)) later
      exact ⟨rfl, rest⟩

theorem last_part {rest rest' : List α} (clean : separator ∉ left) (clean' : separator ∉ right)
    (same : rest ++ separator :: left = rest' ++ separator :: right) : rest = rest' ∧ left = right := by
  have mirrored := congrArg List.reverse same
  simp only [List.reverse_append, List.reverse_cons, List.append_assoc, List.singleton_append] at mirrored
  obtain ⟨parts, rests⟩ := first_part (by rwa [List.mem_reverse]) (by rwa [List.mem_reverse]) mirrored
  exact ⟨List.reverse_inj.mp rests, List.reverse_inj.mp parts⟩

theorem intercalate_inj {parts parts' : List (List α)}
    (clean : ∀ part ∈ parts, separator ∉ part ∧ part ≠ [])
    (clean' : ∀ part ∈ parts', separator ∉ part ∧ part ≠ [])
    (same : [separator].intercalate parts = [separator].intercalate parts') : parts = parts' := by
  induction parts generalizing parts' with
  | nil =>
    cases parts' with
    | nil => rfl
    | cons part rest =>
      have filled := (clean' part List.mem_cons_self).2
      cases rest with
      | nil =>
        rw [List.intercalate_singleton] at same
        exact absurd same.symm filled
      | cons next rest =>
        rw [List.intercalate_cons_cons] at same
        simp at same
  | cons part rest ih =>
    obtain ⟨bare, filled⟩ := clean part List.mem_cons_self
    cases parts' with
    | nil =>
      cases rest with
      | nil =>
        rw [List.intercalate_singleton] at same
        exact absurd same filled
      | cons next rest =>
        rw [List.intercalate_cons_cons] at same
        simp at same
    | cons part' rest' =>
      obtain ⟨bare', filled'⟩ := clean' part' List.mem_cons_self
      cases rest with
      | nil =>
        cases rest' with
        | nil =>
          rw [List.intercalate_singleton, List.intercalate_singleton] at same
          rw [same]
        | cons next rest' =>
          rw [List.intercalate_singleton, List.intercalate_cons_cons] at same
          exact absurd (same ▸ by simp) bare
      | cons next rest =>
        cases rest' with
        | nil =>
          rw [List.intercalate_singleton, List.intercalate_cons_cons] at same
          exact absurd (same ▸ by simp) bare'
        | cons next' rest' =>
          rw [List.intercalate_cons_cons, List.intercalate_cons_cons, List.append_assoc,
            List.append_assoc, List.singleton_append, List.singleton_append] at same
          obtain ⟨rfl, later⟩ := first_part bare bare' same
          rw [ih (fun part inside => clean part (List.mem_cons_of_mem _ inside))
            (fun part inside => clean' part (List.mem_cons_of_mem _ inside)) later]

theorem mem_intercalate {x : α} {parts : List (List α)} (member : x ∈ [separator].intercalate parts) :
    x = separator ∨ ∃ part ∈ parts, x ∈ part := by
  induction parts with
  | nil => cases member
  | cons part rest ih =>
    cases rest with
    | nil =>
      rw [List.intercalate_singleton] at member
      exact .inr ⟨part, List.mem_cons_self, member⟩
    | cons next rest =>
      rw [List.intercalate_cons_cons, List.mem_append, List.mem_append, List.mem_singleton] at member
      rcases member with (inside | same) | later
      · exact .inr ⟨part, List.mem_cons_self, inside⟩
      · exact .inl same
      · rcases ih later with same | ⟨other, listed, inside⟩
        · exact .inl same
        · exact .inr ⟨other, List.mem_cons_of_mem _ listed, inside⟩

theorem flatMap_inj {β : Type} {code : β → List α}
    (filled : ∀ value, code value ≠ [])
    (apart : ∀ value value' rest rest', code value ++ rest = code value' ++ rest' →
      value = value' ∧ rest = rest') {values values' : List β}
    (same : values.flatMap code = values'.flatMap code) : values = values' := by
  induction values generalizing values' with
  | nil =>
    cases values' with
    | nil => rfl
    | cons value rest =>
      rw [List.flatMap_nil, List.flatMap_cons] at same
      exact absurd (List.append_eq_nil_iff.mp same.symm).1 (filled value)
  | cons value rest ih =>
    cases values' with
    | nil =>
      rw [List.flatMap_nil, List.flatMap_cons] at same
      exact absurd (List.append_eq_nil_iff.mp same).1 (filled value)
    | cons value' rest' =>
      rw [List.flatMap_cons, List.flatMap_cons] at same
      obtain ⟨rfl, later⟩ := apart _ _ _ _ same
      rw [ih later]

theorem lines_inj {β : Type} (head : β → List α) {lines lines' : List (β × List α)} {rest rest' : List α}
    (names : lines.map Prod.fst = lines'.map Prod.fst)
    (clean : ∀ line ∈ lines, separator ∉ line.2) (clean' : ∀ line ∈ lines', separator ∉ line.2)
    (same : (lines.flatMap fun line => head line.1 ++ line.2 ++ [separator]) ++ rest =
      (lines'.flatMap fun line => head line.1 ++ line.2 ++ [separator]) ++ rest') :
    lines = lines' ∧ rest = rest' := by
  induction lines generalizing lines' with
  | nil =>
    obtain rfl : lines' = [] := List.map_eq_nil_iff.mp names.symm
    exact ⟨rfl, same⟩
  | cons line lines ih =>
    cases lines' with
    | nil => cases names
    | cons line' lines' =>
      obtain ⟨name, value⟩ := line
      obtain ⟨name', value'⟩ := line'
      rw [List.map_cons, List.map_cons] at names
      obtain ⟨first, others⟩ := List.cons.inj names
      obtain rfl : name = name' := first
      have first : ∀ (value rest : List α),
          head name ++ value ++ [separator] ++ rest = head name ++ (value ++ separator :: rest) := by
        intro value rest
        simp
      rw [List.flatMap_cons, List.flatMap_cons, List.append_assoc _ _ rest, List.append_assoc _ _ rest',
        first, first] at same
      obtain ⟨values, later⟩ := first_part (clean _ List.mem_cons_self) (clean' _ List.mem_cons_self)
        (List.append_cancel_left same)
      obtain rfl : value = value' := values
      obtain ⟨rfl, rests⟩ := ih others (fun line inside => clean line (List.mem_cons_of_mem _ inside))
        (fun line inside => clean' line (List.mem_cons_of_mem _ inside)) later
      exact ⟨rfl, rests⟩

end Separated

end FastS3.Data
