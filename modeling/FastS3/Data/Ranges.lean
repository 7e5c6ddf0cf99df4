import Mathlib.Algebra.GroupWithZero.Nat
import Mathlib.Data.Nat.Basic

namespace FastS3.Data

/-! Consecutive ranges given by their widths.

Range `i` starts where the first `i` widths end.  `locate` walks the widths with
a running start, and the lemmas below describe its answer without the walk.
-/

def locateFrom : Nat → List Nat → Nat → Option (Nat × Nat)
  | _, [], _ => none
  | start, width :: rest, id =>
    if id < start + width then some (0, id - start)
    else (locateFrom (start + width) rest id).map fun found => (found.1 + 1, found.2)

def locate (widths : List Nat) (id : Nat) : Option (Nat × Nat) :=
  locateFrom 0 widths id

variable {id : Nat} {widths : List Nat}

theorem locateFrom_eq_some_iff {start : Nat} (above : start ≤ id) {index inner : Nat} :
    locateFrom start widths id = some (index, inner) ↔
      ∃ width, widths[index]? = some width ∧ inner < width ∧
        start + (widths.take index).sum + inner = id := by
  induction widths generalizing start index with
  | nil => simp [locateFrom]
  | cons width rest ih =>
    simp only [locateFrom]
    by_cases inside : id < start + width
    · simp only [inside, if_true, Option.some.injEq, Prod.mk.injEq]
      cases index with
      | zero =>
        simp only [List.getElem?_cons_zero, Option.some.injEq, List.take_zero, List.sum_nil]
        constructor
        · rintro ⟨_, rfl⟩
          exact ⟨width, rfl, by omega, by omega⟩
        · rintro ⟨_, rfl, below, sum⟩
          exact ⟨trivial, by omega⟩
      | succ index =>
        simp only [List.take_succ_cons, List.sum_cons]
        constructor
        · rintro ⟨impossible, _⟩
          omega
        · rintro ⟨_, _, _, sum⟩
          omega
    · simp only [inside, if_false, Option.map_eq_some_iff, Prod.mk.injEq, Prod.exists]
      have later : start + width ≤ id := by omega
      cases index with
      | zero =>
        simp only [List.getElem?_cons_zero, Option.some.injEq, List.take_zero, List.sum_nil]
        constructor
        · rintro ⟨_, _, _, impossible, _⟩
          omega
        · rintro ⟨_, rfl, below, sum⟩
          omega
      | succ index =>
        simp only [List.getElem?_cons_succ, List.take_succ_cons, List.sum_cons]
        constructor
        · rintro ⟨found, offset, walked, step, same⟩
          obtain rfl : found = index := by omega
          subst same
          obtain ⟨inner, at', below, sum⟩ := (ih later).mp walked
          exact ⟨inner, at', below, by omega⟩
        · rintro ⟨inner', at', below, sum⟩
          exact ⟨index, inner, (ih later).mpr ⟨inner', at', below, by omega⟩, rfl, rfl⟩

theorem locate_eq_some_iff {index inner : Nat} :
    locate widths id = some (index, inner) ↔
      ∃ width, widths[index]? = some width ∧ inner < width ∧
        (widths.take index).sum + inner = id := by
  simpa [locate] using locateFrom_eq_some_iff (Nat.zero_le id)

theorem locateFrom_eq_none_iff {start : Nat} (above : start ≤ id) :
    locateFrom start widths id = none ↔ start + widths.sum ≤ id := by
  induction widths generalizing start with
  | nil => simpa [locateFrom] using above
  | cons width rest ih =>
    simp only [locateFrom, List.sum_cons]
    by_cases inside : id < start + width
    · simp only [inside, if_true, reduceCtorEq, false_iff]
      omega
    · rw [if_neg inside, Option.map_eq_none_iff, ih (by omega)]
      omega

theorem locate_eq_none_iff : locate widths id = none ↔ widths.sum ≤ id := by
  simpa [locate] using locateFrom_eq_none_iff (Nat.zero_le id)

end FastS3.Data
