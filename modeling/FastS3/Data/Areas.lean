import Mathlib.Data.List.Basic

namespace FastS3.Data

/-! Named areas of cells, read and written by ranges. -/

variable {κ β : Type}

/-- The cells of the range that starts at `off`. -/
def readArea (area : κ → Nat → β) (name : κ) (off len : Nat) : List β :=
  (List.range len).map fun i => area name (off + i)

/-- Stores `cells` at `off` in one area. -/
def writeArea [DecidableEq κ] (area : κ → Nat → β) (name : κ) (off : Nat) (cells : List β) :
    κ → Nat → β := fun other position =>
  if other = name ∧ off ≤ position then
    (cells[position - off]?).getD (area other position)
  else area other position

variable (area : κ → Nat → β)

@[simp] theorem readArea_length (name : κ) (off len : Nat) :
    (readArea area name off len).length = len := by
  simp [readArea]

theorem readArea_append (name : κ) (off left right : Nat) :
    readArea area name off (left + right) =
      readArea area name off left ++ readArea area name (off + left) right := by
  simp only [readArea, List.range_add, List.map_append, List.map_map]
  congr 1
  apply List.map_congr_left
  intro i _
  simp only [Function.comp_apply, Nat.add_assoc]

theorem readArea_drop_take (name : κ) (off : Nat) {len start count : Nat}
    (inside : start + count ≤ len) :
    ((readArea area name off len).drop start).take count =
      readArea area name (off + start) count := by
  obtain ⟨rest, rfl⟩ := Nat.exists_eq_add_of_le inside
  rw [Nat.add_assoc, readArea_append, readArea_append, List.drop_left' (readArea_length ..),
    List.take_left' (readArea_length ..)]

variable [DecidableEq κ]

theorem readArea_writeArea (name : κ) (off : Nat) (cells : List β) :
    readArea (writeArea area name off cells) name off cells.length = cells := by
  apply List.ext_getElem
  · simp
  · intro i _ inside
    simp [readArea, writeArea, List.getElem?_eq_getElem inside]

theorem readArea_writeArea_of_disjoint {name other : κ} {off start len : Nat} {cells : List β}
    (apart : other ≠ name ∨ start + len ≤ off ∨ off + cells.length ≤ start) :
    readArea (writeArea area name off cells) other start len = readArea area other start len := by
  apply List.map_congr_left
  intro i inside
  have below := List.mem_range.mp inside
  unfold writeArea
  split
  · next hit =>
    obtain ⟨same, above⟩ := hit
    have behind : cells.length ≤ start + i - off := by
      rcases apart with names | before | after
      · exact absurd same names
      · omega
      · omega
    rw [List.getElem?_eq_none behind, Option.getD_none]
  · rfl

end FastS3.Data
