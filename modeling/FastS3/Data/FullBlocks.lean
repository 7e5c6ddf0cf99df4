import Mathlib.Data.List.Basic

namespace FastS3.Data

/-! A stream that is taken in blocks of one size, and what of it waits for more. -/

variable {α : Type}

def fullBlocks (size : Nat) (items : List α) : List (List α) :=
  if 0 < size ∧ size ≤ items.length then
    items.take size :: fullBlocks size (items.drop size)
  else []
termination_by items.length
decreasing_by simp only [List.length_drop]; omega

def remainder (size : Nat) (items : List α) : List α :=
  items.drop (size * (items.length / size))

variable {size : Nat}

theorem fullBlocks_short {items : List α} (short : items.length < size) :
    fullBlocks size items = [] := by
  rw [fullBlocks, if_neg (by omega)]

theorem fullBlocks_cons {block : List α} (positive : 0 < size) (full : block.length = size)
    (rest : List α) : fullBlocks size (block ++ rest) = block :: fullBlocks size rest := by
  rw [fullBlocks, if_pos ⟨positive, by rw [List.length_append]; omega⟩, List.take_left' full,
    List.drop_left' full]

theorem remainder_short {items : List α} (short : items.length < size) :
    remainder size items = items := by
  rw [remainder, Nat.div_eq_of_lt short, Nat.mul_zero, List.drop_zero]

theorem remainder_cons {block : List α} (positive : 0 < size) (full : block.length = size)
    (rest : List α) : remainder size (block ++ rest) = remainder size rest := by
  have count : (block ++ rest).length / size = rest.length / size + 1 := by
    rw [List.length_append, full, Nat.add_comm, Nat.add_div_right _ positive]
  rw [remainder, count, Nat.mul_succ, Nat.add_comm, ← full, ← List.drop_drop, List.drop_left, full,
    remainder]

theorem remainder_length (items : List α) :
    (remainder size items).length = items.length % size := by
  rw [remainder, List.length_drop, Nat.mod_eq_sub]

theorem fullBlocks_append (positive : 0 < size) (items later : List α) :
    fullBlocks size (items ++ later) =
        fullBlocks size items ++ fullBlocks size (remainder size items ++ later) ∧
      remainder size (items ++ later) = remainder size (remainder size items ++ later) := by
  fun_induction fullBlocks size items with
  | case1 items full ih =>
    have block : (items.take size).length = size := by
      rw [List.length_take]
      omega
    have split := List.take_append_drop size items
    have whole : items ++ later = items.take size ++ (items.drop size ++ later) := by
      rw [← List.append_assoc, split]
    have kept : remainder size items = remainder size (items.drop size) := by
      have cons := remainder_cons positive block (items.drop size)
      rwa [split] at cons
    rw [whole, fullBlocks_cons positive block, remainder_cons positive block, kept, ih.1, ih.2]
    exact ⟨rfl, rfl⟩
  | case2 items short =>
    rw [remainder_short (by omega)]
    exact ⟨rfl, rfl⟩

end FastS3.Data
