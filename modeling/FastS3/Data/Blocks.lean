import Mathlib.Data.List.Basic

namespace FastS3.Data

/-! A list cut into blocks of one size. -/

variable {α : Type}

/-- The blocks of `size` items; the last one may be short. -/
def blocks (size : Nat) (items : List α) : List (List α) :=
  (List.range ((items.length + size - 1) / size)).map fun i => (items.drop (i * size)).take size

theorem blocks_length (size : Nat) (items : List α) :
    (blocks size items).length = (items.length + size - 1) / size := by
  simp [blocks]

variable {size : Nat} {items : List α}

theorem blocks_getElem? {i : Nat} (positive : 0 < size) (inside : i * size < items.length) :
    (blocks size items)[i]? = some ((items.drop (i * size)).take size) := by
  have counted : i < (items.length + size - 1) / size := by
    rw [Nat.lt_div_iff_mul_lt positive]
    omega
  rw [blocks, List.getElem?_map, List.getElem?_range counted, Option.map_some]

theorem flatten_range_blocks (size count : Nat) (items : List α) :
    ((List.range count).map fun i => (items.drop (i * size)).take size).flatten =
      items.take (count * size) := by
  induction count with
  | zero => simp
  | succ count ih =>
    rw [List.range_succ, List.map_append, List.flatten_append, ih, List.map_singleton,
      List.flatten_singleton, Nat.succ_mul, List.take_add]

theorem blocks_flatten (positive : 0 < size) (items : List α) :
    (blocks size items).flatten = items := by
  rw [blocks, flatten_range_blocks]
  apply List.take_of_length_le
  have rounded := Nat.lt_div_mul_add positive (a := items.length + size - 1)
  omega

theorem blocks_append {block : List α} (full : size ∣ items.length) (nonempty : block ≠ [])
    (short : block.length ≤ size) :
    blocks size (items ++ block) = blocks size items ++ [block] := by
  obtain ⟨count, whole⟩ := full
  have some := List.length_pos_iff.mpr nonempty
  have positive : 0 < size := by omega
  have before : (items.length + size - 1) / size = count := by
    rw [whole, Nat.add_sub_assoc positive, Nat.mul_add_div positive, Nat.div_eq_of_lt (by omega),
      Nat.add_zero]
  have after : ((items ++ block).length + size - 1) / size = count + 1 := by
    have split : (items ++ block).length + size - 1 = size * (count + 1) + (block.length - 1) := by
      rw [List.length_append, whole, Nat.mul_succ]
      omega
    rw [split, Nat.mul_add_div positive, Nat.div_eq_of_lt (by omega), Nat.add_zero]
  rw [blocks, blocks, before, after, List.range_succ, List.map_append, List.map_singleton]
  congr 1
  · apply List.map_congr_left
    intro i inside
    have below := List.mem_range.mp inside
    have step := Nat.mul_le_mul_left size (Nat.succ_le_of_lt below)
    rw [Nat.mul_succ, Nat.mul_comm size i] at step
    rw [List.drop_append_of_le_length (by omega), List.take_append_of_le_length]
    rw [List.length_drop]
    omega
  · rw [Nat.mul_comm count, ← whole, List.drop_left, List.take_of_length_le short]

@[simp] theorem blocks_nil (size : Nat) : blocks size ([] : List α) = [] := by
  apply List.eq_nil_of_length_eq_zero
  rw [blocks_length, List.length_nil]
  rcases Nat.eq_zero_or_pos size with rfl | positive
  · rfl
  · exact Nat.div_eq_of_lt (by omega)

theorem flatten_block {β : Type} {i : Nat} {pieces : List (List β)} {piece : List β}
    (positive : 0 < size) (lengths : pieces.map List.length = (blocks size items).map List.length)
    (found : pieces[i]? = some piece) :
    (pieces.flatten.drop (i * size)).take piece.length = piece ∧
      piece.length = min size (items.length - i * size) ∧ i * size < items.length := by
  obtain ⟨inside, here⟩ := List.getElem?_eq_some_iff.mp found
  have count := congrArg List.length lengths
  rw [List.length_map, List.length_map, blocks_length] at count
  have below : i * size < items.length := by
    rw [count, Nat.lt_div_iff_mul_lt positive] at inside
    omega
  have before : (pieces.take i).flatten.length = i * size := by
    have same := congrArg (List.take i) lengths
    rw [← List.map_take, ← List.map_take] at same
    rw [List.length_flatten, same, ← List.length_flatten, blocks, ← List.map_take, List.take_range,
      flatten_range_blocks, List.length_take, Nat.min_eq_left (by omega : i ≤ _)]
    omega
  have long : piece.length = min size (items.length - i * size) := by
    have same := congrArg (fun lengths => lengths[i]?) lengths
    simp only [List.getElem?_map, found, blocks_getElem? positive below, Option.map_some,
      Option.some.injEq, List.length_take, List.length_drop] at same
    exact same
  refine ⟨?_, long, below⟩
  have split : pieces = pieces.take i ++ piece :: pieces.drop (i + 1) := by
    rw [← here, List.getElem_cons_drop, List.take_append_drop]
  rw [split, List.flatten_append, List.drop_left' before, List.flatten_cons, List.take_left' rfl]

end FastS3.Data
