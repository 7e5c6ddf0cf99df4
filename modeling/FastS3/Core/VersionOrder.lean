import FastS3.Core.KeyRows
import Mathlib.Tactic.NormNum
import Mathlib.Tactic.Ring

namespace FastS3.Core

open Data

/-! The order of version keys: by their times, and within a microsecond by their random halves. -/

section Numbers

variable {left right : Bytes}

theorem foldl_beNat (bytes : Bytes) (value : Nat) :
    bytes.foldl (fun value byte => 256 * value + byte.toNat) value =
      256 ^ bytes.length * value + beNat bytes := by
  induction bytes generalizing value with
  | nil => simp [beNat]
  | cons byte bytes ih =>
    rw [beNat, List.foldl_cons, List.foldl_cons, ih, ih (256 * 0 + byte.toNat), List.length_cons,
      pow_succ]
    ring

theorem beNat_cons (byte : UInt8) (rest : Bytes) :
    beNat (byte :: rest) = 256 ^ rest.length * byte.toNat + beNat rest := by
  rw [beNat, List.foldl_cons, foldl_beNat]
  simp

theorem beNat_lt (bytes : Bytes) : beNat bytes < 256 ^ bytes.length := by
  induction bytes with
  | nil => simp [beNat]
  | cons byte rest ih =>
    have small : byte.toNat < 256 := byte.toNat_lt
    rw [beNat_cons, List.length_cons, pow_succ]
    calc 256 ^ rest.length * byte.toNat + beNat rest
      _ < 256 ^ rest.length * byte.toNat + 256 ^ rest.length := Nat.add_lt_add_left ih _
      _ = 256 ^ rest.length * (byte.toNat + 1) := by ring
      _ ≤ 256 ^ rest.length * 256 := Nat.mul_le_mul_left _ small

theorem lt_iff_beNat_lt (same : left.length = right.length) :
    left < right ↔ beNat left < beNat right := by
  induction left generalizing right with
  | nil =>
    rw [List.length_nil] at same
    rw [List.length_eq_zero_iff.mp same.symm]
    exact iff_of_false (List.not_lt_nil []) (lt_irrefl _)
  | cons first left ih =>
    cases right with
    | nil => cases same
    | cons second right =>
      have same : left.length = right.length := Nat.succ.inj same
      rw [List.cons_lt_cons_iff, beNat_cons, beNat_cons, ih same, same,
        UInt8.lt_iff_toNat_lt]
      have leftBound := beNat_lt left
      have rightBound := beNat_lt right
      rw [same] at leftBound
      constructor
      · intro less
        obtain less | ⟨rfl, rest⟩ := less
        · calc 256 ^ right.length * first.toNat + beNat left
            _ < 256 ^ right.length * first.toNat + 256 ^ right.length :=
              Nat.add_lt_add_left leftBound _
            _ = 256 ^ right.length * (first.toNat + 1) := by ring
            _ ≤ 256 ^ right.length * second.toNat := Nat.mul_le_mul_left _ less
            _ ≤ _ := Nat.le_add_right _ _
        · exact Nat.add_lt_add_left rest _
      · intro less
        obtain lower | equal | higher := lt_trichotomy first.toNat second.toNat
        · exact .inl lower
        · refine .inr ⟨UInt8.toNat_inj.mp equal, ?_⟩
          rw [equal] at less
          exact Nat.lt_of_add_lt_add_left less
        · have above : 256 ^ right.length * second.toNat + beNat right <
              256 ^ right.length * first.toNat + beNat left := by
            calc 256 ^ right.length * second.toNat + beNat right
              _ < 256 ^ right.length * second.toNat + 256 ^ right.length :=
                Nat.add_lt_add_left rightBound _
              _ = 256 ^ right.length * (second.toNat + 1) := by ring
              _ ≤ 256 ^ right.length * first.toNat := Nat.mul_le_mul_left _ higher
              _ ≤ _ := Nat.le_add_right _ _
          exact absurd less above.asymm

end Numbers

section Keys

variable {left right : Vk}

theorem vkTimeUs_lt (vk : Vk) : vkTimeUs vk < 2 ^ 64 := by
  have bound := beNat_lt (vk.take 8)
  have short : (vk.take 8).length ≤ 8 := by
    rw [List.length_take]
    exact Nat.min_le_left _ _
  calc vkTimeUs vk
    _ < 256 ^ (vk.take 8).length := bound
    _ ≤ 256 ^ 8 := Nat.pow_le_pow_right (by decide) short
    _ = 2 ^ 64 := by norm_num

theorem beNat_injective (same : left.length = right.length) (equal : beNat left = beNat right) :
    left = right := by
  obtain less | here | less := lt_trichotomy left right
  · exact absurd ((lt_iff_beNat_lt same).mp less) (by omega)
  · exact here
  · exact absurd ((lt_iff_beNat_lt same.symm).mp less) (by omega)

theorem heads_length (leftSized : left.length = 16) (rightSized : right.length = 16) :
    (left.take 8).length = (right.take 8).length := by
  rw [List.length_take, List.length_take, leftSized, rightSized]

theorem vk_lt_of_time (leftSized : left.length = 16) (rightSized : right.length = 16)
    (earlier : vkTimeUs left < vkTimeUs right) : left < right := by
  have sized := heads_length leftSized rightSized
  have heads := (lt_iff_beNat_lt sized).mpr earlier
  rw [← List.take_append_drop 8 left, ← List.take_append_drop 8 right]
  refine (append_lt_append_of_apart ?_ ?_ _ _).mpr heads
  · intro begins
    exact heads.ne (begins.eq_of_length sized)
  · intro begins
    exact heads.ne' (begins.eq_of_length sized.symm)

theorem vk_lt_iff_of_time (leftSized : left.length = 16) (rightSized : right.length = 16)
    (same : vkTimeUs left = vkTimeUs right) : left < right ↔ left.drop 8 < right.drop 8 := by
  have heads := beNat_injective (heads_length leftSized rightSized) same
  rw [← append_lt_append_iff (left.take 8) (left.drop 8) (right.drop 8),
    List.take_append_drop, heads, List.take_append_drop]

theorem vkTimeUs_le_of_le (leftSized : left.length = 16) (rightSized : right.length = 16)
    (le : left ≤ right) : vkTimeUs left ≤ vkTimeUs right := by
  by_contra later
  exact absurd (vk_lt_of_time rightSized leftSized (not_le.mp later)) (not_lt.mpr le)

end Keys

namespace KeyGroup

section

variable {α : Type} {group other : KeyGroup α} {vk : Vk} {m : α}

theorem maxReal_eq_none_iff :
    group.maxReal = none ↔ ∀ vk m, group.versions.get? vk = some m → vk = vkNull := by
  rw [maxReal, List.getLast?_eq_none_iff, List.filter_eq_nil_iff]
  constructor
  · intro none vk m held
    have here := none (vk, m) (BTreeMap.get?_eq_some_iff.mp held)
    simpa using here
  · intro none entry member
    have here := none entry.1 entry.2 (BTreeMap.get?_eq_some_iff.mpr member)
    simpa using here

theorem maxReal_eq_some_iff :
    group.maxReal = some (vk, m) ↔ group.versions.get? vk = some m ∧ vk ≠ vkNull ∧
      ∀ other found, group.versions.get? other = some found → other ≠ vkNull → other ≤ vk := by
  have sorted : (group.versions.entries.filter fun entry => entry.1 ≠ vkNull).Pairwise
      fun a b => a.1 < b.1 := group.versions.sorted.filter _
  have mem_iff : ∀ entry : Vk × α,
      entry ∈ group.versions.entries.filter (fun entry => entry.1 ≠ vkNull) ↔
        group.versions.get? entry.1 = some entry.2 ∧ entry.1 ≠ vkNull := by
    intro entry
    rw [List.mem_filter, BTreeMap.get?_eq_some_iff, decide_eq_true_eq]
  constructor
  · intro last
    obtain ⟨held, real⟩ := maxReal_held last
    refine ⟨held, real, ?_⟩
    intro other found there named
    obtain ⟨before, split⟩ := List.getLast?_eq_some_iff.mp last
    have member := (mem_iff (other, found)).mpr ⟨there, named⟩
    rw [split] at member sorted
    obtain earlier | here := List.mem_append.mp member
    · exact ((List.pairwise_append.mp sorted).2.2 _ earlier _ (List.mem_singleton_self _)).le
    · cases List.mem_singleton.mp here
      exact le_refl _
  · intro ⟨held, real, greatest⟩
    have member := (mem_iff (vk, m)).mpr ⟨held, real⟩
    cases last : group.maxReal with
    | none => exact absurd (maxReal_eq_none_iff.mp last vk m held) real
    | some entry =>
      obtain ⟨greatestVk, greatestMeta⟩ := entry
      obtain ⟨there, named⟩ := maxReal_held last
      obtain ⟨before, split⟩ := List.getLast?_eq_some_iff.mp last
      rw [split] at member sorted
      obtain earlier | here := List.mem_append.mp member
      · have below := (List.pairwise_append.mp sorted).2.2 _ earlier _ (List.mem_singleton_self _)
        exact absurd below (not_lt.mpr (greatest _ _ there named))
      · rw [List.mem_singleton.mp here]

theorem maxReal_congr
    (same : ∀ vk, vk ≠ vkNull → group.versions.get? vk = other.versions.get? vk) :
    group.maxReal = other.maxReal := by
  cases last : other.maxReal with
  | none =>
    rw [maxReal_eq_none_iff] at last ⊢
    intro vk m held
    by_contra real
    exact real (last vk m (same vk real ▸ held))
  | some entry =>
    obtain ⟨held, real, greatest⟩ := maxReal_eq_some_iff.mp last
    refine maxReal_eq_some_iff.mpr ⟨(same _ real).trans held, real, ?_⟩
    intro vk m there named
    exact greatest vk m (same vk named ▸ there) named

end

end KeyGroup

end FastS3.Core
