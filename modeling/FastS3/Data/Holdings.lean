import Mathlib.Algebra.Order.BigOperators.Group.Finset
import Mathlib.Order.Interval.Finset.Nat

namespace FastS3.Data

/-! Items held by several owners.

The holdings are a multiset: an item occurs once for each owner.  A weight summed
over the distinct items changes only when an item gains its first owner or loses
its last one.
-/

section Distinct

variable {κ M : Type} [DecidableEq κ] [AddCommMonoid M]

def distinctSum (weight : κ → M) (held : Multiset κ) : M :=
  ∑ item ∈ held.toFinset, weight item

variable {weight : κ → M} {held : Multiset κ} {item : κ}

@[simp] theorem distinctSum_zero (weight : κ → M) : distinctSum weight 0 = 0 := rfl

theorem distinctSum_cons_of_mem (member : item ∈ held) :
    distinctSum weight (item ::ₘ held) = distinctSum weight held := by
  rw [distinctSum, Multiset.toFinset_cons, Finset.insert_eq_self.mpr (Multiset.mem_toFinset.mpr member),
    distinctSum]

theorem distinctSum_cons_of_notMem (fresh : item ∉ held) :
    distinctSum weight (item ::ₘ held) = weight item + distinctSum weight held := by
  rw [distinctSum, Multiset.toFinset_cons, Finset.sum_insert (by simpa using fresh), distinctSum]

theorem distinctSum_erase_of_one_lt (many : 1 < held.count item) :
    distinctSum weight (held.erase item) = distinctSum weight held := by
  have member : item ∈ held.erase item := by
    rw [← Multiset.one_le_count_iff_mem, Multiset.count_erase_self]
    omega
  calc
    distinctSum weight (held.erase item) = distinctSum weight (item ::ₘ held.erase item) :=
      (distinctSum_cons_of_mem member).symm
    _ = distinctSum weight held := by rw [Multiset.cons_erase (Multiset.mem_of_mem_erase member)]

theorem distinctSum_erase_of_one (last : held.count item = 1) :
    weight item + distinctSum weight (held.erase item) = distinctSum weight held := by
  have member : item ∈ held := by
    rw [← Multiset.one_le_count_iff_mem]
    omega
  have gone : item ∉ held.erase item := by
    rw [← Multiset.count_eq_zero, Multiset.count_erase_self]
    omega
  rw [← distinctSum_cons_of_notMem gone, Multiset.cons_erase member]

end Distinct

theorem sum_length_le_of_disjoint {κ : Type} (items : Finset κ) (start length : κ → Nat)
    (bound : Nat) (inside : ∀ item ∈ items, start item + length item ≤ bound)
    (disjoint : ∀ left ∈ items, ∀ right ∈ items, left ≠ right →
      start left + length left ≤ start right ∨ start right + length right ≤ start left) :
    ∑ item ∈ items, length item ≤ bound := by
  classical
  let points := fun item => Finset.Ico (start item) (start item + length item)
  have apart : ∀ left ∈ items, ∀ right ∈ items, left ≠ right →
      Disjoint (points left) (points right) := by
    intro left leftMember right rightMember different
    rw [Finset.disjoint_left]
    intro x inLeft inRight
    simp only [points, Finset.mem_Ico] at inLeft inRight
    rcases disjoint left leftMember right rightMember different with before | after
    · omega
    · omega
  calc
    ∑ item ∈ items, length item = ∑ item ∈ items, (points item).card := by
      apply Finset.sum_congr rfl
      intro item _
      simp [points]
    _ = (items.biUnion points).card := (Finset.card_biUnion apart).symm
    _ ≤ (Finset.range bound).card := by
      apply Finset.card_le_card
      intro x member
      obtain ⟨item, itemMember, inItem⟩ := Finset.mem_biUnion.mp member
      have fits := inside item itemMember
      simp only [points, Finset.mem_Ico] at inItem
      exact Finset.mem_range.mpr (by omega)
    _ = bound := Finset.card_range bound

end FastS3.Data
