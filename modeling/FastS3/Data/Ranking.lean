import Mathlib.Data.List.Sort

namespace FastS3.Data

/-! Lists sorted by a key, and the places of their elements.

A relation that compares keys sorts a list without ties in one way only, so that what is read off the
sorted list does not depend on the order of the list.
-/

section Sorted

variable {α β : Type} [LinearOrder β] {key : α → β} {r : α → α → Prop} [DecidableRel r]
  {list other : List α} {a b : α}

def ComparesBy (r : α → α → Prop) (key : α → β) : Prop :=
  ∀ a b, r a b ↔ key a ≤ key b

theorem ComparesBy.sorted (compares : ComparesBy r key) (list : List α) :
    (list.insertionSort r).Pairwise fun a b => key a ≤ key b := by
  have total : Std.Total r :=
    ⟨fun a b => (le_total (key a) (key b)).imp (compares a b).mpr (compares b a).mpr⟩
  have transitive : IsTrans α r :=
    ⟨fun a b c first second =>
      (compares a c).mpr (((compares a b).mp first).trans ((compares b c).mp second))⟩
  exact (List.pairwise_insertionSort r list).imp fun {a b} => (compares a b).mp

theorem ComparesBy.perm_eq (compares : ComparesBy r key)
    (injective : ∀ a ∈ list, ∀ b ∈ list, key a = key b → a = b) (same : list.Perm other) :
    list.insertionSort r = other.insertionSort r := by
  refine List.Perm.eq_of_pairwise ?_ (compares.sorted list) (compares.sorted other) ?_
  · intro a b inside inside' first second
    rw [List.mem_insertionSort] at inside inside'
    exact injective a inside b (same.mem_iff.mpr inside') (le_antisymm first second)
  · exact (List.perm_insertionSort r list).trans (same.trans (List.perm_insertionSort r other).symm)

theorem idxOf_sorted [BEq α] [LawfulBEq α] (sorted : list.Pairwise fun a b => key a < key b)
    (inside : a ∈ list) : list.idxOf a = list.countP fun b => key b < key a := by
  induction list with
  | nil => cases inside
  | cons first rest ih =>
    obtain ⟨below, ordered⟩ := List.pairwise_cons.mp sorted
    by_cases same : first = a
    · rw [← same, List.idxOf_cons_self, List.countP_cons_of_neg (by simp)]
      refine (List.countP_eq_zero.mpr ?_).symm
      intro b later
      simp only [decide_eq_true_eq, not_lt]
      exact (below b later).le
    · have later : a ∈ rest := (List.mem_cons.mp inside).resolve_left (Ne.symm same)
      rw [List.idxOf_cons_ne _ same, ih ordered later,
        List.countP_cons_of_pos (p := fun b => decide (key b < key a))
          (decide_eq_true (below a later))]

theorem ComparesBy.strict (compares : ComparesBy r key) (nodup : list.Nodup)
    (injective : ∀ a ∈ list, ∀ b ∈ list, key a = key b → a = b) :
    (list.insertionSort r).Pairwise fun a b => key a < key b := by
  have distinct : (list.insertionSort r).Pairwise fun a b => a ≠ b :=
    (List.perm_insertionSort r list).nodup_iff.mpr nodup
  refine ((compares.sorted list).and distinct).imp_of_mem ?_
  intro a b inside inside' both
  rw [List.mem_insertionSort] at inside inside'
  exact lt_of_le_of_ne both.1 fun same => both.2 (injective a inside b inside' same)

theorem ComparesBy.idxOf [BEq α] [LawfulBEq α] (compares : ComparesBy r key) (nodup : list.Nodup)
    (injective : ∀ a ∈ list, ∀ b ∈ list, key a = key b → a = b) (inside : a ∈ list) :
    (list.insertionSort r).idxOf a = list.countP fun b => key b < key a := by
  rw [idxOf_sorted (compares.strict nodup injective) ((List.mem_insertionSort r).mpr inside)]
  exact (List.perm_insertionSort r list).countP_eq _

theorem getLast?_sorted (sorted : list.Pairwise fun a b => key a ≤ key b)
    (found : list.getLast? = some a) : a ∈ list ∧ ∀ b ∈ list, key b ≤ key a := by
  obtain ⟨front, rfl⟩ := List.getLast?_eq_some_iff.mp found
  refine ⟨List.mem_append_right _ (List.mem_singleton.mpr rfl), ?_⟩
  intro b inside
  obtain earlier | last := List.mem_append.mp inside
  · exact (List.pairwise_append.mp sorted).2.2 b earlier a (List.mem_singleton.mpr rfl)
  · rw [List.mem_singleton.mp last]

end Sorted

end FastS3.Data
