import Mathlib.Order.Iterate
import Mathlib.Order.Lattice

namespace FastS3.Data

/-! Iterating an order-reversing map.

An antitone map of a linear order has at most one fixed point, and a pair of
neighbours that it exchanges rules fixed points out.  Iteration from the top of
its range therefore ends in one of these two shapes once the first two values
are known to be close.
-/

variable {f : Nat → Nat}

theorem fixedPoint_unique {α : Type} [LinearOrder α] {g : α → α} (reversing : Antitone g)
    {a b : α} (left : g a = a) (right : g b = b) : a = b := by
  rcases le_total a b with ordered | ordered
  · have back := reversing ordered
    rw [left, right] at back
    exact le_antisymm ordered back
  · have back := reversing ordered
    rw [left, right] at back
    exact le_antisymm back ordered

/-- `f` exchanges `low` with its successor. -/
def Exchanges (f : Nat → Nat) (low : Nat) : Prop :=
  f low = low + 1 ∧ f (low + 1) = low

theorem Exchanges.no_fixedPoint (reversing : Antitone f) {low : Nat}
    (exchanges : Exchanges f low) (n : Nat) : f n ≠ n := by
  intro fixed
  rcases Nat.lt_or_ge low n with above | below
  · have back := reversing (Nat.succ_le_of_lt above)
    rw [Nat.succ_eq_add_one, exchanges.2, fixed] at back
    omega
  · have back := reversing below
    rw [exchanges.1, fixed] at back
    omega

/-- Four rounds from the top value either reach the fixed point or end on the
upper neighbour of an exchanged pair. -/
theorem iterate_four_settles (reversing : Antitone f) {top : Nat}
    (isTop : ∀ n, f n ≤ top) (close : f (f top) ≤ f top + 1) :
    f (f^[4] top) = f^[4] top ∨ ∃ low, f^[4] top = low + 1 ∧ Exchanges f low := by
  have unfolded : f^[4] top = f (f (f (f top))) := rfl
  have second : f top ≤ f (f top) := reversing (isTop top)
  rw [unfolded]
  rcases Nat.eq_or_lt_of_le second with fixed | grows
  · left
    simp only [← fixed]
  · have upper : f (f top) = f top + 1 := by omega
    have third : f top ≤ f (f (f top)) := reversing (isTop (f top))
    have thirdLe : f (f (f top)) ≤ f (f top) := reversing second
    rw [upper] at third thirdLe ⊢
    rcases Nat.eq_or_lt_of_le thirdLe with fixed | falls
    · left
      simp only [fixed]
    · have lower : f (f top + 1) = f top := by omega
      right
      refine ⟨f top, ?_, upper, lower⟩
      rw [lower, upper]

end FastS3.Data
