import Mathlib.Logic.Basic

namespace FastS3.Data

/-! Loops that set bits.

A store of bits is given by how a bit is read and set, and by how many bits may be set.  A loop over the
next bits sets those for which its condition holds and leaves the others.
-/

section

variable {σ : Type} {read : σ → Nat → Bool} {set : σ → Nat → σ} {size : σ → Nat}

def SetsBits (read : σ → Nat → Bool) (set : σ → Nat → σ) (size : σ → Nat) : Prop :=
  ∀ s k, k < size s → size (set s k) = size s ∧ ∀ i, read (set s k) i = (decide (i = k) || read s i)

theorem SetsBits.loop (sets : SetsBits read set size) (p : Nat → Bool) (s : σ) (done take : Nat)
    (inside : done + take ≤ size s) :
    size ((List.range take).foldl (fun s j => if p j then set s (done + j) else s) s) = size s ∧
      ∀ i, read ((List.range take).foldl (fun s j => if p j then set s (done + j) else s) s) i =
        (read s i || (decide (done ≤ i ∧ i < done + take) && p (i - done))) := by
  induction take with
  | zero =>
    refine ⟨rfl, ?_⟩
    intro i
    have none : ¬(done ≤ i ∧ i < done + 0) := by omega
    rw [decide_eq_false none, Bool.false_and, Bool.or_false]
    rfl
  | succ take ih =>
    obtain ⟨sized, bits⟩ := ih (by omega)
    rw [List.range_succ, List.foldl_append, List.foldl_cons, List.foldl_nil]
    generalize (List.range take).foldl (fun s j => if p j then set s (done + j) else s) s = before
      at sized bits ⊢
    obtain ⟨sizedSet, bitsSet⟩ := sets before (done + take) (by omega)
    constructor
    · split
      · rw [sizedSet, sized]
      · exact sized
    · intro i
      by_cases here : i = done + take
      · have earlier : ¬(done ≤ i ∧ i < done + take) := by omega
        have inRange : done ≤ i ∧ i < done + (take + 1) := by omega
        have position : i - done = take := by omega
        have old := bits i
        rw [decide_eq_false earlier, Bool.false_and, Bool.or_false] at old
        rw [decide_eq_true inRange, Bool.true_and, position]
        split
        · next on => rw [bitsSet, decide_eq_true here, on, Bool.or_true, Bool.true_or]
        · next off => rw [old, Bool.eq_false_iff.mpr off, Bool.or_false]
      · have same : (done ≤ i ∧ i < done + (take + 1)) ↔ (done ≤ i ∧ i < done + take) := by omega
        rw [decide_eq_decide.mpr same, ← bits i]
        split
        · rw [bitsSet, decide_eq_false here, Bool.false_or]
        · rfl

end

end FastS3.Data
