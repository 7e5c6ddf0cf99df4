import FastS3.Alloc.Bitmap
import Mathlib.Data.List.Nodup
import Mathlib.Data.List.Perm.Subperm

namespace FastS3.Alloc

open FastS3.Core

/-! What the two searches of the bitmap find.

The words of a window are visited once around, from any of them.  A word gives its lowest free bit, so
that it is passed over only when all of its bits in the window are set.
-/

theorem trailingZeros_le {word : BitVec 64} {bit : Nat} (set : word.getLsbD bit = true)
    (inWord : bit < 64) : trailingZeros word ≤ bit := by
  have nonzero : word ≠ 0#64 := by
    intro empty
    rw [empty, BitVec.getLsbD_zero] at set
    cases set
  unfold trailingZeros
  cases found : (List.range 64).find? fun bit => word.getLsbD bit with
  | none =>
    have clear := List.find?_eq_none.mp found bit (List.mem_range.mpr inWord)
    exact absurd set clear
  | some lowest =>
    obtain ⟨_, _, first⟩ := List.find?_range_eq_some.mp found
    rw [Option.getD_some]
    by_contra above
    have clear := first bit (Nat.lt_of_not_le above)
    rw [set] at clear
    cases clear

theorem exists_step (start : Nat) {word nwords : Nat} (inside : word < nwords) :
    ∃ step < nwords, (start + step) % nwords = word := by
  have rest : start % nwords < nwords := Nat.mod_lt _ (by omega)
  by_cases before : start % nwords ≤ word
  · refine ⟨word - start % nwords, by omega, ?_⟩
    rw [Nat.add_mod, Nat.mod_eq_of_lt (show word - start % nwords < nwords by omega),
      Nat.add_sub_cancel' before, Nat.mod_eq_of_lt inside]
  · refine ⟨word + nwords - start % nwords, by omega, ?_⟩
    have around : start % nwords + (word + nwords - start % nwords) = word + nwords := by omega
    rw [Nat.add_mod, Nat.mod_eq_of_lt (show word + nwords - start % nwords < nwords by omega), around,
      Nat.add_mod_right, Nat.mod_eq_of_lt inside]

namespace Bitmap

section Words

variable {b : Bitmap} {wi id start stop : Nat}

theorem getLsbD_of_clear (clear : b.test id = false) (here : id / 64 = wi) :
    (b.words wi).getLsbD (id % 64) = false := by
  rw [test_eq_getLsbD, here] at clear
  exact clear

theorem freeInWord_none (none : b.freeInWord wi = none) (inside : id < b.n) (here : id / 64 = wi) :
    b.test id = true := by
  by_contra unset
  have inWord : id % 64 < 64 := Nat.mod_lt _ (by decide)
  have clear := getLsbD_of_clear (Bool.eq_false_iff.mpr unset) here
  have free : (~~~b.words wi).getLsbD (id % 64) = true := by
    rw [BitVec.getLsbD_not, clear, decide_eq_true inWord]
    rfl
  have lowest := trailingZeros_le free inWord
  simp only [freeInWord] at none
  split at none
  · next zero =>
    rw [zero, BitVec.getLsbD_zero] at free
    cases free
  · split at none
    · next beyond => omega
    · cases none

theorem freeInWindowWord_none (none : b.freeInWindowWord start stop wi = none)
    (above : start ≤ id) (below : id < stop) (here : id / 64 = wi) : b.test id = true := by
  by_contra unset
  have inWord : id % 64 < 64 := Nat.mod_lt _ (by decide)
  have clear := getLsbD_of_clear (Bool.eq_false_iff.mpr unset) here
  have free : (b.windowWord start stop wi).getLsbD (id % 64) = true := by
    apply (getLsbD_windowWord b start stop wi _ inWord).mpr
    refine ⟨clear, ?_, ?_⟩
    · intro first
      omega
    · intro last
      omega
  simp only [freeInWindowWord] at none
  split at none
  · next zero =>
    rw [zero, BitVec.getLsbD_zero] at free
    cases free
  · cases none

end Words

/-- What a search of the window from `start` to `stop` may give: a clear bit of the window, which is
the only one to change, or nothing where all are set. -/
def Handed (b : Bitmap) (start stop : Nat) : Option (Nat × Bitmap) → Prop
  | some (id, after) => start ≤ id ∧ id < stop ∧ b.test id = false ∧ after.n = b.n ∧
      ∀ other, after.test other = (decide (other = id) || b.test other)
  | none => ∀ id, start ≤ id → id < stop → b.test id = true

theorem allocOne_handed (b : Bitmap) (hint : Nat) : b.Handed 0 b.n (b.allocOne hint) := by
  cases taken : b.allocOne hint with
  | some found =>
    obtain ⟨id, after⟩ := found
    obtain ⟨inside, clear, changed⟩ := allocOne_spec taken
    rw [changed]
    exact ⟨Nat.zero_le _, inside, clear, rfl, b.test_setBit id⟩
  | none =>
    intro id _ inside
    simp only [allocOne] at taken
    split at taken
    · next empty =>
      rw [nwords, divCeil] at empty
      omega
    · split at taken
      · next missed =>
        have word : id / 64 < b.nwords := by
          rw [nwords, divCeil]
          omega
        obtain ⟨step, inRound, here⟩ := exists_step (hint / 64 % b.nwords) word
        have passed := List.findSome?_eq_none_iff.mp missed step (List.mem_range.mpr inRound)
        rw [here] at passed
        exact freeInWord_none passed inside rfl
      · cases taken

theorem allocOneInRange_handed (b : Bitmap) (hint start count : Nat) :
    b.Handed start (start + count) (b.allocOneInRange hint start count) := by
  cases taken : b.allocOneInRange hint start count with
  | some found =>
    obtain ⟨id, after⟩ := found
    obtain ⟨above, below, clear, changed⟩ := allocOneInRange_spec taken
    rw [changed]
    exact ⟨above, below, clear, rfl, b.test_setBit id⟩
  | none =>
    intro id above below
    simp only [allocOneInRange] at taken
    split at taken
    · omega
    · split at taken
      · next missed =>
        have first : start / 64 ≤ id / 64 := Nat.div_le_div_right above
        have last : id / 64 ≤ (start + count - 1) / 64 := Nat.div_le_div_right (by omega)
        have word : id / 64 - start / 64 < (start + count - 1) / 64 - start / 64 + 1 := by omega
        obtain ⟨step, inRound, here⟩ := exists_step
          ((if hint < start ∨ hint ≥ start + count then start / 64 else hint / 64) - start / 64) word
        have passed := List.findSome?_eq_none_iff.mp missed step (List.mem_range.mpr inRound)
        rw [here, Nat.add_sub_cancel' first] at passed
        exact freeInWindowWord_none passed above below rfl
      · cases taken

end Bitmap

section Repeated

/-- The bits that calls with these hints hand out; a call that finds nothing hands out none. -/
def handedOut (take : Bitmap → Nat → Option (Nat × Bitmap)) : Bitmap → List Nat → List Nat
  | _, [] => []
  | b, hint :: hints =>
    match take b hint with
    | some (id, after) => id :: handedOut take after hints
    | none => handedOut take b hints

def Bitmap.clearBits (b : Bitmap) (start count : Nat) : List Nat :=
  (List.range' start count).filter fun id => b.test id = false

variable {take : Bitmap → Nat → Option (Nat × Bitmap)} {n start count : Nat}

theorem Bitmap.mem_clearBits {b : Bitmap} {id : Nat} :
    id ∈ b.clearBits start count ↔ (start ≤ id ∧ id < start + count) ∧ b.test id = false := by
  rw [Bitmap.clearBits, List.mem_filter, List.mem_range'_1, decide_eq_true_eq]

theorem Bitmap.clearBits_nodup (b : Bitmap) : (b.clearBits start count).Nodup :=
  List.Nodup.filter _ List.nodup_range'

theorem Bitmap.clearBits_taken {b after : Bitmap} {id : Nat}
    (changed : ∀ other, after.test other = (decide (other = id) || b.test other)) :
    after.clearBits start count = (b.clearBits start count).erase id := by
  rw [b.clearBits_nodup.erase_eq_filter, Bitmap.clearBits, Bitmap.clearBits, List.filter_filter]
  apply List.filter_congr
  intro other _
  rw [changed other]
  by_cases same : other = id
  · simp [same]
  · simp [same]

theorem handedOut_spec
    (searches : ∀ (b : Bitmap) hint, b.n = n → b.Handed start (start + count) (take b hint))
    (b : Bitmap) (sized : b.n = n) (hints : List Nat) :
    (handedOut take b hints).Nodup ∧
      (∀ id ∈ handedOut take b hints, id ∈ b.clearBits start count) ∧
      (handedOut take b hints).length = min hints.length (b.clearBits start count).length := by
  induction hints generalizing b with
  | nil => simp [handedOut]
  | cons hint hints ih =>
    have found := searches b hint sized
    cases taken : take b hint with
    | none =>
      rw [taken] at found
      have empty : b.clearBits start count = [] := by
        rw [List.eq_nil_iff_forall_not_mem]
        intro id member
        obtain ⟨⟨above, below⟩, clear⟩ := Bitmap.mem_clearBits.mp member
        rw [found id above below] at clear
        cases clear
      have rest := ih b sized
      rw [empty] at rest ⊢
      simp only [handedOut, taken]
      refine ⟨rest.1, rest.2.1, ?_⟩
      rw [rest.2.2, List.length_nil, Nat.min_zero, Nat.min_zero]
    | some pair =>
      obtain ⟨id, after⟩ := pair
      rw [taken] at found
      obtain ⟨above, below, clear, kept, changed⟩ := found
      have here : id ∈ b.clearBits start count :=
        Bitmap.mem_clearBits.mpr ⟨⟨above, below⟩, clear⟩
      obtain ⟨distinct, clearOnes, many⟩ := ih after (kept.trans sized)
      rw [Bitmap.clearBits_taken changed] at clearOnes many
      have others : ∀ other ∈ handedOut take after hints,
          other ≠ id ∧ other ∈ b.clearBits start count := by
        intro other member
        exact (b.clearBits_nodup.mem_erase_iff).mp (clearOnes other member)
      simp only [handedOut, taken]
      refine ⟨?_, ?_, ?_⟩
      · apply List.nodup_cons.mpr
        exact ⟨fun member => (others id member).1 rfl, distinct⟩
      · intro other member
        cases List.mem_cons.mp member with
        | inl same => rwa [same]
        | inr later => exact (others other later).2
      · have positive := List.length_pos_of_mem here
        rw [List.length_cons, many, List.length_erase_of_mem here, List.length_cons]
        omega

theorem handedOut_all
    (searches : ∀ (b : Bitmap) hint, b.n = n → b.Handed start (start + count) (take b hint))
    (b : Bitmap) (sized : b.n = n) (hints : List Nat)
    (enough : (b.clearBits start count).length ≤ hints.length) :
    (handedOut take b hints).Perm (b.clearBits start count) := by
  obtain ⟨distinct, clearOnes, many⟩ := handedOut_spec searches b sized hints
  rw [Nat.min_eq_right enough] at many
  exact (List.subperm_of_subset distinct clearOnes).perm_of_length_le (Nat.le_of_eq many.symm)

end Repeated

/-- A search of a window finds a clear bit of it if there is one and changes that bit only, and
repeated searches with any hints hand out every clear bit of the window once. -/
theorem window_searched (b : Bitmap) (hint : Nat) (hints : List Nat) :
    b.Handed 0 b.n (b.allocOne hint) ∧
      ((b.clearBits 0 b.n).length ≤ hints.length →
        (handedOut Bitmap.allocOne b hints).Perm (b.clearBits 0 b.n)) ∧
      ∀ start count, b.Handed start (start + count) (b.allocOneInRange hint start count) ∧
        ((b.clearBits start count).length ≤ hints.length →
          (handedOut (fun b hint => b.allocOneInRange hint start count) b hints).Perm
            (b.clearBits start count)) := by
  refine ⟨b.allocOne_handed hint, ?_, ?_⟩
  · intro enough
    apply handedOut_all (n := b.n) ?_ b rfl hints enough
    intro b' hint' sized
    rw [Nat.zero_add, ← sized]
    exact b'.allocOne_handed hint'
  · intro start count
    refine ⟨b.allocOneInRange_handed hint start count, ?_⟩
    intro enough
    exact handedOut_all (fun b' hint' _ => b'.allocOneInRange_handed hint' start count) b rfl hints
      enough

end FastS3.Alloc
