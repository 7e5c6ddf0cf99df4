import FastS3.Core.Basic
import Mathlib.Logic.Function.Basic

namespace FastS3.Alloc

open FastS3.Core

/-! The allocation bitmap: one bit for each extent, in 64-bit words.

Bits are changed by compare-and-swap in the source.  A retried swap starts over
from the word it found, so each call is modeled as one step on the words.
-/

structure Bitmap where
  words : Nat → BitVec 64
  n : Nat

def bitMask (id : Nat) : BitVec 64 :=
  1#64 <<< (id % 64)

def trailingZeros (word : BitVec 64) : Nat :=
  ((List.range 64).find? fun bit => word.getLsbD bit).getD 64

namespace Bitmap

def new (n : Nat) : Bitmap :=
  ⟨fun _ => 0#64, n⟩

def nwords (b : Bitmap) : Nat :=
  divCeil b.n 64

def test (b : Bitmap) (id : Nat) : Bool :=
  b.words (id / 64) &&& bitMask id != 0#64

def setBit (b : Bitmap) (id : Nat) : Bitmap :=
  { b with words := Function.update b.words (id / 64) (b.words (id / 64) ||| bitMask id) }

def clearBit (b : Bitmap) (id : Nat) : Bitmap :=
  { b with words := Function.update b.words (id / 64) (b.words (id / 64) &&& ~~~bitMask id) }

def freeInWord (b : Bitmap) (wi : Nat) : Option Nat :=
  let free := ~~~b.words wi
  if free = 0#64 then none
  else
    let id := wi * 64 + trailingZeros free
    if id ≥ b.n then none else some id

/-- `alloc_one`: the bit taken and the changed bitmap.  The new hint is the bit plus one. -/
def allocOne (b : Bitmap) (hint : Nat) : Option (Nat × Bitmap) :=
  if b.nwords = 0 then none
  else
    let startWord := hint / 64 % b.nwords
    match (List.range b.nwords).findSome? fun step => b.freeInWord ((startWord + step) % b.nwords) with
    | none => none
    | some id => some (id, b.setBit id)

def startBitMask (start : Nat) : BitVec 64 :=
  ~~~((1#64 <<< (start % 64)) - 1#64)

def endBitMask (stop : Nat) : BitVec 64 :=
  if stop % 64 = 0 then BitVec.allOnes 64 else (1#64 <<< (stop % 64)) - 1#64

/-- The free bits of one word that lie in the window from `start` to `stop`. -/
def windowWord (b : Bitmap) (start stop wi : Nat) : BitVec 64 :=
  let free := ~~~b.words wi
  let free := if wi = start / 64 then free &&& startBitMask start else free
  if wi = (stop - 1) / 64 then free &&& endBitMask stop else free

def freeInWindowWord (b : Bitmap) (start stop wi : Nat) : Option Nat :=
  let free := b.windowWord start stop wi
  if free = 0#64 then none else some (wi * 64 + trailingZeros free)

def allocOneInRange (b : Bitmap) (hint start count : Nat) : Option (Nat × Bitmap) :=
  if count = 0 then none
  else
    let stop := start + count
    let startWord := start / 64
    let endWord := (stop - 1) / 64
    let nwords := endWord - startWord + 1
    let hintWord := if hint < start ∨ hint ≥ stop then startWord else hint / 64
    match (List.range nwords).findSome? fun step =>
        b.freeInWindowWord start stop (startWord + (hintWord - startWord + step) % nwords) with
    | none => none
    | some id => some (id, b.setBit id)

theorem getLsbD_bitMask (id bit : Nat) (inWord : bit < 64) :
    (bitMask id).getLsbD bit = decide (bit = id % 64) := by
  have small : id % 64 < 64 := Nat.mod_lt _ (by decide)
  by_cases same : bit = id % 64
  · simp [bitMask, same, small]
  · by_cases below : bit < id % 64
    · simp [bitMask, below, same]
    · have different : bit - id % 64 ≠ 0 := by omega
      simp [bitMask, inWord, below, same, different]

theorem and_bitMask_bne_zero (word : BitVec 64) (id : Nat) :
    (word &&& bitMask id != 0#64) = word.getLsbD (id % 64) := by
  have small : id % 64 < 64 := Nat.mod_lt _ (by decide)
  cases found : word.getLsbD (id % 64) with
  | false =>
    have empty : word &&& bitMask id = 0#64 := by
      apply BitVec.eq_of_getLsbD_eq
      intro bit inWord
      rw [BitVec.getLsbD_and, getLsbD_bitMask id bit inWord]
      by_cases same : bit = id % 64
      · simp [same, found]
      · simp [same]
    simp [empty]
  | true =>
    have nonzero : word &&& bitMask id ≠ 0#64 := by
      intro empty
      have atBit := congrArg (fun w => w.getLsbD (id % 64)) empty
      simp [BitVec.getLsbD_and, getLsbD_bitMask id _ small, found] at atBit
    simp [bne, nonzero]

variable (b : Bitmap)

theorem test_eq_getLsbD (id : Nat) : b.test id = (b.words (id / 64)).getLsbD (id % 64) :=
  and_bitMask_bne_zero _ _

@[simp] theorem test_new (n id : Nat) : (new n).test id = false := by
  simp [test_eq_getLsbD, new]

private theorem same_word_bit {id other : Nat} :
    (other / 64 = id / 64 ∧ other % 64 = id % 64) ↔ other = id := by
  omega

theorem test_setBit (id other : Nat) :
    (b.setBit id).test other = (decide (other = id) || b.test other) := by
  simp only [test_eq_getLsbD, setBit]
  have small : other % 64 < 64 := Nat.mod_lt _ (by decide)
  by_cases word : other / 64 = id / 64
  · rw [word, Function.update_self, BitVec.getLsbD_or, getLsbD_bitMask id _ small, Bool.or_comm]
    congr 1
    have := @same_word_bit id other
    simp only [decide_eq_decide]
    omega
  · have different : other ≠ id := fun same => word (by rw [same])
    rw [Function.update_of_ne word]
    simp [different]

theorem test_clearBit (id other : Nat) :
    (b.clearBit id).test other = (!decide (other = id) && b.test other) := by
  simp only [test_eq_getLsbD, clearBit]
  have small : other % 64 < 64 := Nat.mod_lt _ (by decide)
  by_cases word : other / 64 = id / 64
  · rw [word, Function.update_self, BitVec.getLsbD_and, BitVec.getLsbD_not,
      getLsbD_bitMask id _ small, Bool.and_comm]
    have same := @same_word_bit id other
    by_cases bit : other % 64 = id % 64
    · simp [same.mp ⟨word, bit⟩]
    · have different : other ≠ id := fun equal => bit (by rw [equal])
      simp [bit, different, small]
  · have different : other ≠ id := fun same => word (by rw [same])
    rw [Function.update_of_ne word]
    simp [different]

@[simp] theorem setBit_n (id : Nat) : (b.setBit id).n = b.n := rfl

@[simp] theorem clearBit_n (id : Nat) : (b.clearBit id).n = b.n := rfl

end Bitmap

theorem trailingZeros_spec {word : BitVec 64} (nonzero : word ≠ 0#64) :
    trailingZeros word < 64 ∧ word.getLsbD (trailingZeros word) = true := by
  unfold trailingZeros
  cases found : (List.range 64).find? fun bit => word.getLsbD bit with
  | none =>
    exfalso
    apply nonzero
    apply BitVec.eq_of_getLsbD_eq
    intro bit inWord
    have clear := List.find?_eq_none.mp found bit (List.mem_range.mpr inWord)
    simpa using clear
  | some bit =>
    have member := List.mem_range.mp (List.mem_of_find?_eq_some found)
    exact ⟨member, List.find?_some found⟩

namespace Bitmap

theorem freeInWord_spec {b : Bitmap} {wi id : Nat} (found : b.freeInWord wi = some id) :
    id < b.n ∧ b.test id = false := by
  simp only [freeInWord] at found
  split at found
  · cases found
  · next nonzero =>
    split at found
    · cases found
    · next inside =>
      obtain ⟨small, free⟩ := trailingZeros_spec nonzero
      cases found
      refine ⟨by omega, ?_⟩
      rw [test_eq_getLsbD]
      have word : (wi * 64 + trailingZeros (~~~b.words wi)) / 64 = wi := by omega
      have bit : (wi * 64 + trailingZeros (~~~b.words wi)) % 64 =
          trailingZeros (~~~b.words wi) := by omega
      rw [word, bit]
      simpa [BitVec.getLsbD_not, small] using free

theorem allocOne_spec {b after : Bitmap} {hint id : Nat}
    (taken : b.allocOne hint = some (id, after)) :
    id < b.n ∧ b.test id = false ∧ after = b.setBit id := by
  simp only [allocOne] at taken
  split at taken
  · cases taken
  · split at taken
    · cases taken
    · next found =>
      cases taken
      obtain ⟨step, _, atWord⟩ := List.exists_of_findSome?_eq_some found
      obtain ⟨inside, clear⟩ := freeInWord_spec atWord
      exact ⟨inside, clear, rfl⟩

theorem getLsbD_lowMask {width bit : Nat} (small : width < 64) (inWord : bit < 64) :
    ((1#64 <<< width) - 1#64).getLsbD bit = decide (bit < width) := by
  have value : ((1#64 <<< width) - 1#64) = BitVec.ofNat 64 (2 ^ width - 1) := by
    apply BitVec.eq_of_toNat_eq
    have power : 2 ^ width < 2 ^ 64 := Nat.pow_lt_pow_right (by decide) small
    have positive : 0 < 2 ^ width := Nat.two_pow_pos width
    rw [BitVec.toNat_sub, BitVec.toNat_shiftLeft, BitVec.toNat_ofNat, BitVec.toNat_ofNat,
      Nat.shiftLeft_eq]
    omega
  rw [value, BitVec.getLsbD_ofNat, Nat.testBit_two_pow_sub_one]
  simp [inWord]

theorem getLsbD_startBitMask (start bit : Nat) (inWord : bit < 64) :
    (startBitMask start).getLsbD bit = decide (start % 64 ≤ bit) := by
  rw [startBitMask, BitVec.getLsbD_not, getLsbD_lowMask (Nat.mod_lt _ (by decide)) inWord]
  by_cases below : bit < start % 64
  · simp [inWord, below]
  · simp [inWord, below, Nat.not_lt.mp below]

theorem getLsbD_endBitMask (stop bit : Nat) (inWord : bit < 64) :
    (endBitMask stop).getLsbD bit = decide (stop % 64 = 0 ∨ bit < stop % 64) := by
  unfold endBitMask
  split
  · next whole => rw [BitVec.getLsbD_allOnes, whole, decide_eq_true inWord]; rfl
  · next cut =>
    rw [getLsbD_lowMask (Nat.mod_lt _ (by decide)) inWord]
    simp [cut]

theorem getLsbD_windowWord (b : Bitmap) (start stop wi bit : Nat) (inWord : bit < 64) :
    (b.windowWord start stop wi).getLsbD bit = true ↔
      (b.words wi).getLsbD bit = false ∧ (wi = start / 64 → start % 64 ≤ bit) ∧
        (wi = (stop - 1) / 64 → stop % 64 = 0 ∨ bit < stop % 64) := by
  have low : ∀ free : BitVec 64,
      ((if wi = start / 64 then free &&& startBitMask start else free).getLsbD bit = true ↔
        free.getLsbD bit = true ∧ (wi = start / 64 → start % 64 ≤ bit)) := by
    intro free
    split
    · next first =>
      simp only [BitVec.getLsbD_and, getLsbD_startBitMask _ _ inWord, Bool.and_eq_true,
        decide_eq_true_eq, first, forall_const]
    · next later => simp only [later, false_implies, and_true]
  have high : ∀ free : BitVec 64,
      ((if wi = (stop - 1) / 64 then free &&& endBitMask stop else free).getLsbD bit = true ↔
        free.getLsbD bit = true ∧ (wi = (stop - 1) / 64 → stop % 64 = 0 ∨ bit < stop % 64)) := by
    intro free
    split
    · next last =>
      simp only [BitVec.getLsbD_and, getLsbD_endBitMask _ _ inWord, Bool.and_eq_true,
        decide_eq_true_eq, last, forall_const]
    · next earlier => simp only [earlier, false_implies, and_true]
  unfold windowWord
  rw [high, low, BitVec.getLsbD_not, and_assoc]
  simp only [inWord, decide_true, Bool.true_and, Bool.not_eq_true']

theorem freeInWindowWord_spec {b : Bitmap} {start stop wi id : Nat}
    (found : b.freeInWindowWord start stop wi = some id) (nonempty : start < stop)
    (inWindow : start / 64 ≤ wi ∧ wi ≤ (stop - 1) / 64) :
    start ≤ id ∧ id < stop ∧ b.test id = false := by
  simp only [freeInWindowWord] at found
  split at found
  · cases found
  · next nonzero =>
    obtain ⟨small, free⟩ := trailingZeros_spec nonzero
    cases found
    obtain ⟨unset, low, high⟩ := (getLsbD_windowWord b start stop wi _ small).mp free
    revert small low high unset
    generalize trailingZeros (b.windowWord start stop wi) = bit
    intro small unset low high
    have word : (wi * 64 + bit) / 64 = wi := by omega
    have position : (wi * 64 + bit) % 64 = bit := by omega
    refine ⟨?_, ?_, ?_⟩
    · by_cases first : wi = start / 64
      · have := low first
        omega
      · omega
    · by_cases last : wi = (stop - 1) / 64
      · have := high last
        omega
      · omega
    · rw [test_eq_getLsbD, word, position]
      exact unset

theorem allocOneInRange_spec {b after : Bitmap} {hint start count id : Nat}
    (taken : b.allocOneInRange hint start count = some (id, after)) :
    start ≤ id ∧ id < start + count ∧ b.test id = false ∧ after = b.setBit id := by
  simp only [allocOneInRange] at taken
  split at taken
  · cases taken
  · next nonempty =>
    split at taken
    · cases taken
    · next found =>
      cases taken
      obtain ⟨step, _, atWord⟩ := List.exists_of_findSome?_eq_some found
      obtain ⟨low, high, clear⟩ := freeInWindowWord_spec atWord (by omega) (by
        have := Nat.mod_lt
          ((if hint < start ∨ hint ≥ start + count then start / 64 else hint / 64) - start / 64 + step)
          (Nat.succ_pos ((start + count - 1) / 64 - start / 64))
        have : start / 64 ≤ (start + count - 1) / 64 := Nat.div_le_div_right (by omega)
        simp only [Nat.succ_eq_add_one] at *
        omega)
      exact ⟨low, high, clear, rfl⟩

end Bitmap

end FastS3.Alloc
