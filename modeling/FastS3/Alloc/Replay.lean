import FastS3.Alloc.Allocator
import FastS3.Data.Overwrite

namespace FastS3.Alloc

open FastS3.Core Data

/-! Replay of the stored allocation records after a checkpoint was loaded. -/

namespace Allocator

def replayAlloc (a : Allocator) (id : Nat) : Allocator :=
  if a.bitmap.test id then a
  else
    { a with
      bitmap := a.bitmap.setBit id
      refcounts := Function.update a.refcounts id 1
      generations := Function.update a.generations id (a.generations id + 1)
      totalAlloc := a.totalAlloc + 1 }

def replayRefInc (a : Allocator) (id : Nat) : Allocator :=
  if a.bitmap.test id then a.incRef id else a

def replayRefDec (retained : List Nat) (a : Allocator) (id : Nat) : Allocator :=
  if id ∈ retained then a
  else if a.bitmap.test id then
    { a with
      bitmap := a.bitmap.clearBit id
      refcounts := Function.update a.refcounts id 0
      liveBytes := Function.update a.liveBytes id 0
      state := Function.update a.state id .free
      totalFree := a.totalFree + 1 }
  else a

def applyRecord (a : Allocator) (record : AllocRecord) : Allocator :=
  let allocated := record.alloc.flatMap rangeIds
  let a := allocated.foldl replayAlloc a
  let a := record.refInc.foldl replayRefInc a
  record.refDec.foldl (replayRefDec (allocated ++ record.refInc)) a

end Allocator

def recordWrite (record : AllocRecord) (id : Nat) : Option Bool :=
  if id ∈ record.alloc.flatMap rangeIds then some true
  else if id ∈ record.refInc then none
  else if id ∈ record.refDec then some false
  else none

section Bits

variable (a : Allocator) (id : Nat)

theorem foldl_replayAlloc_test (ids : List Nat) :
    (ids.foldl Allocator.replayAlloc a).bitmap.test id =
      (a.bitmap.test id || decide (id ∈ ids)) := by
  induction ids generalizing a with
  | nil => simp
  | cons first ids ih =>
    have step : (a.replayAlloc first).bitmap.test id =
        (a.bitmap.test id || decide (id = first)) := by
      unfold Allocator.replayAlloc
      split
      · next already =>
          by_cases same : id = first
          · simp [same, already]
          · simp [same]
      · next clear =>
          rw [Bitmap.test_setBit]
          by_cases same : id = first
          · simp [same]
          · simp [same]
    rw [List.foldl_cons, ih, step, Bool.or_assoc]
    simp

theorem foldl_replayRefInc_bitmap (ids : List Nat) :
    (ids.foldl Allocator.replayRefInc a).bitmap = a.bitmap := by
  apply foldl_preserves
  intro state first
  unfold Allocator.replayRefInc
  split
  · rfl
  · rfl

theorem foldl_replayRefDec_test (retained ids : List Nat) :
    (ids.foldl (Allocator.replayRefDec retained) a).bitmap.test id =
      (a.bitmap.test id && !decide (id ∈ ids ∧ id ∉ retained)) := by
  induction ids generalizing a with
  | nil => simp
  | cons first ids ih =>
    have step : (Allocator.replayRefDec retained a first).bitmap.test id =
        (a.bitmap.test id && !decide (id = first ∧ id ∉ retained)) := by
      unfold Allocator.replayRefDec
      by_cases kept : first ∈ retained
      · by_cases same : id = first
        · simp [same, kept]
        · simp [same, kept]
      · rw [if_neg kept]
        by_cases allocated : a.bitmap.test first = true
        · rw [if_pos allocated, Bitmap.test_clearBit]
          by_cases same : id = first
          · simp [same, kept]
          · simp [same]
        · rw [if_neg allocated]
          by_cases same : id = first
          · simp [same, allocated]
          · simp [same]
    rw [List.foldl_cons, ih, step, Bool.and_assoc, ← Bool.not_or, ← Bool.decide_or]
    simp only [List.mem_cons, or_and_right]

theorem applyRecord_test (record : AllocRecord) :
    (a.applyRecord record).bitmap.test id = (recordWrite record id).getD (a.bitmap.test id) := by
  unfold Allocator.applyRecord recordWrite
  rw [foldl_replayRefDec_test, foldl_replayRefInc_bitmap, foldl_replayAlloc_test]
  by_cases allocated : id ∈ record.alloc.flatMap rangeIds
  · simp [allocated]
  · by_cases referenced : id ∈ record.refInc
    · simp [allocated, referenced]
    · by_cases released : id ∈ record.refDec
      · simp [allocated, referenced, released]
      · simp [allocated, referenced, released]

theorem foldl_applyRecord_test (records : List AllocRecord) :
    (records.foldl Allocator.applyRecord a).bitmap.test id =
      overwrite (records.map fun record => recordWrite record id) (a.bitmap.test id) := by
  induction records generalizing a with
  | nil => rfl
  | cons record records ih =>
    rw [List.foldl_cons, ih, applyRecord_test, List.map_cons]
    rfl

end Bits

/-- Records replayed over a bitmap that holds some of them already give the bitmap
after all of them; the extents may come from checkpoints of different ages. -/
theorem replay_converges (a : Allocator) (records : List AllocRecord) (i : Nat) :
    (∀ k, i ≤ k → ∀ id,
      ((records.drop i).foldl Allocator.applyRecord
          ((records.take k).foldl Allocator.applyRecord a)).bitmap.test id =
        (records.foldl Allocator.applyRecord a).bitmap.test id) ∧
    ∀ (merged : Allocator) (age : Nat → Nat), (∀ id, i ≤ age id) →
      (∀ id, merged.bitmap.test id =
        ((records.take (age id)).foldl Allocator.applyRecord a).bitmap.test id) →
      ∀ id, ((records.drop i).foldl Allocator.applyRecord merged).bitmap.test id =
        (records.foldl Allocator.applyRecord a).bitmap.test id := by
  have converges : ∀ (merged : Allocator) (id k : Nat), i ≤ k →
      merged.bitmap.test id =
        ((records.take k).foldl Allocator.applyRecord a).bitmap.test id →
      ((records.drop i).foldl Allocator.applyRecord merged).bitmap.test id =
        (records.foldl Allocator.applyRecord a).bitmap.test id := by
    intro merged id k order held
    rw [foldl_applyRecord_test] at held
    rw [foldl_applyRecord_test, held, foldl_applyRecord_test, List.map_drop, List.map_take]
    exact overwrite_replay order _
  constructor
  · intro k order id
    exact converges _ id k order rfl
  · intro merged age order held id
    exact converges merged id (age id) (order id) (held id)

def recycled : List AllocRecord :=
  [⟨1, 1, [(3, 2)], [], []⟩, ⟨2, 2, [], [], [3]⟩, ⟨3, 3, [(3, 1)], [], [4]⟩]

theorem replay_converges_recycled :
    0 ≤ 2 ∧
      ((recycled.drop 0).foldl Allocator.applyRecord
          ((recycled.take 2).foldl Allocator.applyRecord (Allocator.new 8))).bitmap.test 3 =
        (recycled.foldl Allocator.applyRecord (Allocator.new 8)).bitmap.test 3 :=
  ⟨by decide, (replay_converges (Allocator.new 8) recycled 0).1 2 (by decide) 3⟩

end FastS3.Alloc
