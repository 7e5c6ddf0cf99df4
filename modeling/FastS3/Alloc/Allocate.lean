import FastS3.Alloc.Allocator

namespace FastS3.Alloc

open FastS3.Core Data

/-! What `allocate` and `allocate_in_range` do to the allocator. -/

theorem flatMap_compressStep (out : List (Nat × Nat)) (id : Nat) :
    (compressStep out id).flatMap rangeIds = out.flatMap rangeIds ++ [id] := by
  unfold compressStep
  cases last : out.getLast? with
  | none => simp [rangeIds]
  | some range =>
    obtain ⟨start, count⟩ := range
    obtain ⟨front, rfl⟩ := List.getLast?_eq_some_iff.mp last
    by_cases adjacent : start + count = id
    · subst adjacent
      simp [rangeIds, List.range'_concat]
    · simp [adjacent, rangeIds]

theorem flatMap_foldl_compressStep (ids : List Nat) (out : List (Nat × Nat)) :
    (ids.foldl compressStep out).flatMap rangeIds = out.flatMap rangeIds ++ ids := by
  induction ids generalizing out with
  | nil => simp
  | cons id rest ih =>
    rw [List.foldl_cons, ih, flatMap_compressStep]
    simp

theorem mem_compressRanges {ids : List Nat} (nodup : ids.Nodup) (id : Nat) :
    id ∈ (compressRanges ids).flatMap rangeIds ↔ id ∈ ids := by
  have sorted : (ids.insertionSort (· ≤ ·)).Nodup :=
    (List.perm_insertionSort (· ≤ ·) ids).nodup_iff.mpr nodup
  have kept : (ids.insertionSort (· ≤ ·)).destutter (· ≠ ·) = ids.insertionSort (· ≤ ·) := by
    apply List.destutter_of_isChain
    exact List.IsChain.imp (fun _ _ h => h) (List.Pairwise.isChain sorted)
  rw [compressRanges, flatMap_foldl_compressStep, kept]
  simp

namespace Allocator

/-- The effect of taking `taken` for the caller and setting aside the pinned
extents `parked` met on the way. -/
structure Took (a a' : Allocator) (taken parked : List Nat) : Prop where
  nodup : (taken ++ parked).Nodup
  wasClear : ∀ id ∈ taken ++ parked, a.bitmap.test id = false
  unpinned : ∀ id ∈ taken, a.isPinned id = false
  pinned : ∀ id ∈ parked, a.isPinned id = true
  bits : ∀ e, a'.bitmap.test e = (a.bitmap.test e || decide (e ∈ taken ++ parked))
  size : a'.bitmap.n = a.bitmap.n
  refcounts : ∀ e, a'.refcounts e = if e ∈ taken then 0 else a.refcounts e
  liveBytes : a'.liveBytes = a.liveBytes
  shared : a'.shared = a.shared
  state : a'.state = a.state
  pinCount : a'.pinCount = a.pinCount
  isolated : ∀ e, a'.isolated e = (a.isolated e || decide (e ∈ parked))
  count : a'.n = a.n

theorem Took.refl (a : Allocator) : Took a a [] [] := by
  constructor <;> simp

theorem isPinned_congr {a a' : Allocator} (pins : a'.pinCount = a.pinCount) (count : a'.n = a.n)
    (id : Nat) : a'.isPinned id = a.isPinned id := by
  simp [isPinned, pins, count]

theorem Took.take {a middle a' : Allocator} {id : Nat} {taken parked : List Nat}
    (clear : a.bitmap.test id = false) (free : a.isPinned id = false)
    (first : middle = a.takeExtent id (a.bitmap.setBit id)) (rest : Took middle a' taken parked) :
    Took a a' (id :: taken) parked := by
  subst first
  have set : (a.takeExtent id (a.bitmap.setBit id)).bitmap.test id = true := by
    simp [takeExtent, Bitmap.test_setBit]
  have notTaken : id ∉ taken ++ parked := by
    intro member
    rw [rest.wasClear id member] at set
    cases set
  have pins := @isPinned_congr a (a.takeExtent id (a.bitmap.setBit id)) rfl rfl
  refine ⟨List.nodup_cons.mpr ⟨notTaken, rest.nodup⟩, ?_, ?_, ?_, ?_, rest.size, ?_, rest.liveBytes,
    rest.shared, rest.state, rest.pinCount, rest.isolated, rest.count⟩
  · intro other member
    rcases List.mem_cons.mp member with rfl | later
    · exact clear
    · have clearAfter := rest.wasClear other later
      simp only [takeExtent, Bitmap.test_setBit, Bool.or_eq_false_iff] at clearAfter
      exact clearAfter.2
  · intro other member
    rcases List.mem_cons.mp member with rfl | later
    · exact free
    · exact (pins other).symm.trans (rest.unpinned other later)
  · intro other member
    exact (pins other).symm.trans (rest.pinned other member)
  · intro e
    rw [rest.bits e]
    simp only [takeExtent, Bitmap.test_setBit, List.cons_append, List.mem_cons]
    by_cases same : e = id
    · simp [same]
    · simp [same]
  · intro e
    rw [rest.refcounts e]
    by_cases same : e = id
    · simp [same, takeExtent]
    · simp [same, takeExtent]

theorem Took.park {a middle a' : Allocator} {id : Nat} {taken parked : List Nat}
    (clear : a.bitmap.test id = false) (held : a.isPinned id = true)
    (first : middle = { a with bitmap := a.bitmap.setBit id }.isolate id)
    (rest : Took middle a' taken parked) :
    Took a a' taken (id :: parked) := by
  subst first
  have set : ({ a with bitmap := a.bitmap.setBit id }.isolate id).bitmap.test id = true := by
    simp [isolate, Bitmap.test_setBit]
  have notTaken : id ∉ taken ++ parked := by
    intro member
    rw [rest.wasClear id member] at set
    cases set
  have pins := @isPinned_congr a ({ a with bitmap := a.bitmap.setBit id }.isolate id) rfl rfl
  refine ⟨?_, ?_, ?_, ?_, ?_, rest.size, rest.refcounts, rest.liveBytes, rest.shared,
    rest.state, rest.pinCount, ?_, rest.count⟩
  · rw [List.nodup_middle]
    exact List.nodup_cons.mpr ⟨notTaken, rest.nodup⟩
  · intro other member
    rcases List.mem_cons.mp (List.perm_middle.subset member) with rfl | later
    · exact clear
    · have clearAfter := rest.wasClear other later
      simp only [isolate, Bitmap.test_setBit, Bool.or_eq_false_iff] at clearAfter
      exact clearAfter.2
  · intro other member
    exact (pins other).symm.trans (rest.unpinned other member)
  · intro other member
    rcases List.mem_cons.mp member with rfl | later
    · exact held
    · exact (pins other).symm.trans (rest.pinned other later)
  · intro e
    rw [rest.bits e]
    simp only [isolate, Bitmap.test_setBit, List.mem_append, List.mem_cons]
    by_cases same : e = id
    · simp [same]
    · simp [same]
  · intro e
    rw [rest.isolated e]
    by_cases same : e = id
    · simp [same, isolate]
    · simp [same, isolate]

theorem allocateLoop_took (fuel : Nat) (a : Allocator) (hint count : Nat) (out : List Nat) :
    ∃ taken parked, (allocateLoop fuel a hint count out).2 = out ++ taken ∧
      Took a (allocateLoop fuel a hint count out).1 taken parked := by
  induction fuel generalizing a hint out with
  | zero => exact ⟨[], [], by simp [allocateLoop], Took.refl a⟩
  | succ fuel ih =>
    simp only [allocateLoop]
    split
    · cases found : a.bitmap.allocOne hint with
      | none => exact ⟨[], [], by simp, Took.refl a⟩
      | some answer =>
        obtain ⟨id, bitmap⟩ := answer
        obtain ⟨_, clear, rfl⟩ := Bitmap.allocOne_spec found
        simp only
        split
        · next held =>
          obtain ⟨taken, parked, result, took⟩ :=
            ih ({ a with bitmap := a.bitmap.setBit id }.isolate id) (id + 1) out
          exact ⟨taken, id :: parked, result, took.park clear held rfl⟩
        · next free =>
          obtain ⟨taken, parked, result, took⟩ :=
            ih (a.takeExtent id (a.bitmap.setBit id)) (id + 1) (out ++ [id])
          refine ⟨id :: taken, parked, ?_, took.take clear (by simpa using free) rfl⟩
          rw [result]
          simp
    · exact ⟨[], [], by simp, Took.refl a⟩

theorem allocateInRangeLoop_took (fuel : Nat) (a : Allocator) (hint start count : Nat) :
    ∃ parked, Took a (allocateInRangeLoop fuel a hint start count).1
      (allocateInRangeLoop fuel a hint start count).2.toList parked := by
  induction fuel generalizing a hint with
  | zero => exact ⟨[], Took.refl a⟩
  | succ fuel ih =>
    simp only [allocateInRangeLoop]
    cases found : a.bitmap.allocOneInRange hint start count with
    | none => exact ⟨[], Took.refl a⟩
    | some answer =>
      obtain ⟨id, bitmap⟩ := answer
      obtain ⟨_, _, clear, rfl⟩ := Bitmap.allocOneInRange_spec found
      simp only
      split
      · next held =>
        obtain ⟨parked, took⟩ :=
          ih ({ a with bitmap := a.bitmap.setBit id }.isolate id) (id + 1)
        exact ⟨id :: parked, took.park clear held rfl⟩
      · next free =>
        exact ⟨[], (Took.refl _).take clear (by simpa using free) rfl⟩

structure GaveBack (a a' : Allocator) (ids : List Nat) : Prop where
  bits : ∀ e, a'.bitmap.test e = (!decide (e ∈ ids) && a.bitmap.test e)
  refcounts : ∀ e, a'.refcounts e = if e ∈ ids then 0 else a.refcounts e
  liveBytes : ∀ e, a'.liveBytes e = if e ∈ ids then 0 else a.liveBytes e
  size : a'.bitmap.n = a.bitmap.n
  shared : a'.shared = a.shared
  pinCount : a'.pinCount = a.pinCount
  isolated : a'.isolated = a.isolated
  count : a'.n = a.n

theorem foldl_giveBackExtent (ids : List Nat) (a : Allocator) :
    GaveBack a (ids.foldl giveBackExtent a) ids := by
  induction ids generalizing a with
  | nil => constructor <;> simp
  | cons id rest ih =>
    rw [List.foldl_cons]
    have later := ih (a.giveBackExtent id)
    refine ⟨?_, ?_, ?_, later.size, later.shared, later.pinCount, later.isolated, later.count⟩
    · intro e
      rw [later.bits e]
      by_cases same : e = id
      · simp [giveBackExtent, Bitmap.test_clearBit, same]
      · simp [giveBackExtent, Bitmap.test_clearBit, same]
    · intro e
      rw [later.refcounts e]
      by_cases same : e = id
      · simp [giveBackExtent, same]
      · simp [giveBackExtent, same]
    · intro e
      rw [later.liveBytes e]
      by_cases same : e = id
      · simp [giveBackExtent, same]
      · simp [giveBackExtent, same]

/-- The two outcomes of `allocate`: it records the extents it took, or it gives
them back and leaves the draft alone. -/
theorem allocate_cases (a : Allocator) (draft : Staged) (hint count : Nat) :
    ∃ middle taken parked, (allocateLoop (a.n + 1) a hint count []) = (middle, taken) ∧
      Took a middle taken parked ∧
      ((count ≤ taken.length ∧ a.allocate draft hint count =
          (middle, { draft with alloc := draft.alloc ++ compressRanges taken }, .ok taken)) ∨
        (taken.length < count ∧ ∃ after, GaveBack middle after taken ∧
          a.allocate draft hint count = (after, draft, .error .noSpace))) := by
  obtain ⟨taken, parked, result, took⟩ := allocateLoop_took (a.n + 1) a hint count []
  rw [List.nil_append] at result
  refine ⟨_, taken, parked, Prod.ext rfl result, took, ?_⟩
  by_cases short : taken.length < count
  · right
    refine ⟨short, _, foldl_giveBackExtent taken _, ?_⟩
    simp [allocate, result, short]
  · left
    refine ⟨by omega, ?_⟩
    simp [allocate, result, short]

theorem allocateInRange_cases (a : Allocator) (draft : Staged) (hint start count : Nat) :
    ∃ after taken parked, allocateInRangeLoop (a.n + 1) a hint start count = (after, taken) ∧
      Took a after taken.toList parked ∧
      a.allocateInRange draft hint start count =
        (after, { draft with alloc := draft.alloc ++ taken.toList.map fun id => (id, 1) }, taken) := by
  obtain ⟨parked, took⟩ := allocateInRangeLoop_took (a.n + 1) a hint start count
  cases result : allocateInRangeLoop (a.n + 1) a hint start count with
  | mk after taken =>
    rw [result] at took
    refine ⟨after, taken, parked, rfl, took, ?_⟩
    rw [allocateInRange, result]
    cases taken with
    | none => simp
    | some id => simp

end Allocator

end FastS3.Alloc
