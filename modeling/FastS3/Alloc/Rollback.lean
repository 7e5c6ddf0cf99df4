import FastS3.Alloc.Draft

namespace FastS3.Alloc

open FastS3.Core Data

/-! Rolling a draft back.

`rollback` replays the draft's logs against the counters.  What it cannot see are
counters that `allocate` overwrote, and the order in which one segment was shared
and released.
-/

def DraftCall.wipedRefs (a : Allocator) : DraftCall → Nat → UInt32
  | .allocate hint count, e =>
    if e ∈ (Allocator.allocateLoop (a.n + 1) a hint count []).2 then a.refcounts e else 0
  | .allocateInRange hint start count, e =>
    if e ∈ (Allocator.allocateInRangeLoop (a.n + 1) a hint start count).2.toList then
      a.refcounts e
    else 0
  | .noteInflightSegment _, _ => 0
  | .addObject _, _ => 0
  | .shareObject _, _ => 0
  | .releaseObject _, _ => 0

/-- The live bytes that one call overwrites with zero: those of the extents a
failing `allocate` gives back. -/
def DraftCall.wipedLive (a : Allocator) : DraftCall → Nat → UInt32
  | .allocate hint count, e =>
    let taken := (Allocator.allocateLoop (a.n + 1) a hint count []).2
    if taken.length < count ∧ e ∈ taken then a.liveBytes e else 0
  | .allocateInRange _ _ _, _ => 0
  | .noteInflightSegment _, _ => 0
  | .addObject _, _ => 0
  | .shareObject _, _ => 0
  | .releaseObject _, _ => 0

def wipedRefs (session : Allocator × Staged) : List DraftCall → Nat → UInt32
  | [], _ => 0
  | call :: rest, e => call.wipedRefs session.1 e + wipedRefs (call.run session) rest e

def wipedLive (session : Allocator × Staged) : List DraftCall → Nat → UInt32
  | [], _ => 0
  | call :: rest, e => call.wipedLive session.1 e + wipedLive (call.run session) rest e

structure Ledger (first : Allocator) (session : Allocator × Staged)
    (lostRefs lostLive : Nat → UInt32) : Prop where
  refs : ∀ e, session.1.refcounts e + lostRefs e + refTotal session.2.refcountDec e =
    first.refcounts e + refTotal session.2.refcountInc e
  live : ∀ e, session.1.liveBytes e + lostLive e + liveTotal session.2.liveDec e =
    first.liveBytes e + liveTotal session.2.liveInc e
  bits : ∀ e, session.1.bitmap.test e =
    (first.bitmap.test e || decide (e ∈ session.2.alloc.flatMap rangeIds))
  taken : ∀ e ∈ session.2.alloc.flatMap rangeIds, first.bitmap.test e = false
  unpinned : ∀ e, session.1.bitmap.test e = false → session.1.isPinned e = false

section Ledgers

variable {first a : Allocator} {draft : Staged} {lostRefs lostLive : Nat → UInt32}

private theorem Took.unparked {a a' : Allocator} {taken parked : List Nat}
    (took : Allocator.Took a a' taken parked)
    (unpinned : ∀ e, a.bitmap.test e = false → a.isPinned e = false) : parked = [] := by
  cases parked with
  | nil => rfl
  | cons id rest =>
    have pinned := took.pinned id (by simp)
    rw [unpinned id (took.wasClear id (by simp))] at pinned
    cases pinned

private theorem Took.unpinned_after {a a' : Allocator} {taken parked : List Nat}
    (took : Allocator.Took a a' taken parked)
    (unpinned : ∀ e, a.bitmap.test e = false → a.isPinned e = false) (e : Nat)
    (clear : a'.bitmap.test e = false) : a'.isPinned e = false := by
  rw [took.bits e, Bool.or_eq_false_iff] at clear
  rw [Allocator.isPinned_congr took.pinCount took.count e]
  exact unpinned e clear.1

theorem Ledger.allocate (ledger : Ledger first (a, draft) lostRefs lostLive) (hint count : Nat) :
    Ledger first (DraftCall.run (a, draft) (.allocate hint count))
      (fun e => lostRefs e + DraftCall.wipedRefs a (.allocate hint count) e)
      (fun e => lostLive e + DraftCall.wipedLive a (.allocate hint count) e) := by
  obtain ⟨middle, taken, parked, looped, took, outcome⟩ := a.allocate_cases draft hint count
  have none := Took.unparked took ledger.unpinned
  subst none
  have loopedTaken : (Allocator.allocateLoop (a.n + 1) a hint count []).2 = taken := by rw [looped]
  have nodup : taken.Nodup := by simpa using took.nodup
  have pinned := Took.unpinned_after took ledger.unpinned
  simp only [DraftCall.run, DraftCall.wipedRefs, DraftCall.wipedLive, loopedTaken]
  rcases outcome with ⟨enough, result⟩ | ⟨short, after, gave, result⟩
  · rw [result]
    have allocated : ∀ e, e ∈ (draft.alloc ++ compressRanges taken).flatMap rangeIds ↔
        e ∈ draft.alloc.flatMap rangeIds ∨ e ∈ taken := by
      intro e
      rw [List.flatMap_append, List.mem_append, mem_compressRanges nodup]
    refine ⟨?_, ?_, ?_, ?_, pinned⟩
    · intro e
      have refs := ledger.refs e
      simp only [took.refcounts e] at refs ⊢
      rw [← refs]
      by_cases member : e ∈ taken
      · simp only [member, if_true]
        abel
      · simp only [member, if_false]
        abel
    · intro e
      have live := ledger.live e
      simp only [took.liveBytes, Nat.not_lt.mpr enough, false_and, if_false] at live ⊢
      rw [← live]
      abel
    · intro e
      have bits := ledger.bits e
      simp only [took.bits e, List.append_nil, allocated] at bits ⊢
      rw [bits, Bool.or_assoc, ← Bool.decide_or]
    · intro e member
      rcases (allocated e).mp member with before | now
      · exact ledger.taken e before
      · have clear := took.wasClear e (by simpa using now)
        have bits := ledger.bits e
        simp only [clear] at bits
        exact (Bool.or_eq_false_iff.mp bits.symm).1
  · rw [result]
    refine ⟨?_, ?_, ?_, ledger.taken, ?_⟩
    · intro e
      have refs := ledger.refs e
      simp only [gave.refcounts e, took.refcounts e] at refs ⊢
      rw [← refs]
      by_cases member : e ∈ taken
      · simp only [member, if_true]
        abel
      · simp only [member, if_false]
        abel
    · intro e
      have live := ledger.live e
      simp only [gave.liveBytes e, took.liveBytes, short, true_and] at live ⊢
      rw [← live]
      by_cases member : e ∈ taken
      · simp only [member, if_true]
        abel
      · simp only [member, if_false]
        abel
    · intro e
      have bits := ledger.bits e
      simp only [gave.bits e, took.bits e, List.append_nil] at bits ⊢
      rw [← bits]
      by_cases member : e ∈ taken
      · simp [member, took.wasClear e (by simpa using member)]
      · simp [member]
    · intro e clear
      rw [Allocator.isPinned_congr gave.pinCount gave.count e]
      by_cases member : e ∈ taken
      · rw [Allocator.isPinned_congr took.pinCount took.count e]
        exact took.unpinned e member
      · apply pinned e
        simpa [gave.bits e, member] using clear

theorem Ledger.allocateInRange (ledger : Ledger first (a, draft) lostRefs lostLive)
    (hint start count : Nat) :
    Ledger first (DraftCall.run (a, draft) (.allocateInRange hint start count))
      (fun e => lostRefs e + DraftCall.wipedRefs a (.allocateInRange hint start count) e)
      lostLive := by
  obtain ⟨after, taken, parked, looped, took, result⟩ :=
    a.allocateInRange_cases draft hint start count
  have none := Took.unparked took ledger.unpinned
  subst none
  have loopedTaken : (Allocator.allocateInRangeLoop (a.n + 1) a hint start count).2 = taken := by
    rw [looped]
  simp only [DraftCall.run, DraftCall.wipedRefs, loopedTaken, result]
  have allocated : ∀ e,
      e ∈ (draft.alloc ++ taken.toList.map fun id => (id, 1)).flatMap rangeIds ↔
        e ∈ draft.alloc.flatMap rangeIds ∨ e ∈ taken.toList := by
    intro e
    cases taken with
    | none => simp
    | some id => simp [rangeIds]
  refine ⟨?_, ?_, ?_, ?_, ?_⟩
  · intro e
    have refs := ledger.refs e
    simp only [took.refcounts e] at refs ⊢
    rw [← refs]
    by_cases member : e ∈ taken.toList
    · simp only [member, if_true]
      abel
    · simp only [member, if_false]
      abel
  · intro e
    have live := ledger.live e
    simp only [took.liveBytes] at live ⊢
    exact live
  · intro e
    have bits := ledger.bits e
    simp only [took.bits e, List.append_nil, allocated] at bits ⊢
    rw [bits, Bool.or_assoc, ← Bool.decide_or]
  · intro e member
    rcases (allocated e).mp member with before | now
    · exact ledger.taken e before
    · have clear := took.wasClear e (by simpa using now)
      have bits := ledger.bits e
      simp only [clear] at bits
      exact (Bool.or_eq_false_iff.mp bits.symm).1
  · exact Took.unpinned_after took ledger.unpinned

theorem Ledger.noteInflightSegment (ledger : Ledger first (a, draft) lostRefs lostLive)
    (seg : Segment) :
    Ledger first (a.noteInflightSegment draft seg) lostRefs lostLive := by
  refine ⟨ledger.refs, ?_, ledger.bits, ledger.taken, ledger.unpinned⟩
  intro e
  have live := ledger.live e
  simp only [Allocator.noteInflightSegment, Allocator.addLive, bump_apply, liveTotal_append,
    liveTotal_singleton] at live ⊢
  rw [← add_assoc, ← live]
  abel

theorem Ledger.addObject (ledger : Ledger first (a, draft) lostRefs lostLive)
    (segs : List Segment) :
    Ledger first (a.addObject draft segs) lostRefs lostLive := by
  unfold Allocator.addObject
  split
  · exact ledger
  · rw [Allocator.addSegments_eq, Allocator.noteRefs_eq, Allocator.foldl_addLive,
      Allocator.foldl_incRef]
    refine ⟨?_, ?_, ledger.bits, ledger.taken, ledger.unpinned⟩
    · intro e
      have refs := ledger.refs e
      simp only [refTotal_append] at refs ⊢
      rw [← add_assoc, ← refs]
      abel
    · intro e
      have live := ledger.live e
      simp only [liveTotal_append] at live ⊢
      rw [← add_assoc, ← live]
      abel

theorem Ledger.shareObject (ledger : Ledger first (a, draft) lostRefs lostLive)
    (segs : List Segment) :
    Ledger first (a.shareObject draft segs) lostRefs lostLive := by
  unfold Allocator.shareObject
  split
  · exact ledger
  · rw [Allocator.shareSegments_eq, Allocator.noteRefs_eq, Allocator.foldl_incRef]
    refine ⟨?_, ledger.live, ledger.bits, ledger.taken, ledger.unpinned⟩
    intro e
    have refs := ledger.refs e
    simp only [refTotal_append] at refs ⊢
    rw [← add_assoc, ← refs]
    abel

theorem Ledger.decLive (ledger : Ledger first (a, draft) lostRefs lostLive) (id len : Nat) :
    Ledger first (Allocator.decLive (a, draft) id len) lostRefs lostLive := by
  have lowered : ∀ after : Staged,
      after.liveDec = draft.liveDec ++ [(id, len)] → after.liveInc = draft.liveInc →
      after.refcountInc = draft.refcountInc → after.refcountDec = draft.refcountDec →
      after.alloc = draft.alloc →
      Ledger first ({ a with liveBytes := fun e => a.liveBytes e - liveTotal [(id, len)] e }, after)
        lostRefs lostLive := by
    intro after dec inc refInc refDec alloc
    refine ⟨?_, ?_, ?_, ?_, ledger.unpinned⟩
    · simpa only [refInc, refDec] using ledger.refs
    · intro e
      have live := ledger.live e
      simp only [dec, inc, liveTotal_append] at live ⊢
      rw [← live]
      abel
    · simpa only [alloc] using ledger.bits
    · simpa only [alloc] using ledger.taken
  rcases Allocator.decLive_eq a draft id len with
    ⟨same, _⟩ | ⟨after, result, _, ⟨rfl, _⟩ | ⟨rfl, _⟩⟩
  · rw [same]
    exact ledger
  · rw [result]
    exact lowered _ rfl rfl rfl rfl rfl
  · rw [result]
    exact lowered _ rfl rfl rfl rfl rfl

theorem Ledger.releaseSegment (ledger : Ledger first (a, draft) lostRefs lostLive) (s : Segment) :
    Ledger first (Allocator.releaseSegment (a, draft) s) lostRefs lostLive := by
  have tableOnly : ∀ shared sharedDec,
      Ledger first ({ a with shared := shared }, { draft with sharedDec := sharedDec })
        lostRefs lostLive :=
    fun _ _ => ⟨ledger.refs, ledger.live, ledger.bits, ledger.taken, ledger.unpinned⟩
  simp only [Allocator.releaseSegment]
  cases entry : a.shared s.key with
  | none => exact ledger.decLive s.extentId s.len
  | some holders =>
    by_cases many : holders > 1
    · simp only [many, if_true]
      exact tableOnly _ _
    · simp only [many, if_false]
      exact (tableOnly _ _).decLive s.extentId s.len

theorem Ledger.releaseSegments (ledger : Ledger first (a, draft) lostRefs lostLive)
    (segs : List Segment) :
    Ledger first (segs.foldl Allocator.releaseSegment (a, draft)) lostRefs lostLive := by
  induction segs generalizing a draft with
  | nil => exact ledger
  | cons s rest ih => exact ih (ledger.releaseSegment s)

theorem Ledger.releaseObject (ledger : Ledger first (a, draft) lostRefs lostLive)
    (segs : List Segment) :
    Ledger first (a.releaseObject draft segs) lostRefs lostLive := by
  unfold Allocator.releaseObject
  have released := ledger.releaseSegments segs
  revert released
  generalize segs.foldl Allocator.releaseSegment (a, draft) = middle
  intro released
  obtain ⟨dropped, result⟩ := Allocator.dropRefs_eq middle.1 middle.2 (seenExtents segs)
  rw [result, Allocator.foldl_decRef]
  refine ⟨?_, released.live, released.bits, released.taken, released.unpinned⟩
  intro e
  have refs := released.refs e
  simp only [refTotal_append] at refs ⊢
  rw [← refs]
  abel

theorem Ledger.call (ledger : Ledger first (a, draft) lostRefs lostLive) (call : DraftCall) :
    Ledger first (call.run (a, draft)) (fun e => lostRefs e + call.wipedRefs a e)
      (fun e => lostLive e + call.wipedLive a e) := by
  cases call with
  | allocate hint count => exact ledger.allocate hint count
  | allocateInRange hint start count =>
    simpa only [DraftCall.wipedLive, add_zero] using ledger.allocateInRange hint start count
  | noteInflightSegment seg =>
    simpa only [DraftCall.run, DraftCall.wipedRefs, DraftCall.wipedLive, add_zero]
      using ledger.noteInflightSegment seg
  | addObject segs =>
    simpa only [DraftCall.run, DraftCall.wipedRefs, DraftCall.wipedLive, add_zero]
      using ledger.addObject segs
  | shareObject segs =>
    simpa only [DraftCall.run, DraftCall.wipedRefs, DraftCall.wipedLive, add_zero]
      using ledger.shareObject segs
  | releaseObject segs =>
    simpa only [DraftCall.run, DraftCall.wipedRefs, DraftCall.wipedLive, add_zero]
      using ledger.releaseObject segs

theorem Ledger.calls {session : Allocator × Staged}
    (ledger : Ledger first session lostRefs lostLive) (calls : List DraftCall) :
    Ledger first (calls.foldl DraftCall.run session)
      (fun e => lostRefs e + wipedRefs session calls e)
      (fun e => lostLive e + wipedLive session calls e) := by
  induction calls generalizing session lostRefs lostLive with
  | nil => simpa [wipedRefs, wipedLive] using ledger
  | cons call rest ih =>
    obtain ⟨a, draft⟩ := session
    have later := ih (ledger.call call)
    simp only [List.foldl_cons, wipedRefs, wipedLive, ← add_assoc]
    exact later

end Ledgers

theorem runDraft_ledger {a : Allocator} (unpinned : ∀ e, a.isPinned e = false)
    (calls : List DraftCall) :
    Ledger a (runDraft a calls) (wipedRefs (a, {}) calls) (wipedLive (a, {}) calls) := by
  have start : Ledger a (a, {}) (fun _ => 0) (fun _ => 0) := by
    refine ⟨?_, ?_, ?_, ?_, fun e _ => unpinned e⟩ <;> intro e <;> simp [refTotal, liveTotal]
  simpa [runDraft] using start.calls calls

namespace Allocator

/-- Two allocators that differ at most in the bitmap, the extent states and the totals. -/
structure SameCounters (a a' : Allocator) : Prop where
  refcounts : a'.refcounts = a.refcounts
  liveBytes : a'.liveBytes = a.liveBytes
  shared : a'.shared = a.shared

theorem foldl_restoreCleared (ids : List Nat) (a : Allocator) :
    SameCounters a (ids.foldl restoreCleared a) ∧
      ∀ e, (ids.foldl restoreCleared a).bitmap.test e = (a.bitmap.test e || decide (e ∈ ids)) := by
  induction ids generalizing a with
  | nil => exact ⟨⟨rfl, rfl, rfl⟩, by simp⟩
  | cons id rest ih =>
    rw [List.foldl_cons]
    obtain ⟨same, bits⟩ := ih (a.restoreCleared id)
    have step : SameCounters a (a.restoreCleared id) := by
      unfold restoreCleared
      split <;> exact ⟨rfl, rfl, rfl⟩
    have stepBits : ∀ e, (a.restoreCleared id).bitmap.test e =
        (a.bitmap.test e || decide (e = id)) := by
      intro e
      unfold restoreCleared
      split
      · next set =>
        by_cases equal : e = id
        · simp [equal, set]
        · simp [equal]
      · rw [Bitmap.test_setBit, Bool.or_comm]
    refine ⟨⟨same.refcounts.trans step.refcounts, same.liveBytes.trans step.liveBytes,
      same.shared.trans step.shared⟩, ?_⟩
    intro e
    rw [bits e, stepBits e, Bool.or_assoc, ← Bool.decide_or]
    simp only [List.mem_cons]

theorem foldl_undoAlloc (ids : List Nat) (a : Allocator) :
    SameCounters a (ids.foldl undoAlloc a) ∧
      ∀ e, (ids.foldl undoAlloc a).bitmap.test e = (!decide (e ∈ ids) && a.bitmap.test e) := by
  induction ids generalizing a with
  | nil => exact ⟨⟨rfl, rfl, rfl⟩, by simp⟩
  | cons id rest ih =>
    rw [List.foldl_cons]
    obtain ⟨same, bits⟩ := ih (a.undoAlloc id)
    refine ⟨⟨same.refcounts, same.liveBytes, same.shared⟩, ?_⟩
    intro e
    rw [bits e]
    simp only [undoAlloc, Bitmap.test_clearBit, List.mem_cons]
    by_cases equal : e = id
    · simp [equal]
    · simp [equal]

theorem foldl_undoShare (keys : List SegKey) (shared : SegKey → Option Nat) (key : SegKey) :
    keys.foldl undoShare shared key = SparseCounts.undoShare^[keys.count key] (shared key) := by
  induction keys generalizing shared with
  | nil => rfl
  | cons other rest ih =>
    rw [List.foldl_cons, ih]
    have step : undoShare shared other key =
        if other = key then SparseCounts.undoShare (shared key) else shared key := by
      unfold undoShare
      by_cases same : other = key
      · subst same
        cases entry : shared other with
        | none => simp [SparseCounts.undoShare, entry]
        | some holders =>
          by_cases many : holders > 2
          · simp [SparseCounts.undoShare, many]
          · simp [SparseCounts.undoShare, many]
      · have different : key ≠ other := fun equal => same equal.symm
        cases shared other with
        | none => simp [same]
        | some holders =>
          by_cases many : holders > 2
          · simp [many, same, different]
          · simp [many, same, different]
    rw [step]
    by_cases same : other = key
    · simp [same]
    · simp [same]

theorem foldl_undoRelease (keys : List SegKey) (shared : SegKey → Option Nat) (key : SegKey) :
    keys.foldl undoRelease shared key =
      SparseCounts.undoRelease^[keys.count key] (shared key) := by
  induction keys generalizing shared with
  | nil => rfl
  | cons other rest ih =>
    rw [List.foldl_cons, ih]
    have step : undoRelease shared other key =
        if other = key then SparseCounts.undoRelease (shared key) else shared key := by
      unfold undoRelease
      by_cases same : other = key
      · subst same
        cases entry : shared other with
        | none => simp [SparseCounts.undoRelease]
        | some holders => simp [SparseCounts.undoRelease]
      · have different : key ≠ other := fun equal => same equal.symm
        cases shared other with
        | none => simp [same, different]
        | some holders => simp [same, different]
    rw [step]
    by_cases same : other = key
    · simp [same]
    · simp [same]

/-- The outcome of `rollback`, field by field. -/
structure RolledBack (a a' : Allocator) (draft : Staged) : Prop where
  bits : ∀ e, a'.bitmap.test e =
    (!decide (e ∈ draft.alloc.flatMap rangeIds) && (a.bitmap.test e || decide (e ∈ draft.cleared)))
  liveBytes : ∀ e, a'.liveBytes e =
    a.liveBytes e + liveTotal draft.liveDec e - liveTotal draft.liveInc e
  refcounts : ∀ e, a'.refcounts e =
    a.refcounts e + refTotal draft.refcountDec e - refTotal draft.refcountInc e
  shared : ∀ key, a'.shared key = SparseCounts.undo (draft.sharedInc.count key)
    (draft.sharedDec.count key) (a.shared key)

theorem rollback_spec (a : Allocator) (draft : Staged) : RolledBack a (a.rollback draft) draft := by
  obtain ⟨restored, restoredBits⟩ := foldl_restoreCleared draft.cleared a
  obtain ⟨undone, undoneBits⟩ := foldl_undoAlloc (draft.alloc.flatMap rangeIds)
    (draft.cleared.foldl restoreCleared a)
  unfold rollback
  simp only [foldl_addLive, foldl_subLive, foldl_incRef, foldl_decRef]
  refine ⟨?_, ?_, ?_, ?_⟩
  · intro e
    rw [undoneBits e, restoredBits e]
  · intro e
    rw [undone.liveBytes, restored.liveBytes]
  · intro e
    rw [undone.refcounts, restored.refcounts]
  · intro key
    change draft.sharedDec.foldl undoRelease (draft.sharedInc.foldl undoShare _) key = _
    rw [foldl_undoRelease, foldl_undoShare, undone.shared, restored.shared, SparseCounts.undo]

end Allocator

/-- The allocator `after` has every extent and holder count as `before` has it. -/
structure Restored (before after : Allocator) : Prop where
  bits : ∀ e, after.bitmap.test e = before.bitmap.test e
  liveBytes : ∀ e, after.liveBytes e = before.liveBytes e
  refcounts : ∀ e, after.refcounts e = before.refcounts e
  holders : ∀ key, after.holders key = before.holders key

/-- The number of times the transaction shares `key`. -/
def sharesOf (calls : List DraftCall) (key : SegKey) : Nat :=
  SparseCounts.shares (keySteps key calls)

/-- The number of releases of `key` in the transaction that meet a table entry. -/
def tableReleasesOf (a : Allocator) (calls : List DraftCall) (key : SegKey) : Nat :=
  SparseCounts.tableReleases (a.shared key) (keySteps key calls)

/-- For every key: it is not shared, or its releases through the table are none,
or as many as it had holders, or leave at least two of those holders. -/
def SharesReversible (a : Allocator) (calls : List DraftCall) : Prop :=
  ∀ key, sharesOf calls key = 0 ∨ tableReleasesOf a calls key = 0 ∨
    tableReleasesOf a calls key = a.holders key ∨ tableReleasesOf a calls key + 2 ≤ a.holders key

/-- Only extents that were allocated, before or by the transaction, reach zero live bytes. -/
def ClearsAllocated (a : Allocator) (calls : List DraftCall) : Prop :=
  ∀ e ∈ (runDraft a calls).2.cleared,
    e ∈ (runDraft a calls).2.alloc.flatMap rangeIds ∨ a.bitmap.test e = true

/-- `allocate` overwrites no reference and no live byte. -/
def WipesNothing (a : Allocator) (calls : List DraftCall) : Prop :=
  ∀ e, wipedRefs (a, {}) calls e = 0 ∧ wipedLive (a, {}) calls e = 0

/-- Rollback restores the allocator exactly when the transaction overwrites no
counter, clears no free extent, and keeps the shares of every key reversible. -/
theorem rollback_restores_iff {a : Allocator} (unpinned : ∀ e, a.isPinned e = false)
    (positive : ∀ key, SparseCounts.Positive (a.shared key)) (calls : List DraftCall) :
    Restored a ((runDraft a calls).1.rollback (runDraft a calls).2) ↔
      SharesReversible a calls ∧ ClearsAllocated a calls ∧ WipesNothing a calls := by
  have ledger := runDraft_ledger unpinned calls
  have undone := (runDraft a calls).1.rollback_spec (runDraft a calls).2
  have refs : ∀ e, ((runDraft a calls).1.rollback (runDraft a calls).2).refcounts e =
      a.refcounts e - wipedRefs (a, {}) calls e := by
    intro e
    rw [undone.refcounts e, sub_eq_iff_eq_add, sub_add_eq_add_sub, ← ledger.refs e]
    abel
  have live : ∀ e, ((runDraft a calls).1.rollback (runDraft a calls).2).liveBytes e =
      a.liveBytes e - wipedLive (a, {}) calls e := by
    intro e
    rw [undone.liveBytes e, sub_eq_iff_eq_add, sub_add_eq_add_sub, ← ledger.live e]
    abel
  have holders : ∀ key, ((runDraft a calls).1.rollback (runDraft a calls).2).holders key =
      a.holders key ↔ sharesOf calls key = 0 ∨ tableReleasesOf a calls key = 0 ∨
        tableReleasesOf a calls key = a.holders key ∨
        tableReleasesOf a calls key + 2 ≤ a.holders key := by
    intro key
    have log := runDraft_keyLog a calls key
    rw [Allocator.holders, undone.shared key, log.entry, log.shares, log.releases]
    exact SparseCounts.undo_restores_iff (positive key) (keySteps key calls)
  have bits : (∀ e, ((runDraft a calls).1.rollback (runDraft a calls).2).bitmap.test e =
      a.bitmap.test e) ↔ ClearsAllocated a calls := by
    constructor
    · intro same e cleared
      have bit := same e
      rw [undone.bits e] at bit
      by_cases taken : e ∈ (runDraft a calls).2.alloc.flatMap rangeIds
      · exact .inl taken
      · right
        simpa [taken, cleared] using bit.symm
    · intro clears e
      rw [undone.bits e, ledger.bits e]
      by_cases taken : e ∈ (runDraft a calls).2.alloc.flatMap rangeIds
      · simp [taken, ledger.taken e taken]
      · by_cases cleared : e ∈ (runDraft a calls).2.cleared
        · rcases clears e cleared with impossible | set
          · exact absurd impossible taken
          · simp [taken, cleared, set]
        · simp [taken, cleared]
  constructor
  · intro restored
    refine ⟨fun key => (holders key).mp (restored.holders key), bits.mp restored.bits, ?_⟩
    intro e
    have sameRefs := restored.refcounts e
    have sameLive := restored.liveBytes e
    rw [refs e, sub_eq_self] at sameRefs
    rw [live e, sub_eq_self] at sameLive
    exact ⟨sameRefs, sameLive⟩
  · intro conditions
    obtain ⟨reversible, clears, wipes⟩ := conditions
    refine ⟨bits.mpr clears, ?_, ?_, fun key => (holders key).mpr (reversible key)⟩
    · intro e
      rw [live e, (wipes e).2, sub_zero]
    · intro e
      rw [refs e, (wipes e).1, sub_zero]

def firstSegment : Segment :=
  ⟨0, 0, 4096, []⟩

def storeFirst : List DraftCall :=
  [.allocate 0 1, .addObject [firstSegment]]

theorem rollback_restores_storeFirst :
    Restored (Allocator.new 4)
      ((runDraft (Allocator.new 4) storeFirst).1.rollback (runDraft (Allocator.new 4) storeFirst).2) := by
  apply (rollback_restores_iff (by simp [Allocator.new, Allocator.isPinned])
    (by simp [Allocator.new, SparseCounts.Positive]) storeFirst).mpr
  refine ⟨?_, ?_, ?_⟩
  · intro key
    left
    rfl
  · have none : (runDraft (Allocator.new 4) storeFirst).2.cleared = [] := by decide
    simp [ClearsAllocated, none]
  · intro e
    simp [storeFirst, wipedRefs, wipedLive, DraftCall.wipedRefs, DraftCall.wipedLive, Allocator.new]

theorem rollback_loses_holder_of_self_copy :
    let before := runTransaction (runTransaction (Allocator.new 4) storeFirst)
      [.shareObject [firstSegment]]
    let copied := runDraft before [.shareObject [firstSegment], .releaseObject [firstSegment]]
    before.holders firstSegment.key = 2 ∧
      (copied.1.rollback copied.2).holders firstSegment.key = 1 := by
  decide

end FastS3.Alloc
