import FastS3.Alloc.Rollback

namespace FastS3.Alloc

open FastS3.Core Data

/-! Drafts that store new segments and release stored ones.

Such a draft shares nothing and takes only extents that are free and unused, so
rolling it back restores every counter, also after the commit has decided which
extents become free.  A release that is never rolled back leaves a trace in the
reference counters.
-/

structure Undoable (first : Allocator) (session : Allocator × Staged) : Prop where
  ledger : Ledger first session (fun _ => 0) fun _ => 0
  cleared : ∀ e ∈ session.2.cleared,
    e ∈ session.2.alloc.flatMap rangeIds ∨ first.bitmap.test e = true
  shares : ∀ key, ∃ steps, SparseCounts.shares steps = 0 ∧
    KeyLog (first.shared key) key steps session

theorem Restored.trans {before middle after : Allocator} (left : Restored before middle)
    (right : Restored middle after) : Restored before after where
  bits := fun e => (right.bits e).trans (left.bits e)
  liveBytes := fun e => (right.liveBytes e).trans (left.liveBytes e)
  refcounts := fun e => (right.refcounts e).trans (left.refcounts e)
  holders := fun key => (right.holders key).trans (left.holders key)

section Drafts

variable {first a : Allocator} {draft : Staged}

theorem Undoable.start (unpinned : ∀ e, a.bitmap.test e = false → a.isPinned e = false) :
    Undoable a (a, {}) := by
  refine ⟨⟨?_, ?_, ?_, ?_, unpinned⟩, ?_, fun key => ⟨[], rfl, rfl, rfl, rfl⟩⟩
  · intro e
    simp [refTotal]
  · intro e
    simp [liveTotal]
  · intro e
    simp
  · intro e member
    simp at member
  · intro e member
    simp at member

theorem Undoable.allocateInRange (undoable : Undoable first (a, draft))
    (idle : ∀ e, a.bitmap.test e = false → a.refcounts e = 0) (hint start count : Nat) :
    Undoable first (DraftCall.run (a, draft) (.allocateInRange hint start count)) := by
  obtain ⟨after, taken, parked, looped, took, result⟩ :=
    a.allocateInRange_cases draft hint start count
  have nothing : ∀ e, DraftCall.wipedRefs a (.allocateInRange hint start count) e = 0 := by
    intro e
    have loopedTaken : (Allocator.allocateInRangeLoop (a.n + 1) a hint start count).2 = taken := by
      rw [looped]
    rw [DraftCall.wipedRefs, loopedTaken]
    split
    · next member => exact idle e (took.wasClear e (List.mem_append_left _ member))
    · rfl
  have ledger := undoable.ledger.allocateInRange hint start count
  simp only [nothing, add_zero] at ledger
  refine ⟨ledger, ?_, ?_⟩
  · intro e member
    simp only [DraftCall.run, result] at member ⊢
    rcases undoable.cleared e member with allocated | set
    · left
      rw [List.flatMap_append]
      exact List.mem_append_left _ allocated
    · exact .inr set
  · intro key
    obtain ⟨steps, none, log⟩ := undoable.shares key
    have later := log.call (.allocateInRange hint start count)
    rw [DraftCall.keySteps, List.append_nil] at later
    exact ⟨steps, none, later⟩

theorem Undoable.noteInflightSegment (undoable : Undoable first (a, draft)) (seg : Segment) :
    Undoable first (a.noteInflightSegment draft seg) := by
  refine ⟨undoable.ledger.noteInflightSegment seg, undoable.cleared, ?_⟩
  intro key
  obtain ⟨steps, none, log⟩ := undoable.shares key
  exact ⟨steps, none, log.same rfl rfl rfl⟩

theorem Undoable.addObject (undoable : Undoable first (a, draft)) (segs : List Segment) :
    Undoable first (a.addObject draft segs) := by
  refine ⟨undoable.ledger.addObject segs, ?_, ?_⟩
  · have same : (a.addObject draft segs).2.cleared = draft.cleared ∧
        (a.addObject draft segs).2.alloc = draft.alloc := by
      unfold Allocator.addObject
      split
      · exact ⟨rfl, rfl⟩
      · rw [Allocator.addSegments_eq, Allocator.noteRefs_eq]
        exact ⟨rfl, rfl⟩
    rw [same.1, same.2]
    exact undoable.cleared
  · intro key
    obtain ⟨steps, none, log⟩ := undoable.shares key
    have later := log.call (.addObject segs)
    rw [DraftCall.keySteps, List.append_nil] at later
    exact ⟨steps, none, later⟩

theorem releaseSegment_cleared (session : Allocator × Staged) (s : Segment) {e : Nat}
    (member : e ∈ (Allocator.releaseSegment session s).2.cleared) :
    e ∈ session.2.cleared ∨ e = s.extentId := by
  obtain ⟨a, draft⟩ := session
  have lowered : ∀ (a : Allocator) (log : Staged), log.cleared = draft.cleared →
      e ∈ (Allocator.decLive (a, log) s.extentId s.len).2.cleared →
      e ∈ draft.cleared ∨ e = s.extentId := by
    intro a log same inside
    rcases Allocator.decLive_eq a log s.extentId s.len with
      ⟨kept, _⟩ | ⟨after, result, _, ⟨rfl, _⟩ | ⟨rfl, _⟩⟩
    · rw [kept, same] at inside
      exact .inl inside
    · rw [result, same] at inside
      exact .inl inside
    · rw [result, same] at inside
      simpa using inside
  simp only [Allocator.releaseSegment] at member
  cases entry : a.shared s.key with
  | none =>
    simp only [entry] at member
    exact lowered a draft rfl member
  | some holders =>
    simp only [entry] at member
    split at member
    · exact .inl member
    · exact lowered _ { draft with sharedDec := draft.sharedDec ++ [s.key] } rfl member

theorem releaseObject_cleared (a : Allocator) (draft : Staged) (segs : List Segment) {e : Nat}
    (member : e ∈ (a.releaseObject draft segs).2.cleared) :
    e ∈ draft.cleared ∨ ∃ s ∈ segs, s.extentId = e := by
  have loop : ∀ (segs : List Segment) (session : Allocator × Staged),
      e ∈ (segs.foldl Allocator.releaseSegment session).2.cleared →
      e ∈ session.2.cleared ∨ ∃ s ∈ segs, s.extentId = e := by
    intro segs
    induction segs with
    | nil => exact fun session inside => .inl inside
    | cons s rest ih =>
      intro session inside
      rcases ih _ inside with before | ⟨later, found, same⟩
      · rcases releaseSegment_cleared session s before with old | rfl
        · exact .inl old
        · exact .inr ⟨s, List.mem_cons_self, rfl⟩
      · exact .inr ⟨later, List.mem_cons_of_mem s found, same⟩
  unfold Allocator.releaseObject at member
  obtain ⟨dropped, result⟩ := Allocator.dropRefs_eq
    (segs.foldl Allocator.releaseSegment (a, draft)).1
    (segs.foldl Allocator.releaseSegment (a, draft)).2 (seenExtents segs)
  rw [Prod.mk.eta] at result
  rw [result] at member
  exact loop segs (a, draft) member

private theorem shares_segSteps_release (key : SegKey) (segs : List Segment) :
    SparseCounts.shares (segSteps .release key segs) = 0 := by
  simp [SparseCounts.shares, segSteps, List.count_replicate]

theorem Undoable.releaseObject (undoable : Undoable first (a, draft)) (segs : List Segment)
    (allocated : ∀ s ∈ segs, first.bitmap.test s.extentId = true) :
    Undoable first (a.releaseObject draft segs) := by
  have sameAlloc : (a.releaseObject draft segs).2.alloc = draft.alloc := by
    obtain ⟨dropped, result⟩ := Allocator.dropRefs_eq
      (segs.foldl Allocator.releaseSegment (a, draft)).1
      (segs.foldl Allocator.releaseSegment (a, draft)).2 (seenExtents segs)
    rw [Prod.mk.eta] at result
    rw [Allocator.releaseObject, result]
    exact (Allocator.releaseSegments_frame a draft segs).alloc
  refine ⟨undoable.ledger.releaseObject segs, ?_, ?_⟩
  · intro e member
    rw [sameAlloc]
    rcases releaseObject_cleared a draft segs member with before | ⟨s, found, rfl⟩
    · exact undoable.cleared e before
    · exact .inr (allocated s found)
  · intro key
    obtain ⟨steps, none, log⟩ := undoable.shares key
    refine ⟨_, ?_, log.call (.releaseObject segs)⟩
    have counted := shares_segSteps_release key segs
    simp only [SparseCounts.shares, DraftCall.keySteps, List.count_append] at none counted ⊢
    rw [none, counted]

theorem Undoable.rollback (undoable : Undoable first (a, draft))
    (positive : ∀ key, SparseCounts.Positive (first.shared key)) {now : Allocator}
    (same : Allocator.SameCounters a now)
    (bits : ∀ e, e ∉ draft.cleared → now.bitmap.test e = a.bitmap.test e) :
    Restored first (now.rollback draft) := by
  have undone := now.rollback_spec draft
  refine ⟨?_, ?_, ?_, ?_⟩
  · intro e
    have taken := undoable.ledger.taken e
    have known := undoable.ledger.bits e
    rw [undone.bits e]
    by_cases allocated : e ∈ draft.alloc.flatMap rangeIds
    · simp [allocated, taken allocated]
    · by_cases recorded : e ∈ draft.cleared
      · have set := (undoable.cleared e recorded).resolve_left allocated
        simp [allocated, recorded, set]
      · simp only [allocated, recorded, decide_false, Bool.not_false, Bool.true_and, Bool.or_false]
          at known ⊢
        rw [bits e recorded, known]
  · intro e
    have live := undoable.ledger.live e
    simp only [add_zero] at live
    rw [undone.liveBytes e, same.liveBytes, live, add_sub_cancel_right]
  · intro e
    have refs := undoable.ledger.refs e
    simp only [add_zero] at refs
    rw [undone.refcounts e, same.refcounts, refs, add_sub_cancel_right]
  · intro key
    obtain ⟨steps, none, log⟩ := undoable.shares key
    have entry := log.entry
    have shares := log.shares
    have releases := log.releases
    simp only at entry shares releases
    rw [Allocator.holders, undone.shared key, same.shared, entry, shares, releases]
    exact (SparseCounts.undo_restores_iff (positive key) steps).mpr (.inl none)

end Drafts

theorem settleCleared_same (a : Allocator) (id : Nat) :
    Allocator.SameCounters a (a.settleCleared id) ∧
      ∀ e, e ≠ id → (a.settleCleared id).bitmap.test e = a.bitmap.test e := by
  unfold Allocator.settleCleared
  split
  · exact ⟨⟨rfl, rfl, rfl⟩, fun _ _ => rfl⟩
  · split
    · exact ⟨⟨rfl, rfl, rfl⟩, fun _ _ => rfl⟩
    · split
      · refine ⟨⟨rfl, rfl, rfl⟩, fun e other => ?_⟩
        simp [Bitmap.test_clearBit, other]
      · exact ⟨⟨rfl, rfl, rfl⟩, fun _ _ => rfl⟩

theorem toAllocDraft_same (a : Allocator) (draft : Staged) :
    Allocator.SameCounters a (a.toAllocDraft draft).1 ∧
      ∀ e, e ∉ draft.cleared → (a.toAllocDraft draft).1.bitmap.test e = a.bitmap.test e := by
  change Allocator.SameCounters a (draft.cleared.foldl Allocator.settleCleared a) ∧
    ∀ e, e ∉ draft.cleared →
      (draft.cleared.foldl Allocator.settleCleared a).bitmap.test e = a.bitmap.test e
  generalize draft.cleared = ids
  induction ids generalizing a with
  | nil => exact ⟨⟨rfl, rfl, rfl⟩, fun _ _ => rfl⟩
  | cons id rest ih =>
    obtain ⟨first, firstBits⟩ := settleCleared_same a id
    obtain ⟨later, laterBits⟩ := ih (a.settleCleared id)
    refine ⟨⟨later.refcounts.trans first.refcounts, later.liveBytes.trans first.liveBytes,
      later.shared.trans first.shared⟩, ?_⟩
    intro e other
    rw [List.mem_cons, not_or] at other
    rw [List.foldl_cons, laterBits e other.2, firstBits e other.1]

theorem mem_seenExtents (segs : List Segment) (e : Nat) :
    e ∈ seenExtents segs ↔ ∃ s ∈ segs, s.extentId = e := by
  have loop : ∀ (segs : List Segment) (seen : List Nat),
      e ∈ segs.foldl (fun seen s => if s.extentId ∈ seen then seen else seen ++ [s.extentId]) seen ↔
        e ∈ seen ∨ ∃ s ∈ segs, s.extentId = e := by
    intro segs
    induction segs with
    | nil => simp
    | cons s rest ih =>
      intro seen
      rw [List.foldl_cons, ih]
      by_cases known : s.extentId ∈ seen
      · simp only [known, if_true, List.mem_cons, exists_eq_or_imp]
        constructor
        · exact fun found => found.imp_right .inr
        · rintro (old | rfl | later)
          · exact .inl old
          · exact .inl known
          · exact .inr later
      · simp only [known, if_false, List.mem_append, List.mem_cons, List.not_mem_nil, false_or,
          exists_eq_or_imp, or_assoc, @eq_comm _ e]
  have start := loop segs []
  simp only [List.not_mem_nil, false_or] at start
  exact start

private theorem sub_one_lt {count : UInt32} (nonzero : count ≠ 0) : count + -1 < count := by
  have positive : 0 < count.toNat := by
    rcases Nat.eq_zero_or_pos count.toNat with zero | positive
    · exact absurd (UInt32.toNat_inj.mp zero) nonzero
    · exact positive
  rw [← sub_eq_add_neg, UInt32.lt_iff_toNat_lt, UInt32.toNat_sub_of_le]
  · simp only [UInt32.toNat_one]
    omega
  · rw [UInt32.le_iff_toNat_le, UInt32.toNat_one]
    omega

theorem dropRefs_le (ids : List Nat) (session : Allocator × Staged) (e : Nat) :
    (Allocator.dropRefs session ids).1.refcounts e ≤ session.1.refcounts e := by
  unfold Allocator.dropRefs
  induction ids generalizing session with
  | nil => exact UInt32.le_refl _
  | cons id rest ih =>
    rw [List.foldl_cons]
    refine UInt32.le_trans (ih _) ?_
    split
    · exact UInt32.le_refl _
    · next nonzero =>
      simp only [Allocator.decRef, bump_apply]
      by_cases same : id = e
      · subst same
        simp only [if_true]
        exact UInt32.le_of_lt (sub_one_lt nonzero)
      · simp [same]

theorem dropRefs_lt {ids : List Nat} {session : Allocator × Staged} {e : Nat} (member : e ∈ ids)
    (nonzero : session.1.refcounts e ≠ 0) :
    (Allocator.dropRefs session ids).1.refcounts e < session.1.refcounts e := by
  induction ids generalizing session with
  | nil => cases member
  | cons id rest ih =>
    have head : Allocator.dropRefs session (id :: rest) = Allocator.dropRefs
        (if session.1.refcounts id = 0 then session
          else (session.1.decRef id,
            { session.2 with refcountDec := session.2.refcountDec ++ [id] })) rest := rfl
    rw [head]
    by_cases same : id = e
    · subst same
      rw [if_neg nonzero]
      refine UInt32.lt_of_le_of_lt (dropRefs_le rest _ id) ?_
      simp only [Allocator.decRef, bump_apply, if_true]
      exact sub_one_lt nonzero
    · have later : e ∈ rest := (List.mem_cons.mp member).resolve_left fun equal => same equal.symm
      split
      · exact ih later nonzero
      · have kept : (session.1.decRef id).refcounts e = session.1.refcounts e := by
          simp [Allocator.decRef, bump_apply, same]
        rw [← kept]
        apply ih later
        rw [kept]
        exact nonzero

theorem releaseObject_refcounts_le (a : Allocator) (draft : Staged) (segs : List Segment) (e : Nat) :
    (a.releaseObject draft segs).1.refcounts e ≤ a.refcounts e := by
  have frame := (Allocator.releaseSegments_frame a draft segs).refcounts
  have dropped := dropRefs_le (seenExtents segs) (segs.foldl Allocator.releaseSegment (a, draft)) e
  rw [frame] at dropped
  exact dropped

theorem releaseObject_refcounts_lt {a : Allocator} {draft : Staged} {segs : List Segment}
    {s : Segment} (member : s ∈ segs) (held : a.refcounts s.extentId ≠ 0) :
    (a.releaseObject draft segs).1.refcounts s.extentId < a.refcounts s.extentId := by
  have frame := (Allocator.releaseSegments_frame a draft segs).refcounts
  have seen := (mem_seenExtents segs s.extentId).mpr ⟨s, member, rfl⟩
  have dropped := @dropRefs_lt _ (segs.foldl Allocator.releaseSegment (a, draft)) _ seen
    (by rw [frame]; exact held)
  rw [frame] at dropped
  exact dropped

end FastS3.Alloc
