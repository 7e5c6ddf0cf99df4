import FastS3.Alloc.Inflight
import FastS3.Alloc.Undo

namespace FastS3.Alloc

open FastS3.Core Data

/-! A commit that fails after the extents of its draft were freed.

`to_alloc_draft` clears the bits of the extents that have become empty and gives them the state of free
ones.  `rollback` sets the bits again, but no state.
-/

/-- `compaction_candidates`; `below` tells whether a number of live bytes is under the threshold. -/
def Allocator.compactionCandidates (a : Allocator) (below : Nat → Bool) (topK capacity : Nat) : List Nat :=
  let v := (List.range a.n).filterMap fun id =>
    if a.state id ≠ .sealed ∨ a.isPinned id then none
    else
      let lb := (a.liveBytes id).toNat
      if lb > 0 ∧ below lb then some (capacity - lb, id) else none
  let v := v.mergeSort fun a b => decide (a.1 > b.1 ∨ (a.1 = b.1 ∧ a.2 ≤ b.2))
  (v.take topK).map Prod.snd

/-- The commit fails behind `to_alloc_draft`. -/
def failedCommit (session : Allocator × Staged) : Allocator :=
  (session.1.toAllocDraft session.2).1.rollback session.2

/-- A failed commit leaves no trace: of all extents but those that the draft took and gives back, and in
what compaction finds. -/
structure KeepsVisible (first : Allocator) (session : Allocator × Staged) : Prop where
  bits : ∀ e ∉ session.2.extents,
    (failedCommit session).bitmap.test e = session.1.bitmap.test e
  states : ∀ e ∉ session.2.extents, (failedCommit session).state e = session.1.state e
  totalFree : (failedCommit session).totalFree = session.1.totalFree
  candidates : ∀ below topK capacity, (failedCommit session).compactionCandidates below topK capacity =
    first.compactionCandidates below topK capacity

def DraftCall.takes (a : Allocator) : DraftCall → List Nat
  | .allocate hint count => (Allocator.allocateLoop (a.n + 1) a hint count []).2
  | .allocateInRange hint start count =>
    (Allocator.allocateInRangeLoop (a.n + 1) a hint start count).2.toList
  | _ => []

def takenBy (session : Allocator × Staged) : List DraftCall → List Nat
  | [] => []
  | call :: rest => call.takes session.1 ++ takenBy (call.run session) rest

def TakesIdle (a : Allocator) (calls : List DraftCall) : Prop :=
  ∀ e ∈ takenBy (a, {}) calls, a.liveBytes e = 0 ∧ wipedLive (a, {}) calls e = 0

structure Followed (first : Allocator) (taken : List Nat) (lost : Nat → UInt32)
    (session : Allocator × Staged) : Prop where
  live : ∀ e, session.1.liveBytes e + lost e + liveTotal session.2.liveDec e =
    first.liveBytes e + liveTotal session.2.liveInc e
  lostTaken : ∀ e ∉ taken, lost e = 0
  state : ∀ e ∉ taken, session.1.state e = first.state e
  pinCount : session.1.pinCount = first.pinCount
  count : session.1.n = first.n
  kept : ∀ e ∈ session.2.extents, e ∈ taken ∧ session.1.bitmap.test e = true

structure OnlyLive (before after : Allocator × Staged) : Prop where
  live : ∀ e, after.1.liveBytes e + liveTotal after.2.liveDec e + liveTotal before.2.liveInc e =
    before.1.liveBytes e + liveTotal before.2.liveDec e + liveTotal after.2.liveInc e
  state : after.1.state = before.1.state
  pinCount : after.1.pinCount = before.1.pinCount
  count : after.1.n = before.1.n
  bitmap : after.1.bitmap = before.1.bitmap
  alloc : after.2.alloc = before.2.alloc

section Calls

variable {first a : Allocator} {draft : Staged} {taken : List Nat} {lost : Nat → UInt32}

theorem OnlyLive.refl (session : Allocator × Staged) : OnlyLive session session :=
  ⟨fun _ => rfl, rfl, rfl, rfl, rfl, rfl⟩

theorem OnlyLive.trans {before middle after : Allocator × Staged} (left : OnlyLive before middle)
    (right : OnlyLive middle after) : OnlyLive before after where
  live := by
    intro e
    have one := left.live e
    have two := right.live e
    apply add_right_cancel (b := middle.1.liveBytes e + liveTotal middle.2.liveDec e +
      liveTotal middle.2.liveInc e)
    calc after.1.liveBytes e + liveTotal after.2.liveDec e + liveTotal before.2.liveInc e +
          (middle.1.liveBytes e + liveTotal middle.2.liveDec e + liveTotal middle.2.liveInc e)
      _ = (after.1.liveBytes e + liveTotal after.2.liveDec e + liveTotal middle.2.liveInc e) +
          (middle.1.liveBytes e + liveTotal middle.2.liveDec e + liveTotal before.2.liveInc e) := by
        abel
      _ = (middle.1.liveBytes e + liveTotal middle.2.liveDec e + liveTotal after.2.liveInc e) +
          (before.1.liveBytes e + liveTotal before.2.liveDec e + liveTotal middle.2.liveInc e) := by
        rw [one, two]
      _ = before.1.liveBytes e + liveTotal before.2.liveDec e + liveTotal after.2.liveInc e +
          (middle.1.liveBytes e + liveTotal middle.2.liveDec e + liveTotal middle.2.liveInc e) := by
        abel
  state := right.state.trans left.state
  pinCount := right.pinCount.trans left.pinCount
  count := right.count.trans left.count
  bitmap := right.bitmap.trans left.bitmap
  alloc := right.alloc.trans left.alloc

theorem Followed.onlyLive {session after : Allocator × Staged}
    (followed : Followed first taken lost session) (only : OnlyLive session after) :
    Followed first taken lost after where
  live := by
    intro e
    have before := followed.live e
    have step := only.live e
    apply add_right_cancel (b := liveTotal session.2.liveInc e)
    calc after.1.liveBytes e + lost e + liveTotal after.2.liveDec e + liveTotal session.2.liveInc e
      _ = (after.1.liveBytes e + liveTotal after.2.liveDec e + liveTotal session.2.liveInc e) +
          lost e := by abel
      _ = (session.1.liveBytes e + lost e + liveTotal session.2.liveDec e) +
          liveTotal after.2.liveInc e := by
        rw [step]
        abel
      _ = first.liveBytes e + liveTotal after.2.liveInc e + liveTotal session.2.liveInc e := by
        rw [before]
        abel
  lostTaken := followed.lostTaken
  state := by
    intro e other
    rw [only.state]
    exact followed.state e other
  pinCount := only.pinCount.trans followed.pinCount
  count := only.count.trans followed.count
  kept := by
    intro e member
    rw [Staged.extents, only.alloc] at member
    rw [only.bitmap]
    exact followed.kept e member

theorem decLive_only (a : Allocator) (draft : Staged) (id len : Nat) :
    OnlyLive (a, draft) (Allocator.decLive (a, draft) id len) := by
  have lowered : ∀ e, a.liveBytes e - liveTotal [(id, len)] e +
      liveTotal (draft.liveDec ++ [(id, len)]) e + liveTotal draft.liveInc e =
      a.liveBytes e + liveTotal draft.liveDec e + liveTotal draft.liveInc e := by
    intro e
    rw [liveTotal_append]
    abel
  obtain ⟨same, _⟩ | ⟨after, result, _, ⟨rfl, _⟩ | ⟨rfl, _⟩⟩ := Allocator.decLive_eq a draft id len
  · rw [same]
    exact OnlyLive.refl _
  · rw [result]
    exact ⟨lowered, rfl, rfl, rfl, rfl, rfl⟩
  · rw [result]
    exact ⟨lowered, rfl, rfl, rfl, rfl, rfl⟩

theorem releaseSegment_only (session : Allocator × Staged) (s : Segment) :
    OnlyLive session (Allocator.releaseSegment session s) := by
  obtain ⟨a, draft⟩ := session
  simp only [Allocator.releaseSegment]
  cases entry : a.shared s.key with
  | none => exact decLive_only a draft s.extentId s.len
  | some holders =>
    dsimp only
    split
    · exact ⟨fun _ => rfl, rfl, rfl, rfl, rfl, rfl⟩
    · refine OnlyLive.trans ?_ (decLive_only _ _ s.extentId s.len)
      exact ⟨fun _ => rfl, rfl, rfl, rfl, rfl, rfl⟩

theorem releaseObject_only (a : Allocator) (draft : Staged) (segs : List Segment) :
    OnlyLive (a, draft) (a.releaseObject draft segs) := by
  have loop : ∀ (segs : List Segment) (session : Allocator × Staged),
      OnlyLive session (segs.foldl Allocator.releaseSegment session) := by
    intro segs
    induction segs with
    | nil => exact OnlyLive.refl
    | cons s segs ih => exact fun session => (releaseSegment_only session s).trans (ih _)
  rw [Allocator.releaseObject]
  have released := loop segs (a, draft)
  generalize segs.foldl Allocator.releaseSegment (a, draft) = middle at released ⊢
  obtain ⟨dropped, result⟩ := Allocator.dropRefs_eq middle.1 middle.2 (seenExtents segs)
  rw [Prod.mk.eta] at result
  rw [result, Allocator.foldl_decRef]
  exact released.trans ⟨fun _ => rfl, rfl, rfl, rfl, rfl, rfl⟩

theorem run_only (a : Allocator) (draft : Staged) {call : DraftCall}
    (stays : ∀ hint count, call ≠ .allocate hint count)
    (staysInRange : ∀ hint start count, call ≠ .allocateInRange hint start count) :
    OnlyLive (a, draft) (call.run (a, draft)) := by
  cases call with
  | allocate hint count => exact absurd rfl (stays hint count)
  | allocateInRange hint start count => exact absurd rfl (staysInRange hint start count)
  | noteInflightSegment seg =>
    refine ⟨?_, rfl, rfl, rfl, rfl, rfl⟩
    intro e
    simp only [DraftCall.run, Allocator.noteInflightSegment, Allocator.addLive, bump_apply,
      liveTotal_append, liveTotal_singleton]
    abel
  | addObject segs =>
    simp only [DraftCall.run, Allocator.addObject]
    split
    · exact OnlyLive.refl _
    · rw [Allocator.addSegments_eq, Allocator.noteRefs_eq, Allocator.foldl_addLive,
        Allocator.foldl_incRef]
      refine ⟨?_, rfl, rfl, rfl, rfl, rfl⟩
      intro e
      dsimp only
      rw [liveTotal_append]
      abel
  | shareObject segs =>
    simp only [DraftCall.run, Allocator.shareObject]
    split
    · exact OnlyLive.refl _
    · rw [Allocator.shareSegments_eq, Allocator.noteRefs_eq, Allocator.foldl_incRef]
      exact ⟨fun _ => rfl, rfl, rfl, rfl, rfl, rfl⟩
  | releaseObject segs => exact releaseObject_only a draft segs

theorem foldl_giveBackExtent_state (ids : List Nat) (a : Allocator) {e : Nat} (other : e ∉ ids) :
    (ids.foldl Allocator.giveBackExtent a).state e = a.state e := by
  induction ids generalizing a with
  | nil => rfl
  | cons id ids ih =>
    rw [List.mem_cons, not_or] at other
    rw [List.foldl_cons, ih _ other.2]
    exact Function.update_of_ne other.1 _ _

theorem allocate_state (a : Allocator) (draft : Staged) (hint count : Nat) {e : Nat}
    (other : e ∉ (Allocator.allocateLoop (a.n + 1) a hint count []).2) :
    (a.allocate draft hint count).1.state e = a.state e := by
  obtain ⟨middle, taken, parked, looped, took, _⟩ := a.allocate_cases draft hint count
  rw [looped] at other
  rw [Allocator.allocate, looped]
  dsimp only
  split
  · rw [foldl_giveBackExtent_state taken middle other, took.state]
  · rw [took.state]

theorem Followed.allocate (followed : Followed first taken lost (a, draft)) (hint count : Nat) :
    Followed first (taken ++ DraftCall.takes a (.allocate hint count))
      (fun e => lost e + DraftCall.wipedLive a (.allocate hint count) e)
      (DraftCall.run (a, draft) (.allocate hint count)) := by
  have states := fun e => @allocate_state a draft hint count e
  obtain ⟨middle, now, parked, looped, took, outcome⟩ := a.allocate_cases draft hint count
  have loopedNow : (Allocator.allocateLoop (a.n + 1) a hint count []).2 = now := by rw [looped]
  have nodup : now.Nodup := (List.nodup_append.mp took.nodup).1
  simp only [DraftCall.run, DraftCall.takes, DraftCall.wipedLive, loopedNow] at states ⊢
  have state : ∀ e ∉ taken ++ now, (a.allocate draft hint count).1.state e = first.state e := by
    intro e other
    rw [List.mem_append, not_or] at other
    rw [states e other.2]
    exact followed.state e other.1
  have lostTaken : ∀ e ∉ taken ++ now,
      lost e + (if now.length < count ∧ e ∈ now then a.liveBytes e else 0) = 0 := by
    intro e other
    rw [List.mem_append, not_or] at other
    rw [followed.lostTaken e other.1, if_neg (fun both => other.2 both.2), add_zero]
  obtain ⟨enough, result⟩ | ⟨short, after, gave, result⟩ := outcome
  · rw [result] at state ⊢
    refine ⟨?_, lostTaken, state, took.pinCount.trans followed.pinCount,
      took.count.trans followed.count, ?_⟩
    · intro e
      have live := followed.live e
      simp only [took.liveBytes, Nat.not_lt.mpr enough, false_and, if_false, add_zero] at live ⊢
      exact live
    · intro e member
      rw [Staged.extents, List.flatMap_append, List.mem_append, mem_compressRanges nodup] at member
      dsimp only
      rw [took.bits e]
      obtain before | new := member
      · obtain ⟨inTaken, set⟩ := followed.kept e before
        exact ⟨List.mem_append_left _ inTaken, by rw [set, Bool.true_or]⟩
      · refine ⟨List.mem_append_right _ new, ?_⟩
        rw [decide_eq_true (List.mem_append_left _ new), Bool.or_true]
  · rw [result] at state ⊢
    refine ⟨?_, lostTaken, state, (gave.pinCount.trans took.pinCount).trans followed.pinCount,
      (gave.count.trans took.count).trans followed.count, ?_⟩
    · intro e
      have live := followed.live e
      simp only [gave.liveBytes e, took.liveBytes, short, true_and] at live ⊢
      rw [← live]
      by_cases member : e ∈ now
      · simp only [member, if_true]
        abel
      · simp only [member, if_false]
        abel
    · intro e member
      obtain ⟨inTaken, set⟩ := followed.kept e member
      have stays : e ∉ now := by
        intro new
        rw [took.wasClear e (List.mem_append_left _ new)] at set
        cases set
      refine ⟨List.mem_append_left _ inTaken, ?_⟩
      dsimp only at set ⊢
      rw [gave.bits e, took.bits e, set, decide_eq_false stays]
      rfl

theorem Followed.allocateInRange (followed : Followed first taken lost (a, draft))
    (hint start count : Nat) :
    Followed first (taken ++ DraftCall.takes a (.allocateInRange hint start count)) lost
      (DraftCall.run (a, draft) (.allocateInRange hint start count)) := by
  obtain ⟨after, now, parked, looped, took, result⟩ := a.allocateInRange_cases draft hint start count
  have loopedNow : (Allocator.allocateInRangeLoop (a.n + 1) a hint start count).2 = now := by
    rw [looped]
  simp only [DraftCall.run, DraftCall.takes, loopedNow, result]
  refine ⟨?_, ?_, ?_, took.pinCount.trans followed.pinCount, took.count.trans followed.count, ?_⟩
  · intro e
    have live := followed.live e
    simp only [took.liveBytes] at live ⊢
    exact live
  · intro e other
    rw [List.mem_append, not_or] at other
    exact followed.lostTaken e other.1
  · intro e other
    rw [List.mem_append, not_or] at other
    dsimp only
    rw [took.state]
    exact followed.state e other.1
  · intro e member
    have ranges : (now.toList.map fun id => (id, 1)).flatMap rangeIds = now.toList := by
      cases now with
      | none => rfl
      | some id => rfl
    rw [Staged.extents, List.flatMap_append, List.mem_append, ranges] at member
    dsimp only
    rw [took.bits e]
    obtain before | new := member
    · obtain ⟨inTaken, set⟩ := followed.kept e before
      exact ⟨List.mem_append_left _ inTaken, by rw [set, Bool.true_or]⟩
    · refine ⟨List.mem_append_right _ new, ?_⟩
      rw [decide_eq_true (List.mem_append_left _ new), Bool.or_true]

theorem Followed.call (followed : Followed first taken lost (a, draft)) (call : DraftCall) :
    Followed first (taken ++ call.takes a) (fun e => lost e + call.wipedLive a e)
      (call.run (a, draft)) := by
  have stay : OnlyLive (a, draft) (call.run (a, draft)) → call.takes a = [] →
      (∀ e, call.wipedLive a e = 0) → Followed first (taken ++ call.takes a)
        (fun e => lost e + call.wipedLive a e) (call.run (a, draft)) := by
    intro only takes wipes
    simp only [takes, wipes, List.append_nil, add_zero]
    exact followed.onlyLive only
  cases call with
  | allocate hint count => exact followed.allocate hint count
  | allocateInRange hint start count =>
    simpa only [DraftCall.wipedLive, add_zero] using followed.allocateInRange hint start count
  | noteInflightSegment seg =>
    exact stay (run_only a draft (by rintro _ _ ⟨⟩) (by rintro _ _ _ ⟨⟩)) rfl fun _ => rfl
  | addObject segs =>
    exact stay (run_only a draft (by rintro _ _ ⟨⟩) (by rintro _ _ _ ⟨⟩)) rfl fun _ => rfl
  | shareObject segs =>
    exact stay (run_only a draft (by rintro _ _ ⟨⟩) (by rintro _ _ _ ⟨⟩)) rfl fun _ => rfl
  | releaseObject segs =>
    exact stay (run_only a draft (by rintro _ _ ⟨⟩) (by rintro _ _ _ ⟨⟩)) rfl fun _ => rfl

theorem Followed.calls {session : Allocator × Staged} (followed : Followed first taken lost session)
    (calls : List DraftCall) :
    Followed first (taken ++ takenBy session calls) (fun e => lost e + wipedLive session calls e)
      (calls.foldl DraftCall.run session) := by
  induction calls generalizing session taken lost with
  | nil =>
    simp only [takenBy, wipedLive, List.append_nil, add_zero]
    exact followed
  | cons call calls ih =>
    obtain ⟨a, draft⟩ := session
    have later := ih (followed.call call)
    simp only [List.foldl_cons, takenBy, wipedLive, ← add_assoc, ← List.append_assoc]
    exact later

theorem runDraft_followed (a : Allocator) (calls : List DraftCall) :
    Followed a (takenBy (a, {}) calls) (wipedLive (a, {}) calls) (runDraft a calls) := by
  have start : Followed a [] (fun _ => 0) (a, {}) := by
    refine ⟨?_, fun _ _ => rfl, fun _ _ => rfl, rfl, rfl, ?_⟩
    · intro e
      simp [liveTotal]
    · intro e member
      simp [Staged.extents] at member
  have run := start.calls calls
  simpa only [List.nil_append, zero_add, runDraft] using run

end Calls

def Freed (session : Allocator × Staged) (e : Nat) : Prop :=
  e ∈ session.2.cleared ∧ session.1.liveBytes e = 0 ∧ session.1.isPinned e = false

instance (session : Allocator × Staged) (e : Nat) : Decidable (Freed session e) := by
  unfold Freed
  infer_instance

section Commit

structure Settled (a after : Allocator) (ids : List Nat) : Prop where
  states : ∀ e, after.state e =
    if e ∈ ids ∧ a.liveBytes e = 0 ∧ a.isPinned e = false then .free else a.state e
  liveBytes : after.liveBytes = a.liveBytes
  pinCount : after.pinCount = a.pinCount
  count : after.n = a.n

theorem not_pos_iff_zero {count : UInt32} : ¬count > 0 ↔ count = 0 := by
  constructor
  · intro notMore
    exact UInt32.le_antisymm (UInt32.not_lt.mp notMore) (UInt32.zero_le)
  · intro zero more
    rw [zero] at more
    exact UInt32.lt_irrefl _ more

theorem settleCleared_settled (a : Allocator) (id : Nat) : Settled a (a.settleCleared id) [id] := by
  have unaffected : ¬(a.liveBytes id = 0 ∧ a.isPinned id = false) → ∀ e, a.state e =
      if e ∈ [id] ∧ a.liveBytes e = 0 ∧ a.isPinned e = false then .free else a.state e := by
    intro kept e
    rw [if_neg]
    intro freed
    obtain ⟨here, idle, unread⟩ := freed
    rw [List.mem_singleton] at here
    rw [here] at idle unread
    exact kept ⟨idle, unread⟩
  unfold Allocator.settleCleared
  split
  · next used =>
    refine ⟨unaffected ?_, rfl, rfl, rfl⟩
    intro freed
    exact not_pos_iff_zero.mpr freed.1 used
  · next idle =>
    split
    · next read =>
      refine ⟨unaffected ?_, rfl, rfl, rfl⟩
      intro freed
      rw [freed.2] at read
      cases read
    · next unread =>
      have freed : ∀ e, (Function.update a.state id .free) e =
          if e ∈ [id] ∧ a.liveBytes e = 0 ∧ a.isPinned e = false then .free else a.state e := by
        intro e
        by_cases here : e = id
        · rw [here, Function.update_self, if_pos]
          exact ⟨List.mem_singleton_self id, not_pos_iff_zero.mp idle, Bool.eq_false_iff.mpr unread⟩
        · rw [Function.update_of_ne here, if_neg]
          intro inside
          exact here (List.mem_singleton.mp inside.1)
      split
      · exact ⟨freed, rfl, rfl, rfl⟩
      · exact ⟨freed, rfl, rfl, rfl⟩

theorem toAllocDraft_settled (a : Allocator) (draft : Staged) :
    Settled a (a.toAllocDraft draft).1 draft.cleared := by
  change Settled a (draft.cleared.foldl Allocator.settleCleared a) draft.cleared
  generalize draft.cleared = ids
  induction ids generalizing a with
  | nil => exact ⟨fun e => by rw [if_neg (fun both => nomatch both.1)]; rfl, rfl, rfl, rfl⟩
  | cons id ids ih =>
    have first := settleCleared_settled a id
    have rest := ih (a.settleCleared id)
    refine ⟨?_, rest.liveBytes.trans first.liveBytes, rest.pinCount.trans first.pinCount,
      rest.count.trans first.count⟩
    intro e
    rw [List.foldl_cons, rest.states e, first.states e, first.liveBytes,
      Allocator.isPinned_congr first.pinCount first.count e]
    simp only [List.mem_cons, List.not_mem_nil, or_false]
    by_cases idle : a.liveBytes e = 0 ∧ a.isPinned e = false
    · simp only [idle, and_self, and_true]
      by_cases later : e ∈ ids
      · rw [if_pos later, if_pos (.inr later)]
      · simp only [later, if_false, or_false]
    · rw [if_neg (fun both => idle both.2), if_neg (fun both => idle both.2),
        if_neg (fun both => idle both.2)]

theorem rollback_states (a : Allocator) (draft : Staged) :
    (∀ e, (a.rollback draft).state e = if e ∈ draft.extents then .free else a.state e) ∧
      (a.rollback draft).totalFree = (draft.cleared.foldl Allocator.restoreCleared a).totalFree ∧
      (a.rollback draft).pinCount = a.pinCount ∧ (a.rollback draft).n = a.n := by
  have restored : ∀ (ids : List Nat) (a : Allocator),
      (ids.foldl Allocator.restoreCleared a).state = a.state ∧
        (ids.foldl Allocator.restoreCleared a).pinCount = a.pinCount ∧
        (ids.foldl Allocator.restoreCleared a).n = a.n := by
    intro ids
    induction ids with
    | nil => exact fun a => ⟨rfl, rfl, rfl⟩
    | cons id ids ih =>
      intro a
      obtain ⟨state, pinCount, count⟩ := ih (a.restoreCleared id)
      have step : (a.restoreCleared id).state = a.state ∧
          (a.restoreCleared id).pinCount = a.pinCount ∧ (a.restoreCleared id).n = a.n := by
        unfold Allocator.restoreCleared
        split
        · exact ⟨rfl, rfl, rfl⟩
        · exact ⟨rfl, rfl, rfl⟩
      exact ⟨state.trans step.1, pinCount.trans step.2.1, count.trans step.2.2⟩
  have undone : ∀ (ids : List Nat) (a : Allocator),
      (∀ e, (ids.foldl Allocator.undoAlloc a).state e = if e ∈ ids then .free else a.state e) ∧
        (ids.foldl Allocator.undoAlloc a).totalFree = a.totalFree ∧
        (ids.foldl Allocator.undoAlloc a).pinCount = a.pinCount ∧
        (ids.foldl Allocator.undoAlloc a).n = a.n := by
    intro ids
    induction ids with
    | nil => exact fun a => ⟨fun e => (if_neg (fun member => nomatch member)).symm, rfl, rfl, rfl⟩
    | cons id ids ih =>
      intro a
      obtain ⟨states, totalFree, pinCount, count⟩ := ih (a.undoAlloc id)
      refine ⟨?_, totalFree, pinCount, count⟩
      intro e
      rw [List.foldl_cons, states e, Allocator.undoAlloc]
      simp only [List.mem_cons]
      by_cases later : e ∈ ids
      · rw [if_pos later, if_pos (.inr later)]
      · rw [if_neg later]
        by_cases here : e = id
        · rw [here, Function.update_self, if_pos (.inl rfl)]
        · rw [Function.update_of_ne here, if_neg]
          intro either
          exact either.elim here later
  obtain ⟨state, pinCount, count⟩ := restored draft.cleared a
  obtain ⟨states, totalFree, pinCountUndone, countUndone⟩ :=
    undone (draft.extents) (draft.cleared.foldl Allocator.restoreCleared a)
  unfold Allocator.rollback
  simp only [Allocator.foldl_addLive, Allocator.foldl_subLive, Allocator.foldl_incRef,
    Allocator.foldl_decRef]
  refine ⟨?_, totalFree, pinCountUndone.trans pinCount, countUndone.trans count⟩
  intro e
  rw [← state]
  exact states e

/-- The total of free extents with the number of those among some extents that are in use. -/
def tally (ids : Finset Nat) (a : Allocator) : UInt64 :=
  a.totalFree + UInt64.ofNat (ids.filter fun e => a.bitmap.test e = true).card

theorem tally_settleCleared {ids : Finset Nat} {id : Nat} (a : Allocator) (member : id ∈ ids) :
    tally ids (a.settleCleared id) = tally ids a := by
  unfold Allocator.settleCleared
  split
  · rfl
  · split
    · rfl
    · split
      · next set =>
        have here : id ∈ ids.filter fun e => a.bitmap.test e = true :=
          Finset.mem_filter.mpr ⟨member, set⟩
        have others : (ids.filter fun e => (a.bitmap.clearBit id).test e = true) =
            (ids.filter fun e => a.bitmap.test e = true).erase id := by
          ext e
          simp only [Finset.mem_filter, Finset.mem_erase, Bitmap.test_clearBit, Bool.and_eq_true,
            Bool.not_eq_true', decide_eq_false_iff_not]
          tauto
        have one := Finset.card_erase_add_one here
        rw [tally, tally, others, ← one, UInt64.ofNat_add]
        dsimp only
        rw [add_assoc, add_comm (1 : UInt64)]
        rfl
      · rfl

theorem tally_restoreCleared {ids : Finset Nat} {id : Nat} (a : Allocator) (member : id ∈ ids) :
    tally ids (a.restoreCleared id) = tally ids a := by
  unfold Allocator.restoreCleared
  split
  · rfl
  · next clear =>
    have absent : id ∉ ids.filter fun e => a.bitmap.test e = true := by
      intro inside
      exact clear (Finset.mem_filter.mp inside).2
    have others : (ids.filter fun e => (a.bitmap.setBit id).test e = true) =
        insert id (ids.filter fun e => a.bitmap.test e = true) := by
      ext e
      simp only [Finset.mem_filter, Finset.mem_insert, Bitmap.test_setBit, Bool.or_eq_true,
        decide_eq_true_eq]
      constructor
      · tauto
      · intro either
        obtain here | before := either
        · rw [here]
          exact ⟨member, .inl rfl⟩
        · exact ⟨before.1, .inr before.2⟩
    rw [tally, tally, others, Finset.card_insert_of_notMem absent, UInt64.ofNat_add]
    change a.totalFree - 1 + (UInt64.ofNat _ + 1) = _
    abel

theorem tally_loop {ids : Finset Nat} {step : Allocator → Nat → Allocator}
    (keeps : ∀ a, ∀ id ∈ ids, tally ids (step a id) = tally ids a) (list : List Nat)
    (within : ∀ id ∈ list, id ∈ ids) (a : Allocator) : tally ids (list.foldl step a) = tally ids a := by
  induction list generalizing a with
  | nil => rfl
  | cons id list ih =>
    rw [List.foldl_cons, ih (fun other member => within other (List.mem_cons_of_mem _ member)),
      keeps a id (within id List.mem_cons_self)]

theorem failedCommit_totalFree {session : Allocator × Staged}
    (inUse : ∀ e ∈ session.2.cleared, session.1.bitmap.test e = true) :
    (failedCommit session).totalFree = session.1.totalFree := by
  rw [failedCommit, (rollback_states _ _).2.1]
  obtain ⟨a, draft⟩ := session
  have within : ∀ id ∈ draft.cleared, id ∈ draft.cleared.toFinset := fun id member =>
    List.mem_toFinset.mpr member
  have settled : tally draft.cleared.toFinset (a.toAllocDraft draft).1 =
      tally draft.cleared.toFinset a :=
    tally_loop (fun a id member => tally_settleCleared a member) draft.cleared within a
  have back := tally_loop (fun a id member => tally_restoreCleared a member) draft.cleared within
    (a.toAllocDraft draft).1
  rw [settled] at back
  have restored := (Allocator.foldl_restoreCleared draft.cleared (a.toAllocDraft draft).1).2
  dsimp only
  generalize draft.cleared.foldl Allocator.restoreCleared (a.toAllocDraft draft).1 = after
    at back restored ⊢
  have sameBits : (draft.cleared.toFinset.filter fun e => after.bitmap.test e = true) =
      draft.cleared.toFinset.filter fun e => a.bitmap.test e = true := by
    apply Finset.filter_congr
    intro e member
    rw [List.mem_toFinset] at member
    rw [restored e, decide_eq_true member, Bool.or_true, inUse e member]
  rw [tally, tally, sameBits] at back
  exact add_right_cancel back

theorem failedCommit_states (session : Allocator × Staged) (e : Nat) :
    (failedCommit session).state e =
      if e ∈ session.2.extents ∨ Freed session e then .free else session.1.state e := by
  rw [failedCommit, (rollback_states _ _).1, (toAllocDraft_settled session.1 session.2).states e]
  by_cases own : e ∈ session.2.extents
  · rw [if_pos own, if_pos (.inl own)]
  · rw [if_neg own]
    simp only [own, false_or, Freed]

theorem failedCommit_bits (session : Allocator × Staged) {e : Nat} (other : e ∉ session.2.extents) :
    (failedCommit session).bitmap.test e =
      (session.1.bitmap.test e || decide (e ∈ session.2.cleared)) := by
  rw [Staged.extents] at other
  rw [failedCommit, (Allocator.rollback_spec _ _).bits e, decide_eq_false other, Bool.not_false,
    Bool.true_and]
  by_cases member : e ∈ session.2.cleared
  · rw [decide_eq_true member, Bool.or_true, Bool.or_true]
  · rw [(toAllocDraft_same session.1 session.2).2 e member]

end Commit

section Visible

variable {a b : Allocator}

def AlikeVisible (a b : Allocator) : Prop :=
  ∀ e, a.liveBytes e = b.liveBytes e ∧ a.isPinned e = b.isPinned e ∧
    (a.liveBytes e ≠ 0 → a.state e = b.state e)

theorem compactionCandidates_congr (count : a.n = b.n) (alike : AlikeVisible a b) (below : Nat → Bool)
    (topK capacity : Nat) :
    a.compactionCandidates below topK capacity = b.compactionCandidates below topK capacity := by
  rw [Allocator.compactionCandidates, Allocator.compactionCandidates, count]
  have same : ((List.range b.n).filterMap fun id =>
      if a.state id ≠ .sealed ∨ a.isPinned id then none
      else if (a.liveBytes id).toNat > 0 ∧ below (a.liveBytes id).toNat then
        some (capacity - (a.liveBytes id).toNat, id) else none) =
      (List.range b.n).filterMap fun id =>
      if b.state id ≠ .sealed ∨ b.isPinned id then none
      else if (b.liveBytes id).toNat > 0 ∧ below (b.liveBytes id).toNat then
        some (capacity - (b.liveBytes id).toNat, id) else none := by
    apply List.filterMap_congr
    intro id _
    obtain ⟨live, pinned, state⟩ := alike id
    by_cases idle : a.liveBytes id = 0
    · rw [idle] at live
      rw [idle, ← live]
      simp
    · rw [state idle, pinned, live]
  dsimp only
  rw [same]

end Visible

theorem runDraft_candidates {a : Allocator} {calls : List DraftCall} (idle : TakesIdle a calls)
    (states : ∀ e ∉ (runDraft a calls).2.extents,
      (failedCommit (runDraft a calls)).state e = (runDraft a calls).1.state e)
    (below : Nat → Bool) (topK capacity : Nat) :
    (failedCommit (runDraft a calls)).compactionCandidates below topK capacity =
      a.compactionCandidates below topK capacity := by
  have followed := runDraft_followed a calls
  generalize runDraft a calls = session at states followed ⊢
  have settled := toAllocDraft_settled session.1 session.2
  obtain ⟨_, _, pinCount, count⟩ := rollback_states (session.1.toAllocDraft session.2).1 session.2
  have pins : (failedCommit session).pinCount = a.pinCount :=
    (pinCount.trans settled.pinCount).trans followed.pinCount
  have counts : (failedCommit session).n = a.n := (count.trans settled.count).trans followed.count
  apply compactionCandidates_congr counts
  intro e
  have lost : wipedLive (a, {}) calls e = 0 := by
    by_cases member : e ∈ takenBy (a, {}) calls
    · exact (idle e member).2
    · exact followed.lostTaken e member
  have live : (failedCommit session).liveBytes e = a.liveBytes e := by
    have balance := followed.live e
    rw [lost, add_zero] at balance
    rw [failedCommit, (Allocator.rollback_spec _ _).liveBytes e, settled.liveBytes, balance,
      add_sub_cancel_right]
  refine ⟨live, Allocator.isPinned_congr pins counts e, ?_⟩
  intro used
  rw [live] at used
  have other : e ∉ takenBy (a, {}) calls := fun member => used (idle e member).1
  have notOwn : e ∉ session.2.extents := fun member => other (followed.kept e member).1
  rw [states e notOwn, followed.state e other]

/-- A failed commit leaves no trace exactly if the draft has emptied extents in use only, and each one
that the commit frees was allocated by the draft or had the state of a free extent before. -/
theorem failedCommit_keeps_iff {a : Allocator} {calls : List DraftCall} (idle : TakesIdle a calls) :
    KeepsVisible a (runDraft a calls) ↔
      (∀ e ∈ (runDraft a calls).2.cleared, (runDraft a calls).1.bitmap.test e = true) ∧
        ∀ e, Freed (runDraft a calls) e → e ∉ (runDraft a calls).2.extents →
          (runDraft a calls).1.state e = .free := by
  have followed := runDraft_followed a calls
  constructor
  · intro keeps
    constructor
    · intro e member
      by_cases own : e ∈ (runDraft a calls).2.extents
      · exact (followed.kept e own).2
      · rw [← keeps.bits e own, failedCommit_bits _ own, decide_eq_true member, Bool.or_true]
    · intro e freed notOwn
      rw [← keeps.states e notOwn, failedCommit_states, if_pos (.inr freed)]
  · intro conditions
    obtain ⟨inUse, free⟩ := conditions
    have states : ∀ e ∉ (runDraft a calls).2.extents,
        (failedCommit (runDraft a calls)).state e = (runDraft a calls).1.state e := by
      intro e notOwn
      rw [failedCommit_states]
      split
      · next either => exact (free e (either.resolve_left notOwn) notOwn).symm
      · rfl
    refine ⟨?_, states, failedCommit_totalFree inUse, runDraft_candidates idle states⟩
    intro e notOwn
    rw [failedCommit_bits _ notOwn]
    by_cases member : e ∈ (runDraft a calls).2.cleared
    · rw [inUse e member, Bool.true_or]
    · rw [decide_eq_false member, Bool.or_false]

def sealedExtent : Allocator :=
  (runTransaction (Allocator.new 4) [.allocate 0 1, .addObject [firstSegment]]).markSealed 0

/-- The deletion of the object fails, and compaction sees the extent no more. -/
theorem failedCommit_hides :
    ¬KeepsVisible sealedExtent (runDraft sealedExtent [.releaseObject [firstSegment]]) := by
  intro keeps
  have states := keeps.states 0 (by decide)
  revert states
  decide

/-- An overwriting that stays in the extent leaves it visible. -/
theorem failedCommit_keeps_overwriting :
    KeepsVisible sealedExtent (runDraft sealedExtent
      [.addObject [⟨0, 4096, 4096, []⟩], .releaseObject [firstSegment]]) := by
  have idle : TakesIdle sealedExtent
      [.addObject [⟨0, 4096, 4096, []⟩], .releaseObject [firstSegment]] := by
    intro e member
    cases member
  apply (failedCommit_keeps_iff idle).mpr
  refine ⟨by decide, ?_⟩
  intro e freed
  have none : (runDraft sealedExtent
      [.addObject [⟨0, 4096, 4096, []⟩], .releaseObject [firstSegment]]).2.cleared = [] := by decide
  rw [Freed, none] at freed
  cases freed.1

end FastS3.Alloc
