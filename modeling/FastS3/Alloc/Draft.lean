import FastS3.Alloc.Allocate
import FastS3.Data.SparseCounts
import Mathlib.Tactic.Abel

namespace FastS3.Alloc

open FastS3.Core Data

/-! Sequences of calls on one draft, and what they record in it.

Each operation is first described without its loops: the counters it bumps, the
log entries it appends.  A run of calls then keeps a ledger that accounts for the
difference between the allocator and its state before the draft.
-/

inductive DraftCall where
  | allocate (hint count : Nat)
  | allocateInRange (hint start count : Nat)
  | noteInflightSegment (seg : Segment)
  | addObject (segs : List Segment)
  | shareObject (segs : List Segment)
  | releaseObject (segs : List Segment)
deriving Repr, DecidableEq

def DraftCall.run (session : Allocator × Staged) : DraftCall → Allocator × Staged
  | .allocate hint count =>
    let (a, draft, _) := session.1.allocate session.2 hint count
    (a, draft)
  | .allocateInRange hint start count =>
    let (a, draft, _) := session.1.allocateInRange session.2 hint start count
    (a, draft)
  | .noteInflightSegment seg => session.1.noteInflightSegment session.2 seg
  | .addObject segs => session.1.addObject session.2 segs
  | .shareObject segs => session.1.shareObject session.2 segs
  | .releaseObject segs => session.1.releaseObject session.2 segs

def runDraft (a : Allocator) (calls : List DraftCall) : Allocator × Staged :=
  calls.foldl DraftCall.run (a, {})

def runTransaction (a : Allocator) (calls : List DraftCall) : Allocator :=
  ((runDraft a calls).1.toAllocDraft (runDraft a calls).2).1

/-- The live bytes a list of `(extent, length)` changes adds up to. -/
def liveTotal (changes : List (Nat × Nat)) (e : Nat) : UInt32 :=
  total Prod.fst (fun change => UInt32.ofNat change.2) changes e

def refTotal (ids : List Nat) (e : Nat) : UInt32 :=
  total id (fun _ => 1) ids e

theorem liveTotal_append (left right : List (Nat × Nat)) (e : Nat) :
    liveTotal (left ++ right) e = liveTotal left e + liveTotal right e :=
  total_append _ _ left right e

theorem refTotal_append (left right : List Nat) (e : Nat) :
    refTotal (left ++ right) e = refTotal left e + refTotal right e :=
  total_append _ _ left right e

theorem liveTotal_singleton (id len e : Nat) :
    liveTotal [(id, len)] e = if id = e then UInt32.ofNat len else 0 := by
  simp [liveTotal, total_cons]

/-- The segments that `add_object` does not take for accounted. -/
def uncovered : (Nat × Nat → Nat) → List Segment → List (Nat × Nat)
  | _, [] => []
  | preCounted, s :: rest =>
    let key := (s.extentId, s.len)
    if preCounted key > 0 then
      uncovered (Function.update preCounted key (preCounted key - 1)) rest
    else key :: uncovered preCounted rest

namespace Allocator

variable (a : Allocator)

theorem foldl_addLive (changes : List (Nat × Nat)) :
    changes.foldl addLive a =
      { a with liveBytes := fun e => a.liveBytes e + liveTotal changes e } := by
  induction changes generalizing a with
  | nil => simp [liveTotal]
  | cons change rest ih =>
    rw [List.foldl_cons, ih]
    simp only [addLive, liveTotal, bump_apply, total_cons, add_assoc]

theorem foldl_subLive (changes : List (Nat × Nat)) :
    changes.foldl subLive a =
      { a with liveBytes := fun e => a.liveBytes e - liveTotal changes e } := by
  induction changes generalizing a with
  | nil => simp [liveTotal]
  | cons change rest ih =>
    rw [List.foldl_cons, ih]
    simp only [subLive, liveTotal, bump_apply, total_cons]
    congr 1
    funext e
    by_cases same : change.1 = e
    · simp only [same, if_true]
      abel
    · simp [same]

theorem foldl_incRef (ids : List Nat) :
    ids.foldl incRef a = { a with refcounts := fun e => a.refcounts e + refTotal ids e } := by
  induction ids generalizing a with
  | nil => simp [refTotal]
  | cons id rest ih =>
    rw [List.foldl_cons, ih]
    simp only [incRef, refTotal, bump_apply, total_cons, add_assoc, id_eq]

theorem foldl_decRef (ids : List Nat) :
    ids.foldl decRef a = { a with refcounts := fun e => a.refcounts e - refTotal ids e } := by
  induction ids generalizing a with
  | nil => simp [refTotal]
  | cons id rest ih =>
    rw [List.foldl_cons, ih]
    simp only [decRef, refTotal, bump_apply, total_cons, id_eq]
    congr 1
    funext e
    by_cases same : id = e
    · simp only [same, if_true]
      abel
    · simp [same]

theorem addSegments_eq (preCounted : Nat × Nat → Nat) (segs : List Segment)
    (a : Allocator) (draft : Staged) :
    addSegments preCounted segs (a, draft) =
      ((uncovered preCounted segs).foldl addLive a,
        { draft with liveInc := draft.liveInc ++ uncovered preCounted segs }) := by
  induction segs generalizing preCounted a draft with
  | nil => simp [addSegments, uncovered]
  | cons s rest ih =>
    simp only [addSegments, uncovered]
    split
    · rw [ih]
    · rw [ih, List.foldl_cons]
      simp

theorem noteRefs_eq (draft : Staged) (ids : List Nat) :
    noteRefs (a, draft) ids =
      (ids.foldl incRef a, { draft with refcountInc := draft.refcountInc ++ ids }) := by
  unfold noteRefs
  induction ids generalizing a draft with
  | nil => simp
  | cons id rest ih =>
    rw [List.foldl_cons, ih, List.foldl_cons]
    simp

def shareKeys (shared : SegKey → Option Nat) (keys : List SegKey) : SegKey → Option Nat :=
  keys.foldl (fun shared key => Function.update shared key (SparseCounts.share (shared key))) shared

theorem shareSegments_eq (draft : Staged) (segs : List Segment) :
    segs.foldl shareSegment (a, draft) =
      ({ a with shared := shareKeys a.shared (segs.map Segment.key) },
        { draft with sharedInc := draft.sharedInc ++ segs.map Segment.key }) := by
  induction segs generalizing a draft with
  | nil => simp [shareKeys]
  | cons s rest ih =>
    rw [List.foldl_cons, shareSegment, ih]
    simp [shareKeys, SparseCounts.share]

theorem decLive_eq (draft : Staged) (id len : Nat) :
    (decLive (a, draft) id len = (a, draft) ∧ a.liveBytes id < UInt32.ofNat len) ∨
      ∃ after, decLive (a, draft) id len =
          ({ a with liveBytes := fun e => a.liveBytes e - liveTotal [(id, len)] e }, after) ∧
        UInt32.ofNat len ≤ a.liveBytes id ∧
        (after = { draft with liveDec := draft.liveDec ++ [(id, len)] } ∧
            a.liveBytes id ≠ UInt32.ofNat len ∨
          after = { draft with
              cleared := draft.cleared ++ [id]
              refDec := draft.refDec ++ [id]
              liveDec := draft.liveDec ++ [(id, len)] } ∧
            a.liveBytes id = UInt32.ofNat len) := by
  have lowered : Function.update a.liveBytes id (a.liveBytes id - UInt32.ofNat len) =
      fun e => a.liveBytes e - liveTotal [(id, len)] e := by
    funext e
    rw [liveTotal_singleton]
    by_cases same : e = id
    · subst same
      simp
    · have other : id ≠ e := fun equal => same equal.symm
      simp [same, other]
  simp only [decLive, lowered]
  by_cases short : a.liveBytes id < UInt32.ofNat len
  · simp [short]
  · right
    have enough : UInt32.ofNat len ≤ a.liveBytes id := UInt32.not_lt.mp short
    rw [if_neg short]
    by_cases more : a.liveBytes id > UInt32.ofNat len
    · have differs : a.liveBytes id ≠ UInt32.ofNat len := fun same =>
        UInt32.lt_irrefl _ (same ▸ more)
      rw [if_pos more]
      exact ⟨_, rfl, enough, .inl ⟨rfl, differs⟩⟩
    · have equal : a.liveBytes id = UInt32.ofNat len :=
        UInt32.le_antisymm (UInt32.not_lt.mp more) enough
      rw [if_neg more]
      exact ⟨_, rfl, enough, .inr ⟨rfl, equal⟩⟩

/-! The shared table, one key at a time. -/

theorem shareKeys_apply (shared : SegKey → Option Nat) (keys : List SegKey) (key : SegKey) :
    shareKeys shared keys key = SparseCounts.share^[keys.count key] (shared key) := by
  unfold shareKeys
  induction keys generalizing shared with
  | nil => rfl
  | cons other rest ih =>
    rw [List.foldl_cons, ih]
    by_cases same : other = key
    · subst same
      simp
    · have different : key ≠ other := fun equal => same equal.symm
      simp [same, different]

/-- What releasing segments leaves alone: everything but the live bytes, the
shared table and their logs. -/
structure ReleaseFrame (before after : Allocator × Staged) : Prop where
  refcounts : after.1.refcounts = before.1.refcounts
  bitmap : after.1.bitmap = before.1.bitmap
  pinCount : after.1.pinCount = before.1.pinCount
  isolated : after.1.isolated = before.1.isolated
  count : after.1.n = before.1.n
  alloc : after.2.alloc = before.2.alloc
  liveInc : after.2.liveInc = before.2.liveInc
  inflight : after.2.inflight = before.2.inflight
  sharedInc : after.2.sharedInc = before.2.sharedInc
  refcountInc : after.2.refcountInc = before.2.refcountInc
  refcountDec : after.2.refcountDec = before.2.refcountDec

theorem ReleaseFrame.refl (session : Allocator × Staged) : ReleaseFrame session session := by
  constructor <;> rfl

theorem ReleaseFrame.trans {first second third : Allocator × Staged}
    (left : ReleaseFrame first second) (right : ReleaseFrame second third) :
    ReleaseFrame first third where
  refcounts := right.refcounts.trans left.refcounts
  bitmap := right.bitmap.trans left.bitmap
  pinCount := right.pinCount.trans left.pinCount
  isolated := right.isolated.trans left.isolated
  count := right.count.trans left.count
  alloc := right.alloc.trans left.alloc
  liveInc := right.liveInc.trans left.liveInc
  inflight := right.inflight.trans left.inflight
  sharedInc := right.sharedInc.trans left.sharedInc
  refcountInc := right.refcountInc.trans left.refcountInc
  refcountDec := right.refcountDec.trans left.refcountDec

theorem decLive_frame (draft : Staged) (id len : Nat) :
    ReleaseFrame (a, draft) (decLive (a, draft) id len) ∧
      (decLive (a, draft) id len).1.shared = a.shared ∧
      (decLive (a, draft) id len).2.sharedDec = draft.sharedDec := by
  rcases decLive_eq a draft id len with ⟨same, _⟩ | ⟨after, result, _, ⟨rfl, _⟩ | ⟨rfl, _⟩⟩
  · rw [same]
    exact ⟨ReleaseFrame.refl _, rfl, rfl⟩
  · rw [result]
    exact ⟨by constructor <;> rfl, rfl, rfl⟩
  · rw [result]
    exact ⟨by constructor <;> rfl, rfl, rfl⟩

theorem releaseSegment_frame (draft : Staged) (s : Segment) :
    ReleaseFrame (a, draft) (releaseSegment (a, draft) s) ∧
      (releaseSegment (a, draft) s).1.shared =
        Function.update a.shared s.key (SparseCounts.release (a.shared s.key)) ∧
      (releaseSegment (a, draft) s).2.sharedDec =
        draft.sharedDec ++ (if (a.shared s.key).isSome then [s.key] else []) := by
  simp only [releaseSegment]
  cases entry : a.shared s.key with
  | none =>
    have unchanged : Function.update a.shared s.key none = a.shared := by
      rw [← entry, Function.update_eq_self]
    obtain ⟨frame, shared, sharedDec⟩ := decLive_frame a draft s.extentId s.len
    refine ⟨frame, ?_, ?_⟩
    · rw [shared, SparseCounts.release, unchanged]
    · simpa using sharedDec
  | some holders =>
    by_cases many : holders > 1
    · simp only [many, if_true, SparseCounts.release, Option.isSome_some, and_true]
      constructor <;> rfl
    · obtain ⟨frame, shared, sharedDec⟩ :=
        decLive_frame { a with shared := Function.update a.shared s.key none }
          { draft with sharedDec := draft.sharedDec ++ [s.key] } s.extentId s.len
      simp only [many, if_false, SparseCounts.release, Option.isSome_some, if_true]
      exact ⟨ReleaseFrame.trans (by constructor <;> rfl) frame, shared, sharedDec⟩

theorem releaseSegments_frame (draft : Staged) (segs : List Segment) :
    ReleaseFrame (a, draft) (segs.foldl releaseSegment (a, draft)) := by
  induction segs generalizing a draft with
  | nil => exact ReleaseFrame.refl _
  | cons s rest ih =>
    rw [List.foldl_cons]
    exact (releaseSegment_frame a draft s).1.trans (ih _ _)

theorem dropRefs_eq (draft : Staged) (ids : List Nat) :
    ∃ dropped, dropRefs (a, draft) ids =
      (dropped.foldl decRef a, { draft with refcountDec := draft.refcountDec ++ dropped }) := by
  unfold dropRefs
  induction ids generalizing a draft with
  | nil => exact ⟨[], by simp⟩
  | cons id rest ih =>
    rw [List.foldl_cons]
    by_cases zero : a.refcounts id = 0
    · rw [if_pos zero]
      exact ih a draft
    · rw [if_neg zero]
      obtain ⟨dropped, result⟩ :=
        ih (a.decRef id) { draft with refcountDec := draft.refcountDec ++ [id] }
      exact ⟨id :: dropped, by simp [result]⟩

end Allocator

/-- The shares or releases of `key` among the segments of one call. -/
def segSteps (step : SparseCounts.Step) (key : SegKey) (segs : List Segment) :
    List SparseCounts.Step :=
  List.replicate ((segs.map Segment.key).count key) step

def DraftCall.keySteps (key : SegKey) : DraftCall → List SparseCounts.Step
  | .allocate _ _ => []
  | .allocateInRange _ _ _ => []
  | .noteInflightSegment _ => []
  | .addObject _ => []
  | .shareObject segs => segSteps .share key segs
  | .releaseObject segs => segSteps .release key segs

/-- All shares and releases of `key` in a transaction, in order. -/
def keySteps (key : SegKey) (calls : List DraftCall) : List SparseCounts.Step :=
  calls.flatMap (DraftCall.keySteps key)

/-- The table entry of `key` and the draft's log of it, after some steps. -/
structure KeyLog (first : Option Nat) (key : SegKey) (steps : List SparseCounts.Step)
    (session : Allocator × Staged) : Prop where
  entry : session.1.shared key = SparseCounts.run first steps
  shares : session.2.sharedInc.count key = SparseCounts.shares steps
  releases : session.2.sharedDec.count key = SparseCounts.tableReleases first steps

section KeyLogs

variable {first : Option Nat} {key : SegKey} {steps : List SparseCounts.Step}
  {session after : Allocator × Staged}

theorem KeyLog.same (log : KeyLog first key steps session)
    (shared : after.1.shared = session.1.shared)
    (sharedInc : after.2.sharedInc = session.2.sharedInc)
    (sharedDec : after.2.sharedDec = session.2.sharedDec) :
    KeyLog first key steps after where
  entry := by rw [shared, log.entry]
  shares := by rw [sharedInc, log.shares]
  releases := by rw [sharedDec, log.releases]

private theorem run_replicate_share (entry : Option Nat) (times : Nat) :
    SparseCounts.run entry (List.replicate times .share) = SparseCounts.share^[times] entry := by
  induction times generalizing entry with
  | zero => rfl
  | succ times ih => exact ih (SparseCounts.share entry)

private theorem tableReleases_replicate_share (entry : Option Nat) (times : Nat) :
    SparseCounts.tableReleases entry (List.replicate times .share) = 0 := by
  induction times generalizing entry with
  | zero => rfl
  | succ times ih => exact ih (SparseCounts.share entry)

variable {a : Allocator} {draft : Staged}

theorem KeyLog.shareSegments (log : KeyLog first key steps (a, draft)) (segs : List Segment) :
    KeyLog first key (steps ++ segSteps .share key segs)
      (segs.foldl Allocator.shareSegment (a, draft)) := by
  rw [Allocator.shareSegments_eq]
  have entry := log.entry
  have shares := log.shares
  have releases := log.releases
  simp only at entry shares releases
  refine ⟨?_, ?_, ?_⟩
  · change Allocator.shareKeys a.shared (segs.map Segment.key) key = _
    rw [Allocator.shareKeys_apply, SparseCounts.run_append, segSteps, run_replicate_share, entry]
  · simp only [List.count_append, shares, SparseCounts.shares, segSteps, List.count_replicate_self]
  · rw [SparseCounts.tableReleases_append, segSteps, tableReleases_replicate_share, releases,
      Nat.add_zero]

theorem KeyLog.releaseSegment (log : KeyLog first key steps (a, draft)) (s : Segment) :
    KeyLog first key (steps ++ segSteps .release key [s])
      (Allocator.releaseSegment (a, draft) s) := by
  obtain ⟨frame, shared, sharedDec⟩ := Allocator.releaseSegment_frame a draft s
  have entry := log.entry
  have shares := log.shares
  have releases := log.releases
  simp only at entry shares releases
  refine ⟨?_, ?_, ?_⟩
  · rw [shared, SparseCounts.run_append, ← entry]
    by_cases same : s.key = key
    · subst same
      simp [segSteps, SparseCounts.run, SparseCounts.apply]
    · have different : key ≠ s.key := fun equal => same equal.symm
      simp [segSteps, SparseCounts.run, same, different]
  · rw [frame.sharedInc, shares]
    simp [SparseCounts.shares, segSteps, List.count_replicate]
  · rw [sharedDec, List.count_append, releases, SparseCounts.tableReleases_append, ← entry]
    by_cases same : s.key = key
    · subst same
      cases a.shared s.key with
      | none => simp [segSteps, SparseCounts.tableReleases]
      | some holders => simp [segSteps, SparseCounts.tableReleases]
    · have none : (if (a.shared s.key).isSome then [s.key] else []).count key = 0 := by
        split <;> simp [same]
      simp [segSteps, SparseCounts.tableReleases, same, none]

theorem KeyLog.releaseSegments (log : KeyLog first key steps (a, draft)) (segs : List Segment) :
    KeyLog first key (steps ++ segSteps .release key segs)
      (segs.foldl Allocator.releaseSegment (a, draft)) := by
  induction segs generalizing a draft steps with
  | nil => simpa [segSteps] using log
  | cons s rest ih =>
    have split : segSteps .release key (s :: rest) =
        segSteps .release key [s] ++ segSteps .release key rest := by
      simp only [segSteps, List.map_cons, List.map_nil, List.replicate_append_replicate]
      rw [← List.singleton_append, List.count_append]
    rw [List.foldl_cons, split, ← List.append_assoc]
    exact ih (log.releaseSegment s)

theorem KeyLog.call (log : KeyLog first key steps (a, draft)) (call : DraftCall) :
    KeyLog first key (steps ++ call.keySteps key) (call.run (a, draft)) := by
  cases call with
  | allocate hint count =>
    rw [DraftCall.keySteps, List.append_nil, DraftCall.run]
    obtain ⟨middle, taken, parked, _, took, ⟨_, result⟩ | ⟨_, back, gave, result⟩⟩ :=
      a.allocate_cases draft hint count
    · rw [result]
      exact log.same took.shared rfl rfl
    · rw [result]
      exact log.same (gave.shared.trans took.shared) rfl rfl
  | allocateInRange hint start count =>
    rw [DraftCall.keySteps, List.append_nil, DraftCall.run]
    obtain ⟨back, taken, parked, _, took, result⟩ := a.allocateInRange_cases draft hint start count
    rw [result]
    exact log.same took.shared rfl rfl
  | noteInflightSegment seg =>
    rw [DraftCall.keySteps, List.append_nil]
    exact log.same rfl rfl rfl
  | addObject segs =>
    rw [DraftCall.keySteps, List.append_nil]
    simp only [DraftCall.run, Allocator.addObject]
    split
    · exact log
    · rw [Allocator.addSegments_eq, Allocator.noteRefs_eq, Allocator.foldl_addLive,
        Allocator.foldl_incRef]
      exact log.same rfl rfl rfl
  | shareObject segs =>
    simp only [DraftCall.run, Allocator.shareObject, DraftCall.keySteps]
    split
    · next empty =>
      subst empty
      simpa [segSteps] using log
    · have shared := log.shareSegments segs
      rw [Allocator.shareSegments_eq] at shared ⊢
      rw [Allocator.noteRefs_eq, Allocator.foldl_incRef]
      exact shared.same rfl rfl rfl
  | releaseObject segs =>
    simp only [DraftCall.run, Allocator.releaseObject, DraftCall.keySteps]
    have released := log.releaseSegments segs
    revert released
    generalize segs.foldl Allocator.releaseSegment (a, draft) = middle
    intro released
    obtain ⟨dropped, result⟩ := Allocator.dropRefs_eq middle.1 middle.2 (seenExtents segs)
    rw [result, Allocator.foldl_decRef]
    exact released.same rfl rfl rfl

theorem KeyLog.calls (log : KeyLog first key steps (a, draft)) (calls : List DraftCall) :
    KeyLog first key (steps ++ keySteps key calls) (calls.foldl DraftCall.run (a, draft)) := by
  induction calls generalizing a draft steps with
  | nil => simpa [keySteps] using log
  | cons call rest ih =>
    rw [List.foldl_cons, keySteps, List.flatMap_cons, ← List.append_assoc]
    exact ih (log.call call)

theorem runDraft_keyLog (a : Allocator) (calls : List DraftCall) (key : SegKey) :
    KeyLog (a.shared key) key (keySteps key calls) (runDraft a calls) := by
  have start : KeyLog (a.shared key) key [] (a, {}) := ⟨rfl, rfl, rfl⟩
  simpa [runDraft] using start.calls calls

end KeyLogs

end FastS3.Alloc
