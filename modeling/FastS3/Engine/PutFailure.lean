import FastS3.Alloc.Undo
import FastS3.Engine.Frames
import FastS3.Engine.Put

namespace FastS3.Engine

open Alloc FastS3.Core Data Device

/-! A put that fails: which failures leave the allocator as it was.

The put takes free extents, notes the segments it writes and releases the old
version, all in one draft.  Where a failure runs the rollback every counter comes
back; where it returns early the releases stay.
-/

/-- The engine between operations: free extents are not in use, and every stored
segment lies in an extent that is allocated and counted. -/
structure EngineState.Settled (e : EngineState) : Prop where
  unpinned : ∀ id, e.alloc.bitmap.test id = false → e.alloc.isPinned id = false
  idle : ∀ id, e.alloc.bitmap.test id = false → e.alloc.refcounts id = 0
  allocated : ∀ segs ∈ e.store.holdings, ∀ s ∈ segs, e.alloc.bitmap.test s.extentId = true
  counted : ∀ segs ∈ e.store.holdings, ∀ s ∈ segs, e.alloc.refcounts s.extentId ≠ 0
  positive : ∀ key, SparseCounts.Positive (e.alloc.shared key)

section Books

variable {P : EngineState → Prop} (books : OfBooks P)

theorem EngineState.SameBooks.refl (e : EngineState) : e.SameBooks e :=
  ⟨⟨e.alloc.state, rfl⟩, rfl, rfl, rfl, rfl, rfl⟩

theorem ofBooks_same (e : EngineState) : OfBooks e.SameBooks := by
  intro middle after second first
  obtain ⟨_, firstAlloc⟩ := first.alloc
  obtain ⟨state, secondAlloc⟩ := second.alloc
  exact ⟨⟨state, by rw [secondAlloc, firstAlloc]⟩, second.draft.trans first.draft,
    second.buckets.trans first.buckets, second.objects.trans first.objects,
    second.parts.trans first.parts, second.limit.trans first.limit⟩

include books

theorem getBucket_keeps (name : String) : Keeps P (getBucket name) := by
  apply Keeps.bind (metaCall_keeps books)
  intro _
  exact Keeps.bindGet fun _ => Keeps.pure

theorem getObject_keeps (bucket key : String) : Keeps P (getObject bucket key) := by
  apply Keeps.bind (metaCall_keeps books)
  intro _
  exact Keeps.bindGet fun _ => Keeps.pure

theorem getObjectVersion_keeps (bucket key : String) (vk : Vk) :
    Keeps P (getObjectVersion bucket key vk) := by
  apply Keeps.bind (metaCall_keeps books)
  intro _
  exact Keeps.bindGet fun _ => Keeps.pure

theorem versionTip_keeps (bucket key : String) : Keeps P (versionTip bucket key) := by
  apply Keeps.bind (metaCall_keeps books)
  intro _
  exact Keeps.bindGet fun _ => Keeps.pure

theorem nowTs_keeps : Keeps P nowTs := by
  apply Keeps.bind (draw_keeps books)
  intro _
  exact Keeps.pure

theorem checkQuota_keeps (bucket : String) (delta : Int) : Keeps P (checkQuota bucket delta) := by
  apply Keeps.bind (getBucket_keeps books bucket)
  intro found
  cases found with
  | none => exact Keeps.throw
  | some found =>
    cases limit : found.quota with
    | none =>
      simp only [limit]
      exact Keeps.pure
    | some quota =>
      simp only [limit]
      exact Keeps.ite Keeps.throw Keeps.pure

theorem nextVk_keeps (bucket key : String) : Keeps P (nextVk bucket key) := by
  apply Keeps.bind (versionTip_keeps books bucket key)
  intro tip
  apply Keeps.bind (getObject_keeps books bucket key)
  intro legacy
  apply Keeps.bind (draw_keeps books)
  intro now
  apply Keeps.bind (randomBytes_keeps books 8)
  intro rand
  exact Keeps.pure

theorem mtimeFor_keeps (req : PutRequest) (target : WriteTarget) : Keeps P (mtimeFor req target) := by
  have family : Keeps P (nullFamilyMtime req.bucket req.key) := by
    apply Keeps.bind (nowTs_keeps books)
    intro now
    apply Keeps.bind (versionTip_keeps books req.bucket req.key)
    intro tip
    obtain ⟨_, maxReal⟩ := tip
    cases maxReal with
    | none => exact Keeps.pure
    | some real => exact Keeps.pure
  unfold mtimeFor
  cases req.explicitMtime with
  | some t => exact Keeps.pure
  | none =>
    cases target with
    | unversioned => exact nowTs_keeps books
    | newVersion vk => exact nowTs_keeps books
    | nullSlot => exact family
    | legacySlot => exact family

theorem checkPrecondition_keeps (req : PutRequest) (versioning : VersioningState) :
    Keeps P (checkPrecondition req versioning) := by
  have current : Keeps P (getCurrentVersion req.bucket req.key) := by
    apply Keeps.bind (getObject_keeps books req.bucket req.key)
    intro legacy
    apply Keeps.bind (versionTip_keeps books req.bucket req.key)
    intro tip
    exact Keeps.pure
  have record : Keeps P (currentRecord req.bucket req.key versioning) := by
    cases versioning with
    | off => exact getObject_keeps books req.bucket req.key
    | enabled => exact Keeps.bind current fun _ => Keeps.pure
    | suspended => exact Keeps.bind current fun _ => Keeps.pure
  unfold checkPrecondition
  cases req.precond with
  | none => exact Keeps.pure
  | some check => exact Keeps.bind record fun _ => ExtentWriter.liftCodec_keeps _

theorem inlineContent_keeps (codec : Codec) (sseKey : Option SseWriteKey) (level : Nat)
    (data : Bytes) : Keeps P (inlineContent codec sseKey level data) := by
  have packing : Keeps P (compressInline codec level data) := by
    apply Keeps.bindGet
    intro e
    apply Keeps.ite
    · apply Keeps.bind (ExtentWriter.liftCodec_keeps _)
      intro packed
      exact Keeps.ite Keeps.pure Keeps.pure
    · exact Keeps.pure
  apply Keeps.bind packing
  intro packed
  cases sseKey with
  | some key =>
    apply Keeps.bind (randomBytes_keeps books 12)
    intro nonceBase
    exact Keeps.pure
  | none =>
    cases packed with
    | none => exact Keeps.pure
    | some packed => exact Keeps.pure

theorem afterRelease_keeps (released : List Segment) : Keeps P (afterRelease released) := by
  apply Keeps.bindGet
  intro e
  apply Keeps.foldlM
  intro _ entry
  apply Keeps.bindGetHeld
  intro e holds
  exact Keeps.ite (sealOpenExtentAt_keeps books entry.1) (Keeps.set (books.setOpen holds _ _))

theorem commitPutPlan_fails {e e' : EngineState} {bucket key : String} {target : WriteTarget}
    {m : ObjectMeta} {delta : StatsDelta} {reason : Error} (holds : P e)
    (run : commitPutPlan bucket key target m delta e = .error reason e') : P e' := by
  have stored : Ensures P (commitPutPlan bucket key target m delta) (fun _ _ => True) P := by
    apply Ensures.ite
    · intro _
      exact ⟨fun _ holds => holds⟩
    · intro _
      apply Ensures.bind (metaCall_keeps books)
      intro _
      apply Ensures.bindGet
      intro e
      cases e.store.buckets.lookup bucket with
      | none => exact ⟨fun _ holds => holds⟩
      | some found => exact ⟨fun _ _ => trivial⟩
  exact stored.error holds run

end Books

def EngineState.replaced (e : EngineState) (bucket key : String) : OldVersion :=
  match e.store.buckets.lookup bucket with
  | none => {}
  | some found =>
    match found.versioning with
    | .off => .of (e.store.objects.lookup ⟨bucket, key, .single⟩)
    | .enabled => {}
    | .suspended =>
      match e.store.objects.lookup ⟨bucket, key, .single⟩ with
      | some legacy => .of (some legacy)
      | none => .of (e.store.objects.lookup ⟨bucket, key, .version vkNull⟩)

section Plan

variable {e middle : EngineState}

theorem metaCall_same {done : Unit} (run : metaCall e = .ok done middle) : e.SameBooks middle :=
  Ensures.ok (metaCall_keeps (ofBooks_same e)) (EngineState.SameBooks.refl e) run

theorem getBucket_ok {name : String} {found : Option BucketMeta}
    (run : getBucket name e = .ok found middle) :
    e.SameBooks middle ∧ found = e.store.buckets.lookup name := by
  simp only [getBucket, bind_eq_ok, get_eq_ok, pure_eq_ok] at run
  obtain ⟨_, _, called, _, _, ⟨rfl, rfl⟩, rfl, rfl⟩ := run
  have same := metaCall_same called
  exact ⟨same, by rw [same.buckets]⟩

theorem getObject_ok {bucket key : String} {found : Option ObjectMeta}
    (run : getObject bucket key e = .ok found middle) :
    e.SameBooks middle ∧ found = e.store.objects.lookup ⟨bucket, key, .single⟩ := by
  simp only [getObject, bind_eq_ok, get_eq_ok, pure_eq_ok] at run
  obtain ⟨_, _, called, _, _, ⟨rfl, rfl⟩, rfl, rfl⟩ := run
  have same := metaCall_same called
  exact ⟨same, by rw [same.objects]⟩

theorem getObjectVersion_ok {bucket key : String} {vk : Vk} {found : Option ObjectMeta}
    (run : getObjectVersion bucket key vk e = .ok found middle) :
    e.SameBooks middle ∧ found = e.store.objects.lookup ⟨bucket, key, .version vk⟩ := by
  simp only [getObjectVersion, bind_eq_ok, get_eq_ok, pure_eq_ok] at run
  obtain ⟨_, _, called, _, _, ⟨rfl, rfl⟩, rfl, rfl⟩ := run
  have same := metaCall_same called
  exact ⟨same, by rw [same.objects]⟩

theorem planPut_ok {req : PutRequest} {target : WriteTarget} {old : OldVersion} {level : Nat}
    (run : planPut req e = .ok (target, old, level) middle) :
    e.SameBooks middle ∧ old = e.replaced req.bucket req.key := by
  have trans : ∀ {first second third : EngineState}, first.SameBooks second →
      second.SameBooks third → first.SameBooks third :=
    fun {first second third} left right => ofBooks_same first second third right left
  simp only [planPut, bind_eq_ok] at run
  obtain ⟨found, afterBucket, bucketRead, run⟩ := run
  obtain ⟨sameBucket, rfl⟩ := getBucket_ok bucketRead
  cases bucket : e.store.buckets.lookup req.bucket with
  | none =>
    simp only [bucket] at run
    cases run
  | some found =>
    simp only [bucket, bind_eq_ok, Prod.exists, get_eq_ok, pure_eq_ok, Prod.mk.injEq] at run
    obtain ⟨_, afterCheck, checked, target', old', afterPlan, planned, _, _, ⟨rfl, rfl⟩,
      ⟨rfl, rfl, rfl⟩, rfl⟩ := run
    have sameCheck : e.SameBooks afterCheck :=
      Ensures.ok (checkPrecondition_keeps (ofBooks_same e) req _) sameBucket checked
    cases versioning : found.versioning with
    | off =>
      simp only [versioning, planObjectWrite, bind_eq_ok, pure_eq_ok, Prod.mk.injEq] at planned
      obtain ⟨_, _, read, ⟨_, rfl⟩, rfl⟩ := planned
      obtain ⟨sameRead, rfl⟩ := getObject_ok read
      refine ⟨trans sameCheck sameRead, ?_⟩
      simp only [EngineState.replaced, bucket, versioning, sameCheck.objects]
    | enabled =>
      simp only [versioning, planObjectWrite, bind_eq_ok, pure_eq_ok, Prod.mk.injEq] at planned
      obtain ⟨_, _, drawn, ⟨_, rfl⟩, rfl⟩ := planned
      refine ⟨Ensures.ok (nextVk_keeps (ofBooks_same e) _ _) sameCheck drawn, ?_⟩
      simp only [EngineState.replaced, bucket, versioning]
    | suspended =>
      simp only [versioning, planObjectWrite, bind_eq_ok] at planned
      obtain ⟨legacy, afterRead, read, planned⟩ := planned
      obtain ⟨sameRead, rfl⟩ := getObject_ok read
      have sameLegacy := trans sameCheck sameRead
      rw [sameCheck.objects] at planned
      cases single : e.store.objects.lookup ⟨req.bucket, req.key, .single⟩ with
      | some legacy =>
        simp only [single, pure_eq_ok, Prod.mk.injEq] at planned
        obtain ⟨⟨_, rfl⟩, rfl⟩ := planned
        refine ⟨sameLegacy, ?_⟩
        simp only [EngineState.replaced, bucket, versioning, single]
      | none =>
        simp only [single, bind_eq_ok, pure_eq_ok, Prod.mk.injEq] at planned
        obtain ⟨_, _, readNull, ⟨_, rfl⟩, rfl⟩ := planned
        obtain ⟨sameNull, rfl⟩ := getObjectVersion_ok readNull
        refine ⟨trans sameLegacy sameNull, ?_⟩
        simp only [EngineState.replaced, bucket, versioning, single, sameLegacy.objects]

theorem planPut_fails {req : PutRequest} {reason : Error}
    (run : planPut req e = .error reason middle) : e.SameBooks middle := by
  have books := ofBooks_same e
  have keeps : Keeps e.SameBooks (planPut req) := by
    apply Keeps.bind (getBucket_keeps books _)
    intro found
    cases found with
    | none => exact Keeps.throw
    | some found =>
      apply Keeps.bind (checkPrecondition_keeps books req _)
      intro _
      have plan : Keeps e.SameBooks (planObjectWrite req.bucket req.key found.versioning) := by
        cases found.versioning with
        | off => exact Keeps.bind (getObject_keeps books _ _) fun _ => Keeps.pure
        | enabled => exact Keeps.bind (nextVk_keeps books _ _) fun _ => Keeps.pure
        | suspended =>
          apply Keeps.bind (getObject_keeps books _ _)
          intro legacy
          cases legacy with
          | some legacy => exact Keeps.pure
          | none => exact Keeps.bind (getObjectVersion_keeps books _ _ _) fun _ => Keeps.pure
      apply Keeps.bind plan
      intro planned
      exact Keeps.bindGet fun _ => Keeps.pure
  exact Ensures.error keeps (EngineState.SameBooks.refl e) run

theorem mem_holdings {store : MetaStore} {slot : ObjectKey} {m : ObjectMeta}
    (stored : store.objects.lookup slot = some m) :
    m.extents ++ m.restoredExtents ∈ store.holdings := by
  have entry := AList.mem_lookup_iff.mp (Option.mem_def.mpr stored)
  exact List.mem_append_left _ (List.mem_map.mpr ⟨⟨slot, m⟩, entry, rfl⟩)

theorem replaced_recorded (e : EngineState) (bucket key : String) {s : Segment}
    (member : s ∈ (e.replaced bucket key).segments ∨ s ∈ (e.replaced bucket key).restoredSegments) :
    ∃ segs ∈ e.store.holdings, s ∈ segs := by
  have recorded : ∀ slot : ObjectKey,
      (s ∈ (OldVersion.of (e.store.objects.lookup slot)).segments ∨
        s ∈ (OldVersion.of (e.store.objects.lookup slot)).restoredSegments) →
      ∃ segs ∈ e.store.holdings, s ∈ segs := by
    intro slot inside
    cases stored : e.store.objects.lookup slot with
    | none => simp [stored, OldVersion.of] at inside
    | some m =>
      rw [stored] at inside
      exact ⟨_, mem_holdings stored, List.mem_append.mpr inside⟩
  unfold EngineState.replaced at member
  cases present : e.store.buckets.lookup bucket with
  | none => simp [present] at member
  | some found =>
    simp only [present] at member
    cases versioning : found.versioning with
    | off =>
      simp only [versioning] at member
      exact recorded _ member
    | enabled => simp [versioning] at member
    | suspended =>
      simp only [versioning] at member
      cases single : e.store.objects.lookup ⟨bucket, key, .single⟩ with
      | some legacy =>
        simp only [single] at member
        rw [← single] at member
        exact recorded _ member
      | none =>
        simp only [single] at member
        exact recorded _ member

end Plan

theorem undoable_ofBooks (first : Allocator) :
    OfBooks fun e => Undoable first (e.alloc, e.draft) := by
  intro e e' same undoable
  obtain ⟨state, alloc⟩ := same.alloc
  rw [alloc, same.draft]
  have ledger := undoable.ledger
  refine ⟨⟨ledger.refs, ledger.live, ledger.bits, ledger.taken, ledger.unpinned⟩,
    undoable.cleared, ?_⟩
  intro key
  obtain ⟨steps, none, log⟩ := undoable.shares key
  exact ⟨steps, none, log.same rfl rfl rfl⟩

/-- The draft can be undone, and the free extents are still unused. -/
structure Streaming (first : Allocator) (e : EngineState) : Prop where
  undoable : Undoable first (e.alloc, e.draft)
  idle : ∀ id, e.alloc.bitmap.test id = false → e.alloc.refcounts id = 0
  allocated : ∀ segs ∈ e.store.holdings, ∀ s ∈ segs, e.alloc.bitmap.test s.extentId = true

def Unused (id : Nat) (e : EngineState) : Prop :=
  ∀ segs ∈ e.store.holdings, ∀ s ∈ segs, s.extentId ≠ id

theorem EngineState.SameBooks.holdings {e e' : EngineState} (same : e.SameBooks e') :
    e'.store.holdings = e.store.holdings := by
  rw [MetaStore.holdings, MetaStore.holdings, same.objects, same.parts]

section Stream

variable {first : Allocator}

theorem Streaming.ofBooks : OfBooks (Streaming first) := by
  intro e e' same streaming
  refine ⟨undoable_ofBooks first e e' same streaming.undoable, ?_, ?_⟩
  · obtain ⟨state, alloc⟩ := same.alloc
    rw [alloc]
    exact streaming.idle
  · obtain ⟨state, alloc⟩ := same.alloc
    rw [alloc, same.holdings]
    exact streaming.allocated

theorem streaming_unused (id : Nat) : OfBooks fun e => Streaming first e ∧ Unused id e := by
  intro e e' same both
  refine ⟨Streaming.ofBooks e e' same both.1, ?_⟩
  rw [Unused, same.holdings]
  exact both.2

theorem allocateInRange_streaming (start count : Nat) :
    Ensures (Streaming first) (allocateInRange start count)
      (fun found e => Streaming first e ∧ ∀ id, found = some id → Unused id e)
      (Streaming first) := by
  apply Ensures.bind (draw_keeps Streaming.ofBooks)
  intro hint
  apply Ensures.modifyGet
  intro e streaming
  have undoable := streaming.undoable.allocateInRange streaming.idle hint start count
  obtain ⟨after, taken, parked, looped, took, result⟩ :=
    e.alloc.allocateInRange_cases e.draft hint start count
  simp only [DraftCall.run, result] at undoable ⊢
  refine ⟨⟨undoable, ?_, ?_⟩, ?_⟩
  · intro id clear
    simp only [took.bits id, Bool.or_eq_false_iff] at clear
    simp only [took.refcounts id]
    split
    · rfl
    · exact streaming.idle id clear.1
  · intro segs held s member
    simp only [took.bits, streaming.allocated segs held s member, Bool.true_or]
  · intro id found segs held s member same
    have clear := took.wasClear id (by simp [found])
    rw [← same, streaming.allocated segs held s member] at clear
    cases clear

theorem liveExtentOccupancy_streaming (id : Nat) :
    Ensures (fun e => Streaming first e ∧ Unused id e) (liveExtentOccupancy id)
      (fun occupancy e => occupancy.1 = 0 ∧ Streaming first e) (Streaming first) := by
  have books : OfBooks fun e => Streaming first e ∧ Unused id e := streaming_unused id
  have calls : Ensures (fun e => Streaming first e ∧ Unused id e) metaCall
      (fun _ e => Streaming first e ∧ Unused id e) (Streaming first) :=
    Ensures.weakenFail (metaCall_keeps books) fun _ both => both.1
  apply Ensures.bind calls
  intro _
  apply Ensures.bind calls
  intro _
  refine ⟨fun e both => ⟨?_, both.1⟩⟩
  have none : (e.store.holdings.map fun segs => segs.filter fun s => s.extentId = id).flatten = [] := by
    rw [List.flatten_eq_nil_iff]
    intro kept member
    obtain ⟨segs, held, rfl⟩ := List.mem_map.mp member
    rw [List.filter_eq_nil_iff]
    intro s inside
    simpa using both.2 segs held s inside
  simp only [none, List.map_nil, List.foldl_nil, Nat.zero_min]

theorem openExtentOn_streaming (capacity : Nat) (slot : DeviceSlot) (attempts : Nat) :
    Keeps (Streaming first) (openExtentOn capacity slot attempts) := by
  cases attempts with
  | zero => exact Keeps.pure
  | succ attempts =>
    apply Ensures.bind (allocateInRange_streaming _ _)
    intro found
    cases found with
    | none => exact Ensures.pure fun _ holds => holds.1
    | some id =>
      apply Ensures.strengthen _ fun e holds => And.intro holds.1 (holds.2 id rfl)
      apply Ensures.bindFact (liveExtentOccupancy_streaming id)
      intro occupancy empty
      obtain ⟨maxEnd, liveSum, holders⟩ := occupancy
      apply Ensures.ite
      · intro _
        apply Keeps.bind (markOpen_keeps Streaming.ofBooks id)
        intro _
        apply Keeps.bind (openOpenExtent_keeps Streaming.ofBooks _ _ _ _)
        intro _
        exact Keeps.pure
      · intro occupied
        exact absurd empty occupied

theorem openNewExtent_streaming (prefer : Option Nat) :
    Keeps (Streaming first) (openNewExtent prefer) := by
  have among : ∀ (capacity : Nat) (order : List Nat),
      Keeps (Streaming first) (openExtentAmong capacity order) := by
    intro capacity order
    induction order with
    | nil => exact Keeps.throw
    | cons di rest ih =>
      apply Keeps.bind (slotAt_keeps di)
      intro slot
      apply Keeps.bind (openExtentOn_streaming capacity slot _)
      intro opened
      exact Keeps.ite Keeps.pure ih
  apply Keeps.bindGet
  intro e
  apply Keeps.bind (deviceRotationOrder_keeps Streaming.ofBooks prefer)
  intro order
  exact among _ order

theorem streaming_ofWriter : OfWriter (Streaming first) where
  books := Streaming.ofBooks
  opens := openNewExtent_streaming
  notes := fun _ seg streaming =>
    ⟨streaming.undoable.noteInflightSegment seg, streaming.idle, streaming.allocated⟩

theorem streamToExtents_keeps {P : EngineState → Prop} (writer : OfWriter P) (codec : Codec)
    (body : Body) (sseKey : Option SseWriteKey) (nonceBase : Option Bytes) (level : Nat) :
    Keeps P (streamToExtents codec body sseKey nonceBase level) := by
  apply Keeps.bindGet
  intro e
  apply Keeps.ite Keeps.throw
  apply Keeps.bind (ExtentWriter.new_keeps writer _ _ _ _ _)
  intro w
  apply Keeps.bind
  · apply Keeps.foldlM
    intro w block
    exact ExtentWriter.feed_keeps writer codec w block
  · intro w
    cases body.fault with
    | some fault => exact Keeps.throw
    | none => exact ExtentWriter.finish_keeps writer codec w

end Stream

section Undo

variable {first : Allocator} {e e' : EngineState}

@[simp] theorem during_eq_ok {α : Type} {step : PutStep} {program : EngineM α} {value : α} :
    during step program e = .ok value e' ↔ program e = .ok value e' := by
  unfold during
  cases program e with
  | ok value after => simp
  | error reason after => simp

@[simp] theorem during_eq_error {α : Type} {step failed : PutStep} {program : EngineM α}
    {reason : Error} :
    during step program e = .error (failed, reason) e' ↔
      step = failed ∧ program e = .error reason e' := by
  unfold during
  cases program e with
  | ok value after => simp
  | error reason after => simp [and_assoc]

theorem orAbort_eq_ok {α : Type} {program : EngineM α} {value : α} :
    orAbort program e = .ok value e' ↔ program e = .ok value e' := by
  change EStateM.tryCatch program _ e = _ ↔ _
  unfold EStateM.tryCatch
  cases program e with
  | ok value after => exact Iff.rfl
  | error reason after =>
    simp only [reduceCtorEq, iff_false]
    intro impossible
    cases impossible

theorem orAbort_eq_error {α : Type} {program : EngineM α} {reason : Error}
    (run : orAbort program e = .error reason e') :
    ∃ middle, program e = .error reason middle ∧
      e'.alloc = middle.alloc.rollback middle.draft := by
  change EStateM.tryCatch program _ e = _ at run
  unfold EStateM.tryCatch at run
  cases outcome : program e with
  | ok value after =>
    rw [outcome] at run
    cases run
  | error first after =>
    rw [outcome] at run
    cases run
    exact ⟨after, rfl, rfl⟩

theorem releaseOld_undoable {old freed touched : List Segment}
    (allocated : ∀ s ∈ freed, first.bitmap.test s.extentId = true) :
    Keeps (fun e => Undoable first (e.alloc, e.draft)) (releaseOld old freed touched) := by
  unfold releaseOld
  apply Keeps.ite Keeps.pure
  apply Keeps.bind
  · apply Keeps.modify
    intro e undoable
    exact undoable.releaseObject freed allocated
  · intro _
    exact afterRelease_keeps (undoable_ofBooks first) touched

theorem ofBooks_refcount (id : Nat) (P : UInt32 → Prop) :
    OfBooks fun e => P (e.alloc.refcounts id) := by
  intro e e' same holds
  obtain ⟨state, alloc⟩ := same.alloc
  rw [alloc]
  exact holds

theorem releaseOld_keeps_lower (old freed touched : List Segment) (id : Nat) (count : UInt32) :
    Keeps (fun e => e.alloc.refcounts id < count) (releaseOld old freed touched) := by
  unfold releaseOld
  apply Keeps.ite Keeps.pure
  apply Keeps.bind
  · apply Keeps.modify
    intro e lower
    exact UInt32.lt_of_le_of_lt (releaseObject_refcounts_le e.alloc e.draft freed id) lower
  · intro _
    exact afterRelease_keeps (ofBooks_refcount id (· < count)) touched

theorem releaseOld_lowers {old freed touched : List Segment} {s : Segment} {count : UInt32}
    (some : old ≠ []) (member : s ∈ freed) (held : count ≠ 0) :
    Ensures (fun e => e.alloc.refcounts s.extentId = count) (releaseOld old freed touched)
      (fun _ e => e.alloc.refcounts s.extentId < count)
      (fun e => e.alloc.refcounts s.extentId < count) := by
  unfold releaseOld
  rw [if_neg some]
  apply Ensures.bind (Ensures.modifyGet _)
  · intro _
    exact afterRelease_keeps (ofBooks_refcount s.extentId (· < count)) touched
  · intro e same
    rw [← same]
    exact releaseObject_refcounts_lt member (by rw [same]; exact held)

theorem releaseNonOverlapping_nil (old : List Segment) : releaseNonOverlapping old [] = old := by
  simp [releaseNonOverlapping]

theorem mem_of_releaseNonOverlapping {old new : List Segment} {s : Segment}
    (member : s ∈ releaseNonOverlapping old new) : s ∈ old :=
  List.mem_of_mem_filter member

end Undo

/-- The failures after which nothing is left of the put: those before its draft
has changed anything, and those that roll the draft back. -/
def PutStep.undone (inline : Bool) (old : OldVersion) : PutStep → Prop
  | .plan => True
  | .content => True
  | .mtime => inline = true
  | .release => False
  | .quota => inline = false ∨ old.segments = [] ∧ old.restoredSegments = []
  | .commit => True
  | .checkpoint => False

section Failures

variable {codec : Codec} {req : PutRequest} {target : WriteTarget} {old : OldVersion} {level : Nat}
  {m : ObjectMeta} {step : PutStep} {reason : Error} {e s e' : EngineState} {first : Allocator}

theorem EngineState.SameBooks.restored (same : e.SameBooks e') : Restored e.alloc e'.alloc := by
  obtain ⟨state, alloc⟩ := same.alloc
  rw [alloc]
  exact ⟨fun _ => rfl, fun _ => rfl, fun _ => rfl, fun _ => rfl⟩

theorem restored_of_books {middle : EngineState} (undoable : Undoable first (s.alloc, s.draft))
    (positive : ∀ key, SparseCounts.Positive (first.shared key)) (same : s.SameBooks middle) :
    Restored first (middle.alloc.rollback middle.draft) := by
  obtain ⟨state, alloc⟩ := same.alloc
  rw [alloc, same.draft]
  exact undoable.rollback positive ⟨rfl, rfl, rfl⟩ fun _ _ => rfl

theorem restored_of_commit {record : AllocDraft} {settled middle : EngineState}
    (undoable : Undoable first (s.alloc, s.draft))
    (positive : ∀ key, SparseCounts.Positive (first.shared key))
    (decided : toAllocDraft s = .ok record settled) (same : settled.SameBooks middle) :
    Restored first (middle.alloc.rollback middle.draft) := by
  obtain ⟨_, rfl⟩ := modifyGet_eq_ok.mp decided
  obtain ⟨state, alloc⟩ := same.alloc
  obtain ⟨counters, bits⟩ := toAllocDraft_same s.alloc s.draft
  rw [alloc, same.draft]
  exact undoable.rollback positive ⟨counters.refcounts, counters.liveBytes, counters.shared⟩ bits

theorem releases_lower (reason : Error) {segments restored : List Segment} {failed : EngineState}
    (held : ∀ s ∈ segments ++ restored, e.alloc.refcounts s.extentId ≠ 0)
    (some : ¬(segments = [] ∧ restored = []))
    (same : ∀ id, s.alloc.refcounts id = e.alloc.refcounts id)
    (run : releaseOld segments segments segments s = .error reason failed ∨
      ∃ done middle, releaseOld segments segments segments s = .ok done middle ∧
        (releaseOld restored restored restored middle = .error reason failed ∨
          ∃ done after, releaseOld restored restored restored middle = .ok done after ∧
            after.SameBooks failed)) :
    ¬Restored e.alloc failed.alloc := by
  suffices lower : ∃ id, failed.alloc.refcounts id < e.alloc.refcounts id by
    intro restored
    obtain ⟨id, less⟩ := lower
    rw [restored.refcounts id] at less
    exact UInt32.lt_irrefl _ less
  cases segments with
  | cons seg rest =>
    have lowers := @releaseOld_lowers (seg :: rest) (seg :: rest) (seg :: rest) seg _
      (by simp) List.mem_cons_self (held seg (by simp))
    have keeps := releaseOld_keeps_lower restored restored restored seg.extentId
      (e.alloc.refcounts seg.extentId)
    refine ⟨seg.extentId, ?_⟩
    rcases run with broke | ⟨_, middle, went, broke | ⟨_, after, gone, books⟩⟩
    · exact lowers.error (same _) broke
    · exact Ensures.error keeps (lowers.ok (same _) went) broke
    · exact ofBooks_refcount seg.extentId (· < e.alloc.refcounts seg.extentId) after failed books
        (Ensures.ok keeps (lowers.ok (same _) went) gone)
  | nil =>
    cases restored with
    | nil => exact absurd ⟨rfl, rfl⟩ some
    | cons seg rest =>
      have lowers := @releaseOld_lowers (seg :: rest) (seg :: rest) (seg :: rest) seg _
        (by simp) List.mem_cons_self (held seg (by simp))
      refine ⟨seg.extentId, ?_⟩
      rcases run with broke | ⟨_, middle, went, run⟩
      · simp [releaseOld] at broke
      · simp only [releaseOld, if_true, pure_eq_ok, true_and] at went
        subst went
        rcases run with broke | ⟨_, after, gone, books⟩
        · exact lowers.error (same _) broke
        · exact ofBooks_refcount seg.extentId (· < e.alloc.refcounts seg.extentId) after failed
            books (lowers.ok (same _) gone)

theorem EngineState.Settled.begin (settled : e.Settled) (same : e.SameBooks s) :
    Streaming e.alloc { s with draft := {} } := by
  obtain ⟨state, alloc⟩ := same.alloc
  have fresh : Streaming e.alloc { e with draft := {} } :=
    ⟨Undoable.start settled.unpinned, settled.idle, settled.allocated⟩
  exact Streaming.ofBooks { e with draft := {} } _
    ⟨⟨state, alloc⟩, rfl, same.buckets, same.objects, same.parts, same.limit⟩ fresh

theorem commitInline_fails (settled : e.Settled) (begun : Streaming e.alloc s)
    (refcounts : ∀ id, s.alloc.refcounts id = e.alloc.refcounts id)
    (untouched : Restored e.alloc s.alloc) (inline : m.extents = [])
    (recorded : ∀ seg ∈ old.segments ++ old.restoredSegments,
      ∃ segs ∈ e.store.holdings, seg ∈ segs)
    (run : commitInline req target old m s = .error (step, reason) e')
    (rejected : step ≠ .checkpoint) :
    Restored e.alloc e'.alloc ↔ step.undone true old := by
  have held : ∀ seg ∈ old.segments ++ old.restoredSegments,
      e.alloc.refcounts seg.extentId ≠ 0 := by
    intro seg member
    obtain ⟨segs, stored, inside⟩ := recorded seg member
    exact settled.counted segs stored seg inside
  have allocated : ∀ seg ∈ old.segments ++ old.restoredSegments,
      e.alloc.bitmap.test seg.extentId = true := by
    intro seg member
    obtain ⟨segs, stored, inside⟩ := recorded seg member
    exact settled.allocated segs stored seg inside
  have undoing : ∀ segs : List Segment, (∀ seg ∈ segs, seg ∈ old.segments ++ old.restoredSegments) →
      Keeps (fun e' => Undoable e.alloc (e'.alloc, e'.draft)) (releaseOld segs segs segs) :=
    fun segs part => releaseOld_undoable fun seg member => allocated seg (part seg member)
  simp only [commitInline, inline, releaseNonOverlapping_nil, bind_eq_error, during_eq_error,
    during_eq_ok, pure_eq_error] at run
  rcases run with ⟨rfl, broke⟩ | ⟨_, middle, went, ⟨rfl, broke⟩ | ⟨_, after, gone, run⟩⟩
  · -- sealing an extent of the old version failed
    refine iff_of_false ?_ id
    apply releases_lower reason held _ refcounts (.inl broke)
    intro none
    simp [releaseOld, none.1] at broke
  · refine iff_of_false ?_ id
    apply releases_lower reason held _ refcounts (.inr ⟨_, middle, went, .inl broke⟩)
    intro none
    simp [releaseOld, none.2] at broke
  · have released : Undoable e.alloc (after.alloc, after.draft) :=
      Ensures.ok (undoing old.restoredSegments fun seg member => List.mem_append_right _ member)
        (Ensures.ok (undoing old.segments fun seg member => List.mem_append_left _ member)
          begun.undoable went) gone
    rcases run with ⟨rfl, exceeded⟩ | ⟨_, checked, passed, ⟨rfl, impossible⟩ |
      ⟨_, decided, record, ⟨rfl, refused⟩ | ⟨_, _, _, ⟨rfl, _⟩ | ⟨_, _, _, impossible⟩⟩⟩⟩
    · have books : after.SameBooks e' := Ensures.error (checkQuota_keeps (ofBooks_same after) _ _)
        (EngineState.SameBooks.refl after) exceeded
      by_cases none : old.segments = [] ∧ old.restoredSegments = []
      · refine iff_of_true ?_ (.inr none)
        simp only [releaseOld, none.1, none.2, if_true, pure_eq_ok, true_and] at went gone
        subst went gone
        exact untouched.trans books.restored
      · refine iff_of_false ?_ ?_
        · exact releases_lower reason held none refcounts
            (.inr ⟨_, middle, went, .inr ⟨_, after, gone, books⟩⟩)
        · rintro (impossible | empty)
          · cases impossible
          · exact none empty
    · simp [toAllocDraft] at impossible
    · refine iff_of_true ?_ trivial
      obtain ⟨failed, refusal, rolled⟩ := orAbort_eq_error refused
      rw [rolled]
      have passedBooks := Ensures.ok (checkQuota_keeps (undoable_ofBooks e.alloc) _ _) released passed
      exact restored_of_commit passedBooks settled.positive record
        (commitPutPlan_fails (ofBooks_same decided) (EngineState.SameBooks.refl decided) refusal)
    · exact absurd rfl rejected
    · exact impossible.elim

theorem putInline_fails (settled : e.Settled) (same : e.SameBooks s)
    (recorded : ∀ seg ∈ old.segments ++ old.restoredSegments,
      ∃ segs ∈ e.store.holdings, seg ∈ segs)
    (run : putInline codec req target old level s = .error (step, reason) e')
    (rejected : step ≠ .checkpoint) :
    Restored e.alloc e'.alloc ↔ step.undone true old := by
  have books := ofBooks_same e
  simp only [putInline, bind_eq_error, during_eq_error, during_eq_ok, Prod.exists] at run
  rcases run with ⟨rfl, broke⟩ | ⟨data, sse, compressed, afterContent, content,
    ⟨rfl, broke⟩ | ⟨mtime, afterMtime, timed, ⟨rfl, impossible⟩ | ⟨_, begun, started, run⟩⟩⟩
  · refine iff_of_true ?_ trivial
    exact (Ensures.error (inlineContent_keeps books codec _ _ _) same broke).restored
  · refine iff_of_true ?_ rfl
    have sameContent := Ensures.ok (inlineContent_keeps books codec _ _ _) same content
    exact (Ensures.error (mtimeFor_keeps books req target) sameContent broke).restored
  · simp [beginDraft] at impossible
  · have sameContent := Ensures.ok (inlineContent_keeps books codec _ _ _) same content
    have sameMtime := Ensures.ok (mtimeFor_keeps books req target) sameContent timed
    obtain rfl := modify_eq_ok.mp started
    exact commitInline_fails settled (settled.begin sameMtime)
      (fun id => sameMtime.restored.refcounts id) sameMtime.restored rfl recorded run rejected

theorem commitStream_fails (settled : e.Settled) (undoable : Undoable e.alloc (s.alloc, s.draft))
    (recorded : ∀ seg ∈ old.segments ++ old.restoredSegments,
      ∃ segs ∈ e.store.holdings, seg ∈ segs)
    (run : commitStream req target old m s = .error (step, reason) e')
    (undone : step.undone false old) : Restored e.alloc e'.alloc := by
  have allocated : ∀ seg ∈ old.segments ++ old.restoredSegments,
      e.alloc.bitmap.test seg.extentId = true := by
    intro seg member
    obtain ⟨segs, stored, inside⟩ := recorded seg member
    exact settled.allocated segs stored seg inside
  simp only [commitStream, bind_eq_error, during_eq_error, during_eq_ok, pure_eq_error] at run
  rcases run with ⟨rfl, impossible⟩ | ⟨_, added, adding, ⟨rfl, broke⟩ |
    ⟨_, middle, went, ⟨rfl, broke⟩ | ⟨_, after, gone, run⟩⟩⟩
  · simp [addObject] at impossible
  · exact undone.elim
  · exact undone.elim
  · have accounted : Undoable e.alloc (added.alloc, added.draft) := by
      obtain rfl := modify_eq_ok.mp adding
      exact undoable.addObject m.extents
    have freed := Ensures.ok (releaseOld_undoable fun seg member =>
      allocated seg (List.mem_append_left _ (mem_of_releaseNonOverlapping member))) accounted went
    have released := Ensures.ok (releaseOld_undoable fun seg member =>
      allocated seg (List.mem_append_right _ member)) freed gone
    rcases run with ⟨rfl, exceeded⟩ | ⟨_, checked, passed, ⟨rfl, impossible⟩ |
      ⟨_, decided, record, ⟨rfl, refused⟩ | ⟨_, _, _, ⟨rfl, impossible⟩ | ⟨_, _, _, impossible⟩⟩⟩⟩
    · obtain ⟨failed, excess, rolled⟩ := orAbort_eq_error exceeded
      rw [rolled]
      exact restored_of_books released settled.positive
        (Ensures.error (checkQuota_keeps (ofBooks_same after) _ _)
          (EngineState.SameBooks.refl after) excess)
    · simp [toAllocDraft] at impossible
    · obtain ⟨failed, refusal, rolled⟩ := orAbort_eq_error refused
      rw [rolled]
      have passedBooks := Ensures.ok (checkQuota_keeps (undoable_ofBooks e.alloc) _ _) released
        (orAbort_eq_ok.mp passed)
      exact restored_of_commit passedBooks settled.positive record
        (commitPutPlan_fails (ofBooks_same decided) (EngineState.SameBooks.refl decided) refusal)
    · simp [markOpenCommitted] at impossible
    · exact impossible.elim

theorem putStream_fails (settled : e.Settled) (same : e.SameBooks s)
    (recorded : ∀ seg ∈ old.segments ++ old.restoredSegments,
      ∃ segs ∈ e.store.holdings, seg ∈ segs)
    (run : putStream codec req target old level s = .error (step, reason) e')
    (undone : step.undone false old) : Restored e.alloc e'.alloc := by
  simp only [putStream, bind_eq_error, during_eq_error, during_eq_ok] at run
  rcases run with ⟨rfl, impossible⟩ | ⟨_, begun, started, ⟨rfl, broke⟩ |
    ⟨outcome, streamed, content, ⟨rfl, broke⟩ | ⟨mtime, afterMtime, timed, run⟩⟩⟩
  · simp [beginDraft] at impossible
  · obtain rfl := modify_eq_ok.mp started
    obtain ⟨failed, interrupted, rolled⟩ := orAbort_eq_error broke
    rw [rolled]
    have streaming := Ensures.error (streamToExtents_keeps streaming_ofWriter codec _ _ _ _)
      (settled.begin same) interrupted
    exact restored_of_books streaming.undoable settled.positive (EngineState.SameBooks.refl failed)
  · cases undone
  · obtain rfl := modify_eq_ok.mp started
    have streaming := Ensures.ok (streamToExtents_keeps streaming_ofWriter codec _ _ _ _)
      (settled.begin same) (orAbort_eq_ok.mp content)
    have undoable := Ensures.ok (mtimeFor_keeps (undoable_ofBooks e.alloc) req target)
      streaming.undoable timed
    exact commitStream_fails settled undoable recorded run undone

theorem readPrefix_ok {inline : Bool} (run : readPrefix req s = .ok inline e') :
    s = e' ∧ inline = req.isInline s := by
  simp only [readPrefix, bind_eq_ok, get_eq_ok] at run
  obtain ⟨_, _, ⟨rfl, rfl⟩, run⟩ := run
  split at run
  · next short =>
    cases fault : req.body.fault with
    | none =>
      simp only [fault, pure_eq_ok] at run
      exact ⟨run.2, by rw [← run.1, short]⟩
    | some reason =>
      simp only [fault, throw_eq_ok] at run
  · next long =>
    simp only [pure_eq_ok] at run
    exact ⟨run.2, by rw [← run.1, Bool.not_eq_true _ |>.mp long]⟩

theorem readPrefix_fails (run : readPrefix req s = .error reason e') : s = e' := by
  have keeps : Keeps (s = ·) (readPrefix req) := by
    apply Keeps.bindGet
    intro state
    apply Keeps.ite
    · cases req.body.fault with
      | none => exact Keeps.pure
      | some fault => exact Keeps.throw
    · exact Keeps.pure
  exact Ensures.error keeps rfl run

/-- A put that fails before its commit is done leaves the allocator as it was when
the failing step is one that is undone.  On the inline arm this is exact: behind any
other failure a reference of the old version is missing. -/
theorem put_failure_restores (codec : Codec) (req : PutRequest) {e e' : EngineState}
    {step : PutStep} {reason : Error} (settled : e.Settled)
    (run : put codec req e = .error (step, reason) e') (rejected : step ≠ .checkpoint) :
    (step.undone (req.isInline e) (e.replaced req.bucket req.key) → Restored e.alloc e'.alloc) ∧
      (req.isInline e = true → Restored e.alloc e'.alloc →
        step.undone true (e.replaced req.bucket req.key)) := by
  have recorded : ∀ seg ∈ (e.replaced req.bucket req.key).segments ++
      (e.replaced req.bucket req.key).restoredSegments, ∃ segs ∈ e.store.holdings, seg ∈ segs :=
    fun seg member => replaced_recorded e req.bucket req.key (List.mem_append.mp member)
  simp only [put, bind_eq_error, during_eq_error, during_eq_ok, Prod.exists] at run
  rcases run with ⟨rfl, broke⟩ | ⟨target, old, level, planned, plan, run⟩
  · exact ⟨fun _ => (planPut_fails broke).restored, fun _ _ => trivial⟩
  obtain ⟨same, rfl⟩ := planPut_ok plan
  have arm : req.isInline planned = req.isInline e := by
    rw [PutRequest.isInline, PutRequest.isInline, same.limit]
  rcases run with ⟨rfl, broke⟩ | ⟨inline, read, chosen, run⟩
  · obtain rfl := readPrefix_fails broke
    exact ⟨fun _ => same.restored, fun _ _ => trivial⟩
  obtain ⟨rfl, rfl⟩ := readPrefix_ok chosen
  rw [arm] at run
  cases short : req.isInline e with
  | true =>
    simp only [short, if_true] at run
    have outcome := putInline_fails settled same recorded run rejected
    exact ⟨outcome.mpr, fun _ restored => outcome.mp restored⟩
  | false =>
    simp only [short, Bool.false_eq_true, if_false, bind_eq_error, during_eq_error] at run
    refine ⟨fun undone => ?_, fun impossible => nomatch impossible⟩
    rcases run with broke | ⟨_, _, _, ⟨rfl, _⟩ | ⟨_, _, _, impossible⟩⟩
    · exact putStream_fails settled same recorded broke undone
    · exact absurd rfl rejected
    · cases impossible

end Failures

def storedObject : ObjectMeta where
  size := 40000
  mtime := 1
  extents := [⟨0, 0, 40000, []⟩]
  inline := none
  parts := []
  versionId := none
  isDeleteMarker := false
  sse := none
  compressed := none
  storageClass := none
  restoreState := none

def oneObject (quota : Option Nat) (faults : List (Option Error)) : EngineState :=
  { smallEngine none with
    alloc := { Allocator.new 15 with
      bitmap := (Bitmap.new 15).setBit 0
      refcounts := fun id => if id = 0 then 1 else 0
      liveBytes := fun id => if id = 0 then 40000 else 0
      state := fun id => if id = 0 then .sealed else .free }
    store := {
      buckets := AList.singleton "b" ⟨.off, quota, 1, 40000⟩
      objects := AList.singleton ⟨"b", "k", .single⟩ storedObject
      parts := ∅
      sessions := ∅
      faults := faults } }

theorem oneObject_settled (quota : Option Nat) (faults : List (Option Error)) :
    (oneObject quota faults).Settled := by
  have bits : ∀ id, (oneObject quota faults).alloc.bitmap.test id = decide (id = 0) := by
    intro id
    simp [oneObject, Bitmap.test_setBit, Bitmap.test_new]
  have first : ∀ segs ∈ (oneObject quota faults).store.holdings, ∀ s ∈ segs, s.extentId = 0 := by
    intro segs held s member
    obtain rfl := List.mem_singleton.mp held
    obtain rfl := List.mem_singleton.mp member
    rfl
  refine ⟨?_, ?_, ?_, ?_, ?_⟩
  · intro id _
    simp [oneObject, Allocator.isPinned, Allocator.new]
  · intro id clear
    rw [bits id, decide_eq_false_iff_not] at clear
    simp [oneObject, clear]
  · intro segs held s member
    rw [bits, first segs held s member]
    rfl
  · intro segs held s member
    rw [first segs held s member]
    simp [oneObject]
  · intro key
    simp [oneObject, Allocator.new, SparseCounts.Positive]

def shortPut : PutRequest where
  bucket := "b"
  key := "k"
  body := ⟨[1, 2, 3], none⟩
  precond := none
  sseKey := none
  storageClass := none
  explicitMtime := none

theorem put_failure_restores_refused_commit :
    ∃ reason e', put storingCodec shortPut
        (oneObject none [none, none, none, some (.txnConflict "seq")]) =
          .error (.commit, reason) e' ∧
      Restored (oneObject none [none, none, none, some (.txnConflict "seq")]).alloc e'.alloc := by
  obtain ⟨failure, e', run, atCommit⟩ := exists_error
    (fun (failure : PutStep × Error) _ => decide (failure.1 = .commit)) (put storingCodec shortPut)
    (oneObject none [none, none, none, some (.txnConflict "seq")]) (by decide +kernel)
  obtain ⟨step, reason⟩ := failure
  obtain rfl : step = .commit := of_decide_eq_true atCommit
  refine ⟨reason, e', run, ?_⟩
  exact (put_failure_restores storingCodec shortPut (oneObject_settled _ _) run (by decide)).1
    trivial

theorem put_over_quota_forgets_old_version :
    ∃ reason e', (oneObject (some 1) []).Settled ∧
      put storingCodec shortPut (oneObject (some 1) []) = .error (.quota, reason) e' ∧
      ¬Restored (oneObject (some 1) []).alloc e'.alloc := by
  obtain ⟨failure, e', run, checked⟩ := exists_error
    (fun (failure : PutStep × Error) (after : EngineState) =>
      decide (failure.1 = .quota ∧ after.alloc.refcounts 0 = 0))
    (put storingCodec shortPut) (oneObject (some 1) []) (by decide +kernel)
  obtain ⟨step, reason⟩ := failure
  obtain ⟨rfl, lost⟩ : step = .quota ∧ e'.alloc.refcounts 0 = 0 := of_decide_eq_true checked
  refine ⟨reason, e', oneObject_settled _ _, run, fun restored => ?_⟩
  have kept := restored.refcounts 0
  rw [lost] at kept
  cases kept

end FastS3.Engine
