import FastS3.Data.Fallible
import FastS3.Engine.Writer

namespace FastS3.Engine

open Alloc FastS3.Core Data Device

/-! What the engine leaves alone while it moves data.

Devices, open extents, choices and extent states change all the time; the books,
that is the counters of the allocator, the draft and the records, change only where
an extent is taken and where a finished segment is noted.
-/

structure EngineState.SameBooks (e e' : EngineState) : Prop where
  alloc : ∃ state, e'.alloc = { e.alloc with state := state }
  draft : e'.draft = e.draft
  buckets : e'.store.buckets = e.store.buckets
  objects : e'.store.objects = e.store.objects
  parts : e'.store.parts = e.store.parts
  limit : e'.smallObjectLimit = e.smallObjectLimit

def OfBooks (P : EngineState → Prop) : Prop :=
  ∀ e e' : EngineState, e.SameBooks e' → P e → P e'

section Books

variable {P : EngineState → Prop} (books : OfBooks P)

include books

variable {e : EngineState} (id : Nat) (di : Nat)

theorem OfBooks.setDisk (holds : P e) (di : Nat) (disk : BlockDevice) : P (e.setDisk di disk) :=
  books e _ ⟨⟨e.alloc.state, rfl⟩, rfl, rfl, rfl, rfl, rfl⟩ holds

theorem OfBooks.setOpen (holds : P e) (di : Nat) (oe : Option OpenExtent) : P (e.setOpen di oe) :=
  books e _ ⟨⟨e.alloc.state, rfl⟩, rfl, rfl, rfl, rfl, rfl⟩ holds

theorem OfBooks.curDevice (holds : P e) (di : Nat) : P { e with curDevice := di } :=
  books e _ ⟨⟨e.alloc.state, rfl⟩, rfl, rfl, rfl, rfl, rfl⟩ holds

theorem draw_keeps : Keeps P draw :=
  Keeps.modifyGet fun e holds =>
    books e _ ⟨⟨e.alloc.state, rfl⟩, rfl, rfl, rfl, rfl, rfl⟩ holds

theorem metaCall_keeps : Keeps P metaCall := by
  refine ⟨fun e holds => ?_⟩
  have after : P { e with store := { e.store with faults := e.store.faults.tail } } :=
    books e _ ⟨⟨e.alloc.state, rfl⟩, rfl, rfl, rfl, rfl, rfl⟩ holds
  unfold metaCall
  cases e.store.faults.headD none with
  | none => exact after
  | some fault => exact after

omit books in
theorem expect_keeps {α : Type} (message : String) (found : Option α) :
    Keeps P (expect message found) := by
  cases found with
  | none => exact Keeps.throw
  | some value => exact Keeps.pure

omit books in
theorem locateExtent_keeps (missing : Error) : Keeps P (locateExtent id missing) := by
  refine ⟨fun e holds => ?_⟩
  unfold locateExtent
  cases resolveExtent e.devices id with
  | none => exact holds
  | some found => exact holds

omit books in
theorem slotAt_keeps : Keeps P (slotAt di) :=
  Keeps.bindGet fun _ => expect_keeps _ _

omit books in
theorem extentDataOffset_keeps : Keeps P (extentDataOffset id) := by
  apply Keeps.bind (locateExtent_keeps id _)
  intro place
  apply Keeps.bind (slotAt_keeps _)
  intro slot
  exact Keeps.pure

omit books in
theorem extentHeaderOffset_keeps : Keeps P (extentHeaderOffset id) := by
  apply Keeps.bind (locateExtent_keeps id _)
  intro place
  apply Keeps.bind (slotAt_keeps _)
  intro slot
  exact Keeps.pure

theorem writeAll_keeps (data : Bytes) (off : Nat) : Keeps P (writeAll di data off) := by
  refine ⟨fun e holds => ?_⟩
  fun_cases writeAll di data off e with
  | case1 => exact holds
  | case2 => exact books.setDisk holds _ _
  | case3 => exact books.setDisk holds _ _

theorem readExact_keeps (di off len : Nat) : Keeps P (readExact di off len) := by
  refine ⟨fun e holds => ?_⟩
  fun_cases readExact di off len e with
  | case1 => exact holds
  | case2 => exact books.setDisk holds _ _
  | case3 => exact books.setDisk holds _ _

theorem fsync_keeps : Keeps P (fsync di) := by
  refine ⟨fun e holds => ?_⟩
  fun_cases fsync di e with
  | case1 => exact holds
  | case2 => exact books.setDisk holds _ _
  | case3 => exact books.setDisk holds _ _

theorem randomBytes_keeps (count : Nat) : Keeps P (randomBytes count) := by
  induction count with
  | zero => exact Keeps.pure
  | succ count ih =>
    apply Keeps.bind (draw_keeps books)
    intro byte
    apply Keeps.bind ih
    intro rest
    exact Keeps.pure

theorem markSealed_keeps : Keeps P (markSealed id) :=
  Keeps.modify fun e holds => books e _ ⟨⟨_, rfl⟩, rfl, rfl, rfl, rfl, rfl⟩ holds

theorem markOpen_keeps : Keeps P (markOpen id) :=
  Keeps.modify fun e holds => books e _ ⟨⟨_, rfl⟩, rfl, rfl, rfl, rfl, rfl⟩ holds

theorem pickDevice_keeps : Keeps P pickDevice := by
  apply Keeps.bind (draw_keeps books)
  intro choice
  apply Keeps.bindGet
  intro e
  exact Keeps.pure

theorem deviceSpaceWeights_keeps : Keeps P deviceSpaceWeights := by
  apply Keeps.bindGet
  intro e
  apply Keeps.foldlM
  intro weights slot
  apply Keeps.bind (draw_keeps books)
  intro weight
  exact Keeps.pure

theorem deviceRotationOrder_keeps (prefer : Option Nat) : Keeps P (deviceRotationOrder prefer) := by
  apply Keeps.bindGet
  intro e
  apply Keeps.bind (deviceSpaceWeights_keeps books)
  intro weights
  exact Keeps.pure

theorem writeExtentHeader_keeps (packed : Bool) (crcs : List UInt32) :
    Keeps P (writeExtentHeader id packed crcs) := by
  apply Keeps.bindGet
  intro e
  apply Keeps.bind (locateExtent_keeps id _)
  intro place
  apply Keeps.bind (extentHeaderOffset_keeps id)
  intro off
  exact writeAll_keeps books _ _ _

theorem computeExtentCrcs_keeps (id capacity : Nat) : Keeps P (computeExtentCrcs id capacity) := by
  apply Keeps.bind (locateExtent_keeps id _)
  intro place
  apply Keeps.bind (extentDataOffset_keeps id)
  intro base
  apply Keeps.foldlM
  intro crcs i
  apply Keeps.bind (readExact_keeps books _ _ _)
  intro buf
  exact Keeps.pure

theorem sealWith_keeps (packed : Bool) (crcs : List UInt32) :
    Keeps P (do writeExtentHeader id packed crcs; markSealed id) := by
  apply Keeps.bind (writeExtentHeader_keeps books id packed crcs)
  intro _
  exact markSealed_keeps books id

theorem sealOpenExtentAt_keeps : Keeps P (sealOpenExtentAt di) := by
  apply Keeps.bindGetHeld
  intro e holds
  cases (e.openExtents[di]?).join with
  | none => exact Keeps.pure
  | some oe =>
    apply Keeps.bind (Keeps.set (books.setOpen holds di none))
    intro _
    apply Keeps.bind (slotAt_keeps di)
    intro slot
    apply Keeps.ite
    · apply Keeps.bind (computeExtentCrcs_keeps books _ _)
      intro crcs
      exact sealWith_keeps books _ _ _
    · exact sealWith_keeps books _ _ _

theorem rotateForNewObject_keeps : Keeps P rotateForNewObject := by
  apply Keeps.bind (pickDevice_keeps books)
  intro di
  apply Keeps.bind (Keeps.modify fun e holds => books.curDevice holds di)
  intro _
  apply Keeps.bind (slotAt_keeps di)
  intro slot
  apply Keeps.bindGet
  intro e
  cases (e.openExtents[di]?).join with
  | none => exact Keeps.pure
  | some oe => exact Keeps.ite (sealOpenExtentAt_keeps books di) Keeps.pure

theorem openOpenExtent_keeps (id watermark committed participants : Nat) :
    Keeps P (openOpenExtent id watermark committed participants) := by
  apply Keeps.bindGetHeld
  intro e holds
  apply Keeps.bind (expect_keeps _ _)
  intro place
  exact Keeps.set (books.setOpen (books.curDevice holds _) _ _)

end Books

def EngineState.note (e : EngineState) (seg : Segment) : EngineState :=
  { e with
    alloc := (e.alloc.noteInflightSegment e.draft seg).1
    draft := (e.alloc.noteInflightSegment e.draft seg).2 }

/-- A property of the books that survives what the writer does to them. -/
structure OfWriter (P : EngineState → Prop) : Prop where
  books : OfBooks P
  opens : ∀ prefer, Keeps P (openNewExtent prefer)
  notes : ∀ (e : EngineState) (seg : Segment), P e → P (e.note seg)

namespace ExtentWriter

section Writer

variable {P : EngineState → Prop} (writer : OfWriter P)

theorem foldl_note (segs : List Segment) (e : EngineState) :
    { e with
      alloc := (segs.foldl (fun session seg => session.1.noteInflightSegment session.2 seg)
        (e.alloc, e.draft)).1
      draft := (segs.foldl (fun session seg => session.1.noteInflightSegment session.2 seg)
        (e.alloc, e.draft)).2 } = segs.foldl EngineState.note e := by
  induction segs generalizing e with
  | nil => rfl
  | cons seg rest ih =>
    rw [List.foldl_cons, List.foldl_cons, ← ih]
    rfl

include writer

variable (w : ExtentWriter) (codec : Codec)

theorem catchUpLive_keeps : Keeps P w.catchUpLive := by
  have noted : ∀ (segs : List Segment) (e : EngineState), P e → P (segs.foldl EngineState.note e) := by
    intro segs
    induction segs with
    | nil => exact fun e holds => holds
    | cons seg rest ih => exact fun e holds => ih _ (writer.notes e seg holds)
  apply Keeps.bind
  · apply Keeps.modify
    intro e holds
    have after := noted (w.segments.drop w.liveCounted) e holds
    rw [← foldl_note] at after
    exact after
  · intro _
    exact Keeps.pure

omit writer in
theorem beginSegment_keeps : Keeps P w.beginSegment := by
  apply Keeps.bindGet
  intro e
  apply Keeps.bind (expect_keeps _ _)
  intro oe
  exact Keeps.pure

theorem flushAcc_keeps : Keeps P w.flushAcc := by
  apply Keeps.ite Keeps.pure
  apply Keeps.bindGet
  intro e
  apply Keeps.bind (expect_keeps _ _)
  intro oe
  apply Keeps.bind (extentDataOffset_keeps _)
  intro base
  apply Keeps.bind (locateExtent_keeps _ _)
  intro place
  apply Keeps.bind (writeAll_keeps writer.books _ _ _)
  intro _
  apply Keeps.bind (Keeps.modify fun e holds => writer.books.setOpen holds _ _)
  intro _
  exact Keeps.pure

theorem endSegment_keeps : Keeps P w.endSegment := by
  apply Keeps.bindGetHeld
  intro e holds
  apply Keeps.bind (expect_keeps _ _)
  intro oe
  apply Keeps.bind (Keeps.set (writer.books.setOpen holds _ _))
  intro _
  apply Keeps.ite
  · apply Keeps.bind (writeExtentHeader_keeps writer.books _ _ _)
    intro _
    apply Keeps.bind (markSealed_keeps writer.books _)
    intro _
    exact Keeps.pure
  · apply Keeps.bind (writeExtentHeader_keeps writer.books _ _ _)
    intro _
    apply Keeps.bind (markSealed_keeps writer.books _)
    intro _
    exact Keeps.pure

theorem startObject_keeps : Keeps P w.startObject := by
  apply Keeps.ite Keeps.pure
  apply Keeps.bind (rotateForNewObject_keeps writer.books)
  intro _
  apply Keeps.bindGetHeld
  intro e holds
  cases e.curOpen with
  | none => exact Keeps.pure
  | some oe =>
    apply Keeps.bind (Keeps.set (writer.books.setOpen holds _ _))
    intro _
    exact beginSegment_keeps _

theorem ensureOpen_keeps : Keeps P w.ensureOpen := by
  apply Keeps.bindGet
  intro e
  cases e.curOpen with
  | some oe => exact Keeps.pure
  | none =>
    apply Keeps.bind (writer.opens _)
    intro _
    exact beginSegment_keeps w

theorem endIfFull_keeps : Keeps P w.endIfFull := by
  apply Keeps.bindGet
  intro e
  apply Keeps.bind (expect_keeps _ _)
  intro oe
  apply Keeps.ite
  · apply Keeps.bind (endSegment_keeps writer w)
    intro w'
    exact catchUpLive_keeps writer w'
  · exact Keeps.pure

theorem feedRound_keeps (data : Bytes) : Keeps P (w.feedRound data) := by
  apply Keeps.bind (startObject_keeps writer w)
  intro started
  apply Keeps.bind (ensureOpen_keeps writer started)
  intro w
  apply Keeps.bindGet
  intro e
  apply Keeps.bind (expect_keeps _ _)
  intro oe
  apply Keeps.ite
  · apply Keeps.bind (flushAcc_keeps writer w)
    intro flushed
    apply Keeps.bind (endIfFull_keeps writer flushed)
    intro ended
    exact Keeps.pure
  · exact Keeps.pure

theorem feedLoop_keeps (fuel : Nat) (w : ExtentWriter) (data : Bytes) :
    Keeps P (feedLoop fuel w data) := by
  induction fuel generalizing w data with
  | zero =>
    cases data with
    | nil => exact Keeps.pure
    | cons byte rest => exact Keeps.pure
  | succ fuel ih =>
    cases data with
    | nil => exact Keeps.pure
    | cons byte rest =>
      apply Keeps.bind (feedRound_keeps writer w _)
      intro next
      exact ih next.1 next.2

theorem feedBytes_keeps (data : Bytes) : Keeps P (w.feedBytes data) :=
  Keeps.bindGet fun _ => feedLoop_keeps writer _ _ _

omit writer in
theorem closeSegment_keeps : Keeps P w.closeSegment := by
  apply Keeps.bindGet
  intro e
  cases e.curOpen with
  | none => exact Keeps.pure
  | some oe => exact Keeps.pure

theorem endIfExactlyFull_keeps : Keeps P w.endIfExactlyFull := by
  apply Keeps.bindGet
  intro e
  cases e.curOpen with
  | none => exact Keeps.pure
  | some oe => exact Keeps.ite (endSegment_keeps writer w) Keeps.pure

theorem finishBytes_keeps : Keeps P w.finishBytes := by
  apply Keeps.bind (flushAcc_keeps writer w)
  intro flushed
  apply Keeps.bind (endIfExactlyFull_keeps writer flushed)
  intro ended
  apply Keeps.bind (closeSegment_keeps ended)
  intro closed
  exact catchUpLive_keeps writer closed

theorem stageLoop_keeps (fuel : Nat) (w : ExtentWriter) (st : SseWriteState) (data : Bytes) :
    Keeps P (stageLoop codec fuel w st data) := by
  induction fuel generalizing w st data with
  | zero =>
    cases data with
    | nil => exact Keeps.pure
    | cons byte rest => exact Keeps.pure
  | succ fuel ih =>
    cases data with
    | nil => exact Keeps.pure
    | cons byte rest =>
      apply Keeps.ite
      · apply Keeps.bind (feedBytes_keeps writer _ _)
        intro fed
        cases fed.sse with
        | none => exact Keeps.pure
        | some st => exact ih _ _ _
      · exact ih _ _ _

theorem feedStream_keeps (w : ExtentWriter) (data : Bytes) : Keeps P (w.feedStream codec data) := by
  unfold feedStream
  cases w.sse with
  | none => exact feedBytes_keeps writer w data
  | some st => exact stageLoop_keeps writer codec _ w st data

omit writer in
theorem liftCodec_keeps {α : Type} (outcome : Except Error α) : Keeps P (liftCodec outcome) := by
  cases outcome with
  | ok value => exact Keeps.pure
  | error reason => exact Keeps.throw

theorem feed_keeps (w : ExtentWriter) (data : Bytes) : Keeps P (w.feed codec data) := by
  unfold feed
  apply Keeps.ite Keeps.throw
  cases w.compression with
  | none => exact feedStream_keeps writer codec _ data
  | some z =>
    apply Keeps.bind (liftCodec_keeps _)
    intro out
    exact Keeps.ite Keeps.pure (feedStream_keeps writer codec _ out)

theorem finishCompression_keeps (w : ExtentWriter) : Keeps P (w.finishCompression codec) := by
  unfold finishCompression
  cases w.compression with
  | none => exact Keeps.pure
  | some z =>
    apply Keeps.bind (liftCodec_keeps _)
    intro tail
    exact Keeps.ite Keeps.pure (feedStream_keeps writer codec _ tail)

theorem finishSse_keeps (w : ExtentWriter) : Keeps P (w.finishSse codec) := by
  unfold finishSse
  cases w.sse with
  | none => exact Keeps.pure
  | some st => exact Keeps.ite Keeps.pure (feedBytes_keeps writer _ _)

theorem finish_keeps (w : ExtentWriter) : Keeps P (w.finish codec) := by
  apply Keeps.bind (finishCompression_keeps writer codec w)
  intro packed
  apply Keeps.bind (finishSse_keeps writer codec packed)
  intro sealed
  apply Keeps.bind (finishBytes_keeps writer sealed)
  intro done
  apply Keeps.bindGet
  intro e
  apply Keeps.ite
  · apply Keeps.bind (fsync_keeps writer.books _)
    intro _
    exact Keeps.pure
  · exact Keeps.pure

theorem new_keeps (chunkSize : Nat) (etagMode : EtagMode) (sseKey : Option SseWriteKey)
    (nonceBase : Option Bytes) (level : Nat) :
    Keeps P (ExtentWriter.new chunkSize etagMode sseKey nonceBase level) := by
  unfold ExtentWriter.new
  cases sseKey with
  | none => exact Keeps.pure
  | some key =>
    cases nonceBase with
    | some nonceBase =>
      apply Keeps.bind Keeps.pure
      intro _
      exact Keeps.pure
    | none =>
      apply Keeps.bind (randomBytes_keeps writer.books 12)
      intro _
      exact Keeps.pure

end Writer

end ExtentWriter

end FastS3.Engine
