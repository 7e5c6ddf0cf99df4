import FastS3.Engine.Store
import FastS3.Engine.Writer

namespace FastS3.Engine

open Alloc FastS3.Core

/-! Storing an object: `put_with_lock_ev_mtime` and `put_stream`.

A short body becomes part of the record; a longer one is streamed into extents.
Both arms account for the new data and release the old version in the draft of the
operation, and a failed commit rolls the draft back.  Events, tags, response headers,
checksums and locks pass through to the record and are left out.
-/

def addObject (segs : List Segment) : EngineM Unit :=
  modify fun e =>
    let (alloc, draft) := e.alloc.addObject e.draft segs
    { e with alloc := alloc, draft := draft }

def releaseObject (segs : List Segment) : EngineM Unit :=
  modify fun e =>
    let (alloc, draft) := e.alloc.releaseObject e.draft segs
    { e with alloc := alloc, draft := draft }

def toAllocDraft : EngineM AllocDraft :=
  modifyGet fun e =>
    let (alloc, record) := e.alloc.toAllocDraft e.draft
    (record, { e with alloc := alloc })

def abortDraft : EngineM Unit :=
  modify fun e =>
    let alloc := e.alloc.rollback e.draft
    { e with
      alloc := alloc
      openExtents := e.openExtents.map fun oe => oe.filter fun o => alloc.bitmap.test o.extentId }

def orAbort {α : Type} (program : EngineM α) : EngineM α :=
  tryCatch program fun reason => do
    abortDraft
    throw reason

def affectedOpen (openExtents : List (Option OpenExtent)) (released : List Segment) :
    List (Nat × Nat) :=
  openExtents.zipIdx.filterMap fun entry =>
    match entry.1 with
    | none => none
    | some oe =>
      if released.any fun s => s.extentId = oe.extentId then some (entry.2, oe.extentId) else none

def afterRelease (released : List Segment) : EngineM Unit := do
  let e ← get
  (affectedOpen e.openExtents released).foldlM
    (fun _ entry => do
      let e ← get
      if e.alloc.bitmap.test entry.2 then sealOpenExtentAt entry.1
      else set (e.setOpen entry.1 none))
    ()

def releaseNonOverlapping (old new : List Segment) : List Segment :=
  old.filter fun o => !new.any fun n =>
    decide (n.extentId = o.extentId ∧ n.offset ≤ o.offset ∧
      min (o.offset + o.len) u32Max ≤ min (n.offset + n.len) u32Max)

def releaseOld (old freed touched : List Segment) : EngineM Unit :=
  if old = [] then return ()
  else do
    releaseObject freed
    afterRelease touched

def markOpenCommitted : EngineM Unit :=
  modify fun e =>
    match e.curOpen with
    | none => e
    | some oe => e.setOpen e.curDevice (some { oe with committedEnd := oe.watermark })

/-- The checkpoint areas and the log of the store are not modeled; writing the
areas and truncating the log may fail. -/
def checkpoint : EngineM Unit := do
  let e ← get
  if e.readOnly then return ()
  metaCall
  (List.range e.devices.length).foldlM (fun _ di => fsync di) ()
  metaCall

def maybeCheckpoint : EngineM Unit := do
  markOpenCommitted
  let due ← draw
  if due = 0 then return () else checkpoint

structure Body where
  bytes : Bytes
  fault : Option Error
deriving Repr, DecidableEq

/-- The blocks that `read_up_to` fills before the end or the error. -/
def Body.blocks (body : Body) (size : Nat) : List Bytes :=
  let count := match body.fault with
    | none => divCeil body.bytes.length size
    | some _ => body.bytes.length / size
  (List.range count).map fun i => slice body.bytes (i * size) size

structure PutRequest where
  bucket : String
  key : String
  body : Body
  /-- `check_put` of the precondition, on the current version. -/
  precond : Option (Option ObjectMeta → Except Error Unit)
  sseKey : Option SseWriteKey
  storageClass : Option String
  explicitMtime : Option Int

inductive PutStep where
  | plan
  | content
  | mtime
  | release
  | quota
  | commit
  | checkpoint
deriving Repr, DecidableEq

abbrev PutM := EStateM (PutStep × Error) EngineState

def during {α : Type} (step : PutStep) (program : EngineM α) : PutM α := fun e =>
  match program e with
  | .ok value e' => .ok value e'
  | .error reason e' => .error (step, reason) e'

def archiveDeepCompressionLevel : Nat := 9

def archiveCompressionLevel (storageClass : Option String) (enabled : Bool) (level : Nat) : Nat :=
  let configured := if enabled then level else 0
  match storageClass with
  | none => configured
  | some c =>
    if eqIgnoreAsciiCase c "GLACIER" || eqIgnoreAsciiCase c "DEEP_ARCHIVE" then
      archiveDeepCompressionLevel
    else if eqIgnoreAsciiCase c "GLACIER_IR" then
      if configured > 0 then configured else 1
    else configured

def commitPutPlan (bucket key : String) (target : WriteTarget) (m : ObjectMeta)
    (delta : StatsDelta) : EngineM Unit :=
  commitObjectPut bucket key target.slot m delta

def OldVersion.delta (old : OldVersion) (size : Nat) : StatsDelta :=
  ⟨if old.counted then 0 else 1, (size : Int) - old.size⟩

def mtimeFor (req : PutRequest) (target : WriteTarget) : EngineM Int :=
  match req.explicitMtime with
  | some t => return t
  | none => writeMtime target req.bucket req.key

def sseChunks (data : Bytes) : List Bytes :=
  (List.range (divCeil data.length sseChunkSize)).map fun i =>
    slice data (i * sseChunkSize) sseChunkSize

def encryptInline (codec : Codec) (key : SseWriteKey) (nonceBase data : Bytes) : Bytes × SseInfo :=
  let chunks := (sseChunks data).zipIdx.map fun chunk =>
    codec.encryptChunk key.dataKey nonceBase chunk.2 chunk.1
  ((chunks.map Prod.fst).flatten,
    ⟨key.kind, key.kekId, key.wrappedDek, nonceBase, chunks.map Prod.snd, key.keyMd5⟩)

def compressInline (codec : Codec) (level : Nat) (data : Bytes) :
    EngineM (Option (Bytes × CompressionInfo)) := do
  let e ← get
  if level > 0 ∧ data ≠ [] then
    let packed ← ExtentWriter.liftCodec (codec.compress level data)
    if packed.length ≤ e.smallObjectLimit then
      return some (packed, ⟨level, data.length, packed.length⟩)
    else return none
  else return none

def inlineContent (codec : Codec) (sseKey : Option SseWriteKey) (level : Nat) (data : Bytes) :
    EngineM (Bytes × Option SseInfo × Option CompressionInfo) := do
  let packed ← compressInline codec level data
  match sseKey with
  | some key =>
    let nonceBase ← randomBytes 12
    let (ciphertext, info) := encryptInline codec key nonceBase data
    return (ciphertext, some info, none)
  | none =>
    match packed with
    | some (packed, info) => return (packed, none, some info)
    | none => return (data, none, none)

def beginDraft : EngineM Unit :=
  modify fun e => { e with draft := {} }

def commitInline (req : PutRequest) (target : WriteTarget) (old : OldVersion) (m : ObjectMeta) :
    PutM ObjectMeta := do
  during .release (releaseOld old.segments (releaseNonOverlapping old.segments m.extents)
    old.segments)
  during .release (releaseOld old.restoredSegments old.restoredSegments old.restoredSegments)
  let delta := old.delta m.size
  during .quota (checkQuota req.bucket delta.bytes)
  let _ ← during .commit toAllocDraft
  during .commit (orAbort (commitPutPlan req.bucket req.key target m delta))
  during .checkpoint maybeCheckpoint
  return m

def putInline (codec : Codec) (req : PutRequest) (target : WriteTarget) (old : OldVersion)
    (level : Nat) : PutM ObjectMeta := do
  let (data, sse, compressed) ←
    during .content (inlineContent codec req.sseKey level req.body.bytes)
  let mtime ← during .mtime (mtimeFor req target)
  during .release beginDraft
  commitInline req target old {
    size := req.body.bytes.length
    mtime := mtime
    extents := []
    inline := some data
    parts := []
    versionId := target.metaVersionId
    isDeleteMarker := false
    sse := sse
    compressed := compressed
    storageClass := req.storageClass
    restoreState := none }

def streamToExtents (codec : Codec) (body : Body) (sseKey : Option SseWriteKey)
    (sseNonceBase : Option Bytes) (level : Nat) : EngineM StreamWriteOutcome := do
  let e ← get
  if e.readOnly then
    throw (.unsupported
      "engine is read-only (degraded pool or tool mode); extent writes rejected")
  let w ← ExtentWriter.new e.chunkSize e.etagMode sseKey sseNonceBase level
  let w ← (body.blocks e.chunkSize).foldlM (fun w block => w.feed codec block) w
  match body.fault with
  | some fault => throw fault
  | none => w.finish codec

def commitStream (req : PutRequest) (target : WriteTarget) (old : OldVersion) (m : ObjectMeta) :
    PutM ObjectMeta := do
  during .release (addObject m.extents)
  let freed := releaseNonOverlapping old.segments m.extents
  during .release (releaseOld old.segments freed freed)
  during .release (releaseOld old.restoredSegments old.restoredSegments old.restoredSegments)
  let delta := old.delta m.size
  during .quota (orAbort (checkQuota req.bucket delta.bytes))
  let _ ← during .commit toAllocDraft
  during .commit (orAbort (commitPutPlan req.bucket req.key target m delta))
  during .commit markOpenCommitted
  return m

def putStream (codec : Codec) (req : PutRequest) (target : WriteTarget) (old : OldVersion)
    (level : Nat) : PutM ObjectMeta := do
  during .content beginDraft
  let outcome ← during .content (orAbort (streamToExtents codec req.body req.sseKey none level))
  let mtime ← during .mtime (mtimeFor req target)
  commitStream req target old {
    size := outcome.size
    mtime := mtime
    extents := outcome.segments
    inline := none
    parts := []
    versionId := target.metaVersionId
    isDeleteMarker := false
    sse := outcome.sse
    compressed := outcome.compressedSize.map fun compressedSize =>
      ⟨level, outcome.size, compressedSize⟩
    storageClass := req.storageClass
    restoreState := none }

def currentRecord (bucket key : String) : VersioningState → EngineM (Option ObjectMeta)
  | .off => getObject bucket key
  | _ => do
      let current ← getCurrentVersion bucket key
      return current.map Prod.snd

def checkPrecondition (req : PutRequest) (versioning : VersioningState) : EngineM Unit := do
  match req.precond with
  | none => return ()
  | some check =>
    let current ← currentRecord req.bucket req.key versioning
    ExtentWriter.liftCodec (check current)

def planPut (req : PutRequest) : EngineM (WriteTarget × OldVersion × Nat) := do
  let bucket := req.bucket
  match ← getBucket bucket with
  | none => throw (.notFound s!"bucket {bucket}")
  | some found =>
    checkPrecondition req found.versioning
    let (target, old) ← planObjectWrite req.bucket req.key found.versioning
    let e ← get
    return (target, old,
      archiveCompressionLevel req.storageClass e.compressionEnabled e.compressionLevel)

def PutRequest.isInline (req : PutRequest) (e : EngineState) : Bool :=
  decide (req.body.bytes.length ≤ e.smallObjectLimit)

def readPrefix (req : PutRequest) : EngineM Bool := do
  let e ← get
  if req.isInline e then
    match req.body.fault with
    | some fault => throw fault
    | none => return true
  else return false

/-- `put_with_lock_ev_mtime`. -/
def put (codec : Codec) (req : PutRequest) : PutM ObjectMeta := do
  let (target, old, level) ← during .plan (planPut req)
  if ← during .plan (readPrefix req) then
    putInline codec req target old level
  else
    let m ← putStream codec req target old level
    during .checkpoint maybeCheckpoint
    return m

end FastS3.Engine
