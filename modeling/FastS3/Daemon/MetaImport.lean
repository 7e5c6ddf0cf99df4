import FastS3.Core.Layout
import FastS3.Daemon.MetaFile
import FastS3.Data.Rounds

namespace FastS3.Daemon

open Data
open FastS3.Core (Bytes Error Segment Vk alignUp maxObjectSize segmentCrcGrid)
open Meta (ObjectLockDefaultRetention SseAlgorithm)

/-! `meta-export` and `meta-import`.

The documents of a bucket, the keys, the identities and the replication state are restored by
steps of their own, which either fail or leave the rows of this file alone; so are the
allocations that go with a row.
-/

structure LayoutInfoDto where
  extentSize : Nat
  extentCount : Nat
  layoutVersion : Nat
deriving DecidableEq

structure BucketDto where
  name : String
  versioning : Core.VersioningState
  quota : Option Nat
  objects : Nat
  bytes : Nat
  byClass : List (String × Meta.BucketClassTally)
  defaultEncryption : Option SseAlgorithm
  defaultKmsKey : Option String
  objectLock : Bool
  defaultRetention : Option ObjectLockDefaultRetention

structure ObjectEntryDto where
  bucket : String
  key : String
  object : ObjectDto

structure MetaExportFile where
  format : String
  formatVersion : Nat
  layout : LayoutInfoDto
  buckets : List BucketDto
  objects : List ObjectEntryDto
  uploads : List UploadDto

def metaExportFormat : String := "fasts3-meta-export"
def metaExportVersion : Nat := 2
def metaExportVersionMin : Nat := 1

def BucketDto.fromMeta (name : String) (m : Meta.BucketMeta) : BucketDto where
  name := name
  versioning := m.versioning
  quota := m.quota
  objects := m.objects
  bytes := m.bytes
  byClass := m.byClass
  defaultEncryption := m.defaultEncryption
  defaultKmsKey := m.defaultKmsKey
  objectLock := m.objectLock
  defaultRetention := m.defaultRetention

def BucketDto.toMeta (b : BucketDto) : Meta.BucketMeta where
  versioning := b.versioning
  quota := b.quota
  objects := b.objects
  bytes := b.bytes
  byClass := b.byClass
  defaultEncryption := b.defaultEncryption
  defaultKmsKey := b.defaultKmsKey
  objectLock := b.objectLock
  defaultRetention := b.defaultRetention

section Transfer

variable (base64 : Base64)

def exportObject (place : VersionKey) (m : ObjectMeta) : ObjectEntryDto :=
  ⟨place.bucket, place.key, ObjectDto.fromMeta base64 m place.vk⟩

def MetadataStore.partsOf (store : MetadataStore) (uploadId : String) : List (Nat × PartMeta) :=
  (store.parts.entries.filter fun row => row.1.uploadId = uploadId).map fun row =>
    (row.1.partNo, row.2)

def exportUpload (store : MetadataStore) (uploadId : String) (s : MultipartSession) : UploadDto :=
  UploadDto.fromSession base64 uploadId s (store.partsOf uploadId)

def runMetaExport (layout : LayoutInfoDto) (store : MetadataStore) : MetaExportFile where
  format := metaExportFormat
  formatVersion := metaExportVersion
  layout := layout
  buckets := store.buckets.entries.map fun row => BucketDto.fromMeta row.1 row.2
  objects := store.objects.entries.map fun row => exportObject base64 row.1 row.2
  uploads := store.sessions.entries.map fun row => exportUpload base64 store row.1 row.2

end Transfer

abbrev ImportM := EStateM Error MetadataStore

def liftExcept {α : Type} : Except Error α → ImportM α
  | .ok value => pure value
  | .error reason => throw reason

def requireBucket (name : String) : ImportM Unit := do
  if ((← get).buckets.lookup name).isNone then throw (.notFound s!"bucket {name}")

def putObjectRow (place : VersionKey) (m : ObjectMeta) : ImportM Unit :=
  modify fun store => { store with objects := store.objects.insert place m }

def checkObjectSize (m : ObjectMeta) : ImportM Unit := do
  if m.size > maxObjectSize then
    let size := m.size
    throw (.invalidArgument s!"object size {size} exceeds max {maxObjectSize}")

def commitObjectPut (bucket key : String) (m : ObjectMeta) : ImportM Unit := do
  checkObjectSize m
  requireBucket bucket
  putObjectRow ⟨bucket, key, none⟩ m

def commitObjectPutVersion (bucket key : String) (vk : Vk) (m : ObjectMeta) : ImportM Unit := do
  checkObjectSize m
  requireBucket bucket
  if m.isDeleteMarker then
    throw (.invalidArgument s!"delete marker must use ObjectDeleteCurrent for {bucket}/{key}")
  putObjectRow ⟨bucket, key, some vk⟩ m

def commitObjectDeleteCurrent (bucket key : String) (vk : Option Vk) (marker : ObjectMeta) :
    ImportM Unit := do
  requireBucket bucket
  if marker.isDeleteMarker = false ∨ marker.size ≠ 0 ∨ marker.extents ≠ [] ∨
      marker.inline.isSome then
    throw (.invalidArgument s!"delete marker meta malformed for {bucket}/{key}")
  putObjectRow ⟨bucket, key, vk⟩ marker

def createMultipart (uploadId : String) (session : MultipartSession) : ImportM Unit := do
  requireBucket session.bucket
  modify fun store => { store with sessions := store.sessions.insert uploadId session }

def putPart (uploadId : String) (partNo : Nat) (part : PartMeta) : ImportM Unit := do
  if ((← get).sessions.lookup uploadId).isNone then throw (.notFound s!"upload {uploadId}")
  modify fun store => { store with parts := store.parts.insert ⟨uploadId, partNo⟩ part }

def validateSegment (layout : LayoutInfoDto) (s : Segment) : Except Error Unit :=
  let id := s.extentId
  let offset := s.offset
  let len := s.len
  let extentCount := layout.extentCount
  let extentSize := layout.extentSize
  let maxUnits := Core.divCeil extentSize segmentCrcGrid
  if id ≥ extentCount then
    .error (.invalidArgument s!"segment extent {id} out of range (extent_count {extentCount})")
  else if offset % 4096 ≠ 0 ∨ len = 0 then
    .error (.invalidArgument s!"segment ({id},{offset},{len}) offset not 4KiB aligned or empty")
  else if offset + alignUp len 4096 > extentSize then
    .error (.invalidArgument s!"segment ({id},{offset},{len}) exceeds extent_size {extentSize}")
  else if s.crcs.length > maxUnits ∧ extentSize > 0 then
    let grid := s.crcs.length
    .error (.invalidArgument s!"segment ({id},{offset},{len}) crc grid {grid} exceeds max {maxUnits}")
  else .ok ()

def validateSegments (layout : LayoutInfoDto) (segs : List Segment) : Except Error Unit :=
  segs.forM (validateSegment layout)

section Import

variable (base64 : Base64) (layout : LayoutInfoDto)

/-- `configure` restores the documents of the bucket. -/
def importBucket (configure : BucketDto → Except Error Unit) (b : BucketDto) : ImportM Unit := do
  let name := b.name
  if ((← get).buckets.lookup name).isSome then
    throw (.invalidArgument s!"bucket {name} already exists (meta dir not empty?)")
  modify fun store => { store with buckets := store.buckets.insert name b.toMeta }
  liftExcept (configure b)

def importObject (o : ObjectEntryDto) : ImportM Unit := do
  let bucket := o.bucket
  let key := o.key
  if ((← get).buckets.lookup bucket).isNone then
    throw (.invalidArgument s!"object {bucket}/{key} references missing bucket {bucket}")
  let (vk, m) ← liftExcept (o.object.toMeta base64)
  if m.size > maxObjectSize then
    let size := m.size
    throw (.invalidArgument s!"object {bucket}/{key} size {size} exceeds max {maxObjectSize}")
  liftExcept (validateSegments layout m.extents)
  liftExcept (validateSegments layout m.restoredExtents)
  if m.isDeleteMarker then commitObjectDeleteCurrent bucket key vk m
  else
    match vk with
    | some vk => commitObjectPutVersion bucket key vk m
    | none => commitObjectPut bucket key m

def counted (objects : List ObjectEntryDto) (bucket : String) : List ObjectEntryDto :=
  objects.filter fun o => o.bucket = bucket && !o.object.isDeleteMarker

def checkStats (objects : List ObjectEntryDto) (b : BucketDto) : ImportM Unit := do
  let entries := counted objects b.name
  let bytes := (entries.map fun o => o.object.size).sum
  if entries.length ≠ b.objects ∨ bytes ≠ b.bytes then
    let name := b.name
    let said := b.objects
    let saidBytes := b.bytes
    let found := entries.length
    throw (.invalidArgument (s!"bucket {name} stats mismatch: export says objects={said} " ++
      s!"bytes={saidBytes}, recalculated from entries (ADR-11 D5) objects={found} bytes={bytes} " ++
      "(export file truncated or tampered?)"))

def importPart (uploadId : String) (p : PartDto) : ImportM Unit := do
  let part ← liftExcept (p.toPart base64)
  liftExcept (validateSegments layout part.extents)
  putPart uploadId p.partNo part

def importUpload (u : UploadDto) : ImportM Unit := do
  let uploadId := u.uploadId
  let bucket := u.bucket
  if ((← get).buckets.lookup bucket).isNone then
    throw (.invalidArgument s!"upload {uploadId} references missing bucket {bucket}")
  let session ← liftExcept u.toSession
  createMultipart uploadId session
  rounds (importPart base64 layout uploadId) u.parts

/-- `others` restores the keys, the identities and the replication state.  The layout is that
of the device. -/
def runMetaImport (configure : BucketDto → Except Error Unit) (others : Except Error Unit)
    (file : MetaExportFile) : ImportM Unit := do
  if file.format ≠ metaExportFormat ∨ file.formatVersion < metaExportVersionMin ∨
      metaExportVersion < file.formatVersion then
    let format := file.format
    let version := file.formatVersion
    throw (.invalidArgument s!"unsupported export format {format} v{version}")
  if layout ≠ file.layout then throw (.invalidLayout "device layout mismatch")
  rounds (importBucket configure) file.buckets
  liftExcept others
  rounds (importObject base64 layout) file.objects
  rounds (checkStats file.objects) file.buckets
  rounds (importUpload base64 layout) file.uploads

end Import

end FastS3.Daemon
