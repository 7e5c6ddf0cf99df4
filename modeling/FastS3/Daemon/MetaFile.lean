import FastS3.S3.CacheCoherence
import FastS3.S3.PutRequest

namespace FastS3.Daemon

open FastS3.Core (Bytes ChecksumAlgorithm Error RestoreState Segment SseInfo Vk vkNull)
open Meta (Retention)
open S3 (ChecksumInfo hexDecode hexEncode)

/-! The file that `meta-export` writes: one transfer record for each stored record.

The text form of a transfer record is left out, as are the records of the buckets' documents,
of the identities and of the replication.
-/

structure ObjectMeta extends toLocked : Meta.ObjectMeta where
  etag : Bytes
  contentType : String
  userMeta : List (String × String)
  respHeaders : List (String × String)
  checksum : Option ChecksumInfo
  partChecksums : List (Option ChecksumInfo)
  requestedStorageClass : Option String
deriving DecidableEq

structure PartMeta extends Core.PartMeta where
  etag : Bytes
  mtime : Int
  checksum : Option ChecksumInfo
deriving DecidableEq

/-- What the engine and the store read of a session, and what completion copies. -/
structure MultipartSession extends toEngine : Engine.MultipartSession,
    toStored : Meta.MultipartSession where
  contentType : String
  userMeta : List (String × String)
  respHeaders : List (String × String)
  created : Int
  tags : List (String × String)
  checksumAlg : Option ChecksumAlgorithm
  retention : Option Retention
  legalHold : Option Bool
deriving DecidableEq

/-- Where an object version is stored; without `vk` it is the only version of its key. -/
structure VersionKey where
  bucket : String
  key : String
  vk : Option Vk
deriving DecidableEq

structure MetadataStore where
  buckets : AList fun _ : String => Meta.BucketMeta
  objects : AList fun _ : VersionKey => ObjectMeta
  sessions : AList fun _ : String => MultipartSession
  parts : AList fun _ : Engine.PartKey => PartMeta

def MetadataStore.empty : MetadataStore :=
  ⟨∅, ∅, ∅, ∅⟩

/-- The standard alphabet of the crate `base64`. -/
structure Base64 where
  encode : Bytes → String
  decode : String → Option Bytes
  decode_encode : ∀ bytes, decode (encode bytes) = some bytes

def sixteenBytes (name text : String) : Except Error Bytes :=
  match hexDecode text.toList with
  | none => .error (.invalidArgument s!"{name} hex")
  | some bytes =>
    if bytes.length = 16 then .ok bytes
    else .error (.invalidArgument s!"{name} not 16 bytes: {text}")

def hexToEtag (hex : String) : Except Error Bytes :=
  sixteenBytes "etag" hex

def Base64.decodeInline (base64 : Base64) (name : String) : Option String → Except Error (Option Bytes)
  | none => .ok none
  | some text =>
    match base64.decode text with
    | none => .error (.invalidArgument s!"{name} base64")
    | some bytes => .ok (some bytes)

def versionIdExport : Option Vk → Option String
  | none => none
  | some vk => if vk = vkNull then some "null" else some (hexEncode vk)

def versionIdParse : Option String → Except Error (Option Vk)
  | none => .ok none
  | some text =>
    if text = "null" then .ok (some vkNull)
    else do
      let vk ← sixteenBytes "version_id" text
      return some vk

/-- `map` with `transpose`. -/
def readOption {α β : Type} (read : α → Except Error β) : Option α → Except Error (Option β)
  | none => .ok none
  | some value => (read value).map some

structure SegmentDto where
  extentId : Nat
  offset : Nat
  len : Nat
  crcs : List UInt32

def SegmentDto.from (s : Segment) : SegmentDto :=
  ⟨s.extentId, s.offset, s.len, s.crcs⟩

def SegmentDto.toSegment (dto : SegmentDto) : Segment :=
  ⟨dto.extentId, dto.offset, dto.len, dto.crcs⟩

structure RestoreStateDto where
  restoredUntil : Int
  restoredAt : Int
  restoredSize : Nat
  tier : String
  restoredExtents : List SegmentDto
  restoredInlineB64 : Option String

section Inline

variable (base64 : Base64)

def RestoreStateDto.fromState (st : RestoreState) : RestoreStateDto where
  restoredUntil := st.restoredUntil
  restoredAt := st.restoredAt
  restoredSize := st.restoredSize
  tier := st.tier
  restoredExtents := st.restoredExtents.map SegmentDto.from
  restoredInlineB64 := st.restoredInline.map base64.encode

def RestoreStateDto.toState (dto : RestoreStateDto) : Except Error RestoreState := do
  let restoredInline ← base64.decodeInline "restore inline" dto.restoredInlineB64
  return {
    restoredUntil := dto.restoredUntil
    restoredAt := dto.restoredAt
    restoredSize := dto.restoredSize
    tier := dto.tier
    restoredExtents := dto.restoredExtents.map SegmentDto.toSegment
    restoredInline := restoredInline }

structure ObjectDto where
  size : Nat
  etagHex : String
  mtime : Int
  extents : List SegmentDto
  contentType : String
  userMeta : List (String × String)
  inlineB64 : Option String
  parts : List Nat
  respHeaders : List (String × String)
  versionId : Option String
  isDeleteMarker : Bool
  tags : List (String × String)
  sse : Option SseInfo
  checksum : Option ChecksumInfo
  retention : Option Retention
  legalHold : Bool
  partChecksums : List (Option ChecksumInfo)
  requestedStorageClass : Option String
  storageClass : Option String
  restoreState : Option RestoreStateDto

/-- `vk` is the form of the key, which the version of the record follows. -/
def ObjectDto.fromMeta (m : ObjectMeta) (vk : Option Vk) : ObjectDto where
  size := m.size
  etagHex := hexEncode m.etag
  mtime := m.mtime
  extents := m.extents.map SegmentDto.from
  contentType := m.contentType
  userMeta := m.userMeta
  inlineB64 := m.inline.map base64.encode
  parts := m.parts
  respHeaders := m.respHeaders
  versionId := versionIdExport vk
  isDeleteMarker := m.isDeleteMarker
  tags := m.tags
  sse := m.sse
  checksum := m.checksum
  retention := m.retention
  legalHold := m.legalHold
  partChecksums := m.partChecksums
  requestedStorageClass := m.requestedStorageClass
  storageClass := m.storageClass
  restoreState := m.restoreState.map (RestoreStateDto.fromState base64)

def ObjectDto.toMeta (dto : ObjectDto) : Except Error (Option Vk × ObjectMeta) := do
  let etag ← hexToEtag dto.etagHex
  let inline ← base64.decodeInline "inline" dto.inlineB64
  let vk ← versionIdParse dto.versionId
  let restoreState ← readOption (RestoreStateDto.toState base64) dto.restoreState
  return (vk, {
    size := dto.size
    etag := etag
    mtime := dto.mtime
    extents := dto.extents.map SegmentDto.toSegment
    contentType := dto.contentType
    userMeta := dto.userMeta
    respHeaders := dto.respHeaders
    inline := inline
    parts := dto.parts
    versionId := vk.filter fun v => v ≠ vkNull
    isDeleteMarker := dto.isDeleteMarker
    tags := dto.tags
    sse := dto.sse
    checksum := dto.checksum
    retention := dto.retention
    legalHold := dto.legalHold
    partChecksums := dto.partChecksums
    compressed := none
    requestedStorageClass := dto.requestedStorageClass
    storageClass := dto.storageClass
    restoreState := restoreState })

structure PartDto where
  partNo : Nat
  size : Nat
  etagHex : String
  mtime : Int
  extents : List SegmentDto
  inlineB64 : Option String
  checksum : Option ChecksumInfo
  sse : Option SseInfo
  compressedSize : Option Nat

def PartDto.fromPart (partNo : Nat) (p : PartMeta) : PartDto where
  partNo := partNo
  size := p.size
  etagHex := hexEncode p.etag
  mtime := p.mtime
  extents := p.extents.map SegmentDto.from
  inlineB64 := p.inline.map base64.encode
  checksum := p.checksum
  sse := p.sse
  compressedSize := p.compressedSize

def PartDto.toPart (dto : PartDto) : Except Error PartMeta := do
  let etag ← hexToEtag dto.etagHex
  let inline ← base64.decodeInline "part inline" dto.inlineB64
  return {
    size := dto.size
    etag := etag
    mtime := dto.mtime
    extents := dto.extents.map SegmentDto.toSegment
    inline := inline
    checksum := dto.checksum
    sse := dto.sse
    compressedSize := dto.compressedSize }

structure SseS3SessionDto where
  kekId : Nat
  wrappedDekHex : String

structure SseKmsSessionDto where
  keyName : String
  wrappedDek : String
  contextSuffix : String
  bucketKeyEnabled : Option Bool

structure UploadDto where
  uploadId : String
  bucket : String
  key : String
  contentType : String
  userMeta : List (String × String)
  respHeaders : List (String × String)
  tags : List (String × String)
  checksumAlg : Option ChecksumAlgorithm
  sseKeyMd5 : Option String
  sseS3 : Option SseS3SessionDto
  sseKms : Option SseKmsSessionDto
  requestedStorageClass : Option String
  created : Int
  completed : Bool
  finalEtagHex : String
  finalSize : Nat
  finalMtime : Int
  parts : List PartDto

def UploadDto.fromSession (uploadId : String) (s : MultipartSession)
    (parts : List (Nat × PartMeta)) : UploadDto where
  uploadId := uploadId
  bucket := s.bucket
  key := s.key
  contentType := s.contentType
  userMeta := s.userMeta
  respHeaders := s.respHeaders
  tags := s.tags
  checksumAlg := s.checksumAlg
  sseKeyMd5 := s.sseKeyMd5
  sseS3 := s.sseS3.map fun s3 => ⟨s3.kekId, hexEncode s3.wrappedDek⟩
  sseKms := s.sseKms.map fun k => ⟨k.keyName, k.wrappedDek, k.contextSuffix, k.bucketKeyEnabled⟩
  created := s.created
  completed := s.completed
  finalEtagHex := hexEncode s.finalEtag
  finalSize := s.finalSize
  finalMtime := s.finalMtime
  requestedStorageClass := s.requestedStorageClass
  parts := parts.map fun part => PartDto.fromPart base64 part.1 part.2

def SseS3SessionDto.toSession (uploadId : String) (dto : SseS3SessionDto) :
    Except Error Engine.SessionSseS3 :=
  match hexDecode dto.wrappedDekHex.toList with
  | none => .error (.invalidArgument s!"upload {uploadId} wrapped_dek_hex")
  | some wrappedDek => .ok ⟨dto.kekId, wrappedDek⟩

/-- The record that `run_meta_import` builds from an upload. -/
def UploadDto.toSession (u : UploadDto) : Except Error MultipartSession := do
  let finalEtag ← hexToEtag u.finalEtagHex
  let sseS3 ← readOption (SseS3SessionDto.toSession u.uploadId) u.sseS3
  return {
    bucket := u.bucket
    key := u.key
    contentType := u.contentType
    userMeta := u.userMeta
    respHeaders := u.respHeaders
    created := u.created
    completed := u.completed
    finalEtag := finalEtag
    finalSize := u.finalSize
    finalMtime := u.finalMtime
    tags := u.tags
    checksumAlg := u.checksumAlg
    sseKeyMd5 := u.sseKeyMd5
    sseS3 := sseS3
    sseKms := u.sseKms.map fun k => ⟨k.keyName, k.wrappedDek, k.contextSuffix, k.bucketKeyEnabled⟩
    retention := none
    legalHold := none
    requestedStorageClass := u.requestedStorageClass }

end Inline

@[simp] theorem SegmentDto.toSegment_comp_from : SegmentDto.toSegment ∘ SegmentDto.from = id := rfl

theorem sixteenBytes_hexEncode {name : String} {bytes back : Bytes}
    (parsed : sixteenBytes name (hexEncode bytes) = .ok back) : back = bytes := by
  unfold sixteenBytes at parsed
  rw [S3.hexDecode_hexEncode] at parsed
  by_cases long : bytes.length = 16
  · simp only [long, if_true, Except.ok.injEq] at parsed
    exact parsed.symm
  · simp only [long, if_false, reduceCtorEq] at parsed

@[simp] theorem Base64.decodeInline_encode (base64 : Base64) (name : String) (inline : Option Bytes) :
    base64.decodeInline name (inline.map base64.encode) = .ok inline := by
  cases inline with
  | none => rfl
  | some bytes => simp [Base64.decodeInline, base64.decode_encode]

theorem readOption_map {α β : Type} {write : α → β} {read : β → Except Error α}
    (reads : ∀ value, read (write value) = .ok value) (field : Option α) :
    readOption read (field.map write) = .ok field := by
  cases field with
  | none => rfl
  | some value =>
    rw [Option.map_some, readOption, reads]
    rfl

theorem versionIdParse_export {vk back : Option Vk}
    (parsed : versionIdParse (versionIdExport vk) = .ok back) : back = vk := by
  cases vk with
  | none => exact (Except.ok.inj parsed).symm
  | some vk =>
    by_cases slot : vk = vkNull
    · simp only [versionIdExport, slot, if_true, versionIdParse, Except.ok.injEq] at parsed
      rw [slot]
      exact parsed.symm
    · simp only [versionIdExport, slot, if_false] at parsed
      unfold versionIdParse at parsed
      by_cases text : hexEncode vk = "null"
      · -- no text of hexadecimal digits spells the null slot
        have decoded := S3.hexDecode_hexEncode vk
        rw [text] at decoded
        exact absurd decoded (by rw [show hexDecode "null".toList = none by decide]; simp)
      · simp only [text, if_false] at parsed
        cases decoded : sixteenBytes "version_id" (hexEncode vk) with
        | error reason => rw [decoded] at parsed; cases parsed
        | ok bytes =>
          rw [decoded] at parsed
          rw [← sixteenBytes_hexEncode decoded]
          exact (Except.ok.inj parsed).symm

end FastS3.Daemon
