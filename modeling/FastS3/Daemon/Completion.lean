import FastS3.Daemon.MetaImport
import FastS3.Engine.ReadObject
import FastS3.Engine.UploadKeys

namespace FastS3.Daemon

open Engine
open FastS3.Core (Bytes Error eqIgnoreAsciiCase maxObjectSize)
open Meta (ObjectLockDefaultRetention Retention)
open S3 (hexEncode)

/-! What `complete_multipart` makes of the rows of an upload.

Checksums, the placement of the object and its encryption under a new key are left out, as is the
record that a repeated completion answers with.
-/

def maxParts : Nat := 10000
def minPartSize : Nat := 5 * 1024 * 1024

structure CompletePart where
  partNumber : Nat
  etagHex : String

structure CompleteRequest where
  bucket : String
  uploadId : String
  parts : List CompletePart
  sseKey : Option SseWriteKey
  now : Int

structure CompletedObject where
  content : Bytes
  size : Nat
  contentType : String
  userMeta : List (String × String)
  respHeaders : List (String × String)
  tags : List (String × String)
  parts : List Nat
  retention : Option Retention
  legalHold : Bool
  requestedStorageClass : Option String
  storageClass : Option String

inductive Completion where
  | assembled (object : CompletedObject)
  | replayed

def i64Max : Int := 2 ^ 63 - 1

def retainUntil (default : ObjectLockDefaultRetention) (fromUnix : Int) : Int :=
  let days := match default.unit with
    | .days => default.n
    | .years => default.n * 365
  min i64Max (max (-i64Max - 1) (fromUnix + days * 86400))

/-- `from_explicit_or_default`. -/
def lockRetention (explicit : Option Retention) (default : Option ObjectLockDefaultRetention)
    (now : Int) : Option Retention :=
  explicit.orElse fun _ => default.map fun d => ⟨d.mode, retainUntil d now⟩

def promoteStorageClass (requested : Option String) : Option String :=
  (requested.filter Core.isArchiveClass).map String.toUpper

def checkPartOrder : Nat → List CompletePart → EngineM Unit
  | _, [] => return ()
  | prev, p :: rest => do
      let no := p.partNumber
      if no = 0 ∨ no > maxParts then throw (.invalidPart s!"part number {no} out of range")
      else if no ≤ prev then
        throw (.invalidPartOrder s!"part number {no} is not strictly increasing (previous {prev})")
      else checkPartOrder no rest

def listedPart (store : MetadataStore) (uploadId : String) (cp : CompletePart) :
    EngineM (Nat × PartMeta) := do
  let no := cp.partNumber
  match store.parts.lookup ⟨uploadId, no⟩ with
  | none => throw (.invalidPart s!"part {no} not found")
  | some part =>
    let stored := hexEncode part.etag
    let given := cp.etagHex
    if eqIgnoreAsciiCase stored given then return (no, part)
    else throw (.invalidPart s!"part {no} etag mismatch (stored {stored}, given {given})")

def checkPartSize (last : Nat) (part : Nat × PartMeta) : EngineM Unit :=
  let (no, p) := part
  let size := p.size
  if no < last ∧ size < minPartSize then
    throw (.partTooSmall s!"part {no} size {size} < {minPartSize}")
  else return ()

def readPartTo (p : PartMeta) : EngineM Bytes :=
  match p.inline with
  | some inline => return inline
  | none => p.extents.foldlM (fun out seg => do return out ++ (← readSegmentRaw seg)) []

def decryptPart (codec : Codec) (p : PartMeta) (sse : Core.SseInfo) (dataKey : Bytes) :
    EngineM Bytes := do
  let ciphertext ← readPartTo p
  (sseChunks ciphertext).zipIdx.foldlM (fun out chunk => do
    let no := chunk.2
    let count := sse.chunkTags.length
    let plaintext ← decryptChunk codec dataKey sse no chunk.1
      (.corrupt s!"sse part chunk_tags too short ({count} entries, need chunk {no})") (.corrupt
      s!"sse-c part chunk {no} authentication failed (corrupt data or wrong customer key)")
    return out ++ plaintext) []

/-- An archived part is a frame of its own, which is stored as it is and reads as its content. -/
def partContent (codec : Codec) (archive : Bool) (dataKey : Option Bytes)
    (part : Nat × PartMeta) : EngineM Bytes := do
  let (no, p) := part
  if archive && p.compressedSize.isSome then
    ExtentWriter.liftCodec (codec.decompress (← readPartTo p) p.size)
  else
    match dataKey with
    | none => readPartTo p
    | some dataKey =>
      match p.sse with
      | none => throw (.invalidRequest s!"part {no} of an SSE upload is missing encryption metadata")
      | some sse => decryptPart codec p sse dataKey

def completeMultipart (codec : Codec) (store : MetadataStore) (req : CompleteRequest) :
    EngineM Completion := do
  match store.sessions.lookup req.uploadId with
  | none => throw (.noSuchUpload req.uploadId)
  | some session =>
    let engineSession := session.toEngine
    checkSessionKey engineSession req.sseKey "complete"
    checkArchiveSession engineSession ""
    let partKey ← uploadWriteKey codec engineSession req.sseKey
    if req.parts = [] then throw (.invalidArgument "empty parts list")
    checkPartOrder 0 req.parts
    if session.completed ∧ store.partsOf req.uploadId = [] then return .replayed
    let combined ← req.parts.mapM (listedPart store req.uploadId)
    let total := (combined.map fun part => part.2.size).sum
    if total > maxObjectSize then throw (.invalidArgument "object exceeds 5TiB limit")
    let last := (combined.getLast?.map Prod.fst).getD 0
    combined.forM (checkPartSize last)
    let contents ← combined.mapM
      (partContent codec engineSession.isArchive (partKey.map SseWriteKey.dataKey))
    let default := (store.buckets.lookup req.bucket).bind Meta.BucketMeta.defaultRetention
    return .assembled {
      content := contents.flatten
      size := total
      contentType := session.contentType
      userMeta := session.userMeta
      respHeaders := session.respHeaders
      tags := session.tags
      parts := combined.map fun part => part.2.size
      retention := lockRetention session.retention default req.now
      legalHold := session.legalHold.getD false
      requestedStorageClass := session.requestedStorageClass
      storageClass := promoteStorageClass session.requestedStorageClass }

end FastS3.Daemon
