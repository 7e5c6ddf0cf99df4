import FastS3.Engine.Catalog
import FastS3.S3.PutRequest

namespace FastS3.S3

open Data Engine
open FastS3.Core (Bytes ChecksumAlgorithm KeyGroup Reading SseKind VersioningState VersionRecord Vk vkNull
  maxObjectSize)
open Meta (BucketMeta)

/-! The uploads of objects and of parts, with the body in one piece or as a stream.

The body stands beside the request.  Placement, statistics and events of what is written are left out.
-/

structure StoredObject where
  content : Bytes
  size : Nat
  etag : Bytes
  mtime : Int
  contentType : String
  userMeta : List (String × String)
  respHeaders : List (String × String)
  tags : List (String × String)
  versionId : Option Vk
  isDeleteMarker : Bool
  checksum : Option ChecksumInfo
  lock : ObjectLockWrite
  sse : Option SseKind
  requestedStorageClass : Option String
  storageClass : Option String
deriving Repr, DecidableEq

def deleteMarkerMeta (versionId : Option Vk) (mtime : Int) : StoredObject where
  content := []
  size := 0
  etag := List.replicate 16 0
  mtime := mtime
  contentType := ""
  userMeta := []
  respHeaders := []
  tags := []
  versionId := versionId
  isDeleteMarker := true
  checksum := none
  lock := ⟨none, false⟩
  sse := none
  requestedStorageClass := none
  storageClass := none

instance : VersionRecord StoredObject where
  mtime stored := stored.mtime
  isDeleteMarker stored := stored.isDeleteMarker

instance : Marked StoredObject where
  deleteMarker := deleteMarkerMeta

structure StoredPart where
  content : Bytes
  size : Nat
  etag : Bytes
  mtime : Int
  checksum : Option ChecksumInfo
deriving Repr, DecidableEq

structure UploadSession where
  sseKeyMd5 : Option String
  parts : BTreeMap Nat StoredPart

/-- What is stored where a request goes: the bucket, the versions of the key, and the upload. -/
structure PutState where
  bucket : Option BucketMeta
  group : KeyGroup StoredObject
  session : Option UploadSession

inductive WriteKey where
  | sseC (key : Bytes)
  | sseS3 (key : Bytes)
  | sseKms (key : Bytes)
deriving Repr, DecidableEq

def WriteKey.kind : WriteKey → SseKind
  | sseC _ => .sseC
  | sseS3 _ => .sseS3
  | sseKms _ => .sseKms

/-- What `put_with_lock_ev` is called with. -/
structure EnginePut where
  contentType : Option String
  userMeta : List (String × String)
  respHeaders : List (String × String)
  tags : List (String × String)
  precond : Option WritePrecondition
  checksumAlg : Option ChecksumAlgorithm
  sseKey : Option WriteKey
  lock : ObjectLockWrite
  requestedStorageClass : Option String
  storageClass : Option String
deriving Repr, DecidableEq

/-- What `upload_part` is called with. -/
structure EnginePart where
  number : Nat
  checksumAlg : Option ChecksumAlgorithm
  sseKey : Option Bytes
deriving Repr, DecidableEq

inductive EngineWrite where
  | object (put : EnginePut)
  | part (put : EnginePart)
deriving Repr, DecidableEq

inductive Written where
  | object (stored : StoredObject)
  | part (stored : StoredPart)
deriving Repr, DecidableEq

def Written.etag : Written → Bytes
  | object stored => stored.etag
  | part stored => stored.etag

def Written.checksum : Written → Option ChecksumInfo
  | object stored => stored.checksum
  | part stored => stored.checksum

inductive PutError where
  | refused (e : S3Error)
  | chunk (e : S3Error)
  | contentSha256
  | contentMd5
  | invalidMd5
  | checksum (alg : ChecksumAlgorithm)
  | decodedLength
deriving Repr, DecidableEq

namespace PutError

def mismatch : PutError → Bool
  | refused _ => false
  | chunk _ => true
  | contentSha256 => true
  | contentMd5 => true
  | invalidMd5 => true
  | checksum _ => true
  | decodedLength => true

end PutError

def refusing {α : Type} : Except S3Error α → Except PutError α :=
  Except.mapError .refused

def check (holds : Bool) (e : PutError) : Except PutError Unit :=
  if holds then .ok () else .error e

theorem refusing_eq_ok {α : Type} {result : Except S3Error α} {value : α} :
    refusing result = .ok value ↔ result = .ok value := by
  cases result with
  | error e =>
    constructor
    · intro found
      cases found
    · intro found
      cases found
  | ok other =>
    constructor
    · intro found
      cases found
      rfl
    · intro found
      cases found
      rfl

theorem check_eq_ok {holds : Bool} {e : PutError} : check holds e = .ok () ↔ holds = true := by
  cases holds with
  | false => exact iff_of_false (fun found => nomatch found) Bool.false_ne_true
  | true => exact iff_of_true rfl rfl

/-- What an upload works with: parsers, digests, the reader of chunks with the key that it looks up, the
keys of the service, and the engine. -/
structure PutTools where
  parsers : HeaderParsers
  digests : Digests
  decodeChunks : PayloadHash → Option ChecksumAlgorithm → Bytes → Except S3Error Bytes
  blocksPublicAcls : Bool
  mintS3 : Except S3Error Bytes
  mintKms : SseKmsHeaders → Except S3Error Bytes
  reading : Reading
  clock : reading.micros < 2 ^ 64
  refuses : PutState → EngineWrite → Bytes → Option S3Error
  etag : EngineWrite → Bytes → Bytes
  deletes : Bool

/-- An upload that is ready to be written.  What is checked after the commit is found from the ETag and
the checksum of what was written, together with whether the write is taken back. -/
structure Upload where
  versioning : VersioningState
  write : EngineWrite
  body : Bytes
  late : Bytes → Option ChecksumInfo → Option (PutError × Bool)

def writtenVersion (versioning : VersioningState) (versionId : Option Vk) : Option Vk :=
  match versioning, versionId with
  | .enabled, some vk => some vk
  | .suspended, _ => some vkNull
  | _, _ => none

namespace PutTools

variable (tools : PutTools)

def tee (alg : Option ChecksumAlgorithm) (body : Bytes) : Option ChecksumInfo :=
  alg.map fun alg => ⟨alg, tools.digests.checksumOneShot alg body⟩

def target (state : PutState) (upload : Upload) : WriteTarget :=
  Engine.KeyGroup.planObjectWrite state.group tools.reading upload.versioning

def written (state : PutState) (upload : Upload) : Written :=
  let etag := tools.etag upload.write upload.body
  match upload.write with
  | .object put =>
    let target := tools.target state upload
    .object
      { content := upload.body
        size := upload.body.length
        etag := etag
        mtime := Engine.KeyGroup.writeMtime state.group tools.reading target
        contentType := put.contentType.getD "application/octet-stream"
        userMeta := put.userMeta
        respHeaders := put.respHeaders
        tags := put.tags
        versionId := target.metaVersionId
        isDeleteMarker := false
        checksum := tools.tee put.checksumAlg upload.body
        lock := put.lock
        sse := put.sseKey.map WriteKey.kind
        requestedStorageClass := put.requestedStorageClass
        storageClass := put.storageClass }
  | .part put =>
    .part
      { content := upload.body
        size := upload.body.length
        etag := etag
        mtime := tools.reading.seconds
        checksum := tools.tee put.checksumAlg upload.body }

def refusal (state : PutState) (upload : Upload) : Option S3Error :=
  let size := upload.body.length
  match upload.write with
  | .object _ =>
    if size > maxObjectSize then
      some ⟨.invalidArgument, s!"object size {size} exceeds max {maxObjectSize}"⟩
    else tools.refuses state upload.write upload.body
  | .part _ =>
    if state.session.isNone then some ⟨.noSuchUpload, ""⟩
    else tools.refuses state upload.write upload.body

/-- `put_with_lock_ev` and `upload_part`, where they do not fail. -/
def store (state : PutState) (upload : Upload) : PutState :=
  match upload.write, tools.written state upload with
  | .part put, .part stored =>
    { state with session := state.session.map fun session =>
        { session with parts := session.parts.insert put.number stored } }
  | _, .object stored =>
    { state with group := state.group.put (tools.target state upload).versionKey stored }
  | _, .part _ => state

/-- `delete_version_unlocked`; its errors are not looked at. -/
def deleteVersionUnlocked (state : PutState) (version : Option Vk) (versioning : VersioningState) :
    PutState :=
  if tools.deletes then
    match Engine.KeyGroup.deleteVersion state.group tools.reading versioning (fun _ => false)
        version with
    | .error _ => state
    | .ok after => { state with group := after.1 }
  else state

def rollbackPutVersion (state : PutState) (versioning : VersioningState) (stored : StoredObject) :
    PutState :=
  tools.deleteVersionUnlocked state (writtenVersion versioning stored.versionId) versioning

def rollback (state : PutState) (versioning : VersioningState) : Written → PutState
  | .object stored => tools.rollbackPutVersion state versioning stored
  | .part _ => state

def carryOut (state : PutState) (prepared : Except PutError Upload) :
    Except PutError Written × PutState :=
  match prepared with
  | .error e => (.error e, state)
  | .ok upload =>
    match tools.refusal state upload with
    | some e => (.error (.refused e), state)
    | none =>
      let written := tools.written state upload
      let after := tools.store state upload
      match upload.late written.etag written.checksum with
      | none => (.ok written, after)
      | some (e, true) => (.error e, tools.rollback after upload.versioning written)
      | some (e, false) => (.error e, after)

def getBucket (state : PutState) : Except PutError BucketMeta :=
  match state.bucket with
  | none => .error (.refused ⟨.noSuchBucket, ""⟩)
  | some bucket => .ok bucket

def hasSha256 (payload : PayloadHash) (content : Bytes) : Bool :=
  match payload with
  | .hexSha256 expected => eqIgnoreAsciiCase (hexEncode (tools.digests.sha256 content)) expected
  | _ => true

/-- The digest of `content-md5`. -/
def contentMd5 (request : S3Request) : Except PutError (Option Bytes) :=
  match request.header "content-md5" with
  | none => .ok none
  | some b64 =>
    match tools.parsers.decodeB64 b64 with
    | none => .error .invalidMd5
    | some expected => .ok (some expected)

def kmsKey (intent : SseWriteIntent) : Except PutError (Option Bytes) :=
  match intent with
  | .sseKms headers => (refusing (tools.mintKms headers)).map some
  | _ => .ok none

def s3Key (intent : SseWriteIntent) : Except PutError (Option Bytes) :=
  match intent with
  | .sseS3 => (refusing tools.mintS3).map some
  | _ => .ok none

def writeKey (ssec : Option SseCHeaders) (s3Key kmsKey : Option Bytes) : Option WriteKey :=
  match ssec, s3Key, kmsKey with
  | some ssec, none, none => some (.sseC ssec.key)
  | none, some key, none => some (.sseS3 key)
  | none, none, some key => some (.sseKms key)
  | _, _, _ => none

def enginePut (request : S3Request) (tags : List (String × String))
    (precond : Option WritePrecondition) (cksum : RequestChecksum) (sseKey : Option WriteKey)
    (lock : ObjectLockWrite) : EnginePut where
  contentType := request.header "content-type"
  userMeta := userMeta request
  respHeaders := respHeadersFrom request
  tags := tags
  precond := precond
  checksumAlg := cksum.algorithm
  sseKey := sseKey
  lock := lock
  requestedStorageClass := (storageClasses request).1
  storageClass := (storageClasses request).2

def lateChecksum (declared actual : Option ChecksumInfo) : Option PutError :=
  match declared with
  | none => none
  | some declared => if actual = some declared then none else some (.checksum declared.algorithm)

def trailerRefused : PutError :=
  .refused ⟨.invalidRequest, "checksum trailer declared but the request is not aws-chunked"⟩

def checkSessionSse (bound : Option String) (ssec : Option SseCHeaders) : Except S3Error Unit :=
  match bound, ssec with
  | none, none => .ok ()
  | some expect, some h =>
    if expect = h.keyMd5 then .ok ()
    else invalidRequest
      "The SSE-C key-MD5 does not match the one specified when the multipart upload was created."
  | some _, none => invalidRequest
      "The multipart upload was created with SSE-C; every part request must carry the SSE-C headers (x-amz-server-side-encryption-customer-*)."
  | none, some _ => invalidRequest
      "The multipart upload was not created with SSE-C; SSE-C headers are not accepted on its part requests."

def checkSession (state : PutState) (ssec : Option SseCHeaders) : Except PutError Unit :=
  match state.session with
  | none => .ok ()
  | some session => refusing (checkSessionSse session.sseKeyMd5 ssec)

end PutTools

/-- What the signature in the header and the one in the query say about the body. -/
structure Verified where
  header : Except S3Error (Option PayloadHash)
  query : Except S3Error (Option PayloadHash)

namespace PutTools

variable (tools : PutTools)

/-- The checks of `op_put_object_buffered` behind the commit. -/
def lateBuffered (md5 : Option Bytes) (content : Bytes) (declared : Option ChecksumInfo)
    (_etag : Bytes) (actual : Option ChecksumInfo) : Option (PutError × Bool) :=
  if md5.any (· ≠ tools.digests.md5 content) then some (.contentMd5, true)
  else (lateChecksum declared actual).map (·, true)

/-- `op_put_object_buffered` up to the engine. -/
def preparePutObject (state : PutState) (verified : Verified) (request : S3Request)
    (content : Bytes) : Except PutError Upload := do
  check (content.length ≤ maxObjectSize)
    (.refused ⟨.entityTooLarge, "Object exceeds the 5TiB maximum object size."⟩)
  let payload := (← refusing verified.header).getD .unsigned
  check (!payload.chunked)
    (.refused ⟨.invalidRequest, "STREAMING payload must use the streaming PUT path"⟩)
  check (tools.hasSha256 payload content) .contentSha256
  let md5 ← tools.contentMd5 request
  let cksum ← refusing (parseRequestChecksum tools.parsers.decodeB64Lenient request)
  check cksum.trailerAlg.isNone trailerRefused
  let ssec ← refusing (tools.parsers.customerHeaders request)
  let bkt ← getBucket state
  let intent ← refusing (tools.parsers.sseWriteIntent request ssec bkt.defaultEncryption)
  let kmsKey ← tools.kmsKey intent
  refusing (validateCannedAcl request)
  refusing (enforceBlockPublicAclsHeader tools.blocksPublicAcls request)
  let tags ← refusing (tools.parsers.objectTags request)
  let precond ← refusing (tools.parsers.writePrecondition request)
  let s3Key ← tools.s3Key intent
  let lock ← refusing (tools.parsers.resolveWrite request bkt)
  return {
    versioning := bkt.versioning
    write := .object (enginePut request (tags.getD []) precond cksum (writeKey ssec s3Key kmsKey) lock)
    body := content
    late := tools.lateBuffered md5 content cksum.value }

def opPutObjectBuffered (state : PutState) (verified : Verified) (request : S3Request)
    (content : Bytes) : Except PutError Written × PutState :=
  tools.carryOut state (tools.preparePutObject state verified request content)

def declaredChecksum (declared : Option ChecksumInfo) (content : Bytes) : Except PutError Unit :=
  match declared with
  | none => .ok ()
  | some info => check (tools.digests.checksumOneShot info.algorithm content = info.value)
      (.checksum info.algorithm)

/-- `op_upload_part` up to the engine: nothing is checked behind the commit. -/
def prepareUploadPart (state : PutState) (request : S3Request) (number : Nat) (content : Bytes) :
    Except PutError Upload := do
  check (content.length ≤ maxPartSize)
    (.refused ⟨.invalidPart, "Part size exceeds the 5GiB per-part limit."⟩)
  check (request.header "x-amz-tagging").isNone
    (.refused ⟨.invalidArgument, "x-amz-tagging is not valid for UploadPart"⟩)
  let cksum ← refusing (parseRequestChecksum tools.parsers.decodeB64Lenient request)
  check cksum.trailerAlg.isNone trailerRefused
  tools.declaredChecksum cksum.value content
  let ssec ← refusing (tools.parsers.customerHeaders request)
  let bkt ← getBucket state
  checkSession state ssec
  return {
    versioning := bkt.versioning
    write := .part ⟨number, cksum.algorithm, ssec.map SseCHeaders.key⟩
    body := content
    late := fun _ _ => none }

def opUploadPart (state : PutState) (request : S3Request) (number : Nat) (content : Bytes) :
    Except PutError Written × PutState :=
  tools.carryOut state (tools.prepareUploadPart state request number content)

end PutTools

inductive StreamTarget where
  | object
  | part (number : Nat)
deriving Repr, DecidableEq

namespace StreamTarget

def onObject (target : StreamTarget) (checks : Except PutError Unit) : Except PutError Unit :=
  match target with
  | object => checks
  | part _ => .ok ()

def onPart (target : StreamTarget) (checks : Except PutError Unit) : Except PutError Unit :=
  match target with
  | object => .ok ()
  | part _ => checks

end StreamTarget

namespace PutTools

variable (tools : PutTools)

/-- The checks of `put_object_stream_inner` behind the commit: a `content-md5` that is none is found as
late, and then the write is not taken back. -/
def lateStream (request : S3Request) (payload : PayloadHash) (content body : Bytes)
    (cksum : RequestChecksum) (etag : Bytes) (actual : Option ChecksumInfo) :
    Option (PutError × Bool) :=
  if !tools.hasSha256 payload content then some (.contentSha256, true)
  else if payload.chunked && cksum.decodedLen.any (· ≠ body.length) then some (.decodedLength, true)
  else
    match lateChecksum cksum.value actual with
    | some e => some (e, true)
    | none =>
      match tools.contentMd5 request with
      | .error e => some (e, false)
      | .ok expected => if expected.any (· ≠ etag) then some (.contentMd5, true) else none

def checkStreamSizes (request : S3Request) (key : String) (target : StreamTarget) :
    Except PutError Unit := do
  refusing (checkObjectKeyLength key)
  target.onObject (refusing (checkUserMetaSize (userMeta request)))
  target.onObject (check ((contentLength request).all (· ≤ maxObjectSize))
    (.refused ⟨.entityTooLarge, "Object exceeds the 5TiB maximum object size."⟩))
  target.onPart (check ((contentLength request).all (· ≤ maxPartSize))
    (.refused ⟨.invalidPart, "Part size exceeds the 5GiB per-part limit."⟩))

def notForParts (target : StreamTarget) (present : Bool) (message : String) : Except PutError Unit :=
  target.onPart (check (!present) (.refused ⟨.invalidArgument, message⟩))

def streamIntent (request : S3Request) (ssec : Option SseCHeaders) (bkt : BucketMeta) :
    StreamTarget → Except PutError SseWriteIntent
  | .object => refusing (tools.parsers.sseWriteIntent request ssec bkt.defaultEncryption)
  | .part _ => do
      check (!tools.parsers.hasSseHeaders request) (.refused ⟨.invalidArgument,
        "x-amz-server-side-encryption is only valid on CreateMultipartUpload; the upload session carries the encryption setting."⟩)
      return .none

def streamPayload (verified : Verified) : Except PutError PayloadHash := do
  match ← refusing verified.header with
  | some payload => return payload
  | none => return (← refusing verified.query).getD .unsigned

def streamBody (payload : PayloadHash) (cksum : RequestChecksum) (content : Bytes) :
    Except PutError Bytes :=
  if payload.chunked then (tools.decodeChunks payload cksum.trailerAlg content).mapError .chunk
  else .ok content

/-- The call of the engine in `write_once`. -/
def streamWrite (request : S3Request) (bkt : BucketMeta) (tags : Option (List (String × String)))
    (precond : Option WritePrecondition) (cksum : RequestChecksum) (ssec : Option SseCHeaders)
    (intent : SseWriteIntent) (kmsKey : Option Bytes) : StreamTarget → Except PutError EngineWrite
  | .object => do
      let s3Key ← tools.s3Key intent
      let lock ← refusing (tools.parsers.resolveWrite request bkt)
      return .object
        (enginePut request (tags.getD []) precond cksum (writeKey ssec s3Key kmsKey) lock)
  | .part number => return .part ⟨number, cksum.algorithm, ssec.map SseCHeaders.key⟩

/-- `put_object_stream_inner` up to the engine. -/
def prepareStream (state : PutState) (verified : Verified) (request : S3Request) (key : String)
    (target : StreamTarget) (content : Bytes) : Except PutError Upload := do
  refusing (checkUnimplementedHeaders request)
  target.onObject (refusing (validateCannedAcl request))
  target.onObject (refusing (enforceBlockPublicAclsHeader tools.blocksPublicAcls request))
  checkStreamSizes request key target
  let bkt ← getBucket state
  let precond ← refusing (tools.parsers.writePrecondition request)
  notForParts target precond.isSome "conditional write headers are not valid for UploadPart"
  let tags ← refusing (tools.parsers.objectTags request)
  notForParts target tags.isSome "x-amz-tagging is not valid for UploadPart"
  notForParts target (tools.parsers.hasObjectLockHeaders request)
    "Object Lock headers are not valid for UploadPart"
  let cksum ← refusing (parseRequestChecksum tools.parsers.decodeB64Lenient request)
  let ssec ← refusing (tools.parsers.customerHeaders request)
  let intent ← tools.streamIntent request ssec bkt target
  let kmsKey ← tools.kmsKey intent
  let payload ← streamPayload verified
  target.onPart (checkSession state ssec)
  check (payload.chunked || cksum.trailerAlg.isNone) trailerRefused
  let write ← tools.streamWrite request bkt tags precond cksum ssec intent kmsKey target
  let body ← tools.streamBody payload cksum content
  return {
    versioning := bkt.versioning
    write := write
    body := body
    late := tools.lateStream request payload content body cksum }

def putObjectStreamInner (state : PutState) (verified : Verified) (request : S3Request)
    (key : String) (target : StreamTarget) (content : Bytes) : Except PutError Written × PutState :=
  tools.carryOut state (tools.prepareStream state verified request key target content)

end PutTools

end FastS3.S3
