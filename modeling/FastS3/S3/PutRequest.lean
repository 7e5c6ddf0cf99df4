import FastS3.Core.KeyGroup
import FastS3.S3.Handle

namespace FastS3.Core.ChecksumAlgorithm

def s3Name : ChecksumAlgorithm → String
  | crc32c => "CRC32C"
  | crc32 => "CRC32"
  | sha1 => "SHA1"
  | sha256 => "SHA256"
  | crc64Nvme => "CRC64NVME"

def all : List ChecksumAlgorithm :=
  [crc32c, crc32, sha1, sha256, crc64Nvme]

/-- `from_s3_name`. -/
def fromS3Name (name : String) : Option ChecksumAlgorithm :=
  all.find? fun alg => alg.s3Name = name

/-- `from_header_suffix`: the same names in small letters. -/
def fromHeaderSuffix (suffix : List Char) : Option ChecksumAlgorithm :=
  all.find? fun alg => Data.Text.lower alg.s3Name.toList = suffix

end FastS3.Core.ChecksumAlgorithm

namespace FastS3.S3

open Data
open FastS3.Core (Bytes ChecksumAlgorithm utf8)
open Meta (BucketMeta Retention SseAlgorithm)

/-! What the headers and the query of an upload say about its body and about the object.

The parsers of dates, tags, preconditions and encryption headers, base64 and the digests are parameters.
-/

inductive PayloadHash where
  | hexSha256 (hex : String)
  | unsigned
  | streaming
  | streamingSignedTrailer
  | streamingUnsignedTrailer
deriving Repr, DecidableEq

def PayloadHash.chunked : PayloadHash → Bool
  | hexSha256 _ => false
  | unsigned => false
  | streaming => true
  | streamingSignedTrailer => true
  | streamingUnsignedTrailer => true

def payloadHashValue (v : String) : Except S3Error PayloadHash :=
  if v = "UNSIGNED-PAYLOAD" then .ok .unsigned
  else if v = "STREAMING-AWS4-HMAC-SHA256-PAYLOAD" then .ok .streaming
  else if v = "STREAMING-AWS4-HMAC-SHA256-PAYLOAD-TRAILER" then .ok .streamingSignedTrailer
  else if v = "STREAMING-UNSIGNED-PAYLOAD-TRAILER" then .ok .streamingUnsignedTrailer
  else if v.toList.length = 64 ∧ v.toList.all (fun c => (hexDigit c).isSome) then
    .ok (.hexSha256 (String.ofList (Text.lower v.toList)))
  else .error ⟨.invalidArgument, "invalid x-amz-content-sha256"⟩

structure ChecksumInfo where
  algorithm : ChecksumAlgorithm
  value : Bytes
deriving Repr, DecidableEq

structure RequestChecksum where
  value : Option ChecksumInfo
  trailerAlg : Option ChecksumAlgorithm
  decodedLen : Option Nat
deriving Repr, DecidableEq

def RequestChecksum.algorithm (cksum : RequestChecksum) : Option ChecksumAlgorithm :=
  (cksum.value.map ChecksumInfo.algorithm).orElse fun _ => cksum.trailerAlg

structure Digests where
  sha256 : Bytes → Bytes
  md5 : Bytes → Bytes
  checksumOneShot : ChecksumAlgorithm → Bytes → Bytes

def invalidRequest {α : Type} (message : String) : Except S3Error α :=
  .error ⟨.invalidRequest, message⟩

def unsupportedAlg {α : Type} (alg : String) : Except S3Error α :=
  invalidRequest s!"The checksum algorithm '{alg}' is not supported."

def multipleChecksums {α : Type} : Except S3Error α :=
  invalidRequest
    "Expecting a single x-amz-checksum- header. Multiple checksum types are not allowed."

def checksumHead : String := "x-amz-checksum-"

/-- The first step of `parse_request_checksum`: the headers with a value. -/
def checksumValue (decodeB64Lenient : String → Option Bytes) :
    List (String × String) → Option ChecksumInfo → Except S3Error (Option ChecksumInfo)
  | [], value => .ok value
  | (k, v) :: rest, value =>
    match Text.afterHead checksumHead.toList (Text.lower k.toList) with
    | none => checksumValue decodeB64Lenient rest value
    | some suffix =>
      match ChecksumAlgorithm.fromHeaderSuffix suffix with
      | none => unsupportedAlg (String.ofList suffix)
      | some alg =>
        if value.isSome then multipleChecksums
        else
          match decodeB64Lenient v with
          | none =>
            let name := String.ofList suffix
            invalidRequest s!"Value for x-amz-checksum-{name} header is invalid."
          | some raw => checksumValue decodeB64Lenient rest (some ⟨alg, raw⟩)

def declaredTrailer :
    List (List Char) → Option ChecksumAlgorithm → Except S3Error (Option ChecksumAlgorithm)
  | [], declared => .ok declared
  | name :: rest, declared =>
    match Text.afterHead checksumHead.toList (Text.lower (Text.trim name)) with
    | none => declaredTrailer rest declared
    | some suffix =>
      match ChecksumAlgorithm.fromHeaderSuffix suffix with
      | none => unsupportedAlg (String.ofList suffix)
      | some alg =>
        if declared.isSome then multipleChecksums else declaredTrailer rest (some alg)

def checkNamedAlgorithm (named valued trailed : Option ChecksumAlgorithm) : Except S3Error Unit :=
  match named with
  | none => .ok ()
  | some sdk =>
    if valued.any (sdk ≠ ·) || trailed.any (sdk ≠ ·) then
      .error ⟨.badDigest,
        "The checksum algorithm does not match x-amz-sdk-checksum-algorithm."⟩
    else if valued.isNone && trailed.isNone then
      invalidRequest "x-amz-sdk-checksum-algorithm specified, but no corresponding x-amz-checksum-* or x-amz-trailer headers were found."
    else .ok ()

def namedAlgorithm : Option String → Except S3Error (Option ChecksumAlgorithm)
  | none => .ok none
  | some v =>
    let name := String.ofList (Text.trim v.toList)
    match ChecksumAlgorithm.fromS3Name name with
    | none => unsupportedAlg name
    | some alg => .ok (some alg)

def decodedLength : Option String → Except S3Error (Option Nat)
  | none => .ok none
  | some v =>
    match Text.parseU64 (Text.trim v.toList) with
    | none => invalidRequest "Value for x-amz-decoded-content-length header is invalid."
    | some n => .ok (some n)

def parseRequestChecksum (decodeB64Lenient : String → Option Bytes) (request : S3Request) :
    Except S3Error RequestChecksum := do
  let value ← checksumValue decodeB64Lenient request.headers none
  let named ← namedAlgorithm (request.header "x-amz-sdk-checksum-algorithm")
  let trailerAlg ← match request.header "x-amz-trailer" with
    | none => .ok none
    | some trailer => declaredTrailer (trailer.toList.splitOn ',') none
  checkNamedAlgorithm named (value.map ChecksumInfo.algorithm) trailerAlg
  let decodedLen ← decodedLength (request.header "x-amz-decoded-content-length")
  return ⟨value, trailerAlg, decodedLen⟩

def userMeta (request : S3Request) : List (String × String) :=
  request.headers.filter fun header => "x-amz-meta-".toList.isPrefixOf header.1.toList

def contentEncoding (raw : String) : Option String :=
  let kept := ((raw.toList.splitOn ',').map fun token => String.ofList (Text.trim token)).filter
    fun token => !eqIgnoreAsciiCase token "aws-chunked"
  if kept.isEmpty then none else some (", ".intercalate kept)

def respHeadersFrom (request : S3Request) : List (String × String) :=
  (((request.header "content-encoding").bind contentEncoding).map
      (Prod.mk "content-encoding")).toList ++
    ((request.header "cache-control").map (Prod.mk "cache-control")).toList ++
    ((request.header "expires").map (Prod.mk "expires")).toList

/-- `storage_classes`: the class that is asked for, and the one that the object is stored in. -/
def storageClasses (request : S3Request) : Option String × Option String :=
  let requested := (request.header "x-amz-storage-class").map String.toUpper
  (requested, requested.filter Core.isArchiveClass)

structure ObjectLockWrite where
  retention : Option Retention
  legalHold : Bool
deriving Repr, DecidableEq

structure WritePrecondition where
  ifMatch : Option (List String)
  ifNoneMatch : Option (List String)
  ifMatchMtime : Option Int
  ifMatchSize : Option Nat
deriving Repr, DecidableEq

/-- The key of a customer, with its digest as the header has it. -/
structure SseCHeaders where
  key : Bytes
  keyMd5 : String
deriving Repr, DecidableEq

structure SseKmsHeaders where
  keyId : Option String
  bucketKeyEnabled : Option Bool
  context : Option String
deriving Repr, DecidableEq

inductive SseWriteIntent where
  | none
  | sseC
  | sseS3
  | sseKms (headers : SseKmsHeaders)
deriving Repr, DecidableEq

structure HeaderParsers where
  decodeB64 : String → Option Bytes
  decodeB64Lenient : String → Option Bytes
  writePrecondition : S3Request → Except S3Error (Option WritePrecondition)
  objectTags : S3Request → Except S3Error (Option (List (String × String)))
  customerHeaders : S3Request → Except S3Error (Option SseCHeaders)
  sseWriteIntent : S3Request → Option SseCHeaders → Option SseAlgorithm →
    Except S3Error SseWriteIntent
  hasSseHeaders : S3Request → Bool
  hasObjectLockHeaders : S3Request → Bool
  resolveWrite : S3Request → BucketMeta → Except S3Error ObjectLockWrite

def maxObjectKeyLen : Nat := 1024

def maxUserMetaSize : Nat := 2 * 1024

def maxPartSize : Nat := 5 * 1024 * 1024 * 1024

def checkObjectKeyLength (key : String) : Except S3Error Unit :=
  if key.utf8ByteSize > maxObjectKeyLen then .error ⟨.keyTooLongError, ""⟩ else .ok ()

def checkUserMetaSize (pairs : List (String × String)) : Except S3Error Unit :=
  if (pairs.map fun pair => pair.1.utf8ByteSize + pair.2.utf8ByteSize).sum > maxUserMetaSize then
    .error ⟨.metadataTooLarge, ""⟩
  else .ok ()

/-- The headers that `check_unimplemented_headers` knows. -/
def unsupportedHeaders : List String :=
  ["x-amz-sse-kms-key-id", "x-amz-website-redirect-location"]

def acceptedStorageClasses : List String :=
  ["STANDARD", "STANDARD_IA", "ONEZONE_IA", "REDUCED_REDUNDANCY", "INTELLIGENT_TIERING", "GLACIER",
   "GLACIER_IR", "DEEP_ARCHIVE"]

def checkUnimplementedHeaders (request : S3Request) : Except S3Error Unit :=
  match request.headers.find? fun header => unsupportedHeaders.any (eqIgnoreAsciiCase header.1) with
  | some (name, _) =>
    .error ⟨.notImplemented,
      s!"The header '{name}' implies functionality that is not implemented."⟩
  | none =>
    match request.header "x-amz-storage-class" with
    | none => .ok ()
    | some sc =>
      if acceptedStorageClasses.any (eqIgnoreAsciiCase sc) then .ok ()
      else .error ⟨.invalidStorageClass,
        if eqIgnoreAsciiCase sc "EXPRESS_ONEZONE" then
          "The storage class EXPRESS_ONEZONE is only valid for directory buckets."
        else "The storage class you specified is not valid."⟩

def knownCannedAcls : List String :=
  ["private", "public-read", "public-read-write", "authenticated-read", "aws-exec-read",
   "bucket-owner-read", "bucket-owner-full-control"]

def validateCannedAcl (request : S3Request) : Except S3Error Unit :=
  match request.headers.find? fun header =>
      eqIgnoreAsciiCase header.1 "x-amz-acl" && !knownCannedAcls.any (eqIgnoreAsciiCase header.2) with
  | some (_, v) => .error ⟨.invalidArgument, s!"The canned ACL you provided is not valid: {v}"⟩
  | none => .ok ()

def isPublicCannedAcl (acl : String) : Bool :=
  ["public-read", "public-read-write", "authenticated-read"].any (eqIgnoreAsciiCase acl)

def enforceBlockPublicAclsHeader (blocksPublicAcls : Bool) (request : S3Request) :
    Except S3Error Unit :=
  if (request.header "x-amz-acl").any isPublicCannedAcl ∧ blocksPublicAcls then
    .error ⟨.accessDenied, "PublicAccessBlock BlockPublicAcls denies public canned ACL."⟩
  else .ok ()

/-- `content-length`, where it is a number. -/
def contentLength (request : S3Request) : Option Nat :=
  (request.header "content-length").bind fun v => Text.parseU64 v.toList

end FastS3.S3
