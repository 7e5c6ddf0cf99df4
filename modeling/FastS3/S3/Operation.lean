import FastS3.S3.Authorize

namespace FastS3.S3

open FastS3.Core (Bytes)
open Meta (InventoryRule LifecycleRule NotificationRule ObjectLockDefaultRetention Retention
  SseAlgorithm)

/-! The operations of the service, with what a request says about each. -/

inductive Method where
  | get
  | put
  | post
  | delete
  | head
  | other (name : String)
deriving Repr, DecidableEq

/-- Names of headers are not case sensitive; the path is decoded, and the host has no port. -/
structure S3Request where
  method : Method
  path : String
  host : String
  query : List (String × String)
  headers : List (String × String)
  body : Bytes

inductive VersioningStatus where
  | enabled
  | suspended
deriving Repr, DecidableEq

structure CorsRule where
  allowedOrigins : List String
  allowedMethods : List String
  allowedHeaders : List String
  exposeHeaders : List String
  maxAgeSeconds : Option Nat
deriving Repr, DecidableEq

inductive ObjectOwnership where
  | bucketOwnerEnforced
  | bucketOwnerPreferred
  | objectWriter
deriving Repr, DecidableEq

structure PublicAccessBlock where
  blockPublicAcls : Bool
  ignorePublicAcls : Bool
  blockPublicPolicy : Bool
  restrictPublicBuckets : Bool
deriving Repr, DecidableEq

structure BucketEncryptionConfig where
  algorithm : SseAlgorithm
  kmsKey : Option String
deriving Repr, DecidableEq

structure DeleteObjectEntry where
  key : String
  versionId : Option String
  etag : Option String
  lastModified : Option String
  size : Option Nat
deriving Repr, DecidableEq

structure DeleteObjectsRequest where
  quiet : Bool
  keys : List DeleteObjectEntry
deriving Repr, DecidableEq

structure CompletePart where
  partNumber : Nat
  etagHex : String
deriving Repr, DecidableEq

structure CopySource where
  bucket : String
  key : String
  versionId : Option String
deriving Repr, DecidableEq

/-- The parsers of bodies, and the one of the header that names a source.  Of a body nothing else
is read before its operation is known. -/
structure Xml where
  parseCreateBucketConfiguration : Bytes → Except String (Option String)
  parseVersioningConfiguration : Bytes → Except S3Error VersioningStatus
  parseDeleteObjectsFull : Bytes → Except String DeleteObjectsRequest
  parseTagging : Bytes → Nat → Except S3Error (List (String × String))
  parseCorsConfiguration : Bytes → Except S3Error (List CorsRule)
  parseOwnershipControls : Bytes → Except S3Error ObjectOwnership
  parsePublicAccessBlock : Bytes → Except S3Error PublicAccessBlock
  parseBucketEncryption : Bytes → Except S3Error BucketEncryptionConfig
  parseObjectLockConfiguration : Bytes → Except S3Error (Option ObjectLockDefaultRetention)
  parseLifecycleConfiguration : Bytes → Except S3Error (List LifecycleRule)
  parseNotificationConfiguration : Bytes → Except S3Error (List NotificationRule)
  parseInventoryConfiguration : Bytes → Except S3Error InventoryRule
  parseCompleteMultipart : Bytes → Except String (List CompletePart)
  parseRetentionBody : Bytes → Except S3Error Retention
  parseLegalHoldBody : Bytes → Except S3Error Bool
  parseCopySource : String → Except S3Error CopySource

def maxBucketTags : Nat := 50
def maxObjectTags : Nat := 10

/-- The version that a request names: the null one, or one by its key. -/
inductive VersionIdArg where
  | null
  | vk (key : Bytes)
deriving Repr, DecidableEq

inductive Operation where
  | listBuckets
  | createBucket (bucket : String) (location : Option String)
  | deleteBucket (bucket : String)
  | headBucket (bucket : String)
  | getBucketLocation (bucket : String)
  | getBucketVersioning (bucket : String)
  | putBucketVersioning (bucket : String) (status : VersioningStatus)
  | putBucketTagging (bucket : String) (tags : List (String × String))
  | getBucketTagging (bucket : String)
  | deleteBucketTagging (bucket : String)
  | putBucketCors (bucket : String) (rules : List CorsRule)
  | getBucketCors (bucket : String)
  | deleteBucketCors (bucket : String)
  | putBucketOwnershipControls (bucket : String) (ownership : ObjectOwnership)
  | getBucketOwnershipControls (bucket : String)
  | deleteBucketOwnershipControls (bucket : String)
  | putPublicAccessBlock (bucket : String) (block : PublicAccessBlock)
  | getPublicAccessBlock (bucket : String)
  | deletePublicAccessBlock (bucket : String)
  | getBucketPolicyStatus (bucket : String)
  | putBucketPolicy (bucket : String) (body : Bytes)
  | getBucketPolicy (bucket : String)
  | deleteBucketPolicy (bucket : String)
  | putBucketEncryption (bucket : String) (config : BucketEncryptionConfig)
  | getBucketEncryption (bucket : String)
  | deleteBucketEncryption (bucket : String)
  | putObjectLockConfiguration (bucket : String)
      (defaultRetention : Option ObjectLockDefaultRetention)
  | getObjectLockConfiguration (bucket : String)
  | putBucketLifecycleConfiguration (bucket : String) (rules : List LifecycleRule)
  | getBucketLifecycleConfiguration (bucket : String)
  | deleteBucketLifecycleConfiguration (bucket : String)
  | putBucketNotificationConfiguration (bucket : String) (rules : List NotificationRule)
  | getBucketNotificationConfiguration (bucket : String)
  | deleteBucketNotificationConfiguration (bucket : String)
  | putBucketInventoryConfiguration (bucket id : String) (rule : InventoryRule)
  | getBucketInventoryConfiguration (bucket id : String)
  | deleteBucketInventoryConfiguration (bucket id : String)
  | listBucketInventoryConfigurations (bucket : String) (continuationToken : Option String)
  | postObject (bucket : String)
  | restoreObject (bucket key : String) (versionId : Option VersionIdArg)
  | getObjectAcl (bucket key : String)
  | listObjectVersions (bucket namePrefix keyMarker : String) (versionIdMarker : Option String)
      (maxKeys : Nat) (delimiter encodingType : Option String)
  | listObjectsV1 (bucket namePrefix marker : String) (maxKeys : Nat)
      (delimiter encodingType : Option String)
  | listObjectsV2 (bucket namePrefix : String) (continuationToken startAfter : Option String)
      (maxKeys : Nat) (delimiter : Option String) (fetchOwner : Bool) (encodingType : Option String)
  | copyObject (bucket key : String) (copySource : CopySource) (metadataDirective ifMatch ifNoneMatch
      ifUnmodifiedSince ifModifiedSince : Option String)
  | uploadPartCopy (bucket key : String) (partNumber : Nat) (uploadId : String)
      (copySource : CopySource) (copySourceRange : Option String)
  | createMultipartUpload (bucket key : String)
  | uploadPart (bucket key : String) (partNumber : Nat) (uploadId : String)
  | completeMultipartUpload (bucket key uploadId : String) (parts : List CompletePart)
  | abortMultipartUpload (bucket key uploadId : String)
  | listMultipartUploads (bucket namePrefix : String) (keyMarker uploadIdMarker : Option String)
      (maxUploads : Nat)
  | listParts (bucket key uploadId : String) (partNumberMarker : Option Nat) (maxParts : Nat)
  | getObjectPart (bucket key : String) (partNumber : Nat)
  | headObjectPart (bucket key : String) (partNumber : Nat)
  | putObject (bucket key : String)
  | putObjectTagging (bucket key : String) (versionId : Option VersionIdArg)
      (tags : List (String × String))
  | getObjectTagging (bucket key : String) (versionId : Option VersionIdArg)
  | deleteObjectTagging (bucket key : String) (versionId : Option VersionIdArg)
  | putObjectRetention (bucket key : String) (versionId : Option VersionIdArg)
      (retention : Retention)
  | getObjectRetention (bucket key : String) (versionId : Option VersionIdArg)
  | putObjectLegalHold (bucket key : String) (versionId : Option VersionIdArg) (legalHold : Bool)
  | getObjectLegalHold (bucket key : String) (versionId : Option VersionIdArg)
  | getObject (bucket key : String) (versionId : Option VersionIdArg)
  | getObjectAttributes (bucket key : String) (versionId : Option VersionIdArg)
  | headObject (bucket key : String) (versionId : Option VersionIdArg)
  | deleteObject (bucket key : String) (versionId : Option VersionIdArg)
  | deleteObjects (bucket : String) (quiet : Bool) (keys : List DeleteObjectEntry)
deriving DecidableEq

namespace Operation

def bucket : Operation → String
  | listBuckets => ""
  | createBucket b _ | deleteBucket b | headBucket b | getBucketLocation b
  | getBucketVersioning b | putBucketVersioning b _
  | putBucketTagging b _ | getBucketTagging b | deleteBucketTagging b
  | putBucketCors b _ | getBucketCors b | deleteBucketCors b
  | putBucketOwnershipControls b _ | getBucketOwnershipControls b | deleteBucketOwnershipControls b
  | putPublicAccessBlock b _ | getPublicAccessBlock b | deletePublicAccessBlock b
  | getBucketPolicyStatus b | putBucketPolicy b _ | getBucketPolicy b | deleteBucketPolicy b
  | putBucketEncryption b _ | getBucketEncryption b | deleteBucketEncryption b
  | putObjectLockConfiguration b _ | getObjectLockConfiguration b
  | putBucketLifecycleConfiguration b _ | getBucketLifecycleConfiguration b
  | deleteBucketLifecycleConfiguration b
  | putBucketNotificationConfiguration b _ | getBucketNotificationConfiguration b
  | deleteBucketNotificationConfiguration b
  | putBucketInventoryConfiguration b _ _ | getBucketInventoryConfiguration b _
  | deleteBucketInventoryConfiguration b _ | listBucketInventoryConfigurations b _
  | postObject b | restoreObject b _ _ | getObjectAcl b _
  | listObjectVersions b _ _ _ _ _ _ | listObjectsV1 b _ _ _ _ _ | listObjectsV2 b _ _ _ _ _ _ _
  | copyObject b _ _ _ _ _ _ _ | uploadPartCopy b _ _ _ _ _
  | createMultipartUpload b _ | uploadPart b _ _ _ | completeMultipartUpload b _ _ _
  | abortMultipartUpload b _ _ | listMultipartUploads b _ _ _ _ | listParts b _ _ _ _
  | getObjectPart b _ _ | headObjectPart b _ _ | putObject b _
  | putObjectTagging b _ _ _ | getObjectTagging b _ _ | deleteObjectTagging b _ _
  | putObjectRetention b _ _ _ | getObjectRetention b _ _
  | putObjectLegalHold b _ _ _ | getObjectLegalHold b _ _
  | getObject b _ _ | getObjectAttributes b _ _ | headObject b _ _ | deleteObject b _ _
  | deleteObjects b _ _ => b

def key : Operation → String
  | restoreObject _ k _ | getObjectAcl _ k | copyObject _ k _ _ _ _ _ _ | uploadPartCopy _ k _ _ _ _
  | createMultipartUpload _ k | uploadPart _ k _ _ | completeMultipartUpload _ k _ _
  | abortMultipartUpload _ k _ | listParts _ k _ _ _ | getObjectPart _ k _ | headObjectPart _ k _
  | putObject _ k | putObjectTagging _ k _ _ | getObjectTagging _ k _ | deleteObjectTagging _ k _
  | putObjectRetention _ k _ _ | getObjectRetention _ k _ | putObjectLegalHold _ k _ _
  | getObjectLegalHold _ k _ | getObject _ k _ | getObjectAttributes _ k _ | headObject _ k _
  | deleteObject _ k _ => k
  | _ => ""

/-- The action that a policy has to allow for an operation.  Listings of a bucket are `ListBucket`,
writes of an object or of a part `PutObject`, and what posts to an upload or deletes many keys is of
the family `Multipart`; the rules of a bucket drop the word in front, as the actions of the
identity service do.  Every other operation is its own action. -/
def action : Operation → String
  | listBuckets => "ListAllMyBuckets"
  | createBucket _ _ => "CreateBucket"
  | deleteBucket _ => "DeleteBucket"
  | headBucket _ | listObjectsV1 _ _ _ _ _ _ | listObjectsV2 _ _ _ _ _ _ _ _
  | listMultipartUploads _ _ _ _ _ => "ListBucket"
  | getBucketLocation _ => "GetBucketLocation"
  | getBucketVersioning _ => "GetBucketVersioning"
  | putBucketVersioning _ _ => "PutBucketVersioning"
  | putBucketTagging _ _ => "PutBucketTagging"
  | getBucketTagging _ => "GetBucketTagging"
  | deleteBucketTagging _ => "DeleteBucketTagging"
  | putBucketCors _ _ => "PutBucketCors"
  | getBucketCors _ => "GetBucketCors"
  | deleteBucketCors _ => "DeleteBucketCors"
  | putBucketOwnershipControls _ _ => "PutBucketOwnershipControls"
  | getBucketOwnershipControls _ => "GetBucketOwnershipControls"
  | deleteBucketOwnershipControls _ => "DeleteBucketOwnershipControls"
  | putPublicAccessBlock _ _ => "PutPublicAccessBlock"
  | getPublicAccessBlock _ => "GetPublicAccessBlock"
  | deletePublicAccessBlock _ => "DeletePublicAccessBlock"
  | getBucketPolicyStatus _ => "GetBucketPolicyStatus"
  | putBucketPolicy _ _ => "PutBucketPolicy"
  | getBucketPolicy _ => "GetBucketPolicy"
  | deleteBucketPolicy _ => "DeleteBucketPolicy"
  | putBucketEncryption _ _ => "PutBucketEncryption"
  | getBucketEncryption _ => "GetBucketEncryption"
  | deleteBucketEncryption _ => "DeleteBucketEncryption"
  | putObjectLockConfiguration _ _ => "PutObjectLockConfiguration"
  | getObjectLockConfiguration _ => "GetObjectLockConfiguration"
  | putBucketLifecycleConfiguration _ _ => "PutLifecycleConfiguration"
  | getBucketLifecycleConfiguration _ => "GetLifecycleConfiguration"
  | deleteBucketLifecycleConfiguration _ => "DeleteLifecycleConfiguration"
  | putBucketNotificationConfiguration _ _ => "PutBucketNotificationConfiguration"
  | getBucketNotificationConfiguration _ => "GetBucketNotificationConfiguration"
  | deleteBucketNotificationConfiguration _ => "DeleteBucketNotificationConfiguration"
  | putBucketInventoryConfiguration _ _ _ => "PutInventoryConfiguration"
  | getBucketInventoryConfiguration _ _ => "GetInventoryConfiguration"
  | deleteBucketInventoryConfiguration _ _ => "DeleteInventoryConfiguration"
  | listBucketInventoryConfigurations _ _ => "ListInventoryConfigurations"
  | restoreObject _ _ _ => "RestoreObject"
  | getObjectAcl _ _ => "GetObjectAcl"
  | listObjectVersions _ _ _ _ _ _ _ => "ListObjectVersions"
  | postObject _ | putObject _ _ | copyObject _ _ _ _ _ _ _ _ | uploadPart _ _ _ _
  | uploadPartCopy _ _ _ _ _ _ => "PutObject"
  | createMultipartUpload _ _ | completeMultipartUpload _ _ _ _ | deleteObjects _ _ _ => "Multipart"
  | abortMultipartUpload _ _ _ => "AbortMultipartUpload"
  | listParts _ _ _ _ _ => "ListParts"
  | putObjectTagging _ _ _ _ => "PutObjectTagging"
  | getObjectTagging _ _ _ => "GetObjectTagging"
  | deleteObjectTagging _ _ _ => "DeleteObjectTagging"
  | putObjectRetention _ _ _ _ => "PutObjectRetention"
  | getObjectRetention _ _ _ => "GetObjectRetention"
  | putObjectLegalHold _ _ _ _ => "PutObjectLegalHold"
  | getObjectLegalHold _ _ _ => "GetObjectLegalHold"
  | getObject _ _ _ | getObjectPart _ _ _ => "GetObject"
  | getObjectAttributes _ _ _ => "GetObjectAttributes"
  | headObject _ _ _ | headObjectPart _ _ _ => "HeadObject"
  | deleteObject _ _ _ => "DeleteObject"

end Operation

end FastS3.S3
