import FastS3.S3.Operation

namespace FastS3.S3

open Data
open FastS3.Core (Bytes)

/-! From a request to its operation. -/

def eqIgnoreAsciiCase (left right : String) : Bool :=
  Text.lower left.toList = Text.lower right.toList

section Query

variable (query : List (String × String))

def getQ (name : String) : Option String :=
  (query.find? fun entry => eqIgnoreAsciiCase entry.1 name).map Prod.snd

def hasQ (name : String) : Bool :=
  query.any fun entry => eqIgnoreAsciiCase entry.1 name

def givenQ (name : String) : Option String :=
  (getQ query name).filter fun value => value ≠ ""

end Query

def hexDigit (digit : Char) : Option Nat :=
  if digit.isDigit then some (digit.toNat - '0'.toNat)
  else if 'a' ≤ digit ∧ digit ≤ 'f' then some (digit.toNat - 'a'.toNat + 10)
  else if 'A' ≤ digit ∧ digit ≤ 'F' then some (digit.toNat - 'A'.toNat + 10)
  else none

/-- `hex::decode`. -/
def hexDecode : List Char → Option Bytes
  | [] => some []
  | [_] => none
  | high :: low :: rest =>
    match hexDigit high, hexDigit low, hexDecode rest with
    | some h, some l, some bytes => some (UInt8.ofNat (16 * h + l) :: bytes)
    | _, _, _ => none

/-- `hex::encode`. -/
def hexEncode (bytes : Bytes) : String :=
  let digit (n : Nat) : Char := Char.ofNat (if n < 10 then '0'.toNat + n else 'a'.toNat + (n - 10))
  String.ofList (bytes.flatMap fun b => [digit (b.toNat / 16), digit (b.toNat % 16)])

def VersionIdArg.display : VersionIdArg → String
  | null => "null"
  | vk key => hexEncode key

def invalidVersionId {α : Type} : Except S3Error α :=
  .error ⟨.invalidArgument, "Invalid version id specified"⟩

def parseVersionIdParam : Option String → Except S3Error (Option VersionIdArg)
  | none => .ok none
  | some raw =>
    if raw = "null" then .ok (some .null)
    else if raw.toList.length = 32 then
      match hexDecode raw.toList with
      | some key => .ok (some (.vk key))
      | none => invalidVersionId
    else invalidVersionId

def parseMaxKeys : Option String → Except S3Error Nat
  | none => .ok 1000
  | some raw =>
    if raw = "" then .ok 1000
    else match Text.parseU32 raw.toList with
      | some value => .ok value
      | none => .error ⟨.invalidArgument, "max-keys must be a non-negative integer"⟩

def parsePartNumber (raw : String) : Except S3Error Nat :=
  match Text.parseU32 raw.toList with
  | some value => .ok value
  | none => .error ⟨.invalidArgument, "partNumber must be a positive integer"⟩

/-- `trim_start_matches`. -/
def trimSlashes (path : String) : List Char :=
  path.toList.dropWhile (· = '/')

/-- The two parts of `splitn` at a slash; a missing one is empty. -/
def splitSlash (text : List Char) : String × String :=
  (String.ofList (text.takeWhile (· ≠ '/')), String.ofList ((text.dropWhile (· ≠ '/')).drop 1))

/-- What the standard library says of hosts: their lower case, and whether one is an address. -/
structure HostText where
  toLowercase : List Char → List Char
  isIpAddr : List Char → Bool

structure Router where
  pathStyleBases : List String

namespace Router

def new (pathStyleBases : List String) : Router where
  pathStyleBases := ["localhost", "127.0.0.1", "[::1]", "s3.amazonaws.com"].foldl
    (fun bases base => if bases.contains base then bases else bases ++ [base]) pathStyleBases

variable (router : Router) (std : HostText)

/-- The bucket that a host names: its first label, unless the host is one of the bases or an
address. -/
def virtualBucket (host : String) : Option String :=
  let clean := std.toLowercase (host.toList.rdropWhile (· = '.'))
  if router.pathStyleBases.contains (String.ofList clean) then none
  else
    let label := clean.takeWhile (· ≠ '.')
    let rest := clean.dropWhile (· ≠ '.')
    if label.isEmpty || rest.isEmpty || label.contains ':' || std.isIpAddr clean ||
        label.any fun c => !(c.isAlphanum || c = '-' || c = '.') then none
    else some (String.ofList label)

/-- `bucket_of`: under a bucket's host the whole path is the key. -/
def bucketOf (host path : String) : Option String × String :=
  let trimmed := trimSlashes path
  match router.virtualBucket std host with
  | some bucket => (some bucket, String.ofList trimmed)
  | none =>
    if trimmed.isEmpty then (none, "")
    else
      let (bucket, key) := splitSlash trimmed
      (some bucket, key)

end Router

def pBucketOfPath (path : String) : Option String :=
  let trimmed := trimSlashes path
  if trimmed.isEmpty then none else some (splitSlash trimmed).1

def methodNotAllowed : Except S3Error Operation :=
  .error ⟨.methodNotAllowed, "The specified method is not allowed against this resource."⟩

def malformed {α : Type} : Except String α → Except S3Error α :=
  Except.mapError fun message => ⟨.malformedXML, message⟩

def configuration (method : Method) (put get delete : Except S3Error Operation) :
    Except S3Error Operation :=
  match method with
  | .put => put
  | .get => get
  | .delete => delete
  | _ => methodNotAllowed

def serviceParameters : List String :=
  ["x-id", "prefix", "marker", "max-buckets", "max-keys", "continuation-token"]

def unsupportedSubresources : List String :=
  ["acl", "website", "replication", "requestPayment", "uploads", "uploadId", "partNumber", "versions",
   "versionId", "accelerate", "analytics", "metrics", "intelligent-tiering", "legal-hold", "retention"]

section Route

variable (xml : Xml) (method : Method) (query : List (String × String)) (body : Bytes)

def routeService : Except S3Error Operation :=
  if method = .get ∧ query.all fun entry => serviceParameters.any fun name =>
      eqIgnoreAsciiCase entry.1 name then .ok .listBuckets
  else .error ⟨.invalidRequest, "missing bucket name"⟩

section Bucket

variable (bucket : String)

def routeVersions : Except S3Error Operation :=
  let keyMarker := (getQ query "key-marker").getD ""
  let versionIdMarker := getQ query "version-id-marker"
  if method ≠ .get then methodNotAllowed
  else if versionIdMarker.isSome ∧ keyMarker = "" then
    .error ⟨.invalidArgument, "A version-id marker cannot be specified without a key marker."⟩
  else do
    let marker ← parseVersionIdParam versionIdMarker
    let maxKeys ← parseMaxKeys (getQ query "max-keys")
    return .listObjectVersions bucket ((getQ query "prefix").getD "") keyMarker
      (marker.map VersionIdArg.display) maxKeys (givenQ query "delimiter")
      (givenQ query "encoding-type")

def routeListV2 : Except S3Error Operation :=
  (parseMaxKeys (getQ query "max-keys")).map fun maxKeys =>
    .listObjectsV2 bucket ((getQ query "prefix").getD "") (getQ query "continuation-token")
      (givenQ query "start-after") maxKeys (givenQ query "delimiter")
      (decide (getQ query "fetch-owner" = some "true")) (givenQ query "encoding-type")

def routeListV1 : Except S3Error Operation :=
  (parseMaxKeys (getQ query "max-keys")).map fun maxKeys =>
    .listObjectsV1 bucket ((getQ query "prefix").getD "") ((getQ query "marker").getD "") maxKeys
      (givenQ query "delimiter") (givenQ query "encoding-type")

def routeListUploads : Except S3Error Operation :=
  (parseMaxKeys (getQ query "max-uploads")).map fun maxUploads =>
    .listMultipartUploads bucket ((getQ query "prefix").getD "") (givenQ query "key-marker")
      (givenQ query "upload-id-marker") maxUploads

def routePlainBucket : Except S3Error Operation :=
  if hasQ query "logging" then
    .error ⟨.notImplemented, "S3 Server Access Logging (?logging) is not implemented. " ++
      "Use admin GET /v1/admin/audit/export. See docs: operations/audit-export " ++
      "(用审计导出代替 S3 Server Access Logging)."⟩
  else match unsupportedSubresources.find? (hasQ query) with
    | some name => .error ⟨.notImplemented, s!"subresource {name} is not implemented"⟩
    | none =>
      match method with
      | .put => (malformed (xml.parseCreateBucketConfiguration body)).map (.createBucket bucket)
      | .delete => .ok (.deleteBucket bucket)
      | .head => .ok (.headBucket bucket)
      | .post => .ok (.postObject bucket)
      | .get => routeListV1 query bucket
      | .other _ => methodNotAllowed

def routeInventory : Except S3Error Operation :=
  match method, getQ query "id" with
  | .put, some id =>
    (xml.parseInventoryConfiguration body).map (.putBucketInventoryConfiguration bucket id)
  | .get, some id => .ok (.getBucketInventoryConfiguration bucket id)
  | .delete, some id => .ok (.deleteBucketInventoryConfiguration bucket id)
  | .get, none =>
    .ok (.listBucketInventoryConfigurations bucket (getQ query "continuation-token"))
  | _, _ => .error ⟨.invalidArgument, "InventoryConfiguration requires an id parameter"⟩

def routeBucketRules : Except S3Error Operation :=
  if hasQ query "encryption" then
    configuration method ((xml.parseBucketEncryption body).map (.putBucketEncryption bucket))
      (.ok (.getBucketEncryption bucket)) (.ok (.deleteBucketEncryption bucket))
  else if hasQ query "object-lock" then
    configuration method
      ((xml.parseObjectLockConfiguration body).map (.putObjectLockConfiguration bucket))
      (.ok (.getObjectLockConfiguration bucket)) methodNotAllowed
  else if hasQ query "lifecycle" then
    configuration method
      ((xml.parseLifecycleConfiguration body).map (.putBucketLifecycleConfiguration bucket))
      (.ok (.getBucketLifecycleConfiguration bucket))
      (.ok (.deleteBucketLifecycleConfiguration bucket))
  else if hasQ query "notification" then
    configuration method
      ((xml.parseNotificationConfiguration body).map (.putBucketNotificationConfiguration bucket))
      (.ok (.getBucketNotificationConfiguration bucket))
      (.ok (.deleteBucketNotificationConfiguration bucket))
  else if hasQ query "inventory" then routeInventory xml method query body bucket
  else routePlainBucket xml method query body bucket

def routeBucketConfig : Except S3Error Operation :=
  if hasQ query "tagging" then
    configuration method ((xml.parseTagging body maxBucketTags).map (.putBucketTagging bucket))
      (.ok (.getBucketTagging bucket)) (.ok (.deleteBucketTagging bucket))
  else if hasQ query "cors" then
    configuration method ((xml.parseCorsConfiguration body).map (.putBucketCors bucket))
      (.ok (.getBucketCors bucket)) (.ok (.deleteBucketCors bucket))
  else if hasQ query "ownershipControls" then
    configuration method
      ((xml.parseOwnershipControls body).map (.putBucketOwnershipControls bucket))
      (.ok (.getBucketOwnershipControls bucket)) (.ok (.deleteBucketOwnershipControls bucket))
  else if hasQ query "publicAccessBlock" then
    configuration method ((xml.parsePublicAccessBlock body).map (.putPublicAccessBlock bucket))
      (.ok (.getPublicAccessBlock bucket)) (.ok (.deletePublicAccessBlock bucket))
  else if hasQ query "policyStatus" then
    configuration method methodNotAllowed (.ok (.getBucketPolicyStatus bucket)) methodNotAllowed
  else if hasQ query "policy" then
    configuration method (.ok (.putBucketPolicy bucket body)) (.ok (.getBucketPolicy bucket))
      (.ok (.deleteBucketPolicy bucket))
  else routeBucketRules xml method query body bucket

def routeBucket : Except S3Error Operation :=
  if hasQ query "location" then .ok (.getBucketLocation bucket)
  else if hasQ query "versioning" then
    configuration method
      ((xml.parseVersioningConfiguration body).map (.putBucketVersioning bucket))
      (.ok (.getBucketVersioning bucket)) methodNotAllowed
  else if hasQ query "versions" then routeVersions method query bucket
  else if hasQ query "list-type" ∧ getQ query "list-type" = some "2" then routeListV2 query bucket
  else if hasQ query "delete" then
    if method ≠ .post then methodNotAllowed
    else (malformed (xml.parseDeleteObjectsFull body)).map fun request =>
      .deleteObjects bucket request.quiet request.keys
  else if hasQ query "uploads" ∧ method = .get then routeListUploads query bucket
  else routeBucketConfig xml method query body bucket

end Bucket

section Object

variable (bucket key : String)

def routeUpload (uploadId : String) : Except S3Error Operation :=
  match getQ query "partNumber" with
  | some raw => do
      let partNumber ← parsePartNumber raw
      match method with
      | .put => .ok (.uploadPart bucket key partNumber uploadId)
      | _ => methodNotAllowed
  | none =>
    match method with
    | .post => (malformed (xml.parseCompleteMultipart body)).map
        (.completeMultipartUpload bucket key uploadId)
    | .delete => .ok (.abortMultipartUpload bucket key uploadId)
    | .get => (parseMaxKeys (getQ query "max-parts")).map
        (.listParts bucket key uploadId
          ((getQ query "part-number-marker").bind fun raw => Text.parseU32 raw.toList))
    | _ => methodNotAllowed

def routePart (raw : String) : Except S3Error Operation := do
  let partNumber ← parsePartNumber raw
  match method with
  | .get => .ok (.getObjectPart bucket key partNumber)
  | .head => .ok (.headObjectPart bucket key partNumber)
  | _ => methodNotAllowed

def versioned (operation : Option VersionIdArg → Operation) : Except S3Error Operation :=
  (parseVersionIdParam (getQ query "versionId")).map operation

def routePut : Except S3Error Operation :=
  if hasQ query "acl" then .error ⟨.notImplemented, "PutObjectAcl is not implemented"⟩
  else if hasQ query "tagging" then do
    let version ← parseVersionIdParam (getQ query "versionId")
    let tags ← xml.parseTagging body maxObjectTags
    return .putObjectTagging bucket key version tags
  else if hasQ query "retention" then do
    let version ← parseVersionIdParam (getQ query "versionId")
    let retention ← xml.parseRetentionBody body
    return .putObjectRetention bucket key version retention
  else if hasQ query "legal-hold" then do
    let version ← parseVersionIdParam (getQ query "versionId")
    let legalHold ← xml.parseLegalHoldBody body
    return .putObjectLegalHold bucket key version legalHold
  else if hasQ query "versionId" then
    .error ⟨.invalidArgument, "versionId is not valid for PUT Object"⟩
  else .ok (.putObject bucket key)

def routeGet : Except S3Error Operation :=
  if hasQ query "acl" then
    if hasQ query "versionId" then
      .error ⟨.notImplemented, "GetObjectAcl with versionId is not implemented"⟩
    else .ok (.getObjectAcl bucket key)
  else if hasQ query "tagging" then versioned query (.getObjectTagging bucket key)
  else if hasQ query "retention" then versioned query (.getObjectRetention bucket key)
  else if hasQ query "legal-hold" then versioned query (.getObjectLegalHold bucket key)
  else if hasQ query "attributes" then versioned query (.getObjectAttributes bucket key)
  else versioned query (.getObject bucket key)

def routePlainObject : Except S3Error Operation :=
  match method with
  | .put => routePut xml query body bucket key
  | .get => routeGet query bucket key
  | .head => versioned query (.headObject bucket key)
  | .delete =>
    if hasQ query "tagging" then versioned query (.deleteObjectTagging bucket key)
    else versioned query (.deleteObject bucket key)
  | .post =>
    if hasQ query "restore" then versioned query (.restoreObject bucket key) else methodNotAllowed
  | .other _ => methodNotAllowed

def routeObject : Except S3Error Operation :=
  match getQ query "uploadId" with
  | some uploadId => routeUpload xml method query body bucket key uploadId
  | none =>
    if hasQ query "uploads" then
      if method ≠ .post then methodNotAllowed else .ok (.createMultipartUpload bucket key)
    else match getQ query "partNumber" with
      | some raw => routePart method bucket key raw
      | none => routePlainObject xml method query body bucket key

end Object

end Route

namespace Router

variable (router : Router) (std : HostText) (xml : Xml)

def route (method : Method) (host path : String) (query : List (String × String)) (body : Bytes) :
    Except S3Error Operation :=
  let (virtual, key) := router.bucketOf std host path
  match virtual.orElse fun _ => pBucketOfPath path with
  | none => routeService method query
  | some bucket =>
    if key = "" then routeBucket xml method query body bucket
    else routeObject xml method query body bucket key

end Router

def S3Request.header (request : S3Request) (name : String) : Option String :=
  (request.headers.find? fun entry => eqIgnoreAsciiCase entry.1 name).map Prod.snd

/-- The first steps of `handle_inner`: a header that names a source makes a copy of a put. -/
def Router.operation (router : Router) (std : HostText) (xml : Xml) (request : S3Request) :
    Except S3Error Operation := do
  let op ← router.route std xml request.method request.host request.path request.query request.body
  if request.method = .put then
    match request.header "x-amz-copy-source" with
    | some raw =>
      let source ← xml.parseCopySource raw
      match op with
      | .uploadPart bucket key partNumber uploadId =>
        return .uploadPartCopy bucket key partNumber uploadId source
          (request.header "x-amz-copy-source-range")
      | .putObject bucket key =>
        return .copyObject bucket key source
          ((request.header "x-amz-metadata-directive").map String.toUpper)
          (request.header "x-amz-copy-source-if-match")
          (request.header "x-amz-copy-source-if-none-match")
          (request.header "x-amz-copy-source-if-unmodified-since")
          (request.header "x-amz-copy-source-if-modified-since")
      | other => return other
    | none => return op
  else return op

end FastS3.S3
