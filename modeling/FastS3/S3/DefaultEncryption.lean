import FastS3.S3.PutAgreement

namespace FastS3.S3

open Data
open FastS3.Core (Bytes ChecksumAlgorithm SseKind maxObjectSize)
open Meta (BucketMeta SseAlgorithm)

/-! The encryption of an upload that does not name one itself.

The headers of a request and the default of its bucket give the intent of a write.  The uploads of
objects follow the intent; the upload by a form asks only whether the bucket has a default.
-/

def hdrSseS3 : String := "x-amz-server-side-encryption"

def hdrSseKmsKeyId : String := "x-amz-server-side-encryption-aws-kms-key-id"

def hdrSseKmsContext : String := "x-amz-server-side-encryption-context"

def hdrSseBucketKeyEnabled : String := "x-amz-server-side-encryption-bucket-key-enabled"

def hdrAlgorithm : String := "x-amz-server-side-encryption-customer-algorithm"

def hdrKey : String := "x-amz-server-side-encryption-customer-key"

def hdrKeyMd5 : String := "x-amz-server-side-encryption-customer-key-md5"

def sseHeaderNames : List String :=
  [hdrSseS3, hdrSseKmsKeyId, hdrSseKmsContext, hdrSseBucketKeyEnabled, hdrAlgorithm, hdrKey, hdrKeyMd5]

def invalidArgument {α : Type} (message : String) : Except S3Error α :=
  .error ⟨.invalidArgument, message⟩

def trimmedIs (v name : String) : Bool :=
  eqIgnoreAsciiCase (String.ofList (Text.trim v.toList)) name

def parseSseS3Header (request : S3Request) : Except S3Error (Option SseAlgorithm) :=
  match request.header hdrSseS3 with
  | none => .ok none
  | some v =>
    if trimmedIs v "AES256" then .ok (some .aes256)
    else if trimmedIs v "aws:kms" then .ok (some .kms)
    else .error ⟨.invalidEncryptionAlgorithmError, ""⟩

def parseKmsKeyId (raw : List Char) : Except S3Error String :=
  if raw = [] then
    invalidArgument "The server-side-encryption-aws-kms-key-id header cannot be empty."
  else
    match Text.afterHead ['a', 'r', 'n', ':'] raw with
    | none => .ok (String.ofList raw)
    | some rest =>
      let parts := rest.splitOn ':'
      let shown := String.ofList raw
      let bad := s!"The AWS KMS key ARN '{shown}' is not valid; expected arn:aws:kms:region:account:key/<key-id>."
      if parts.length < 4 ∨ parts[0]? ≠ some ['a', 'w', 's'] ∨ parts[1]? ≠ some ['k', 'm', 's'] then
        invalidArgument bad
      else
        match Text.afterHead ['k', 'e', 'y', '/'] (parts.getLastD []) with
        | none | some [] => invalidArgument bad
        | some name => .ok (String.ofList name)

def parseBucketKeyEnabled : Option String → Except S3Error (Option Bool)
  | none => .ok none
  | some v =>
    if trimmedIs v "true" then .ok (some true)
    else if trimmedIs v "false" then .ok (some false)
    else invalidArgument
      s!"Value for x-amz-server-side-encryption-bucket-key-enabled header is invalid: {v}"

def parseSseContext (decodeB64Lenient : String → Option Bytes) :
    Option String → Except S3Error (Option String)
  | none => .ok none
  | some v =>
    let trimmed := String.ofList (Text.trim v.toList)
    match decodeB64Lenient trimmed with
    | none => invalidArgument
        "Value for x-amz-server-side-encryption-context header is invalid base64."
    | some decoded =>
      if decoded.length > 2048 then
        invalidArgument "The server-side encryption context is too large."
      else .ok (some trimmed)

def parseSseKmsHeaders (decodeB64Lenient : String → Option Bytes) (request : S3Request) :
    Except S3Error (Option SseKmsHeaders) := do
  let keyIdRaw := request.header hdrSseKmsKeyId
  let bkeRaw := request.header hdrSseBucketKeyEnabled
  let ctxRaw := request.header hdrSseKmsContext
  if keyIdRaw.isNone ∧ bkeRaw.isNone ∧ ctxRaw.isNone then return none
  else
    let keyId ← match keyIdRaw with
      | none => .ok none
      | some v => (parseKmsKeyId (Text.trim v.toList)).map some
    let bucketKeyEnabled ← parseBucketKeyEnabled bkeRaw
    let context ← parseSseContext decodeB64Lenient ctxRaw
    return some ⟨keyId, bucketKeyEnabled, context⟩

/-- `parse_customer_headers`; the digest of the key stands in the header as it is. -/
def parseCustomerHeaders (decodeB64Lenient : String → Option Bytes) (md5 : Bytes → Bytes)
    (request : S3Request) : Except S3Error (Option SseCHeaders) :=
  match request.header hdrAlgorithm, request.header hdrKey, request.header hdrKeyMd5 with
  | none, none, none => .ok none
  | some alg, some keyB64, some md5B64 =>
    if !trimmedIs alg "AES256" then .error ⟨.invalidEncryptionAlgorithmError, ""⟩
    else
      match decodeB64Lenient keyB64 with
      | none => invalidRequest s!"Value for {hdrKey} header is invalid."
      | some key =>
        if key.length ≠ 32 then invalidRequest
          "The customer encryption key must be a 256-bit (32 byte) value, base64-encoded."
        else
          match decodeB64Lenient md5B64 with
          | none => .error ⟨.invalidDigest, ""⟩
          | some declared =>
            if declared ≠ md5 key then
              .error ⟨.invalidDigest,
                s!"The {hdrKeyMd5} you specified does not match the provided key."⟩
            else .ok (some ⟨key, md5B64⟩)
  | _, _, _ => invalidRequest
      s!"SSE-C requests must specify all three of {hdrAlgorithm}, {hdrKey} and {hdrKeyMd5}."

def emptyKms : SseKmsHeaders :=
  ⟨none, none, none⟩

def defaultIntent : Option SseAlgorithm → SseWriteIntent
  | some .aes256 => .sseS3
  | some .kms => .sseKms emptyKms
  | none => .none

/-- The intent from the key of the customer, the algorithm and the settings of the KMS. -/
def settleIntent (ssec : Option SseCHeaders) (bucketDefault : Option SseAlgorithm)
    (algo : Option SseAlgorithm) (kms : Option SseKmsHeaders) : Except S3Error SseWriteIntent :=
  if ssec.isSome then
    if algo.isSome then invalidArgument "SSE-C and SSE-S3 headers are mutually exclusive."
    else if kms.isSome then invalidArgument "SSE-C and SSE-KMS headers are mutually exclusive."
    else .ok .sseC
  else
    match algo, kms with
    | some .kms, kms => .ok (.sseKms (kms.getD emptyKms))
    | _, some _ => invalidArgument
        "x-amz-server-side-encryption-aws-kms-key-id requires x-amz-server-side-encryption: aws:kms."
    | some .aes256, none => .ok .sseS3
    | none, none => .ok (defaultIntent bucketDefault)

def sseWriteIntent (decodeB64Lenient : String → Option Bytes) (request : S3Request)
    (ssec : Option SseCHeaders) (bucketDefault : Option SseAlgorithm) : Except S3Error SseWriteIntent := do
  let algo ← parseSseS3Header request
  let kms ← parseSseKmsHeaders decodeB64Lenient request
  settleIntent ssec bucketDefault algo kms

def SseWriteIntent.kind : SseWriteIntent → Option SseKind
  | none => .none
  | sseC => some .sseC
  | sseS3 => some .sseS3
  | sseKms _ => some .sseKms

/-- The fields of a form, with their names in small letters, and its one file. -/
structure PostForm where
  fields : List (String × String)
  fileName : Option String
  file : Bytes
deriving Repr, DecidableEq

def PostForm.field (form : PostForm) (name : String) : Option String :=
  (form.fields.find? fun field => field.1 = name).map Prod.snd

/-- What the upload by a form works with besides: the reader of forms, the check of the signature, of the
document in the form and of the policies, and the parsers of tags. -/
structure FormTools where
  parseForm : S3Request → Except S3Error PostForm
  admits : S3Request → PostForm → String → Except S3Error Unit
  parseTagging : String → Except S3Error (List (String × String))
  parseTaggingHeader : String → Except S3Error (List (String × String))

def missingKey : S3Error :=
  ⟨.userKeyMustBeSpecified, "The bucket POST must contain the specified field name: key"⟩

def postKey (form : PostForm) : Except S3Error String :=
  match form.field "key" with
  | none => .error missingKey
  | some raw =>
    let key := String.ofList
      (Text.replace "$\x7bfilename\x7d".toList (form.fileName.getD "").toList raw.toList)
    if key = "" then .error ⟨.userKeyMustBeSpecified, ""⟩ else .ok key

def postAcl (blocksPublicAcls : Bool) (form : PostForm) : Except S3Error Unit :=
  match form.field "acl" with
  | none => .ok ()
  | some acl =>
    if !knownCannedAcls.any (eqIgnoreAsciiCase acl) then
      invalidArgument s!"The canned ACL you provided is not valid: {acl}"
    else if isPublicCannedAcl acl ∧ blocksPublicAcls then
      .error ⟨.accessDenied, "PublicAccessBlock BlockPublicAcls denies public canned ACL."⟩
    else .ok ()

def postTags (forms : FormTools) (form : PostForm) : Except S3Error (List (String × String)) :=
  match form.field "tagging", form.field "x-amz-tagging" with
  | some _, some _ => invalidArgument "only one of tagging / x-amz-tagging may be specified"
  | some xml, none => forms.parseTagging xml
  | none, some raw => forms.parseTaggingHeader raw
  | none, none => .ok []

def postUserMeta (form : PostForm) : List (String × String) :=
  form.fields.filter fun field => "x-amz-meta-".toList.isPrefixOf field.1.toList

def postRespHeaders (form : PostForm) : List (String × String) :=
  ["cache-control", "content-disposition", "content-encoding", "expires"].filterMap fun name =>
    (form.field name).map (Prod.mk name)

def postChecksum (decodeB64Lenient : String → Option Bytes) :
    List (String × String) → Option ChecksumInfo → Except S3Error (Option ChecksumInfo)
  | [], found => .ok found
  | (name, value) :: rest, found =>
    match Text.afterHead checksumHead.toList name.toList with
    | none => postChecksum decodeB64Lenient rest found
    | some suffix =>
      match ChecksumAlgorithm.fromHeaderSuffix suffix with
      | none => unsupportedAlg (String.ofList suffix)
      | some alg =>
        if found.isSome then invalidRequest
          "Expecting a single x-amz-checksum- field. Multiple checksum types are not allowed."
        else
          match decodeB64Lenient value with
          | none =>
            let name := String.ofList suffix
            invalidRequest s!"Value for x-amz-checksum-{name} field is invalid."
          | some raw => postChecksum decodeB64Lenient rest (some ⟨alg, raw⟩)

def postSseFields (form : PostForm) : Except S3Error Unit :=
  if form.fields.any fun field =>
      "x-amz-server-side-encryption-customer-".toList.isPrefixOf field.1.toList then
    invalidRequest
      "POST browser-based uploads do not support SSE-C (x-amz-server-side-encryption-customer-* fields)."
  else if form.fields.any fun field => eqIgnoreAsciiCase field.1 hdrSseS3 then
    invalidRequest
      "POST browser-based uploads do not support the x-amz-server-side-encryption field; bucket default encryption applies automatically."
  else .ok ()

def postLockHeaders (form : PostForm) : List (String × String) :=
  ["x-amz-object-lock-mode", "x-amz-object-lock-retain-until-date", "x-amz-object-lock-legal-hold"].filterMap
    fun name => (form.field name).map (Prod.mk name)

namespace PutTools

variable (tools : PutTools)

/-- A bucket with a default gives the write a key of the service, whatever the default is. -/
def postKeyOf (bkt : BucketMeta) : Except PutError (Option Bytes) :=
  if bkt.defaultEncryption.isSome then (refusing tools.mintS3).map some else .ok none

/-- `op_post_object` up to the engine. -/
def preparePostObject (forms : FormTools) (state : PutState) (request : S3Request) :
    Except PutError Upload := do
  let form ← refusing (forms.parseForm request)
  let key ← refusing (postKey form)
  refusing (checkObjectKeyLength key)
  check (form.file.length ≤ maxObjectSize)
    (.refused ⟨.entityTooLarge, "Object exceeds the 5TiB maximum object size."⟩)
  refusing (forms.admits request form key)
  refusing (postAcl tools.blocksPublicAcls form)
  let tags ← refusing (postTags forms form)
  refusing (checkUserMetaSize (postUserMeta form))
  let declared ← refusing (postChecksum tools.parsers.decodeB64Lenient form.fields none)
  refusing (postSseFields form)
  let bkt ← getBucket state
  let s3Key ← tools.postKeyOf bkt
  let lock ← refusing (tools.parsers.resolveWrite { request with headers := postLockHeaders form } bkt)
  return {
    versioning := bkt.versioning
    write := .object
      { contentType := form.field "content-type"
        userMeta := postUserMeta form
        respHeaders := postRespHeaders form
        tags := tags
        precond := none
        checksumAlg := declared.map ChecksumInfo.algorithm
        sseKey := s3Key.map .sseS3
        lock := lock
        requestedStorageClass := (storageClasses request).1
        storageClass := (storageClasses request).2 }
    body := form.file
    late := fun _ actual => (lateChecksum declared actual).map (·, true) }

def opPostObject (forms : FormTools) (state : PutState) (request : S3Request) :
    Except PutError Written × PutState :=
  tools.carryOut state (tools.preparePostObject forms state request)

end PutTools

def sseS3ResponseHeader : String × String :=
  (hdrSseS3, "AES256")

def kmsReadResponseHeaders (keyName : String) (bucketKeyEnabled : Option Bool) :
    List (String × String) :=
  (hdrSseS3, "aws:kms") :: ((if keyName = "" then [] else [(hdrSseKmsKeyId, keyName)]) ++
    (bucketKeyEnabled.map fun enabled => (hdrSseBucketKeyEnabled, toString enabled)).toList)

def customerResponseHeaders (ssec : Option SseCHeaders) : List (String × String) :=
  match ssec with
  | none => []
  | some ssec => [(hdrAlgorithm, "AES256"), (hdrKeyMd5, ssec.keyMd5)]

/-- Tools with the parsers of this module, and the names of the keys that are minted. -/
structure SseTools extends PutTools where
  intent : parsers.sseWriteIntent = sseWriteIntent parsers.decodeB64Lenient
  customer : parsers.customerHeaders = parseCustomerHeaders parsers.decodeB64Lenient digests.md5
  keyName : SseKmsHeaders → String

inductive WritePath where
  | buffered (verified : Verified) (content : Bytes)
  | stream (verified : Verified) (key : String) (content : Bytes)
  | form (forms : FormTools)

namespace SseTools

variable (tools : SseTools)

def putResponseHeaders (state : PutState) (request : S3Request) : Except S3Error (List (String × String)) := do
  let ssec ← tools.parsers.customerHeaders request
  match state.bucket with
  | none => return []
  | some bkt =>
    let intent ← tools.parsers.sseWriteIntent request ssec bkt.defaultEncryption
    return customerResponseHeaders ssec ++
      match intent with
      | .sseS3 => [sseS3ResponseHeader]
      | .sseKms headers => kmsReadResponseHeaders (tools.keyName headers) headers.bucketKeyEnabled
      | _ => []

def postResponseHeaders (state : PutState) : List (String × String) :=
  if (state.bucket.bind BucketMeta.defaultEncryption).isSome then [sseS3ResponseHeader] else []

def responseHeaders (path : WritePath) (state : PutState) (request : S3Request) :
    List (String × String) :=
  match path with
  | .buffered _ _ => (tools.putResponseHeaders state request).toOption.getD []
  | .stream _ _ _ => (tools.putResponseHeaders state request).toOption.getD []
  | .form _ => postResponseHeaders state

def upload (path : WritePath) (state : PutState) (request : S3Request) :
    Except PutError Written × PutState :=
  match path with
  | .buffered verified content => tools.opPutObjectBuffered state verified request content
  | .stream verified key content => tools.putObjectStreamInner state verified request key .object content
  | .form forms => tools.opPostObject forms state request

end SseTools

def Plain (request : S3Request) : Prop :=
  ∀ header ∈ request.headers, ∀ name ∈ sseHeaderNames, eqIgnoreAsciiCase header.1 name = false

def WritePath.Plain (path : WritePath) (request : S3Request) : Prop :=
  match path with
  | .buffered _ _ => S3.Plain request
  | .stream _ _ _ => S3.Plain request
  | .form _ => True

def shownKind (headers : List (String × String)) : Option SseKind :=
  match (headers.find? fun header => header.1 = hdrSseS3).map Prod.snd with
  | some value => if value = "AES256" then some .sseS3 else if value = "aws:kms" then some .sseKms else none
  | none => none

section Plain

variable {request : S3Request}

theorem header_plain (plain : Plain request) {name : String} (known : name ∈ sseHeaderNames) :
    request.header name = none := by
  rw [S3Request.header, Option.map_eq_none_iff, List.find?_eq_none]
  intro header inside found
  rw [plain header inside name known] at found
  cases found

theorem sseWriteIntent_plain (plain : Plain request) (decodeB64Lenient : String → Option Bytes)
    (bucketDefault : Option SseAlgorithm) :
    sseWriteIntent decodeB64Lenient request none bucketDefault = .ok (defaultIntent bucketDefault) := by
  have algorithm : parseSseS3Header request = .ok none := by
    rw [parseSseS3Header, header_plain plain (by decide)]
  have kms : parseSseKmsHeaders decodeB64Lenient request = .ok none := by
    rw [parseSseKmsHeaders, header_plain plain (show hdrSseKmsKeyId ∈ sseHeaderNames by decide),
      header_plain plain (show hdrSseBucketKeyEnabled ∈ sseHeaderNames by decide),
      header_plain plain (show hdrSseKmsContext ∈ sseHeaderNames by decide)]
    rfl
  rw [sseWriteIntent, algorithm, kms]
  rfl

theorem parseCustomerHeaders_plain (plain : Plain request) (decodeB64Lenient : String → Option Bytes)
    (md5 : Bytes → Bytes) : parseCustomerHeaders decodeB64Lenient md5 request = .ok none := by
  rw [parseCustomerHeaders, header_plain plain (show hdrAlgorithm ∈ sseHeaderNames by decide),
    header_plain plain (show hdrKey ∈ sseHeaderNames by decide),
    header_plain plain (show hdrKeyMd5 ∈ sseHeaderNames by decide)]

end Plain

section Kinds

variable {tools : PutTools} {state after : PutState} {request : S3Request} {upload : Upload}
  {stored : StoredObject}

theorem writeKey_default {bucketDefault : Option SseAlgorithm} {s3Key kmsKey : Option Bytes}
    (minted : tools.s3Key (defaultIntent bucketDefault) = .ok s3Key)
    (kms : tools.kmsKey (defaultIntent bucketDefault) = .ok kmsKey) :
    (PutTools.writeKey none s3Key kmsKey).map WriteKey.kind = (defaultIntent bucketDefault).kind := by
  cases bucketDefault with
  | none =>
    cases minted
    cases kms
    rfl
  | some algorithm =>
    cases algorithm with
    | aes256 =>
      cases kms
      rw [defaultIntent, PutTools.s3Key] at minted
      cases made : refusing tools.mintS3 with
      | error e =>
        rw [made] at minted
        cases minted
      | ok key =>
        rw [made] at minted
        cases minted
        rfl
    | kms =>
      cases minted
      rw [defaultIntent, PutTools.kmsKey] at kms
      cases made : refusing (tools.mintKms emptyKms) with
      | error e =>
        rw [made] at kms
        cases kms
      | ok key =>
        rw [made] at kms
        cases kms
        rfl

theorem carryOut_object {prepared : Except PutError Upload}
    (wrote : tools.carryOut state prepared = (.ok (.object stored), after)) :
    ∃ upload put, prepared = .ok upload ∧ upload.write = .object put ∧
      stored.sse = put.sseKey.map WriteKey.kind ∧
      ∃ version, after = { state with group := state.group.put version stored } := by
  obtain ⟨upload, ready, -, same, -⟩ := carryOut_eq_ok.mp (congrArg Prod.fst wrote)
  subst ready
  have whole := carryOut_state (congrArg Prod.fst wrote)
  rw [wrote] at whole
  dsimp only at whole
  cases call : upload.write with
  | part put =>
    rw [PutTools.written, call] at same
    cases same
  | object put =>
    have stores : tools.store state upload =
        { state with group := state.group.put (tools.target state upload).versionKey stored } := by
      rw [PutTools.store, ← same, call]
    rw [PutTools.written, call] at same
    cases same
    exact ⟨upload, put, rfl, call, rfl, _, whole.trans stores⟩

theorem prepareStream_key {verified : Verified} {key : String} {content : Bytes}
    (prepared : tools.prepareStream state verified request key .object content = .ok upload) :
    ∃ ssec bkt intent kmsKey s3Key put, tools.parsers.customerHeaders request = .ok ssec ∧
      state.bucket = some bkt ∧
      tools.parsers.sseWriteIntent request ssec bkt.defaultEncryption = .ok intent ∧
      tools.kmsKey intent = .ok kmsKey ∧ tools.s3Key intent = .ok s3Key ∧
      upload.write = .object put ∧ put.sseKey = PutTools.writeKey ssec s3Key kmsKey := by
  rw [PutTools.prepareStream] at prepared
  simp only [bind_eq_ok] at prepared
  obtain ⟨-, -, -, -, -, -, -, -, bkt, bucket, precond, -, -, -, tags, -, -, -, -, -, cksum, -,
    ssec, customer, intent, intended, kmsKey, kms, payload, -, -, -, -, -, write, called, body, -,
    ⟨⟩⟩ := prepared
  obtain ⟨s3Key, minted, called⟩ := bind_ok called
  obtain ⟨lock, -, called⟩ := bind_ok called
  cases called
  exact ⟨ssec, bkt, intent, kmsKey, s3Key, _, refusing_eq_ok.mp customer, getBucket_eq_ok.mp bucket,
    refusing_eq_ok.mp intended, kms, minted, rfl, rfl⟩

theorem preparePostObject_key {forms : FormTools}
    (prepared : tools.preparePostObject forms state request = .ok upload) :
    ∃ bkt put, state.bucket = some bkt ∧ upload.write = .object put ∧
      put.sseKey.map WriteKey.kind = if bkt.defaultEncryption.isSome then some .sseS3 else none := by
  rw [PutTools.preparePostObject] at prepared
  simp only [bind_eq_ok] at prepared
  obtain ⟨form, -, key, -, -, -, -, -, -, -, -, -, tags, -, -, -, declared, -, -, -, bkt, bucket,
    s3Key, minted, lock, -, ⟨⟩⟩ := prepared
  refine ⟨bkt, _, getBucket_eq_ok.mp bucket, rfl, ?_⟩
  rw [PutTools.postKeyOf] at minted
  split at minted
  · next some =>
      rw [if_pos some]
      cases made : refusing tools.mintS3 with
      | error e =>
        rw [made] at minted
        cases minted
      | ok key =>
        rw [made] at minted
        cases minted
        rfl
  · next none =>
      rw [if_neg none]
      cases minted
      rfl

end Kinds

section Paths

variable {tools : SseTools} {state after : PutState} {request : S3Request} {bkt : BucketMeta}
  {stored : StoredObject}

theorem putResponseHeaders_plain (plain : Plain request) (bucket : state.bucket = some bkt) :
    shownKind ((tools.putResponseHeaders state request).toOption.getD []) =
      (defaultIntent bkt.defaultEncryption).kind := by
  have none : tools.parsers.customerHeaders request = .ok none := by
    rw [tools.customer, parseCustomerHeaders_plain plain]
  have intent : tools.parsers.sseWriteIntent request .none bkt.defaultEncryption =
      .ok (defaultIntent bkt.defaultEncryption) := by
    rw [tools.intent, sseWriteIntent_plain plain]
  simp only [SseTools.putResponseHeaders, none, bucket, intent, bind, Except.bind, pure, Except.pure,
    Except.toOption, Option.getD_some, customerResponseHeaders, List.nil_append]
  cases bkt.defaultEncryption with
  | none => rfl
  | some algorithm =>
    cases algorithm with
    | aes256 => rfl
    | kms => rfl

theorem buffered_kind {verified : Verified} {content : Bytes} (plain : Plain request)
    (bucket : state.bucket = some bkt)
    (wrote : tools.opPutObjectBuffered state verified request content = (.ok (.object stored), after)) :
    stored.sse = (defaultIntent bkt.defaultEncryption).kind ∧
      ∃ version, after = { state with group := state.group.put version stored } := by
  obtain ⟨upload, put, ready, call, kind, group⟩ := carryOut_object wrote
  obtain ⟨payload, md5, settings, -, -, -, -, -, read, same⟩ := preparePutObject_eq_ok.mp ready
  refine ⟨?_, group⟩
  have found : settings.bkt = bkt := Option.some.inj (read.bkt.symm.trans bucket)
  have ssec : settings.ssec = none := by
    have parsed := read.ssec
    rw [tools.customer, parseCustomerHeaders_plain plain] at parsed
    exact (Except.ok.inj parsed).symm
  have intent : settings.intent = defaultIntent bkt.defaultEncryption := by
    have parsed := read.intent
    rw [tools.intent, ssec, sseWriteIntent_plain plain, found] at parsed
    exact (Except.ok.inj parsed).symm
  subst same
  cases call
  have minted := read.s3Key
  have kms := read.kmsKey
  rw [intent] at minted kms
  rw [kind]
  change (PutTools.writeKey settings.ssec settings.s3Key settings.kmsKey).map WriteKey.kind = _
  rw [ssec]
  exact writeKey_default minted kms

theorem stream_kind {verified : Verified} {key : String} {content : Bytes} (plain : Plain request)
    (bucket : state.bucket = some bkt)
    (wrote : tools.putObjectStreamInner state verified request key .object content =
      (.ok (.object stored), after)) :
    stored.sse = (defaultIntent bkt.defaultEncryption).kind ∧
      ∃ version, after = { state with group := state.group.put version stored } := by
  obtain ⟨upload, put, ready, call, kind, group⟩ := carryOut_object wrote
  obtain ⟨ssec, found, intent, kmsKey, s3Key, other, customer, held, intended, kms, minted, called, sealed⟩ :=
    prepareStream_key ready
  refine ⟨?_, group⟩
  rw [call] at called
  cases called
  cases held.symm.trans bucket
  rw [tools.customer, parseCustomerHeaders_plain plain] at customer
  cases customer
  rw [tools.intent, sseWriteIntent_plain plain] at intended
  cases intended
  rw [kind, sealed]
  exact writeKey_default minted kms

theorem form_kind {forms : FormTools} (bucket : state.bucket = some bkt)
    (wrote : tools.opPostObject forms state request = (.ok (.object stored), after)) :
    (stored.sse = if bkt.defaultEncryption.isSome then some .sseS3 else none) ∧
      ∃ version, after = { state with group := state.group.put version stored } := by
  obtain ⟨upload, put, ready, call, kind, group⟩ := carryOut_object wrote
  obtain ⟨found, other, held, called, sealed⟩ := preparePostObject_key ready
  refine ⟨?_, group⟩
  rw [call] at called
  cases called
  cases held.symm.trans bucket
  rw [kind, sealed]

theorem postResponseHeaders_kind (bucket : state.bucket = some bkt) :
    shownKind (SseTools.postResponseHeaders state) =
      if bkt.defaultEncryption.isSome then some .sseS3 else none := by
  rw [SseTools.postResponseHeaders, bucket, Option.bind_some]
  cases bkt.defaultEncryption with
  | none => rfl
  | some algorithm => rfl

/-- An object that is uploaded without an encryption of its own has the kind of the default of its
bucket, and the response shows it, unless a form goes into a bucket whose default is a key of the KMS. -/
theorem default_applies_iff (path : WritePath) (plain : path.Plain request)
    (bucket : state.bucket = some bkt)
    (wrote : tools.upload path state request = (.ok (.object stored), after)) :
    (∃ version, after = { state with group := state.group.put version stored }) ∧
      shownKind (tools.responseHeaders path state request) = stored.sse ∧
      (stored.sse = (defaultIntent bkt.defaultEncryption).kind ↔
        ¬((∃ forms, path = .form forms) ∧ bkt.defaultEncryption = some .kms)) := by
  cases path with
  | buffered verified content =>
    obtain ⟨kind, group⟩ := buffered_kind plain bucket wrote
    refine ⟨group, ?_, iff_of_true kind ?_⟩
    · rw [kind]
      exact putResponseHeaders_plain plain bucket
    · intro both
      obtain ⟨⟨forms, other⟩, -⟩ := both
      cases other
  | stream verified key content =>
    obtain ⟨kind, group⟩ := stream_kind plain bucket wrote
    refine ⟨group, ?_, iff_of_true kind ?_⟩
    · rw [kind]
      exact putResponseHeaders_plain plain bucket
    · intro both
      obtain ⟨⟨forms, other⟩, -⟩ := both
      cases other
  | form forms =>
    obtain ⟨kind, group⟩ := form_kind bucket wrote
    refine ⟨group, ?_, ?_⟩
    · rw [kind]
      exact postResponseHeaders_kind bucket
    · rw [kind]
      cases bkt.defaultEncryption with
      | none => exact iff_of_true rfl fun both => nomatch both.2
      | some algorithm =>
        cases algorithm with
        | aes256 => exact iff_of_true rfl fun both => nomatch both.2
        | kms => exact iff_of_false (fun same => nomatch same) fun other => other ⟨⟨forms, rfl⟩, rfl⟩

end Paths

def keyedTools : SseTools where
  toPutTools := { bareTools with
    parsers := { bareParsers with
      customerHeaders := parseCustomerHeaders bareParsers.decodeB64Lenient md5Of
      sseWriteIntent := sseWriteIntent bareParsers.decodeB64Lenient }
    mintS3 := .ok [1]
    mintKms := fun _ => .ok [2] }
  intent := rfl
  customer := rfl
  keyName := fun _ => "k1"

def bareForms : FormTools where
  parseForm _ := .ok ⟨[("key", "k")], none, newBytes⟩
  admits _ _ _ := .ok ()
  parseTagging _ := .ok []
  parseTaggingHeader _ := .ok []

def defaultState (bucketDefault : Option SseAlgorithm) : PutState :=
  { oldState with bucket := some { BucketMeta.created with defaultEncryption := bucketDefault } }

def bareRequest : S3Request :=
  { wrongMd5Request with headers := [] }

def keyedObject (kind : Option SseKind) : StoredObject :=
  { oldObject with content := newBytes, etag := newMd5, mtime := 1700000000, sse := kind }

/-- A put in one piece into a bucket whose default is a key of the KMS. -/
theorem default_applies_put :
    shownKind (keyedTools.responseHeaders (.buffered ⟨.ok (some .unsigned), .ok none⟩ newBytes)
        (defaultState (some .kms)) bareRequest) = (keyedObject (some .sseKms)).sse ∧
      (keyedObject (some .sseKms)).sse = (defaultIntent (some .kms)).kind := by
  have stored : (keyedTools.upload (.buffered ⟨.ok (some .unsigned), .ok none⟩ newBytes)
      (defaultState (some .kms)) bareRequest).1 = .ok (.object (keyedObject (some .sseKms))) := by
    decide +kernel
  have plain : Plain bareRequest := by
    intro header inside
    cases inside
  have wrote : keyedTools.upload (.buffered ⟨.ok (some .unsigned), .ok none⟩ newBytes)
      (defaultState (some .kms)) bareRequest = (.ok (.object (keyedObject (some .sseKms))),
        (keyedTools.upload (.buffered ⟨.ok (some .unsigned), .ok none⟩ newBytes)
          (defaultState (some .kms)) bareRequest).2) :=
    Prod.ext stored rfl
  have result := default_applies_iff (.buffered ⟨.ok (some .unsigned), .ok none⟩ newBytes) plain rfl wrote
  exact ⟨result.2.1, result.2.2.mpr fun both => nomatch both.1⟩

/-- A form into a bucket whose default is a key of the KMS is stored under a key of the service. -/
theorem form_into_kms_bucket :
    ∃ (tools : SseTools) (forms : FormTools) (state after : PutState) (request : S3Request)
      (bkt : BucketMeta) (stored : StoredObject), state.bucket = some bkt ∧
      bkt.defaultEncryption = some .kms ∧
      tools.upload (.form forms) state request = (.ok (.object stored), after) ∧
      stored.sse = some .sseS3 ∧ stored.sse ≠ (defaultIntent bkt.defaultEncryption).kind := by
  have stored : (keyedTools.upload (.form bareForms) (defaultState (some .kms)) bareRequest).1 =
      .ok (.object (keyedObject (some .sseS3))) := by
    decide +kernel
  exact ⟨keyedTools, bareForms, defaultState (some .kms), _, bareRequest, _, keyedObject (some .sseS3), rfl,
    rfl, Prod.ext stored rfl, rfl, by decide⟩

end FastS3.S3
