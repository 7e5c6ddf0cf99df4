import FastS3.S3.RequestTarget

namespace FastS3.S3

open FastS3.Core (Bytes VersioningState vkNull)
open Meta (BucketFilter Store)

/-! Requests on data: what their policies are evaluated for, and which objects and uploads they touch.
-/

/-- An action on a bucket, or on a key of it, that the policies of a requester allowed. -/
structure Evaluation where
  action : String
  bucket : String
  key : String
deriving Repr, DecidableEq

/-- What an operation does to data: it reads the content of a version, it takes away a version by
deleting or by writing over it, it passes over a retention, or it reads or changes an upload. -/
inductive Access where
  | content (bucket key : String)
  | removal (action bucket key : String)
  | bypass (bucket key : String)
  | upload (id : String)
deriving Repr, DecidableEq

structure UploadTarget where
  bucket : String
  key : String
deriving Repr, DecidableEq

/-- What becomes of an entry of a batch in front of its deletion. -/
inductive EntryCheck where
  | pass
  | skip
  | stop
deriving Repr, DecidableEq

/-- What the engine answers while an operation runs, and what becomes of the steps that only refuse.
The deletions of an operation are numbered; a deletion tells whether a retention was passed over,
which takes the header. -/
structure Answers where
  versioning : String → Option VersioningState
  upload : String → Option UploadTarget
  deletionMarker : String → String → Option Bytes → Option Bool
  accepts : Operation → Bool
  replaces : Operation → Bool
  expired : List String
  entryCheck : Nat → DeleteObjectEntry → EntryCheck
  delete : Nat → String → String → Option Bytes → Bool → Option Bool
  honoured : ∀ n bucket key vk bypass, delete n bucket key vk bypass = some true → bypass = true

def VersionIdArg.toVk : VersionIdArg → Bytes
  | null => vkNull
  | vk key => key

def S3Request.bypassGovernance (request : S3Request) : Bool :=
  (request.header "x-amz-bypass-governance-retention").any fun value => eqIgnoreAsciiCase value "true"

namespace Answers

variable (answers : Answers)

def touched (id : String) : List Access :=
  if (answers.upload id).isSome then [.upload id] else []

def reads (op : Operation) (bucket key : String) (version : Option VersionIdArg) : Bool :=
  (answers.versioning bucket).isSome &&
    answers.deletionMarker bucket key (version.map VersionIdArg.toVk) = some false &&
    answers.accepts op

/-- `op_copy_object` up to its source: without a change an object is not copied to itself. -/
def copySourceMarker (bucket key : String) (source : CopySource) (directive : Option String) :
    Option Bool :=
  if directive ≠ none ∧ directive ≠ some "COPY" ∧ directive ≠ some "REPLACE" then none
  else if directive ≠ some "REPLACE" ∧ source.bucket = bucket ∧ source.key = key then none
  else if answers.versioning bucket = none ∨ answers.versioning source.bucket = none then none
  else match parseVersionIdParam source.versionId with
    | .error _ => none
    | .ok version =>
      -- a marker is copied under its own version only
      match answers.deletionMarker source.bucket source.key (version.map VersionIdArg.toVk) with
      | some true => if version = none then none else some true
      | other => other

/-- `op_copy_object`. -/
def copyObject (op : Operation) (bucket key : String) (source : CopySource)
    (directive : Option String) : List Access :=
  match answers.copySourceMarker bucket key source directive with
  | none => []
  | some marker =>
    if answers.accepts op then
      (if marker then [] else [.content source.bucket source.key]) ++
        (if answers.replaces op then [.removal "PutObject" bucket key] else [])
    else []

def partSource (bucket : String) (source : CopySource) : Bool :=
  match parseVersionIdParam source.versionId with
  | .error _ => false
  | .ok version =>
    (answers.versioning bucket).isSome && (answers.versioning source.bucket).isSome &&
      answers.deletionMarker source.bucket source.key (version.map VersionIdArg.toVk) = some false

/-- `op_upload_part_copy`: the source is looked up before the upload is. -/
def uploadPartCopy (op : Operation) (bucket uploadId : String) (source : CopySource) : List Access :=
  if answers.partSource bucket source then
    answers.touched uploadId ++
      (if (answers.upload uploadId).isSome ∧ answers.accepts op then
        [.content source.bucket source.key] else [])
  else []

/-- `op_complete_multipart_upload`. -/
def completeMultipartUpload (op : Operation) (bucket key uploadId : String)
    (parts : List CompletePart) : List Access :=
  if parts ≠ [] ∧ answers.accepts op then
    answers.touched uploadId ++
      (if (answers.upload uploadId).isSome ∧ answers.replaces op then
        [.removal "Multipart" bucket key] else [])
  else []

def deletion (n : Nat) (bucket key : String) (version : Option VersionIdArg) (bypass : Bool) :
    List Access :=
  match answers.delete n bucket key (version.map VersionIdArg.toVk) bypass with
  | none => []
  | some passedOver =>
    .removal "DeleteObject" bucket key :: (if passedOver then [.bypass bucket key] else [])

def addressable (state : VersioningState) (version : Option VersionIdArg) : Bool :=
  match state, version with
  | .off, some (.vk _) => false
  | _, _ => true

/-- `op_delete_object`. -/
def deleteObject (op : Operation) (bucket key : String) (version : Option VersionIdArg)
    (bypass : Bool) : List Access :=
  match answers.versioning bucket with
  | none => []
  | some state =>
    if addressable state version ∧ answers.accepts op then
      answers.deletion 0 bucket key version bypass
    else []

/-- The loop of `op_delete_objects`: an entry that fails is left, and an error of the engine ends it. -/
def deleteEntries (bucket : String) (state : VersioningState) (bypass : Bool) :
    Nat → List DeleteObjectEntry → List Access
  | _, [] => []
  | n, entry :: rest =>
    match parseVersionIdParam entry.versionId with
    | .error _ => deleteEntries bucket state bypass (n + 1) rest
    | .ok version =>
      if addressable state version then
        match answers.entryCheck n entry with
        | .stop => []
        | .skip => deleteEntries bucket state bypass (n + 1) rest
        | .pass =>
          answers.deletion n bucket entry.key version bypass ++
            deleteEntries bucket state bypass (n + 1) rest
      else deleteEntries bucket state bypass (n + 1) rest

/-- `op_delete_objects`. -/
def deleteObjects (bucket : String) (keys : List DeleteObjectEntry) (bypass : Bool) : List Access :=
  match answers.versioning bucket with
  | none => []
  | some state => if keys.length > 1000 then [] else answers.deleteEntries bucket state bypass 0 keys

/-- What an operation touches.  A form post is not among them: its key is in the form. -/
def accesses (request : S3Request) (op : Operation) : List Access :=
  match op with
  | .getObject bucket key version =>
    if answers.reads op bucket key version then [.content bucket key] else []
  | .getObjectPart bucket key _ =>
    if answers.reads op bucket key none then [.content bucket key] else []
  | .putObject bucket key =>
    if (answers.versioning bucket).isSome ∧ answers.accepts op ∧ answers.replaces op then
      [.removal "PutObject" bucket key] else []
  | .copyObject bucket key source directive _ _ _ _ =>
    answers.copyObject op bucket key source directive
  | .uploadPart bucket _ _ uploadId =>
    if (answers.versioning bucket).isSome ∧ answers.accepts op then answers.touched uploadId else []
  | .uploadPartCopy bucket _ _ uploadId source _ =>
    answers.uploadPartCopy op bucket uploadId source
  | .completeMultipartUpload bucket key uploadId parts =>
    answers.completeMultipartUpload op bucket key uploadId parts
  | .abortMultipartUpload _ _ uploadId => answers.touched uploadId
  | .listParts bucket _ uploadId _ _ =>
    if (answers.versioning bucket).isSome then answers.touched uploadId else []
  -- uploads that have expired are swept away on the occasion
  | .createMultipartUpload bucket _ =>
    if (answers.versioning bucket).isSome ∧ answers.accepts op then answers.expired.map .upload
    else []
  | .deleteObject bucket key version =>
    answers.deleteObject op bucket key version request.bypassGovernance
  | .deleteObjects bucket _ keys => answers.deleteObjects bucket keys request.bypassGovernance
  | _ => []

end Answers

/-- A credential that the source of a replica hands out for the buckets of the replica.  It does not
expire: it is revoked with its row. -/
structure DelegatedCred where
  accessKey : String
  secretKey : String
  filters : BucketFilter
deriving DecidableEq

/-- The front of the service: its router and parsers, the signature of a request, the row of a
delegated credential, what policies are told about a request, whether anonymous reads are open, the
form of a post with the requester that signed it, and the checks that only refuse. -/
structure Front where
  router : Router
  std : HostText
  xml : Xml
  presented : S3Request → Presented
  replDcredIn : String → Option DelegatedCred
  policyContext : S3Request → String → String → EvalCtx
  allowAnonymous : Bool
  restrictsPublic : String → Bool
  postForm : S3Request → Except S3Error (String × Option AuthIdentity)
  unwritable : S3Request → Option S3Error
  refusal : S3Request → Operation → Option S3Error

/-- `DELEGATED_ACCESS_PREFIX`. -/
def delegatedHead : String := "REPL-"

def isSlotChar (c : Char) : Bool :=
  c.isAlphanum || c = '-' || c = '_' || c = '.'

/-- `delegated_cred`: the name of the key tells the row to look for. -/
def Front.delegatedCred (front : Front) (accessKey : String) : Option DelegatedCred :=
  if delegatedHead.toList.isPrefixOf accessKey.toList then
    let slot := accessKey.toList.drop delegatedHead.toList.length
    if slot = [] ∨ slot.all isSlotChar = false then none
    else (front.replDcredIn (String.ofList slot)).filter fun cred => cred.accessKey = accessKey
  else none

def refuse (problem : Option S3Error) : Except S3Error Unit :=
  match problem with
  | some e => .error e
  | none => .ok ()

inductive EntryPoint where
  | handle
  | stream
deriving Repr, DecidableEq

structure Run where
  op : Operation
  evaluated : List Evaluation
  accesses : List Access
deriving DecidableEq

def accessDenied {α : Type} : Except S3Error α :=
  .error ⟨.accessDenied, "Access Denied"⟩

namespace S3Service

variable (service : S3Service) (around : Surroundings) (rows : Store) (front : Front)

/-- `authenticate_full`: without a token, a delegated credential is judged under its own secret. -/
def authenticate (request : Presented) : Except S3Error (Option AuthIdentity) :=
  match request.token, request.peeked.bind front.delegatedCred with
  | none, some cred => do
      let signed ← service.verifyHeaderAuth (some cred.secretKey) request.header
      return signed.map fun _ => ⟨cred.accessKey, none⟩
  | _, _ => service.authenticateFull around rows request

def identified (request : S3Request) : Option AuthIdentity :=
  (service.authenticate around rows front (front.presented request)).toOption.join

def anonymousBucketGrant (action bucket key : String) (ctx : EvalCtx) : Bool :=
  bucket ≠ "" && !front.restrictsPublic bucket &&
    (around.bucketPolicy bucket).any fun p =>
      p.decide action (resourceArn bucket key) false ctx = .allow

/-- `authorize` with `authorize_bypass_if_requested`. -/
def authorizeRequest (request : S3Request) (auth : Option AuthIdentity) :
    Except S3Error (List Evaluation) := do
  let (_, name, bucket, key) := routeOpBucketKey request
  let target (action : String) : Target :=
    ⟨action, bucket, key, front.policyContext request bucket key⟩
  let own : Evaluation := ⟨s3ActionName name bucket key, bucket, key⟩
  service.authorize around auth (target name)
  if request.bypassGovernance ∧ (name = "PutObjectRetention" ∨ name = "DeleteObject") then
    service.authorize around auth (target "BypassGovernanceRetention")
    return [own, ⟨"BypassGovernanceRetention", bucket, key⟩]
  else return [own]

/-- The checks of `handle`: a delegated credential reads within its scope, and a form post is left to
its operation. -/
def evaluate (request : S3Request) (auth : Option AuthIdentity) :
    Except S3Error (List Evaluation) :=
  let (_, name, bucket, key) := routeOpBucketKey request
  match auth.bind fun identity => front.delegatedCred identity.who with
  | some cred =>
    if (request.method = .get ∨ request.method = .head) ∧ bucket ≠ "" ∧
        cred.filters.allowsBucket bucket then
      .ok [⟨s3ActionName name bucket key, bucket, key⟩]
    else .error ⟨.accessDenied,
      "delegated replication credential allows only GET/HEAD/List on in-scope buckets"⟩
  | none => if name = "PostObject" then .ok [] else service.authorizeRequest around front request auth

def requireAuth (answers : Answers) (request : S3Request) : Except S3Error Unit := do
  let auth ← service.authenticate around rows front (front.presented request)
  let (_, name, bucket, key) := routeOpBucketKey request
  if auth.isSome then return ()
  else if anonymousBucketGrant around front (s3ActionName name bucket key) bucket key
      (front.policyContext request bucket key) then return ()
  else if request.method ≠ .get ∧ request.method ≠ .head then
    if request.method = .delete ∧ bucket ≠ "" ∧ answers.versioning bucket = none then
      .error ⟨.noSuchBucket, "The specified bucket does not exist."⟩
    else accessDenied
  else if front.allowAnonymous = false ∨ bucket ≠ "" ∧ front.restrictsPublic bucket then accessDenied
  else return ()

def authorizeForm (request : S3Request) (bucket key : String) :
    Option AuthIdentity → Except S3Error Unit
  | some identity => service.authorize around (some identity)
      ⟨"PutObject", bucket, key, front.policyContext request bucket key⟩
  | none =>
    if anonymousBucketGrant around front "PutObject" bucket key
        (front.policyContext request bucket key) then .ok ()
    else accessDenied

/-- `op_post_object`. -/
def postObject (answers : Answers) (request : S3Request) (op : Operation) (bucket : String) :
    Except S3Error (Evaluation × List Access) := do
  let (key, identity) ← front.postForm request
  service.authorizeForm around front request bucket key identity
  let written := if answers.accepts op ∧ answers.replaces op then
    [Access.removal "PutObject" bucket key] else []
  return (⟨"PutObject", bucket, key⟩, written)

/-- `handle`.  A request that cannot be authenticated is anonymous until `handle_inner`. -/
def handle (answers : Answers) (request : S3Request) : Except S3Error Run := do
  let auth := service.identified around rows front request
  let evaluated ← service.evaluate around front request auth
  refuse (front.unwritable request)
  let op ← front.router.operation front.std front.xml request
  match op with
  | .postObject bucket =>
    refuse (front.refusal request op)
    let (own, written) ← service.postObject around front answers request op bucket
    return ⟨op, evaluated ++ [own], written⟩
  | _ =>
    service.requireAuth around rows front answers request
    refuse (front.refusal request op)
    return ⟨op, evaluated, answers.accesses request op⟩

def reverify (request : Presented) : Except S3Error (Option String) := do
  match ← service.verifyHeaderAuth none request.header with
  | some accessKey => return some accessKey
  | none => service.verifyQueryAuth request.query

/-- `put_object_stream`: only an object and a part are written so. -/
def putObjectStream (answers : Answers) (request : S3Request) : Except S3Error Run := do
  let auth := service.identified around rows front request
  let evaluated ← service.authorizeRequest around front request auth
  refuse (front.unwritable request)
  let op ← front.router.route front.std front.xml request.method request.host request.path
    request.query request.body
  match op with
  | .putObject _ _ | .uploadPart _ _ _ _ =>
    service.requireAuth around rows front answers request
    refuse (front.refusal request op)
    let _ ← service.reverify (front.presented request)
    return ⟨op, evaluated, answers.accesses request op⟩
  | _ => .error ⟨.invalidRequest, "streaming path only supports PUT object / upload part"⟩

def enter (answers : Answers) (request : S3Request) : EntryPoint → Except S3Error Run
  | .handle => service.handle around rows front answers request
  | .stream => service.putObjectStream around rows front answers request

def Ran (answers : Answers) (request : S3Request) (run : Run) : Prop :=
  ∃ entry, service.enter around rows front answers request entry = .ok run

end S3Service

end FastS3.S3
