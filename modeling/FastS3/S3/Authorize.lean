import FastS3.Meta.Rows
import FastS3.S3.Identity

namespace FastS3.S3

open Data
open Meta (KeyRecord SessionRecord Store)

/-! Who a request comes from, and what it may do.

A request is authenticated by a resident key, or by a session that stands on one.  It is then
authorized by the policies of the key, of the session, of the owner of the key and of the bucket.
-/

inductive S3ErrorCode where
  | accessDenied
  | invalidAccessKeyId
  | invalidToken
  | signatureDoesNotMatch
  | invalidRequest
  | invalidArgument
  | malformedXML
  | methodNotAllowed
  | notImplemented
  | noSuchBucket
  | badDigest
  | invalidDigest
  | xAmzContentSHA256Mismatch
  | entityTooLarge
  | invalidPart
  | invalidStorageClass
  | keyTooLongError
  | metadataTooLarge
  | noSuchUpload
  | invalidEncryptionAlgorithmError
  | userKeyMustBeSpecified
  | malformedPolicy
  | noSuchBucketPolicy
deriving Repr, DecidableEq

structure S3Error where
  code : S3ErrorCode
  message : String
deriving Repr, DecidableEq

theorem bind_eq_ok {ε α β : Type} {result : Except ε α} {next : α → Except ε β} {built : β} :
    (result >>= next) = .ok built ↔ ∃ value, result = .ok value ∧ next value = .ok built := by
  constructor
  · intro succeeded
    cases result with
    | error e => cases succeeded
    | ok value => exact ⟨value, rfl, succeeded⟩
  · intro chain
    obtain ⟨value, first, rest⟩ := chain
    rw [first]
    exact rest

theorem bind_ok {ε α β : Type} {result : Except ε α} {next : α → Except ε β} {built : β}
    (succeeded : (result >>= next) = .ok built) :
    ∃ value, result = .ok value ∧ next value = .ok built :=
  bind_eq_ok.mp succeeded

/-- A signature in a header or in the query.  What is wrong with it by itself is found before its
key is looked up; the rest is judged under the secret. -/
structure Signature where
  accessKey : String
  malformed : Option S3Error
  mismatch : String → Option S3Error

/-- What a request shows: the token of a session, and signatures in a header or in the query.
The access key in the header is also read without the rest of it. -/
structure Presented where
  token : Option String
  peeked : Option String
  header : Option Signature
  query : Option Signature

/-- What the service asks for besides its own state: the clock, the texts of policies, the secrets of
sessions, and the buckets. -/
structure Surroundings where
  now : Int
  parsePolicy : String → Option Policy
  deriveSecret : String → String → String
  hashSecret : String → String
  bucketPolicy : String → Option Policy
  bucketOwner : String → Option String

/-- The session policies are texts: a missing one does not restrict. -/
structure AuthIdentity where
  who : String
  session : Option SessionRecord
deriving DecidableEq

namespace S3Service

variable (service : S3Service)

def findKey (accessKey : String) : Option Credentials :=
  service.keyTable.find? fun k => k.accessKey = accessKey

def iamUserDisabled (tenant user : String) : Bool :=
  (service.iamUsers (tenant, user)).any fun s => !s.enabled

/-- A key without an owner is not disabled, and neither is one whose owner has no record. -/
def iamOwnerDisabled (accessKey : String) : Bool :=
  match service.keyOwners accessKey with
  | some (tenant, user) => service.iamUserDisabled tenant user
  | none => false

def verify (unknown : String) (given : Option String) (signature : Signature) :
    Except S3Error String :=
  match signature.malformed with
  | some e => .error e
  | none =>
    match given.orElse fun _ => (service.findKey signature.accessKey).map Credentials.secretKey with
    | none => .error ⟨.invalidAccessKeyId, unknown⟩
    | some secret =>
      match signature.mismatch secret with
      | some e => .error e
      | none => .ok signature.accessKey

/-- `verify_header_auth_impl`; a request without the header is anonymous. -/
def verifyHeaderAuth (given : Option String) : Option Signature → Except S3Error (Option String)
  | none => .ok none
  | some signature =>
    (service.verify "The AWS access key ID you provided does not exist in our records." given
      signature).map some

def verifyQueryAuth : Option Signature → Except S3Error (Option String)
  | none => .ok none
  | some signature =>
    (service.verify "The AWS access key ID you provided does not exist" none signature).map some

def invalidToken {α : Type} (message : String) : Except S3Error α :=
  .error ⟨.invalidToken, message⟩

/-- The branch of `authenticate_full` for a request with a token: the session stands on a key that is
in the store, enabled, not owned by a disabled user, and in the key table. -/
def authenticateSession (around : Surroundings) (rows : Store) (token : String)
    (request : Presented) : Except S3Error (Option AuthIdentity) :=
  match request.peeked with
  | none => invalidToken "x-amz-security-token requires signed credentials."
  | some parsedAk =>
  match rows (.stsSession token) with
  | none => invalidToken "The security token included in the request is invalid."
  | some rec =>
  if parsedAk ≠ rec.temporaryAccessKey then
    invalidToken "The access key in the credential scope does not match the security token."
  else if around.now ≥ rec.expiresAt then
    invalidToken "The provided security token has expired."
  else
    let baseAk := rec.baseAccessKey
    match (rows .accessKeys).get? baseAk with
    | none => invalidToken s!"the base key of the session ({baseAk}) no longer exists"
    | some base =>
    if !base.enabled then
      invalidToken s!"the base key of the session ({baseAk}) is disabled"
    else if service.iamOwnerDisabled baseAk then
      invalidToken s!"the owner user of the session's base key ({baseAk}) is disabled"
    else
      match service.findKey baseAk with
      | none => invalidToken "the base key credentials are not loaded in this instance"
      | some credentials =>
      let derived := around.deriveSecret credentials.secretKey token
      if around.hashSecret derived ≠ rec.secretHash then
        invalidToken "the session secret derivation does not match the issued credentials."
      else
        match service.verifyHeaderAuth (some derived) request.header with
        | .error e => .error e
        | .ok none => .ok none
        | .ok (some _) => .ok (some ⟨baseAk, some rec⟩)

def residentIdentity (accessKey : String) : Except S3Error (Option AuthIdentity) :=
  if service.iamOwnerDisabled accessKey then
    .error ⟨.invalidAccessKeyId, "The access key's owner user is disabled."⟩
  else .ok (some ⟨accessKey, none⟩)

/-- `authenticate_full`; the header goes before the query. -/
def authenticateFull (around : Surroundings) (rows : Store) (request : Presented) :
    Except S3Error (Option AuthIdentity) :=
  match request.token with
  | some token => service.authenticateSession around rows token request
  | none =>
    match service.verifyHeaderAuth none request.header with
    | .error e => .error e
    | .ok (some accessKey) => service.residentIdentity accessKey
    | .ok none =>
      match service.verifyQueryAuth request.query with
      | .error e => .error e
      | .ok (some accessKey) => service.residentIdentity accessKey
      | .ok none => .ok none

/-- `caller_identity`: a key without an owner belongs to the default tenant. -/
def callerIdentity (accessKey : String) : CallerIdentity :=
  let owner := (service.keyOwners accessKey).getD
    (Meta.Tenant.defaultTenant, Meta.IamUser.bootstrapUser)
  ⟨(service.tenants owner.1).getD Meta.Tenant.defaultCanonicalId, owner.2, accessKey⟩

end S3Service

/-- `s3_action_name`. -/
def s3ActionName (auditName bucket key : String) : String :=
  if auditName = "GetObject" ∧ key = "" ∧ bucket ≠ "" then "ListBucket"
  else if auditName = "HeadBucket" then "ListBucket"
  else if auditName = "ListBuckets" then "ListAllMyBuckets"
  else if auditName = "PostObject" then "PutObject"
  else auditName

/-- What a request is about.  The context is the one of `policy_ctx`, without the requester. -/
structure Target where
  action : String
  bucket : String
  key : String
  ctx : EvalCtx

namespace S3Service

variable (service : S3Service)

/-- The policies of a session, each of which has to allow; one that cannot be parsed denies. -/
def sessionAllows (around : Surroundings) (action resource : String) (ctx : EvalCtx)
    (session : SessionRecord) : Bool :=
  (session.sessionPolicy.toList ++ session.inlinePolicy.toList).all fun text =>
    (around.parsePolicy text).any fun p => p.decide action resource true ctx = .allow

def keyPolicyOf (accessKey : String) : Option Policy :=
  (service.policies accessKey).join

def embeddedPolicyOf (accessKey : String) : Option Policy :=
  (service.embeddedPolicies accessKey).join

/-- `authorize`: the layers one behind the other.  Without a policy on the key and without policies
on its owner everything is allowed that no layer denies. -/
def authorize (around : Surroundings) (auth : Option AuthIdentity) (target : Target) :
    Except S3Error Unit :=
  let resource := resourceArn target.bucket target.key
  let action := s3ActionName target.action target.bucket target.key
  let access := auth.map AuthIdentity.who
  let caller := access.map service.callerIdentity
  let ctx := { target.ctx with caller := caller }
  let name := access.getD "anonymous"
  let denied : Except S3Error Unit :=
    .error ⟨.accessDenied, s!"access key {name} is not authorized for {action} on {resource}"⟩
  let keyPolicy := access.bind service.keyPolicyOf
  let keyDecision := (keyPolicy.map fun p => p.decide action resource true ctx).getD .noMatch
  let embedded := access.bind service.embeddedPolicyOf
  let iamDecision := access.bind fun ak => service.iamIdentityDecision ak action resource ctx
  let bucketDecision :=
    if target.bucket = "" then Decision.noMatch
    else ((around.bucketPolicy target.bucket).map fun p =>
      p.decide action resource access.isSome ctx).getD .noMatch
  if keyDecision = .deny then denied
  else if embedded.any fun p => p.decide action resource true ctx ≠ .allow then denied
  else if (auth.bind AuthIdentity.session).any fun s =>
      !sessionAllows around action resource ctx s then denied
  else if iamDecision = some .deny then denied
  else if bucketDecision = .deny then denied
  -- another tenant's bucket needs the word of its own policy
  else if caller.any fun c => target.bucket ≠ "" && bucketDecision ≠ .allow &&
      (service.keyOwners c.accessKey).isSome &&
      (around.bucketOwner target.bucket).any fun owner => owner ≠ c.tenantCanonicalId then denied
  else
    match access with
    | none => .ok ()
    | some _ =>
      let unionOk := keyPolicy.isNone || keyDecision = .allow || bucketDecision = .allow
      match iamDecision with
      | none | some .allow => if unionOk then .ok () else denied
      | some .noMatch | some .deny => denied

/-- What becomes of a request: its requester is found, and then it is allowed or not. -/
def decideRequest (around : Surroundings) (rows : Store) (request : Presented) (target : Target) :
    Except S3Error (Option AuthIdentity) := do
  let auth ← service.authenticateFull around rows request
  service.authorize around auth target
  return auth

end S3Service

end FastS3.S3
