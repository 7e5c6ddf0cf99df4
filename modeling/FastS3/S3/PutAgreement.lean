import FastS3.S3.CredentialRuns
import FastS3.S3.Delegation
import FastS3.S3.PutRollback

namespace FastS3.S3

open Data
open FastS3.Core (Bytes maxObjectSize)
open Meta (BucketMeta Store)

/-! An object that is put in one piece and as a stream. -/

def checkRequestSizeLimits (request : S3Request) (op : Operation) : Except S3Error Unit := do
  let (_, _, _, key) := routeOpBucketKey request
  checkObjectKeyLength key
  match op with
  | .putObject _ _ | .createMultipartUpload _ _ => checkUserMetaSize (userMeta request)
  | .copyObject _ _ source directive _ _ _ _ => do
      checkObjectKeyLength source.key
      if directive = some "REPLACE" then checkUserMetaSize (userMeta request) else return ()
  | .uploadPartCopy _ _ _ _ source _ => checkObjectKeyLength source.key
  | _ => return ()

def payloadHashFromHeaders (digests : Digests) (request : S3Request) : Except S3Error PayloadHash :=
  match request.header "x-amz-content-sha256" with
  | none => .ok (.hexSha256 (hexEncode (digests.sha256 [])))
  | some v => payloadHashValue v

def payloadHashFromQuery (request : S3Request) : Except S3Error PayloadHash :=
  match getQ request.query "X-Amz-Content-Sha256" with
  | none => .ok .unsigned
  | some v => payloadHashValue v

namespace S3Service

variable (service : S3Service) (around : Surroundings) (rows : Store) (front : Front)

/-- `verify_header_auth` and `verify_query_auth`, asked for the payload. -/
def verified (digests : Digests) (request : S3Request) : Verified where
  header := do
    match ← service.verifyHeaderAuth none (front.presented request).header with
    | none => return none
    | some _ => return some (← payloadHashFromHeaders digests request)
  query := do
    match ← service.verifyQueryAuth (front.presented request).query with
    | none => return none
    | some _ => return some (← payloadHashFromQuery request)

/-- `handle` in front of PutObject; the gates for headers of other operations let it pass. -/
def admitHandled (answers : Answers) (request : S3Request) : Except S3Error Unit := do
  let _ ← service.evaluate around front request (service.identified around rows front request)
  refuse (front.unwritable request)
  let op ← front.router.operation front.std front.xml request
  service.requireAuth around rows front answers request
  checkUnimplementedHeaders request
  checkRequestSizeLimits request op

/-- `put_object_stream` up to the upload. -/
def admitStream (answers : Answers) (request : S3Request) : Except S3Error StreamTarget := do
  let _ ← service.authorizeRequest around front request
    (service.identified around rows front request)
  refuse (front.unwritable request)
  let op ← front.router.route front.std front.xml request.method request.host request.path
    request.query request.body
  service.requireAuth around rows front answers request
  match op with
  | .putObject _ _ => return .object
  | .uploadPart _ _ partNumber _ => return .part partNumber
  | _ => invalidRequest "streaming path only supports PUT object / upload part"

def putBuffered (tools : PutTools) (answers : Answers) (state : PutState) (request : S3Request)
    (content : Bytes) : Except PutError Written × PutState :=
  match service.admitHandled around rows front answers request with
  | .error e => (.error (.refused e), state)
  | .ok () =>
    tools.opPutObjectBuffered state (service.verified front tools.digests request) request content

def putStreamed (tools : PutTools) (answers : Answers) (state : PutState) (request : S3Request)
    (content : Bytes) : Except PutError Written × PutState :=
  match service.admitStream around rows front answers request with
  | .error e => (.error (.refused e), state)
  | .ok target =>
    tools.putObjectStreamInner state (service.verified front tools.digests request) request
      (routeOpBucketKey request).2.2.2 target content

end S3Service

structure PutSettings where
  cksum : RequestChecksum
  ssec : Option SseCHeaders
  bkt : BucketMeta
  intent : SseWriteIntent
  kmsKey : Option Bytes
  tags : Option (List (String × String))
  precond : Option WritePrecondition
  s3Key : Option Bytes
  lock : ObjectLockWrite

namespace PutSettings

variable (settings : PutSettings)

structure Read (tools : PutTools) (state : PutState) (request : S3Request) : Prop where
  cksum : parseRequestChecksum tools.parsers.decodeB64Lenient request = .ok settings.cksum
  trailer : settings.cksum.trailerAlg = none
  ssec : tools.parsers.customerHeaders request = .ok settings.ssec
  bkt : state.bucket = some settings.bkt
  intent : tools.parsers.sseWriteIntent request settings.ssec settings.bkt.defaultEncryption =
    .ok settings.intent
  kmsKey : tools.kmsKey settings.intent = .ok settings.kmsKey
  tags : tools.parsers.objectTags request = .ok settings.tags
  precond : tools.parsers.writePrecondition request = .ok settings.precond
  s3Key : tools.s3Key settings.intent = .ok settings.s3Key
  lock : tools.parsers.resolveWrite request settings.bkt = .ok settings.lock
  acl : validateCannedAcl request = .ok ()
  closed : enforceBlockPublicAclsHeader tools.blocksPublicAcls request = .ok ()

theorem Read.unique {settings other : PutSettings} {tools : PutTools} {state : PutState}
    {request : S3Request} (read : settings.Read tools state request)
    (also : other.Read tools state request) : settings = other := by
  obtain ⟨cksum, ssec, bkt, intent, kmsKey, tags, precond, s3Key, lock⟩ := settings
  obtain ⟨cksum', ssec', bkt', intent', kmsKey', tags', precond', s3Key', lock'⟩ := other
  cases read.cksum.symm.trans also.cksum
  cases read.ssec.symm.trans also.ssec
  cases read.bkt.symm.trans also.bkt
  cases read.intent.symm.trans also.intent
  cases read.kmsKey.symm.trans also.kmsKey
  cases read.tags.symm.trans also.tags
  cases read.precond.symm.trans also.precond
  cases read.s3Key.symm.trans also.s3Key
  cases read.lock.symm.trans also.lock
  rfl

def upload (request : S3Request) (content : Bytes)
    (late : Bytes → Option ChecksumInfo → Option (PutError × Bool)) : Upload where
  versioning := settings.bkt.versioning
  write := .object (PutTools.enginePut request (settings.tags.getD []) settings.precond
    settings.cksum (PutTools.writeKey settings.ssec settings.s3Key settings.kmsKey) settings.lock)
  body := content
  late := late

end PutSettings

section Prepared

variable {tools : PutTools} {state : PutState} {verified : Verified} {request : S3Request}
  {content : Bytes} {upload : Upload}

theorem getBucket_eq_ok {bkt : BucketMeta} :
    PutTools.getBucket state = .ok bkt ↔ state.bucket = some bkt := by
  rw [PutTools.getBucket]
  cases state.bucket with
  | none => exact iff_of_false (fun found => nomatch found) (fun found => nomatch found)
  | some other =>
    constructor
    · intro found
      cases found
      rfl
    · intro found
      cases found
      rfl

theorem preparePutObject_eq_ok :
    tools.preparePutObject state verified request content = .ok upload ↔
      ∃ payload md5 settings, verified.header = .ok payload ∧
        (payload.getD .unsigned).chunked = false ∧
        tools.hasSha256 (payload.getD .unsigned) content = true ∧
        tools.contentMd5 request = .ok md5 ∧ content.length ≤ maxObjectSize ∧
        PutSettings.Read settings tools state request ∧
        upload = settings.upload request content (tools.lateBuffered md5 content settings.cksum.value) := by
  constructor
  · intro prepared
    rw [PutTools.preparePutObject] at prepared
    simp only [bind_eq_ok] at prepared
    obtain ⟨⟨⟩, size, payload, header, ⟨⟩, whole, ⟨⟩, sha256, md5, digest, cksum, checksum, ⟨⟩,
      trailer, ssec, customer, bkt, bucket, intent, intended, kmsKey, kms, ⟨⟩, acl, ⟨⟩, closed,
      tags, tagged, precond, conditional, s3Key, minted, lock, locked, ⟨⟩⟩ := prepared
    rw [refusing_eq_ok] at header checksum customer intended acl closed tagged conditional locked
    rw [check_eq_ok] at size whole sha256 trailer
    have settled : PutSettings.Read ⟨cksum, ssec, bkt, intent, kmsKey, tags, precond, s3Key, lock⟩
        tools state request :=
      { cksum := checksum
        trailer := Option.isNone_iff_eq_none.mp trailer
        ssec := customer
        bkt := getBucket_eq_ok.mp bucket
        intent := intended
        kmsKey := kms
        tags := tagged
        precond := conditional
        s3Key := minted
        lock := locked
        acl := acl
        closed := closed }
    exact ⟨payload, md5, _, header, by simpa using whole, sha256, digest, of_decide_eq_true size,
      settled, rfl⟩
  · intro facts
    obtain ⟨payload, md5, settings, header, whole, sha256, digest, size, settled, same⟩ := facts
    have bucket : PutTools.getBucket state = .ok settings.bkt := getBucket_eq_ok.mpr settled.bkt
    rw [same, PutTools.preparePutObject]
    simp only [check, refusing, Except.mapError, bind, Except.bind, pure, Except.pure, size,
      decide_true, if_true, header, whole, Bool.not_false, sha256, digest, settled.cksum,
      settled.trailer, Option.isNone_none, settled.ssec, bucket, settled.intent, settled.kmsKey,
      settled.acl, settled.closed, settled.tags, settled.precond, settled.s3Key, settled.lock]
    rfl

theorem prepareStream_eq_ok {key : String}
    (whole : ∀ payload, PutTools.streamPayload verified = .ok payload → payload.chunked = false) :
    tools.prepareStream state verified request key .object content = .ok upload ↔
      ∃ payload settings, PutTools.streamPayload verified = .ok payload ∧
        checkUnimplementedHeaders request = .ok () ∧
        PutTools.checkStreamSizes request key .object = .ok () ∧
        PutSettings.Read settings tools state request ∧
        upload = settings.upload request content
          (tools.lateStream request payload content content settings.cksum) := by
  constructor
  · intro prepared
    rw [PutTools.prepareStream] at prepared
    simp only [bind_eq_ok] at prepared
    obtain ⟨⟨⟩, known, ⟨⟩, acl, ⟨⟩, closed, ⟨⟩, sizes, bkt, bucket, precond, conditional, -, -,
      tags, tagged, -, -, -, -, cksum, checksum, ssec, customer, intent, intended, kmsKey, kms,
      payload, signed, -, -, ⟨⟩, trailer, write, called, body, decoded, ⟨⟩⟩ := prepared
    obtain ⟨s3Key, minted, called⟩ := bind_ok called
    obtain ⟨lock, locked, called⟩ := bind_ok called
    cases called
    rw [PutTools.streamBody, whole payload signed, if_neg Bool.false_ne_true] at decoded
    cases decoded
    rw [refusing_eq_ok] at known conditional tagged checksum customer locked
    rw [check_eq_ok, whole payload signed, Bool.false_or] at trailer
    have settled : PutSettings.Read ⟨cksum, ssec, bkt, intent, kmsKey, tags, precond, s3Key, lock⟩
        tools state request :=
      { cksum := checksum
        trailer := Option.isNone_iff_eq_none.mp trailer
        ssec := customer
        bkt := getBucket_eq_ok.mp bucket
        intent := refusing_eq_ok.mp intended
        kmsKey := kms
        tags := tagged
        precond := conditional
        s3Key := minted
        lock := locked
        acl := refusing_eq_ok.mp acl
        closed := refusing_eq_ok.mp closed }
    exact ⟨payload, _, signed, known, sizes, settled, rfl⟩
  · intro facts
    obtain ⟨payload, settings, signed, known, sizes, settled, same⟩ := facts
    have bucket : PutTools.getBucket state = .ok settings.bkt := getBucket_eq_ok.mpr settled.bkt
    rw [same, PutTools.prepareStream]
    simp only [check, refusing, Except.mapError, bind, Except.bind, pure, Except.pure, known,
      StreamTarget.onObject, StreamTarget.onPart, sizes, PutTools.notForParts, PutTools.streamIntent,
      signed, whole payload signed, PutTools.streamWrite, PutTools.streamBody, settled.cksum,
      settled.trailer, Option.isNone_none, Bool.or_true, if_true, if_false, Bool.false_eq_true,
      settled.ssec, bucket, settled.intent, settled.kmsKey, settled.acl, settled.closed,
      settled.tags, settled.precond, settled.s3Key, settled.lock]
    rfl

end Prepared

section Agreement

variable {tools : PutTools} {state : PutState} {verified : Verified} {request : S3Request}
  {content : Bytes} {written : Written}

theorem carryOut_eq_ok {prepared : Except PutError Upload} :
    (tools.carryOut state prepared).1 = .ok written ↔
      ∃ upload, prepared = .ok upload ∧ tools.refusal state upload = none ∧
        written = tools.written state upload ∧ upload.late written.etag written.checksum = none := by
  cases prepared with
  | error e =>
    refine iff_of_false (by rintro ⟨⟩) ?_
    intro found
    obtain ⟨upload, accepted, -⟩ := found
    cases accepted
  | ok upload =>
    cases refused : tools.refusal state upload with
    | some e =>
      simp only [PutTools.carryOut, refused]
      refine iff_of_false (by rintro ⟨⟩) ?_
      intro found
      obtain ⟨other, same, accepted, -⟩ := found
      cases same
      rw [refused] at accepted
      cases accepted
    | none =>
      simp only [PutTools.carryOut, refused]
      cases late : upload.late (tools.written state upload).etag
          (tools.written state upload).checksum with
      | none =>
        constructor
        · intro found
          cases found
          exact ⟨upload, rfl, refused, rfl, late⟩
        · intro found
          obtain ⟨other, same, -, wrote, -⟩ := found
          cases same
          rw [wrote]
      | some failure =>
        obtain ⟨e, back⟩ := failure
        refine iff_of_false (fun found => ?_) ?_
        · cases back <;> cases found
        · intro found
          obtain ⟨other, same, -, wrote, none⟩ := found
          cases same
          rw [wrote, late] at none
          cases none

theorem carryOut_state {upload : Upload}
    (accepted : (tools.carryOut state (.ok upload)).1 = .ok written) :
    (tools.carryOut state (.ok upload)).2 = tools.store state upload := by
  obtain ⟨other, same, allowed, wrote, late⟩ := carryOut_eq_ok.mp accepted
  cases same
  rw [wrote] at late
  simp only [PutTools.carryOut, allowed, late]

theorem lateBuffered_eq_none (etag : Bytes) {md5 : Option Bytes}
    {declared actual : Option ChecksumInfo} :
    tools.lateBuffered md5 content declared etag actual = none ↔
      md5.all (· = tools.digests.md5 content) = true ∧
        PutTools.lateChecksum declared actual = none := by
  rw [PutTools.lateBuffered]
  cases md5 with
  | none => simp
  | some expected => by_cases same : expected = tools.digests.md5 content <;> simp [same]

theorem lateStream_eq_none {payload : PayloadHash} {cksum : RequestChecksum} {etag : Bytes}
    {actual : Option ChecksumInfo} (whole : payload.chunked = false) :
    tools.lateStream request payload content content cksum etag actual = none ↔
      tools.hasSha256 payload content = true ∧
        PutTools.lateChecksum cksum.value actual = none ∧
        ∃ md5, tools.contentMd5 request = .ok md5 ∧ md5.all (· = etag) = true := by
  rw [PutTools.lateStream, whole]
  cases tools.hasSha256 payload content with
  | false => simp
  | true =>
    cases PutTools.lateChecksum cksum.value actual with
    | some e => simp
    | none =>
      cases tools.contentMd5 request with
      | error e => simp
      | ok md5 =>
        cases md5 with
        | none => simp
        | some expected => by_cases same : expected = etag <;> simp [same]

/-- The ETag of what a request puts is the digest that `content-md5` is about. -/
def EtagIsMd5 (tools : PutTools) (state : PutState) (request : S3Request) (content : Bytes) : Prop :=
  ∀ settings late, PutSettings.Read settings tools state request →
    tools.etag (settings.upload request content late).write content = tools.digests.md5 content

theorem opPutObjectBuffered_state {key : String} {other : Written}
    (single : ∀ payload, PutTools.streamPayload verified = .ok payload → payload.chunked = false)
    (accepted : (tools.opPutObjectBuffered state verified request content).1 = .ok written)
    (streamed : (tools.putObjectStreamInner state verified request key .object content).1 =
      .ok other) :
    (tools.opPutObjectBuffered state verified request content).2 =
      (tools.putObjectStreamInner state verified request key .object content).2 := by
  rw [PutTools.opPutObjectBuffered] at accepted ⊢
  rw [PutTools.putObjectStreamInner] at streamed ⊢
  obtain ⟨upload, prepared, -⟩ := carryOut_eq_ok.mp accepted
  obtain ⟨stream, readied, -⟩ := carryOut_eq_ok.mp streamed
  obtain ⟨payload, md5, settings, -, -, -, -, -, settled, same⟩ := preparePutObject_eq_ok.mp prepared
  obtain ⟨hash, read, -, -, -, also, alike⟩ := (prepareStream_eq_ok single).mp readied
  rw [prepared] at accepted ⊢
  rw [readied] at streamed ⊢
  rw [carryOut_state accepted, carryOut_state streamed, same, alike, settled.unique also]
  rfl

theorem opPutObjectBuffered_iff_stream {key : String} {payload : Option PayloadHash}
    (header : verified.header = .ok payload)
    (streamed : PutTools.streamPayload verified = .ok (payload.getD .unsigned))
    (whole : (payload.getD .unsigned).chunked = false)
    (known : checkUnimplementedHeaders request = .ok ())
    (sizes : content.length ≤ maxObjectSize →
      PutTools.checkStreamSizes request key .object = .ok ())
    (digest : request.header "content-md5" = none ∨ EtagIsMd5 tools state request content) :
    (tools.opPutObjectBuffered state verified request content).1 = .ok written ↔
      (tools.putObjectStreamInner state verified request key .object content).1 = .ok written := by
  have single : ∀ other, PutTools.streamPayload verified = .ok other → other.chunked = false := by
    intro other found
    rw [streamed] at found
    cases found
    exact whole
  have compared (settings : PutSettings) (late : Bytes → Option ChecksumInfo → Option (PutError × Bool))
      (settled : PutSettings.Read settings tools state request) (md5 : Option Bytes)
      (found : tools.contentMd5 request = .ok md5) :
      md5.all (· = (tools.written state (settings.upload request content late)).etag) =
        md5.all (· = tools.digests.md5 content) := by
    cases digest with
    | inl absent =>
      rw [PutTools.contentMd5, absent] at found
      cases found
      rfl
    | inr same =>
      have etag : (tools.written state (settings.upload request content late)).etag =
          tools.digests.md5 content := same settings late settled
      rw [etag]
  rw [PutTools.opPutObjectBuffered, PutTools.putObjectStreamInner, carryOut_eq_ok, carryOut_eq_ok]
  constructor
  · intro accepted
    obtain ⟨upload, prepared, allowed, wrote, late⟩ := accepted
    obtain ⟨other, md5, settings, found, -, sha256, given, size, settled, same⟩ :=
      preparePutObject_eq_ok.mp prepared
    rw [header] at found
    cases found
    rw [same] at allowed wrote late
    obtain ⟨matched, checksum⟩ := (lateBuffered_eq_none written.etag).mp late
    refine ⟨_, (prepareStream_eq_ok single).mpr
      ⟨payload.getD .unsigned, settings, streamed, known, sizes size, settled, rfl⟩, allowed, wrote, ?_⟩
    refine (lateStream_eq_none whole).mpr ⟨sha256, checksum, md5, given, ?_⟩
    rw [wrote, compared settings _ settled md5 given]
    exact matched
  · intro accepted
    obtain ⟨upload, prepared, allowed, wrote, late⟩ := accepted
    obtain ⟨other, settings, found, -, -, settled, same⟩ := (prepareStream_eq_ok single).mp prepared
    rw [streamed] at found
    cases found
    rw [same] at allowed wrote late
    obtain ⟨sha256, checksum, md5, given, matched⟩ := (lateStream_eq_none whole).mp late
    have size : content.length ≤ maxObjectSize := by
      refine Nat.le_of_not_lt fun large => ?_
      have refused : content.length > maxObjectSize := large
      simp only [PutTools.refusal, PutSettings.upload, refused, if_true] at allowed
      cases allowed
    refine ⟨_, preparePutObject_eq_ok.mpr
      ⟨payload, md5, settings, header, whole, sha256, given, size, settled, rfl⟩, allowed, wrote, ?_⟩
    rw [wrote, compared settings _ settled md5 given] at matched
    exact (lateBuffered_eq_none written.etag).mpr ⟨matched, checksum⟩

end Agreement

section Admission

variable {service : S3Service} {around : Surroundings} {rows : Store} {front : Front}
  {answers : Answers} {digests : Digests} {request : S3Request} {bucket key : String}

/-- What is known of the keys of a request: those of delegated credentials are not in the key table, and
the key of the signature in the header is read the same without the rest of it. -/
structure KeysApart (service : S3Service) (front : Front) (request : S3Request) : Prop where
  table : ∀ accessKey, (front.delegatedCred accessKey).isSome = true →
    service.findKey accessKey = none
  peeked : ∀ signature, (front.presented request).header = some signature →
    signature.malformed = none → (front.presented request).peeked = some signature.accessKey
  unpeeked : (front.presented request).header = none → (front.presented request).peeked = none

theorem operation_putObject
    (put : front.router.operation front.std front.xml request = .ok (.putObject bucket key)) :
    front.router.route front.std front.xml request.method request.host request.path request.query
      request.body = .ok (.putObject bucket key) := by
  rw [Router.operation] at put
  obtain ⟨op, routed, put⟩ := bind_ok put
  rw [routed]
  split at put
  · cases source : request.header "x-amz-copy-source" with
    | none =>
      simp only [source] at put
      exact put
    | some raw =>
      simp only [source] at put
      obtain ⟨parsed, -, put⟩ := bind_ok put
      split at put
      · cases put
      · cases put
      · next plain =>
          cases put
          exact absurd rfl (plain bucket key)
  · exact put

theorem route_putObject_method
    (routed : front.router.route front.std front.xml request.method request.host request.path
      request.query request.body = .ok (.putObject bucket key)) : request.method = .put := by
  refine (route_reading routed).method fun method onBucket placed => ?_
  simp only [Operation.placed, Operation.fits, Bool.and_eq_true, decide_eq_true_eq] at placed
  exact placed.1

theorem evaluate_resident {auth : Option AuthIdentity} (put : request.method = .put)
    (resident : auth.bind (fun identity => front.delegatedCred identity.who) = none) :
    service.evaluate around front request auth = service.authorizeRequest around front request auth := by
  have named : (routeOpBucketKey request).2.1 ≠ "PostObject" := by
    intro form
    have post := (requestName_postObject form).1
    rw [put] at post
    cases post
  simp only [S3Service.evaluate, resident, if_neg named]

theorem delegated_unverified {identity : AuthIdentity} {cred : DelegatedCred}
    (apart : KeysApart service front request)
    (passed : service.authenticate around rows front (front.presented request) = .ok (some identity))
    (delegated : front.delegatedCred identity.who = some cred) :
    ∃ e, service.verifyHeaderAuth none (front.presented request).header = .error e := by
  have absent : service.findKey identity.who = none :=
    apart.table identity.who (by rw [delegated]; rfl)
  rw [S3Service.authenticate] at passed
  split at passed
  · next found token peek =>
      obtain ⟨signed, verified, passed⟩ := bind_ok passed
      cases sign : (front.presented request).header with
      | none =>
        rw [sign] at verified
        cases verified
        cases passed
      | some signature =>
        rw [sign] at verified
        cases wrong : signature.malformed with
        | some e =>
          simp only [S3Service.verifyHeaderAuth, S3Service.verify, wrong] at verified
          cases verified
        | none =>
          have read := apart.peeked signature sign wrong
          have unlisted : service.findKey signature.accessKey = none := by
            apply apart.table
            rw [read, Option.bind_some] at peek
            rw [peek]
            rfl
          exact ⟨_, by
            simp only [S3Service.verifyHeaderAuth, S3Service.verify, wrong, unlisted]
            rfl⟩
  · have listed := S3Service.authenticateFull_known passed
    rw [absent] at listed
    cases listed

/-- A request that is authenticated without a signature in its header has a query that verifies. -/
theorem authenticate_query {identity : Option AuthIdentity} (apart : KeysApart service front request)
    (unsigned : (front.presented request).header = none)
    (passed : service.authenticate around rows front (front.presented request) = .ok identity) :
    ∃ signer, service.verifyQueryAuth (front.presented request).query = .ok signer := by
  have peek := apart.unpeeked unsigned
  have full : service.authenticateFull around rows (front.presented request) = .ok identity := by
    rw [S3Service.authenticate, peek, Option.bind_none] at passed
    cases token : (front.presented request).token with
    | none =>
      simp only [token] at passed
      exact passed
    | some token =>
      simp only [token] at passed
      exact passed
  rw [S3Service.authenticateFull] at full
  cases token : (front.presented request).token with
  | some token =>
    simp only [token, S3Service.authenticateSession, peek] at full
    cases full
  | none =>
    have header : service.verifyHeaderAuth none (front.presented request).header = .ok none := by
      rw [unsigned]
      rfl
    simp only [token, header] at full
    cases query : service.verifyQueryAuth (front.presented request).query with
    | error e =>
      rw [query] at full
      cases full
    | ok signer => exact ⟨signer, rfl⟩

theorem requireAuth_authenticate
    (required : service.requireAuth around rows front answers request = .ok ()) :
    ∃ identity, service.authenticate around rows front (front.presented request) = .ok identity := by
  rw [S3Service.requireAuth] at required
  obtain ⟨identity, passed, -⟩ := bind_ok required
  exact ⟨identity, passed⟩

theorem admitHandled_eq_ok
    (put : front.router.operation front.std front.xml request = .ok (.putObject bucket key)) :
    service.admitHandled around rows front answers request = .ok () ↔
      (∃ evaluated, service.evaluate around front request
        (service.identified around rows front request) = .ok evaluated) ∧
      refuse (front.unwritable request) = .ok () ∧
      service.requireAuth around rows front answers request = .ok () ∧
      checkUnimplementedHeaders request = .ok () ∧
      checkObjectKeyLength (routeOpBucketKey request).2.2.2 = .ok () ∧
      checkUserMetaSize (userMeta request) = .ok () := by
  constructor
  · intro admitted
    rw [S3Service.admitHandled] at admitted
    simp only [bind_eq_ok] at admitted
    obtain ⟨evaluated, allowed, ⟨⟩, writable, op, routed, ⟨⟩, required, ⟨⟩, known, admitted⟩ :=
      admitted
    rw [put] at routed
    cases routed
    rw [checkRequestSizeLimits] at admitted
    obtain ⟨⟨⟩, length, size⟩ := bind_ok admitted
    exact ⟨⟨evaluated, allowed⟩, writable, required, known, length, size⟩
  · intro facts
    obtain ⟨⟨evaluated, allowed⟩, writable, required, known, length, size⟩ := facts
    rw [S3Service.admitHandled, allowed]
    refine bind_eq_ok.mpr ⟨evaluated, rfl, ?_⟩
    refine bind_eq_ok.mpr ⟨(), writable, ?_⟩
    refine bind_eq_ok.mpr ⟨_, put, ?_⟩
    refine bind_eq_ok.mpr ⟨(), required, ?_⟩
    refine bind_eq_ok.mpr ⟨(), known, ?_⟩
    exact bind_eq_ok.mpr ⟨(), length, size⟩

theorem admitStream_eq_ok {target : StreamTarget}
    (put : front.router.operation front.std front.xml request = .ok (.putObject bucket key)) :
    service.admitStream around rows front answers request = .ok target ↔
      (∃ evaluated, service.authorizeRequest around front request
        (service.identified around rows front request) = .ok evaluated) ∧
      refuse (front.unwritable request) = .ok () ∧
      service.requireAuth around rows front answers request = .ok () ∧ target = .object := by
  have routed := operation_putObject put
  constructor
  · intro admitted
    rw [S3Service.admitStream] at admitted
    obtain ⟨evaluated, allowed, admitted⟩ := bind_ok admitted
    obtain ⟨⟨⟩, writable, admitted⟩ := bind_ok admitted
    obtain ⟨op, found, admitted⟩ := bind_ok admitted
    obtain ⟨⟨⟩, required, admitted⟩ := bind_ok admitted
    rw [routed] at found
    cases found
    cases admitted
    exact ⟨⟨evaluated, allowed⟩, writable, required, rfl⟩
  · intro facts
    obtain ⟨⟨evaluated, allowed⟩, writable, required, same⟩ := facts
    rw [S3Service.admitStream, allowed, same]
    refine bind_eq_ok.mpr ⟨evaluated, rfl, ?_⟩
    refine bind_eq_ok.mpr ⟨(), writable, ?_⟩
    refine bind_eq_ok.mpr ⟨_, routed, ?_⟩
    exact bind_eq_ok.mpr ⟨(), required, rfl⟩

theorem checkStreamSizes_lengths {name : String}
    (sized : PutTools.checkStreamSizes request name .object = .ok ()) :
    checkObjectKeyLength name = .ok () ∧ checkUserMetaSize (userMeta request) = .ok () := by
  rw [PutTools.checkStreamSizes] at sized
  obtain ⟨⟨⟩, length, sized⟩ := bind_ok sized
  obtain ⟨⟨⟩, size, -⟩ := bind_ok sized
  exact ⟨refusing_eq_ok.mp length, refusing_eq_ok.mp size⟩

theorem checkStreamSizes_object {content : Bytes} {name : String}
    (framed : ∀ n, contentLength request = some n → n = content.length)
    (length : checkObjectKeyLength name = .ok ())
    (size : checkUserMetaSize (userMeta request) = .ok ()) (small : content.length ≤ maxObjectSize) :
    PutTools.checkStreamSizes request name .object = .ok () := by
  have fits : (contentLength request).all (· ≤ maxObjectSize) = true := by
    cases found : contentLength request with
    | none => rfl
    | some n =>
      rw [Option.all_some, decide_eq_true_eq, framed n found]
      exact small
  rw [PutTools.checkStreamSizes]
  refine bind_eq_ok.mpr ⟨(), refusing_eq_ok.mpr length, ?_⟩
  refine bind_eq_ok.mpr ⟨(), refusing_eq_ok.mpr size, ?_⟩
  exact bind_eq_ok.mpr ⟨(), check_eq_ok.mpr fits, rfl⟩

end Admission

structure ReadAlike (service : S3Service) (front : Front) (tools : PutTools) (state : PutState)
    (request : S3Request) (content : Bytes) : Prop where
  keys : KeysApart service front request
  /-- The transport delivers as many bytes as the header says. -/
  framed : ∀ n, contentLength request = some n → n = content.length
  whole : (front.presented request).header.isSome = true → ∀ payload,
    payloadHashFromHeaders tools.digests request = .ok payload → payload.chunked = false
  /-- A signature in the query says nothing about the body. -/
  silent : (front.presented request).header = none →
    payloadHashFromQuery request = .ok .unsigned
  /-- The digest in `content-md5` is about the ETag. -/
  digest : request.header "content-md5" = none ∨ EtagIsMd5 tools state request content

theorem verified_streamPayload {service : S3Service} {around : Surroundings} {rows : Store}
    {front : Front} {answers : Answers} {tools : PutTools} {state : PutState} {request : S3Request}
    {content : Bytes} {payload : Option PayloadHash}
    (alike : ReadAlike service front tools state request content)
    (required : service.requireAuth around rows front answers request = .ok ())
    (header : (service.verified front tools.digests request).header = .ok payload) :
    PutTools.streamPayload (service.verified front tools.digests request) =
        .ok (payload.getD .unsigned) ∧
      (payload.getD .unsigned).chunked = false := by
  obtain ⟨signer, verified, found⟩ := bind_ok header
  cases signer with
  | some accessKey =>
    obtain ⟨hash, parsed, found⟩ := bind_ok found
    cases found
    have signed : (front.presented request).header.isSome = true := by
      cases sign : (front.presented request).header with
      | none =>
        rw [sign] at verified
        cases verified
      | some signature => rfl
    constructor
    · rw [PutTools.streamPayload, header]
      rfl
    · exact alike.whole signed hash parsed
  | none =>
    cases found
    have unsigned : (front.presented request).header = none := by
      cases sign : (front.presented request).header with
      | none => rfl
      | some signature =>
        rw [sign, S3Service.verifyHeaderAuth] at verified
        cases judged : service.verify
            "The AWS access key ID you provided does not exist in our records." none signature with
        | error e =>
          rw [judged] at verified
          cases verified
        | ok accessKey =>
          rw [judged] at verified
          cases verified
    obtain ⟨identity, passed⟩ := requireAuth_authenticate required
    obtain ⟨signer, query⟩ := authenticate_query alike.keys unsigned passed
    have asked : (service.verified front tools.digests request).query =
        .ok (signer.map fun _ => .unsigned) := by
      simp only [S3Service.verified, query, alike.silent unsigned]
      cases signer <;> rfl
    constructor
    · rw [PutTools.streamPayload, header]
      simp only [refusing, Except.mapError, bind, Except.bind, asked]
      cases signer <;> rfl
    · rfl

section Paths

variable {service : S3Service} {around : Surroundings} {rows : Store} {front : Front}
  {answers : Answers} {tools : PutTools} {state : PutState} {request : S3Request} {content : Bytes}
  {written : Written}

theorem putBuffered_eq_ok :
    (service.putBuffered around rows front tools answers state request content).1 = .ok written ↔
      service.admitHandled around rows front answers request = .ok () ∧
        (tools.opPutObjectBuffered state (service.verified front tools.digests request) request
          content).1 = .ok written := by
  rw [S3Service.putBuffered]
  cases service.admitHandled around rows front answers request with
  | error e => exact iff_of_false (fun found => nomatch found) fun both => nomatch both.1
  | ok admitted => exact (and_iff_right rfl).symm

theorem putStreamed_eq_ok :
    (service.putStreamed around rows front tools answers state request content).1 = .ok written ↔
      ∃ target, service.admitStream around rows front answers request = .ok target ∧
        (tools.putObjectStreamInner state (service.verified front tools.digests request) request
          (routeOpBucketKey request).2.2.2 target content).1 = .ok written := by
  rw [S3Service.putStreamed]
  cases service.admitStream around rows front answers request with
  | error e =>
    refine iff_of_false (fun found => nomatch found) ?_
    intro found
    obtain ⟨target, admitted, -⟩ := found
    cases admitted
  | ok target =>
    constructor
    · intro found
      exact ⟨target, rfl, found⟩
    · intro found
      obtain ⟨other, same, accepted⟩ := found
      cases same
      exact accepted

theorem streamInner_header {verified : Verified} {key : String}
    (accepted : (tools.putObjectStreamInner state verified request key .object content).1 =
      .ok written) : ∃ payload, verified.header = .ok payload := by
  cases found : verified.header with
  | ok payload => exact ⟨payload, rfl⟩
  | error e =>
    have refused : PutTools.streamPayload verified = .error (.refused e) := by
      rw [PutTools.streamPayload, found]
      rfl
    rw [PutTools.putObjectStreamInner, carryOut_eq_ok] at accepted
    obtain ⟨upload, prepared, -⟩ := accepted
    rw [prepareStream_eq_ok (by rw [refused]; exact fun payload found => nomatch found)] at prepared
    obtain ⟨payload, settings, signed, -⟩ := prepared
    rw [refused] at signed
    cases signed

theorem streamed_resident {identity : AuthIdentity} {cred : DelegatedCred} {key : String}
    (apart : KeysApart service front request)
    (found : service.identified around rows front request = some identity)
    (delegated : front.delegatedCred identity.who = some cred) :
    (tools.putObjectStreamInner state (service.verified front tools.digests request) request key
      .object content).1 ≠ .ok written := by
  intro accepted
  have passed : service.authenticate around rows front (front.presented request) =
      .ok (some identity) := by
    rw [S3Service.identified] at found
    cases judged : service.authenticate around rows front (front.presented request) with
    | error e =>
      rw [judged] at found
      cases found
    | ok answer =>
      rw [judged] at found
      exact congrArg Except.ok found
  obtain ⟨e, unverified⟩ := delegated_unverified apart passed delegated
  obtain ⟨payload, header⟩ := streamInner_header accepted
  obtain ⟨signer, verified, -⟩ := bind_ok header
  rw [unverified] at verified
  cases verified

end Paths

theorem putBuffered_iff_streamed (service : S3Service) (around : Surroundings) (rows : Store)
    (front : Front) (answers : Answers) (tools : PutTools) (state : PutState) (request : S3Request)
    (content : Bytes) (bucket key : String)
    (put : front.router.operation front.std front.xml request = .ok (.putObject bucket key))
    (alike : ReadAlike service front tools state request content) (written : Written) :
    (service.putBuffered around rows front tools answers state request content).1 = .ok written ↔
      (service.putStreamed around rows front tools answers state request content).1 = .ok written := by
  have method := route_putObject_method (operation_putObject put)
  rw [putBuffered_eq_ok, putStreamed_eq_ok, admitHandled_eq_ok put]
  cases delegated : (service.identified around rows front request).bind
      fun identity => front.delegatedCred identity.who with
  | some cred =>
    obtain ⟨identity, found, named⟩ := Option.bind_eq_some_iff.mp delegated
    refine iff_of_false (fun both => ?_) fun both => ?_
    · obtain ⟨⟨evaluated, allowed⟩, -⟩ := both.1
      obtain ⟨get | head, -⟩ := evaluate_delegated delegated allowed
      · rw [method] at get
        cases get
      · rw [method] at head
        cases head
    · obtain ⟨target, admitted, accepted⟩ := both
      obtain ⟨-, -, -, same⟩ := (admitStream_eq_ok put).mp admitted
      rw [same] at accepted
      exact streamed_resident alike.keys found named accepted
  | none =>
    rw [evaluate_resident method delegated]
    constructor
    · intro both
      obtain ⟨⟨allowed, writable, required, known, length, size⟩, accepted⟩ := both
      obtain ⟨upload, prepared, -⟩ := carryOut_eq_ok.mp accepted
      obtain ⟨payload, md5, settings, header, -⟩ := preparePutObject_eq_ok.mp prepared
      obtain ⟨streamed, whole⟩ := verified_streamPayload alike required header
      refine ⟨.object, (admitStream_eq_ok put).mpr ⟨allowed, writable, required, rfl⟩, ?_⟩
      rw [← opPutObjectBuffered_iff_stream header streamed whole known
        (checkStreamSizes_object alike.framed length size) alike.digest]
      exact accepted
    · intro both
      obtain ⟨target, admitted, accepted⟩ := both
      obtain ⟨allowed, writable, required, same⟩ := (admitStream_eq_ok put).mp admitted
      rw [same] at accepted
      obtain ⟨payload, header⟩ := streamInner_header accepted
      obtain ⟨streamed, whole⟩ := verified_streamPayload alike required header
      obtain ⟨upload, prepared, -⟩ := carryOut_eq_ok.mp accepted
      have single : ∀ other, PutTools.streamPayload (service.verified front tools.digests request) =
          .ok other → other.chunked = false := by
        intro other found
        rw [streamed] at found
        cases found
        exact whole
      obtain ⟨-, -, -, known, sizes, -⟩ := (prepareStream_eq_ok single).mp prepared
      obtain ⟨length, size⟩ := checkStreamSizes_lengths sizes
      refine ⟨⟨allowed, writable, required, known, length, size⟩, ?_⟩
      rw [opPutObjectBuffered_iff_stream header streamed whole known
        (checkStreamSizes_object alike.framed length size) alike.digest]
      exact accepted

/-- A put that is accepted in one piece is accepted as a stream and leaves the same, and the other way
round. -/
theorem put_paths_agree (service : S3Service) (around : Surroundings) (rows : Store)
    (front : Front) (answers : Answers) (tools : PutTools) (state : PutState) (request : S3Request)
    (content : Bytes) (bucket key : String)
    (put : front.router.operation front.std front.xml request = .ok (.putObject bucket key))
    (alike : ReadAlike service front tools state request content) (written : Written) :
    ((service.putBuffered around rows front tools answers state request content).1 = .ok written ↔
      (service.putStreamed around rows front tools answers state request content).1 = .ok written) ∧
    ((service.putBuffered around rows front tools answers state request content).1 = .ok written →
      (service.putBuffered around rows front tools answers state request content).2 =
        (service.putStreamed around rows front tools answers state request content).2) := by
  have agree := putBuffered_iff_streamed service around rows front answers tools state request content
    bucket key put alike written
  refine ⟨agree, fun accepted => ?_⟩
  obtain ⟨admitted, buffered⟩ := putBuffered_eq_ok.mp accepted
  obtain ⟨target, entered, streamed⟩ := putStreamed_eq_ok.mp (agree.mp accepted)
  obtain ⟨-, -, required, same⟩ := (admitStream_eq_ok put).mp entered
  rw [same] at streamed entered
  obtain ⟨payload, header⟩ := streamInner_header streamed
  obtain ⟨known, whole⟩ := verified_streamPayload alike required header
  have single : ∀ other, PutTools.streamPayload (service.verified front tools.digests request) =
      .ok other → other.chunked = false := by
    intro other found
    rw [known] at found
    cases found
    exact whole
  rw [S3Service.putBuffered, S3Service.putStreamed, admitted, entered]
  exact opPutObjectBuffered_state single buffered streamed

section Chunks

/-- `new` in a chunk of its own: `3\r\nnew\r\n0\r\n\r\n`. -/
def newChunks : Bytes :=
  [0x33, 0x0D, 0x0A] ++ newBytes ++ [0x0D, 0x0A, 0x30, 0x0D, 0x0A, 0x0D, 0x0A]

def chunkTools : PutTools :=
  { bareTools with decodeChunks := fun _ _ content =>
      if content = newChunks then .ok newBytes else .error ⟨.invalidRequest, "malformed chunk"⟩ }

def emptyState : PutState where
  bucket := some .created
  group := .empty
  session := none

def putOf (payload : String) : S3Request :=
  plainPut "/mine/x" [("x-amz-content-sha256", payload)]

def newObject : StoredObject :=
  { deleteMarkerMeta none 1700000000 with
    content := newBytes
    size := 3
    etag := newMd5
    contentType := "application/octet-stream"
    isDeleteMarker := false }

theorem unsigned_put_agrees :
    ((writerService.putBuffered plainAround Store.empty plainFront chunkTools plainAnswers emptyState
        (putOf "UNSIGNED-PAYLOAD") newBytes).1 = .ok (.object newObject) ↔
      (writerService.putStreamed plainAround Store.empty plainFront chunkTools plainAnswers emptyState
        (putOf "UNSIGNED-PAYLOAD") newBytes).1 = .ok (.object newObject)) ∧
    ((writerService.putBuffered plainAround Store.empty plainFront chunkTools plainAnswers emptyState
        (putOf "UNSIGNED-PAYLOAD") newBytes).1 = .ok (.object newObject) →
      (writerService.putBuffered plainAround Store.empty plainFront chunkTools plainAnswers emptyState
          (putOf "UNSIGNED-PAYLOAD") newBytes).2 =
        (writerService.putStreamed plainAround Store.empty plainFront chunkTools plainAnswers
          emptyState (putOf "UNSIGNED-PAYLOAD") newBytes).2) := by
  refine put_paths_agree writerService plainAround Store.empty plainFront plainAnswers chunkTools
    emptyState (putOf "UNSIGNED-PAYLOAD") newBytes "mine" "x" (by decide +kernel) ?_
    (.object newObject)
  constructor
  · constructor
    · intro accessKey delegated
      rw [Front.delegatedCred] at delegated
      split at delegated
      · dsimp only at delegated
        split at delegated <;> cases delegated
      · cases delegated
    · intro signature signed _
      cases signed
      rfl
    · intro unsigned
      cases unsigned
  · intro n given
    have absent : contentLength (putOf "UNSIGNED-PAYLOAD") = none := by decide +kernel
    rw [absent] at given
    cases given
  · intro _ payload parsed
    have unsigned : payloadHashFromHeaders chunkTools.digests (putOf "UNSIGNED-PAYLOAD") =
        .ok .unsigned := by decide +kernel
    rw [unsigned] at parsed
    cases parsed
    rfl
  · intro unsigned
    cases unsigned
  · exact .inl (by decide +kernel)

/-- A body in chunks is taken as a stream only. -/
theorem chunked_put_apart :
    ¬∀ (service : S3Service) (around : Surroundings) (rows : Store) (front : Front)
      (answers : Answers) (tools : PutTools) (state : PutState) (request : S3Request)
      (content : Bytes) (bucket key : String),
      front.router.operation front.std front.xml request = .ok (.putObject bucket key) →
      ∀ written, (service.putBuffered around rows front tools answers state request content).1 =
          .ok written ↔
        (service.putStreamed around rows front tools answers state request content).1 =
          .ok written := by
  intro all
  have agree := all writerService plainAround Store.empty plainFront plainAnswers chunkTools emptyState
    (putOf "STREAMING-UNSIGNED-PAYLOAD-TRAILER") newChunks "mine" "x" (by decide +kernel)
    (.object newObject)
  revert agree
  decide +kernel

end Chunks

end FastS3.S3
