import FastS3.S3.PutObject

namespace FastS3.S3

open Data Engine
open FastS3.Core (Bytes KeyGroup Reading VersioningState Vk vkNull)
open Meta (BucketMeta)

/-! What an upload that is answered with an error leaves of what was stored before it. -/

namespace PutTools

variable (tools : PutTools)

def held (state : PutState) (upload : Upload) : Option Written :=
  match upload.write with
  | .object _ => (state.group.row (tools.target state upload).versionKey).map .object
  | .part put => (state.session.bind fun session => session.parts.get? put.number).map .part

/-- A write is taken back if it is that of an object and the engine carries out the deletion. -/
def undone (upload : Upload) (back : Bool) : Bool :=
  match upload.write with
  | .object _ => back && tools.deletes
  | .part _ => false

/-- A check behind the commit that fails finds the place empty if the write is taken back, and what was
written there before if it is not. -/
def Spares (state : PutState) (upload : Upload) : Prop :=
  tools.refusal state upload = none → ∀ e back,
    upload.late (tools.written state upload).etag (tools.written state upload).checksum =
      some (e, back) →
    tools.held state upload =
      if tools.undone upload back then none else some (tools.written state upload)

def prepare (entry : EntryPoint) (state : PutState) (verified : Verified) (request : S3Request)
    (key : String) (target : StreamTarget) (content : Bytes) : Except PutError Upload :=
  match entry, target with
  | .handle, .object => tools.preparePutObject state verified request content
  | .handle, .part number => tools.prepareUploadPart state request number content
  | .stream, target => tools.prepareStream state verified request key target content

def upload (entry : EntryPoint) (state : PutState) (verified : Verified) (request : S3Request)
    (key : String) (target : StreamTarget) (content : Bytes) : Except PutError Written × PutState :=
  match entry, target with
  | .handle, .object => tools.opPutObjectBuffered state verified request content
  | .handle, .part number => tools.opUploadPart state request number content
  | .stream, target => tools.putObjectStreamInner state verified request key target content

theorem upload_eq_carryOut (entry : EntryPoint) (state : PutState) (verified : Verified)
    (request : S3Request) (key : String) (target : StreamTarget) (content : Bytes) :
    tools.upload entry state verified request key target content =
      tools.carryOut state (tools.prepare entry state verified request key target content) := by
  cases entry with
  | stream => rfl
  | handle => cases target <;> rfl

end PutTools

section Rollback

variable {tools : PutTools} {state : PutState}

theorem deleteVersion_written (group : KeyGroup StoredObject) {reading : Reading}
    (clock : reading.micros < 2 ^ 64) (versioning : VersioningState) (stored : StoredObject) :
    let target := Engine.KeyGroup.planObjectWrite group reading versioning
    Engine.KeyGroup.deleteVersion (group.put target.versionKey stored) reading versioning
        (fun _ => false) (writtenVersion versioning target.metaVersionId) =
      .ok ((group.put target.versionKey stored).erase target.versionKey, some stored) := by
  intro target
  cases versioning with
  | off => rfl
  | enabled =>
    have real : group.nextVk reading ≠ vkNull := group.nextVk_ne_vkNull clock
    have inserted : (group.versions.insert (group.nextVk reading) stored).get?
        (group.nextVk reading) = some stored := by
      rw [BTreeMap.get?_insert, if_pos rfl]
    change Engine.KeyGroup.deleteObjectVersion (group.put (some (group.nextVk reading)) stored)
      (fun _ => false) (group.nextVk reading) = _
    rw [Engine.KeyGroup.deleteObjectVersion, if_neg fun both => real both.1]
    simp only [KeyGroup.put, inserted]
    rfl
  | suspended =>
    cases legacy : group.single with
    | some old =>
      have own : target = .legacySlot := by
        simp only [target, Engine.KeyGroup.planObjectWrite, legacy]
        rfl
      rw [own]
      rfl
    | none =>
      have null : target = .nullSlot := by
        simp only [target, Engine.KeyGroup.planObjectWrite, legacy]
        rfl
      have inserted : (group.versions.insert vkNull stored).get? vkNull = some stored := by
        rw [BTreeMap.get?_insert, if_pos rfl]
      rw [null]
      change Engine.KeyGroup.deleteObjectVersion (group.put (some vkNull) stored)
        (fun _ => false) vkNull = _
      rw [Engine.KeyGroup.deleteObjectVersion, if_neg (by simp [KeyGroup.put, legacy])]
      simp only [KeyGroup.put, inserted]
      rfl

theorem store_eq_self_iff {upload : Upload} (accepted : tools.refusal state upload = none) :
    tools.store state upload = state ↔
      tools.held state upload = some (tools.written state upload) := by
  cases wrote : upload.write with
  | object put =>
    simp only [PutTools.store, PutTools.held, PutTools.written, wrote, Option.map_eq_some_iff,
      Written.object.injEq, exists_eq_right]
    rw [← KeyGroup.put_eq_self_iff]
    constructor
    · exact congrArg PutState.group
    · intro same
      rw [same]
  | part put =>
    cases running : state.session with
    | none =>
      simp only [PutTools.refusal, wrote, running, Option.isNone_none, if_true] at accepted
      cases accepted
    | some session =>
      simp only [PutTools.store, PutTools.held, PutTools.written, wrote, running,
        Option.bind_some, Option.map_some, Option.map_eq_some_iff, Written.part.injEq,
        exists_eq_right]
      rw [← BTreeMap.insert_eq_self_iff]
      constructor
      · intro same
        have sessions := congrArg PutState.session same
        rw [running, Option.some.injEq] at sessions
        exact congrArg UploadSession.parts sessions
      · intro same
        rw [same, ← running]

theorem rollback_eq_self_iff {upload : Upload} (accepted : tools.refusal state upload = none) :
    tools.rollback (tools.store state upload) upload.versioning (tools.written state upload) = state ↔
      tools.held state upload =
        if tools.undone upload true then none else some (tools.written state upload) := by
  cases wrote : upload.write with
  | part put =>
    have stays : tools.rollback (tools.store state upload) upload.versioning
        (tools.written state upload) = tools.store state upload := by
      simp only [PutTools.rollback, PutTools.written, wrote]
    rw [stays, store_eq_self_iff accepted, PutTools.undone, wrote, if_neg Bool.false_ne_true]
  | object put =>
    cases carried : tools.deletes with
    | false =>
      have stays : tools.rollback (tools.store state upload) upload.versioning
          (tools.written state upload) = tools.store state upload := by
        simp only [PutTools.rollback, PutTools.written, wrote, PutTools.rollbackPutVersion,
          PutTools.deleteVersionUnlocked, carried, Bool.false_eq_true, if_false]
      rw [stays, store_eq_self_iff accepted, PutTools.undone, wrote, carried]
      rfl
    | true =>
      have undo := deleteVersion_written state.group tools.clock upload.versioning
      simp only [PutTools.rollback, PutTools.store, PutTools.written, PutTools.held,
        PutTools.undone, wrote, PutTools.rollbackPutVersion, PutTools.deleteVersionUnlocked,
        carried, if_true, Bool.and_self, PutTools.target, undo, Option.map_eq_none_iff]
      rw [← KeyGroup.erase_put_eq_self_iff]
      constructor
      · exact congrArg PutState.group
      · intro same
        rw [same]

/-- An upload that fails on a mismatch changes nothing if and only if it spares what it finds. -/
theorem carryOut_unchanged_iff {prepared : Except PutError Upload}
    (late : ∀ upload, prepared = .ok upload → ∀ etag actual e back,
      upload.late etag actual = some (e, back) → e.mismatch = true) :
    (∀ e, (tools.carryOut state prepared).1 = .error e → e.mismatch = true →
        (tools.carryOut state prepared).2 = state) ↔
      ∀ upload, prepared = .ok upload → tools.Spares state upload := by
  cases prepared with
  | error e =>
    constructor
    · intro _ upload accepted
      cases accepted
    · intro _ reason _ _
      rfl
  | ok upload =>
    have single : (∀ other, (.ok upload : Except PutError Upload) = .ok other → tools.Spares state other) ↔
        tools.Spares state upload := by
      constructor
      · intro all
        exact all upload rfl
      · intro spares other same
        cases same
        exact spares
    rw [single, PutTools.Spares]
    cases refused : tools.refusal state upload with
    | some reason =>
      simp only [PutTools.carryOut, refused, reduceCtorEq, false_implies, iff_true]
      intro e _ _
      trivial
    | none =>
      simp only [PutTools.carryOut, refused, forall_const]
      cases found : upload.late (tools.written state upload).etag
          (tools.written state upload).checksum with
      | none => simp
      | some failure =>
        obtain ⟨e, back⟩ := failure
        have mismatched : e.mismatch = true := late upload rfl _ _ e back found
        cases back with
        | true =>
          simp only [Except.error.injEq, forall_eq', mismatched, forall_const,
            Option.some.injEq, Prod.mk.injEq, rollback_eq_self_iff refused]
          constructor
          · intro left other back same
            rw [← same.2]
            exact left
          · intro all
            exact all e true ⟨rfl, rfl⟩
        | false =>
          simp only [Except.error.injEq, forall_eq', mismatched, forall_const,
            Option.some.injEq, Prod.mk.injEq, store_eq_self_iff refused]
          have kept : tools.undone upload false = false := by
            rw [PutTools.undone]
            split <;> rfl
          constructor
          · intro left other back same
            rw [← same.2, kept]
            exact left
          · intro all
            have left := all e false ⟨rfl, rfl⟩
            rwa [kept] at left

end Rollback

section Late

variable {tools : PutTools} {state : PutState} {verified : Verified} {request : S3Request}
  {content : Bytes} {upload : Upload} {e : PutError} {back : Bool}

variable {actual : Option ChecksumInfo} {etag : Bytes}

theorem lateChecksum_mismatch {declared : Option ChecksumInfo}
    (found : PutTools.lateChecksum declared actual = some e) : e.mismatch = true := by
  cases declared with
  | none => cases found
  | some info =>
    rw [PutTools.lateChecksum] at found
    split at found
    · cases found
    · cases found
      rfl

theorem lateBuffered_mismatch {md5 : Option Bytes} {declared : Option ChecksumInfo}
    (found : tools.lateBuffered md5 content declared etag actual = some (e, back)) :
    e.mismatch = true := by
  rw [PutTools.lateBuffered] at found
  split at found
  · cases found
    rfl
  · obtain ⟨reason, checksum, same⟩ := Option.map_eq_some_iff.mp found
    cases same
    exact lateChecksum_mismatch checksum

theorem contentMd5_error (found : tools.contentMd5 request = .error e) : e = .invalidMd5 := by
  rw [PutTools.contentMd5] at found
  split at found
  · cases found
  · split at found
    · cases found
      rfl
    · cases found

theorem lateStream_mismatch {payload : PayloadHash} {body : Bytes} {cksum : RequestChecksum}
    (found : tools.lateStream request payload content body cksum etag actual = some (e, back)) :
    e.mismatch = true := by
  rw [PutTools.lateStream] at found
  split at found
  · cases found
    rfl
  split at found
  · cases found
    rfl
  cases checksum : PutTools.lateChecksum cksum.value actual with
  | some reason =>
    simp only [checksum] at found
    cases found
    exact lateChecksum_mismatch checksum
  | none =>
    cases md5 : tools.contentMd5 request with
    | error reason =>
      simp only [checksum, md5] at found
      cases found
      rw [contentMd5_error md5]
      rfl
    | ok expected =>
      simp only [checksum, md5] at found
      split at found
      · cases found
        rfl
      · cases found

theorem preparePutObject_late
    (prepared : tools.preparePutObject state verified request content = .ok upload) :
    ∃ md5 declared, upload.late = tools.lateBuffered md5 content declared := by
  rw [PutTools.preparePutObject] at prepared
  simp only [bind_eq_ok] at prepared
  obtain ⟨-, -, payload, -, -, -, -, -, md5, -, cksum, -, -, -, ssec, -, bkt, -, intent, -, kmsKey,
    -, -, -, -, -, tags, -, precond, -, s3Key, -, lock, -, ⟨⟩⟩ := prepared
  exact ⟨md5, cksum.value, rfl⟩

theorem prepareUploadPart_late {number : Nat}
    (prepared : tools.prepareUploadPart state request number content = .ok upload) :
    upload.late = fun _ _ => none := by
  rw [PutTools.prepareUploadPart] at prepared
  simp only [bind_eq_ok] at prepared
  obtain ⟨-, -, -, -, cksum, -, -, -, -, -, ssec, -, bkt, -, -, -, ⟨⟩⟩ := prepared
  rfl

theorem prepareStream_late {key : String} {target : StreamTarget}
    (prepared : tools.prepareStream state verified request key target content = .ok upload) :
    ∃ payload body cksum, upload.late = tools.lateStream request payload content body cksum := by
  rw [PutTools.prepareStream] at prepared
  simp only [bind_eq_ok] at prepared
  obtain ⟨-, -, -, -, -, -, -, -, bkt, -, precond, -, -, -, tags, -, -, -, -, -, cksum, -, ssec, -,
    intent, -, kmsKey, -, payload, -, -, -, -, -, write, -, body, -, ⟨⟩⟩ := prepared
  exact ⟨payload, body, cksum, rfl⟩

theorem prepare_mismatch {entry : EntryPoint} {key : String} {target : StreamTarget}
    (prepared : tools.prepare entry state verified request key target content = .ok upload)
    (found : upload.late etag actual = some (e, back)) : e.mismatch = true := by
  cases entry with
  | stream =>
    obtain ⟨payload, body, cksum, late⟩ := prepareStream_late prepared
    rw [late] at found
    exact lateStream_mismatch found
  | handle =>
    cases target with
    | object =>
      obtain ⟨md5, declared, late⟩ := preparePutObject_late prepared
      rw [late] at found
      exact lateBuffered_mismatch found
    | part number =>
      rw [prepareUploadPart_late prepared] at found
      cases found

end Late

/-- An upload that a mismatch rejects leaves what was stored before, by whichever entry it came, if and
only if the checks behind its commit spare what was there. -/
theorem rejected_unchanged_iff (tools : PutTools) (entry : EntryPoint) (state : PutState)
    (verified : Verified) (request : S3Request) (key : String) (target : StreamTarget)
    (content : Bytes) :
    (∀ e, (tools.upload entry state verified request key target content).1 = .error e →
        e.mismatch = true →
        (tools.upload entry state verified request key target content).2 = state) ↔
      ∀ upload, tools.prepare entry state verified request key target content = .ok upload →
        tools.Spares state upload := by
  rw [PutTools.upload_eq_carryOut]
  apply carryOut_unchanged_iff
  intro upload prepared etag actual e back found
  exact prepare_mismatch prepared found

section Overwritten

/-- `old` and `new`, with their digests. -/
def oldBytes : Bytes := [0x6F, 0x6C, 0x64]

def newBytes : Bytes := [0x6E, 0x65, 0x77]

def oldMd5 : Bytes :=
  [0x14, 0x96, 0x03, 0xE6, 0xC0, 0x35, 0x16, 0x36, 0x2A, 0x8D, 0xA2, 0x3F, 0x62, 0x4D, 0xB9, 0x45]

def newMd5 : Bytes :=
  [0x22, 0xAF, 0x64, 0x5D, 0x18, 0x59, 0xCB, 0x5C, 0xA6, 0xDA, 0x0C, 0x48, 0x4F, 0x1F, 0x37, 0xEA]

/-- The parsers on a request that has no header but `content-md5`. -/
def bareParsers : HeaderParsers where
  decodeB64 b64 := if b64 = "FJYD5sA1FjYqjaI/Yk25RQ==" then some oldMd5 else none
  decodeB64Lenient b64 := if b64 = "FJYD5sA1FjYqjaI/Yk25RQ==" then some oldMd5 else none
  writePrecondition _ := .ok none
  objectTags _ := .ok none
  customerHeaders _ := .ok none
  sseWriteIntent _ _ _ := .ok .none
  hasSseHeaders _ := false
  hasObjectLockHeaders _ := false
  resolveWrite _ _ := .ok ⟨none, false⟩

def md5Of (body : Bytes) : Bytes :=
  if body = newBytes then newMd5 else if body = oldBytes then oldMd5 else []

def bareTools : PutTools where
  parsers := bareParsers
  digests := ⟨fun _ => [], md5Of, fun _ _ => []⟩
  decodeChunks _ _ content := .ok content
  blocksPublicAcls := true
  mintS3 := .ok []
  mintKms _ := .ok []
  reading := ⟨1700000000000000, 1700000000, [1, 2, 3, 4, 5, 6, 7, 8]⟩
  clock := by decide
  refuses _ _ _ := none
  etag _ body := md5Of body
  deletes := true

def oldObject : StoredObject :=
  { deleteMarkerMeta none 1600000000 with
    content := oldBytes
    size := 3
    etag := oldMd5
    contentType := "application/octet-stream"
    isDeleteMarker := false }

def oldState : PutState where
  bucket := some .created
  group := ⟨some oldObject, .empty⟩
  session := none

def wrongMd5Request : S3Request where
  method := .put
  path := "/b/k"
  host := "127.0.0.1"
  query := []
  headers := [("content-md5", "FJYD5sA1FjYqjaI/Yk25RQ==")]
  body := []

/-- An overwriting put with the digest of other bytes is refused, and the object is gone. -/
theorem refused_overwrite_loses :
    ¬ ∀ e, (bareTools.upload .handle oldState ⟨.ok (some .unsigned), .ok none⟩ wrongMd5Request "k"
          .object newBytes).1 = .error e →
        e.mismatch = true →
        (bareTools.upload .handle oldState ⟨.ok (some .unsigned), .ok none⟩ wrongMd5Request "k"
          .object newBytes).2 = oldState := by
  intro unchanged
  have left := unchanged .contentMd5 (by decide +kernel) rfl
  have object := congrArg (fun state => state.group.single) left
  revert object
  decide +kernel

end Overwritten

end FastS3.S3
