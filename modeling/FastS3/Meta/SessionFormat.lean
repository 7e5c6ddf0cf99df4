import FastS3.Data.Wire
import FastS3.Meta.Keys

namespace FastS3.Meta.SessionFormat

open FastS3.Core Data

/-! The stored form of a multipart session.

Fields were appended to the session over the releases; `decode_session` tries the formats
from the newest to the oldest.  The text behind the error of the last one is left out.
-/

structure SessionSseS3 where
  kekId : UInt32
  wrappedDek : Vec UInt8

structure Retention where
  mode : RetentionMode
  retainUntil : Int64
deriving DecidableEq

structure SessionSseKms where
  keyName : Utf8
  wrappedDek : Utf8
  contextSuffix : Utf8
  bucketKeyEnabled : Option Bool

structure LegacySession where
  bucket : Utf8
  key : Utf8
  contentType : Utf8
  userMeta : Vec (Utf8 × Utf8)
  created : Int64
  completed : Bool
  finalEtag : ByteBlock 16
  finalSize : UInt64
  finalMtime : Int64

/-- The session format of v1.1.0, with `resp_headers`. -/
structure SessionV11 where
  bucket : Utf8
  key : Utf8
  contentType : Utf8
  userMeta : Vec (Utf8 × Utf8)
  respHeaders : Vec (Utf8 × Utf8)
  created : Int64
  completed : Bool
  finalEtag : ByteBlock 16
  finalSize : UInt64
  finalMtime : Int64

structure SessionV12 extends SessionV11 where
  tags : Vec (Utf8 × Utf8)

structure SessionV12b extends SessionV12 where
  checksumAlg : Option ChecksumAlgorithm

structure SessionV12c extends SessionV12b where
  sseKeyMd5 : Option Utf8

structure SessionV12d extends SessionV12c where
  sseS3 : Option SessionSseS3

/-- The session format from M12 W2-3 up to M15 C1: with the object lock, and without the
storage class that M15 appends.  `decode_session` has no step for it. -/
structure SessionM12 extends SessionV12d where
  retention : Option Retention
  legalHold : Option Bool

structure SessionV19 extends SessionM12 where
  requestedStorageClass : Option Utf8

structure MultipartSession extends SessionV19 where
  sseKms : Option SessionSseKms

theorem retentionMode_raw (raw : UInt32) (mode : RetentionMode) :
    (if raw = 0 then some RetentionMode.governance
      else if raw = 1 then some .compliance else none) = some mode →
    (match mode with | .governance => 0 | .compliance => 1) = raw := by
  intro accepted
  split at accepted
  · next zero =>
      cases accepted
      exact zero.symm
  · split at accepted
    · next one =>
        cases accepted
        exact one.symm
    · cases accepted

def retentionModeWire : Wire RetentionMode :=
  Wire.u32.refine (fun mode => match mode with | .governance => 0 | .compliance => 1)
    (fun raw => if raw = 0 then some .governance else if raw = 1 then some .compliance else none)
    (fun mode => by cases mode <;> rfl) retentionMode_raw

def checksumAlgorithmWire : Wire ChecksumAlgorithm :=
  Wire.u32.refine
    (fun alg => match alg with
      | .crc32c => 0 | .crc32 => 1 | .sha1 => 2 | .sha256 => 3 | .crc64Nvme => 4)
    (fun raw =>
      if raw = 0 then some .crc32c else if raw = 1 then some .crc32
      else if raw = 2 then some .sha1 else if raw = 3 then some .sha256
      else if raw = 4 then some .crc64Nvme else none)
    (fun alg => by cases alg <;> rfl)
    fun raw alg accepted => by split_ifs at accepted <;> cases accepted <;> subst_vars <;> rfl

def sseS3Wire : Wire SessionSseS3 :=
  (Wire.u32.pair (Wire.vec Wire.byte)).record (fun sse => (sse.kekId, sse.wrappedDek))
    (fun raw => ⟨raw.1, raw.2⟩) (fun _ => rfl) fun _ => rfl

def retentionWire : Wire Retention :=
  (retentionModeWire.pair Wire.i64).record (fun lock => (lock.mode, lock.retainUntil))
    (fun raw => ⟨raw.1, raw.2⟩) (fun _ => rfl) fun _ => rfl

def sseKmsWire : Wire SessionSseKms :=
  (Wire.utf8.pair (Wire.utf8.pair (Wire.utf8.pair Wire.bool.option))).record
    (fun sse => (sse.keyName, sse.wrappedDek, sse.contextSuffix, sse.bucketKeyEnabled))
    (fun raw => ⟨raw.1, raw.2.1, raw.2.2.1, raw.2.2.2⟩) (fun _ => rfl) fun _ => rfl

def pairsWire : Wire (Vec (Utf8 × Utf8)) :=
  Wire.vec (Wire.utf8.pair Wire.utf8)

/-- The fields up to `user_meta`. -/
abbrev Head := Utf8 × Utf8 × Utf8 × Vec (Utf8 × Utf8)

def headWire : Wire Head :=
  Wire.utf8.pair (Wire.utf8.pair (Wire.utf8.pair pairsWire))

/-- The fields from `created` to `final_mtime`. -/
abbrev Outcome := Int64 × Bool × ByteBlock 16 × UInt64 × Int64

def outcomeWire : Wire Outcome :=
  Wire.i64.pair (Wire.bool.pair ((Wire.block 15).pair (Wire.u64.pair Wire.i64)))

def LegacySession.wire : Wire LegacySession :=
  (headWire.pair outcomeWire).record
    (fun s => ((s.bucket, s.key, s.contentType, s.userMeta),
      (s.created, s.completed, s.finalEtag, s.finalSize, s.finalMtime)))
    (fun raw => ⟨raw.1.1, raw.1.2.1, raw.1.2.2.1, raw.1.2.2.2,
      raw.2.1, raw.2.2.1, raw.2.2.2.1, raw.2.2.2.2.1, raw.2.2.2.2.2⟩)
    (fun _ => rfl) fun _ => rfl

def SessionV11.wire : Wire SessionV11 :=
  (headWire.pair (pairsWire.pair outcomeWire)).record
    (fun s => ((s.bucket, s.key, s.contentType, s.userMeta), s.respHeaders,
      (s.created, s.completed, s.finalEtag, s.finalSize, s.finalMtime)))
    (fun raw => ⟨raw.1.1, raw.1.2.1, raw.1.2.2.1, raw.1.2.2.2, raw.2.1,
      raw.2.2.1, raw.2.2.2.1, raw.2.2.2.2.1, raw.2.2.2.2.2.1, raw.2.2.2.2.2.2⟩)
    (fun _ => rfl) fun _ => rfl

def SessionV12.wire : Wire SessionV12 :=
  (SessionV11.wire.pair pairsWire).record (fun s => (s.toSessionV11, s.tags))
    (fun raw => ⟨raw.1, raw.2⟩) (fun _ => rfl) fun _ => rfl

def SessionV12b.wire : Wire SessionV12b :=
  (SessionV12.wire.pair checksumAlgorithmWire.option).record
    (fun s => (s.toSessionV12, s.checksumAlg)) (fun raw => ⟨raw.1, raw.2⟩)
    (fun _ => rfl) fun _ => rfl

def SessionV12c.wire : Wire SessionV12c :=
  (SessionV12b.wire.pair Wire.utf8.option).record (fun s => (s.toSessionV12b, s.sseKeyMd5))
    (fun raw => ⟨raw.1, raw.2⟩) (fun _ => rfl) fun _ => rfl

def SessionV12d.wire : Wire SessionV12d :=
  (SessionV12c.wire.pair sseS3Wire.option).record (fun s => (s.toSessionV12c, s.sseS3))
    (fun raw => ⟨raw.1, raw.2⟩) (fun _ => rfl) fun _ => rfl

def SessionM12.wire : Wire SessionM12 :=
  (SessionV12d.wire.pair (retentionWire.option.pair Wire.bool.option)).record
    (fun s => (s.toSessionV12d, s.retention, s.legalHold)) (fun raw => ⟨raw.1, raw.2.1, raw.2.2⟩)
    (fun _ => rfl) fun _ => rfl

def SessionV19.wire : Wire SessionV19 :=
  (SessionM12.wire.pair Wire.utf8.option).record
    (fun s => (s.toSessionM12, s.requestedStorageClass)) (fun raw => ⟨raw.1, raw.2⟩)
    (fun _ => rfl) fun _ => rfl

def MultipartSession.wire : Wire MultipartSession :=
  (SessionV19.wire.pair sseKmsWire.option).record (fun s => (s.toSessionV19, s.sseKms))
    (fun raw => ⟨raw.1, raw.2⟩) (fun _ => rfl) fun _ => rfl

def intoSession (s : SessionV11) (tags : Vec (Utf8 × Utf8)) (checksumAlg : Option ChecksumAlgorithm)
    (sseKeyMd5 : Option Utf8) : MultipartSession :=
  { s with
    tags, checksumAlg, sseKeyMd5
    sseS3 := none
    retention := none
    legalHold := none
    requestedStorageClass := none
    sseKms := none }

def noPairs : Vec (Utf8 × Utf8) := ⟨[], by decide⟩

def decodeSession (v : List UInt8) : Except Error MultipartSession :=
  match MultipartSession.wire.fromBytes v with
  | some s => .ok s
  | none =>
    match SessionV19.wire.fromBytes v with
    | some s => .ok { s with sseKms := none }
    | none =>
      match SessionV12d.wire.fromBytes v with
      | some s => .ok { s with
          retention := none
          legalHold := none
          requestedStorageClass := none
          sseKms := none }
      | none =>
        match SessionV12c.wire.fromBytes v with
        | some s => .ok (intoSession s.toSessionV11 s.tags s.checksumAlg s.sseKeyMd5)
        | none =>
          match SessionV12b.wire.fromBytes v with
          | some s => .ok (intoSession s.toSessionV11 s.tags s.checksumAlg none)
          | none =>
            match SessionV12.wire.fromBytes v with
            | some s => .ok (intoSession s.toSessionV11 s.tags none none)
            | none =>
              match SessionV11.wire.fromBytes v with
              | some s => .ok (intoSession s noPairs none none)
              | none =>
                match LegacySession.wire.fromBytes v with
                | some legacy => .ok (intoSession { legacy with respHeaders := noPairs }
                    noPairs none none)
                | none => .error (.corrupt "postcard decode session")

inductive Stored where
  | legacy (s : LegacySession)
  | v11 (s : SessionV11)
  | v12 (s : SessionV12)
  | v12b (s : SessionV12b)
  | v12c (s : SessionV12c)
  | v12d (s : SessionV12d)
  | m12 (s : SessionM12)
  | v19 (s : SessionV19)
  | current (s : MultipartSession)

def Stored.bytes : Stored → List UInt8
  | .legacy s => LegacySession.wire.put s
  | .v11 s => SessionV11.wire.put s
  | .v12 s => SessionV12.wire.put s
  | .v12b s => SessionV12b.wire.put s
  | .v12c s => SessionV12c.wire.put s
  | .v12d s => SessionV12d.wire.put s
  | .m12 s => SessionM12.wire.put s
  | .v19 s => SessionV19.wire.put s
  | .current s => MultipartSession.wire.put s

/-- The fields that the format has, and the documented value for each later one: empty
lists, no checksum, no encryption, no lock and no storage class. -/
def Stored.session : Stored → MultipartSession
  | .current s => s
  | .v19 s => { s with sseKms := none }
  | .m12 s => { s with requestedStorageClass := none, sseKms := none }
  | .v12d s => { s with
      retention := none, legalHold := none, requestedStorageClass := none, sseKms := none }
  | .v12c s => { s with
      sseS3 := none, retention := none, legalHold := none, requestedStorageClass := none
      sseKms := none }
  | .v12b s => { s with
      sseKeyMd5 := none, sseS3 := none, retention := none, legalHold := none
      requestedStorageClass := none, sseKms := none }
  | .v12 s => { s with
      checksumAlg := none, sseKeyMd5 := none, sseS3 := none, retention := none
      legalHold := none, requestedStorageClass := none, sseKms := none }
  | .v11 s => { s with
      tags := noPairs, checksumAlg := none, sseKeyMd5 := none, sseS3 := none
      retention := none, legalHold := none, requestedStorageClass := none, sseKms := none }
  | .legacy s => { s with
      respHeaders := noPairs, tags := noPairs, checksumAlg := none, sseKeyMd5 := none
      sseS3 := none, retention := none, legalHold := none, requestedStorageClass := none
      sseKms := none }

def LegacySession.Misread (s : LegacySession) : Prop :=
  (SessionV11.wire.fromBytes (LegacySession.wire.put s)).isSome

/-- A session with a lock and no place for a storage class has nothing to lose, and the
bytes of one without header fields are not taken for one with. -/
def Stored.ReadsBack : Stored → Prop
  | .m12 s => s.retention = none ∧ s.legalHold = none
  | .legacy s => ¬s.Misread
  | _ => True

theorem v12_outgrows : SessionV12.wire.Outgrows SessionV11.wire :=
  (Wire.outgrows_pair _ _).record _ _ _ _

theorem v12b_outgrows : SessionV12b.wire.Outgrows SessionV12.wire :=
  (Wire.outgrows_pair _ _).record _ _ _ _

theorem v12c_outgrows : SessionV12c.wire.Outgrows SessionV12b.wire :=
  (Wire.outgrows_pair _ _).record _ _ _ _

theorem v12d_outgrows : SessionV12d.wire.Outgrows SessionV12c.wire :=
  (Wire.outgrows_pair _ _).record _ _ _ _

theorem m12_outgrows : SessionM12.wire.Outgrows SessionV12d.wire :=
  (Wire.outgrows_pair _ _).record _ _ _ _

theorem v19_outgrows : SessionV19.wire.Outgrows SessionM12.wire :=
  (Wire.outgrows_pair _ _).record _ _ _ _

theorem current_outgrows : MultipartSession.wire.Outgrows SessionV19.wire :=
  (Wire.outgrows_pair _ _).record _ _ _ _

variable {bytes : List UInt8}

theorem SessionV12.fromBytes_v11 {s : SessionV12}
    (read : SessionV12.wire.fromBytes bytes = some s) :
    SessionV11.wire.fromBytes bytes = some s.toSessionV11 := by
  rw [SessionV12.wire, Wire.fromBytes_record] at read
  obtain ⟨raw, found, rfl⟩ := Option.map_eq_some_iff.mp read
  exact Wire.fromBytes_of_pair _ _ found

theorem SessionV12b.fromBytes_v11 {s : SessionV12b}
    (read : SessionV12b.wire.fromBytes bytes = some s) :
    SessionV11.wire.fromBytes bytes = some s.toSessionV11 := by
  rw [SessionV12b.wire, Wire.fromBytes_record] at read
  obtain ⟨raw, found, rfl⟩ := Option.map_eq_some_iff.mp read
  exact SessionV12.fromBytes_v11 (Wire.fromBytes_of_pair _ _ found)

theorem SessionV12c.fromBytes_v11 {s : SessionV12c}
    (read : SessionV12c.wire.fromBytes bytes = some s) :
    SessionV11.wire.fromBytes bytes = some s.toSessionV11 := by
  rw [SessionV12c.wire, Wire.fromBytes_record] at read
  obtain ⟨raw, found, rfl⟩ := Option.map_eq_some_iff.mp read
  exact SessionV12b.fromBytes_v11 (Wire.fromBytes_of_pair _ _ found)

theorem SessionV12d.fromBytes_v11 {s : SessionV12d}
    (read : SessionV12d.wire.fromBytes bytes = some s) :
    SessionV11.wire.fromBytes bytes = some s.toSessionV11 := by
  rw [SessionV12d.wire, Wire.fromBytes_record] at read
  obtain ⟨raw, found, rfl⟩ := Option.map_eq_some_iff.mp read
  exact SessionV12c.fromBytes_v11 (Wire.fromBytes_of_pair _ _ found)

theorem SessionM12.fromBytes_v12d {s : SessionM12}
    (read : SessionM12.wire.fromBytes bytes = some s) :
    SessionV12d.wire.fromBytes bytes = some s.toSessionV12d := by
  rw [SessionM12.wire, Wire.fromBytes_record] at read
  obtain ⟨raw, found, rfl⟩ := Option.map_eq_some_iff.mp read
  exact Wire.fromBytes_of_pair _ _ found

theorem SessionV19.fromBytes_v11 {s : SessionV19}
    (read : SessionV19.wire.fromBytes bytes = some s) :
    SessionV11.wire.fromBytes bytes = some s.toSessionV11 := by
  rw [SessionV19.wire, Wire.fromBytes_record] at read
  obtain ⟨raw, found, rfl⟩ := Option.map_eq_some_iff.mp read
  exact SessionV12d.fromBytes_v11 (SessionM12.fromBytes_v12d (Wire.fromBytes_of_pair _ _ found))

theorem MultipartSession.fromBytes_v11 {s : MultipartSession}
    (read : MultipartSession.wire.fromBytes bytes = some s) :
    SessionV11.wire.fromBytes bytes = some s.toSessionV11 := by
  rw [MultipartSession.wire, Wire.fromBytes_record] at read
  obtain ⟨raw, found, rfl⟩ := Option.map_eq_some_iff.mp read
  exact SessionV19.fromBytes_v11 (Wire.fromBytes_of_pair _ _ found)

theorem decodeSession_of_v11 {s : SessionV11} (read : SessionV11.wire.fromBytes bytes = some s) :
    ∃ session, decodeSession bytes = .ok session ∧ session.toSessionV11 = s := by
  unfold decodeSession
  cases current : MultipartSession.wire.fromBytes bytes with
  | some found =>
    have same := (MultipartSession.fromBytes_v11 current).symm.trans read
    exact ⟨found, rfl, Option.some.inj same⟩
  | none =>
  cases v19 : SessionV19.wire.fromBytes bytes with
  | some found =>
    have same := (SessionV19.fromBytes_v11 v19).symm.trans read
    exact ⟨_, rfl, Option.some.inj same⟩
  | none =>
  cases v12d : SessionV12d.wire.fromBytes bytes with
  | some found =>
    have same := (SessionV12d.fromBytes_v11 v12d).symm.trans read
    exact ⟨_, rfl, Option.some.inj same⟩
  | none =>
  cases v12c : SessionV12c.wire.fromBytes bytes with
  | some found =>
    have same := (SessionV12c.fromBytes_v11 v12c).symm.trans read
    exact ⟨_, rfl, Option.some.inj same⟩
  | none =>
  cases v12b : SessionV12b.wire.fromBytes bytes with
  | some found =>
    have same := (SessionV12b.fromBytes_v11 v12b).symm.trans read
    exact ⟨_, rfl, Option.some.inj same⟩
  | none =>
  cases v12 : SessionV12.wire.fromBytes bytes with
  | some found =>
    have same := (SessionV12.fromBytes_v11 v12).symm.trans read
    exact ⟨_, rfl, Option.some.inj same⟩
  | none =>
    rw [read]
    exact ⟨_, rfl, rfl⟩

theorem unread_of_v12d (v12d : SessionV12d.wire.fromBytes bytes = none) :
    MultipartSession.wire.fromBytes bytes = none ∧ SessionV19.wire.fromBytes bytes = none := by
  have v19 := (v19_outgrows.trans m12_outgrows).fromBytes_none v12d
  exact ⟨current_outgrows.fromBytes_none v19, v19⟩

theorem unread_of_v12b (v12b : SessionV12b.wire.fromBytes bytes = none) :
    MultipartSession.wire.fromBytes bytes = none ∧ SessionV19.wire.fromBytes bytes = none ∧
      SessionV12d.wire.fromBytes bytes = none ∧ SessionV12c.wire.fromBytes bytes = none := by
  have v12c := v12c_outgrows.fromBytes_none v12b
  have v12d := v12d_outgrows.fromBytes_none v12c
  obtain ⟨current, v19⟩ := unread_of_v12d v12d
  exact ⟨current, v19, v12d, v12c⟩

theorem decodeSession_current (s : MultipartSession) :
    decodeSession (MultipartSession.wire.put s) = .ok s := by
  unfold decodeSession
  rw [MultipartSession.wire.fromBytes_put]

theorem decodeSession_v19 (s : SessionV19) :
    decodeSession (SessionV19.wire.put s) = .ok (Stored.v19 s).session := by
  unfold decodeSession
  rw [current_outgrows.fromBytes_put, SessionV19.wire.fromBytes_put]
  rfl

theorem decodeSession_m12 (s : SessionM12) :
    decodeSession (SessionM12.wire.put s) = .ok (Stored.v12d s.toSessionV12d).session := by
  have current : MultipartSession.wire.fromBytes (SessionM12.wire.put s) = none :=
    (current_outgrows.trans v19_outgrows).fromBytes_put s
  have v19 : SessionV19.wire.fromBytes (SessionM12.wire.put s) = none :=
    v19_outgrows.fromBytes_put s
  have v12d : SessionV12d.wire.fromBytes (SessionM12.wire.put s) = some s.toSessionV12d :=
    SessionM12.fromBytes_v12d (SessionM12.wire.fromBytes_put s)
  unfold decodeSession
  rw [current, v19, v12d]
  rfl

theorem decodeSession_v12d (s : SessionV12d) :
    decodeSession (SessionV12d.wire.put s) = .ok (Stored.v12d s).session := by
  have v19 := (v19_outgrows.trans m12_outgrows).fromBytes_put s
  have current := current_outgrows.fromBytes_none v19
  unfold decodeSession
  rw [current, v19, SessionV12d.wire.fromBytes_put]
  rfl

theorem decodeSession_v12c (s : SessionV12c) :
    decodeSession (SessionV12c.wire.put s) = .ok (Stored.v12c s).session := by
  have v12d := v12d_outgrows.fromBytes_put s
  obtain ⟨current, v19⟩ := unread_of_v12d v12d
  unfold decodeSession
  rw [current, v19, v12d, SessionV12c.wire.fromBytes_put]
  rfl

theorem decodeSession_v12b (s : SessionV12b) :
    decodeSession (SessionV12b.wire.put s) = .ok (Stored.v12b s).session := by
  have v12c := v12c_outgrows.fromBytes_put s
  have v12d := v12d_outgrows.fromBytes_none v12c
  obtain ⟨current, v19⟩ := unread_of_v12d v12d
  unfold decodeSession
  rw [current, v19, v12d, v12c, SessionV12b.wire.fromBytes_put]
  rfl

theorem decodeSession_v12 (s : SessionV12) :
    decodeSession (SessionV12.wire.put s) = .ok (Stored.v12 s).session := by
  have v12b := v12b_outgrows.fromBytes_put s
  obtain ⟨current, v19, v12d, v12c⟩ := unread_of_v12b v12b
  unfold decodeSession
  rw [current, v19, v12d, v12c, v12b, SessionV12.wire.fromBytes_put]
  rfl

theorem decodeSession_v11 (s : SessionV11) :
    decodeSession (SessionV11.wire.put s) = .ok (Stored.v11 s).session := by
  have v12 := v12_outgrows.fromBytes_put s
  have v12b := v12b_outgrows.fromBytes_none v12
  obtain ⟨current, v19, v12d, v12c⟩ := unread_of_v12b v12b
  unfold decodeSession
  rw [current, v19, v12d, v12c, v12b, v12, SessionV11.wire.fromBytes_put]
  rfl

theorem decodeSession_legacy {s : LegacySession} (plain : ¬s.Misread) :
    decodeSession (LegacySession.wire.put s) = .ok (Stored.legacy s).session := by
  have v11 : SessionV11.wire.fromBytes (LegacySession.wire.put s) = none := 
    Option.not_isSome_iff_eq_none.mp plain
  have v12 := v12_outgrows.fromBytes_none v11
  have v12b := v12b_outgrows.fromBytes_none v12
  obtain ⟨current, v19, v12d, v12c⟩ := unread_of_v12b v12b
  have legacy : LegacySession.wire.fromBytes (LegacySession.wire.put s) = some s :=
    LegacySession.wire.fromBytes_put s
  unfold decodeSession
  rw [current, v19, v12d, v12c, v12b, v12, v11, legacy]
  rfl

/-- A session that is read with header fields is not the one that was written: with its own
fields and no header, it would take one byte more. -/
theorem LegacySession.Misread.lost {s : LegacySession} (misread : s.Misread) :
    decodeSession (LegacySession.wire.put s) ≠ .ok (Stored.legacy s).session := by
  intro same
  obtain ⟨taken, read⟩ := Option.isSome_iff_exists.mp misread
  obtain ⟨session, decoded, part⟩ := decodeSession_of_v11 read
  rw [decoded] at same
  cases same
  have fits := SessionV11.wire.fromBytes_shortest read
  rw [← part] at fits
  have whole : (SessionV11.wire.put (Stored.legacy s).session.toSessionV11).length =
      (LegacySession.wire.put s).length + 1 := by
    change (headWire.put (s.bucket, s.key, s.contentType, s.userMeta) ++ (pairsWire.put noPairs ++
        outcomeWire.put (s.created, s.completed, s.finalEtag, s.finalSize, s.finalMtime))).length =
      (headWire.put (s.bucket, s.key, s.contentType, s.userMeta) ++
        outcomeWire.put (s.created, s.completed, s.finalEtag, s.finalSize, s.finalMtime)).length + 1
    have empty : (pairsWire.put noPairs).length = 1 := Wire.vec_put_empty _ _
    simp only [List.length_append, empty]
    omega
  omega

/-- The session is read back just when no lock stands in the format that has no step, and
no bytes without header fields pass for bytes with them. -/
theorem decode_session_reads_iff (stored : Stored) :
    decodeSession stored.bytes = .ok stored.session ↔ stored.ReadsBack := by
  cases stored with
  | current s => exact iff_of_true (decodeSession_current s) trivial
  | v19 s => exact iff_of_true (decodeSession_v19 s) trivial
  | m12 s =>
    rw [Stored.bytes, decodeSession_m12]
    constructor
    · intro same
      have lock := congrArg (fun session : MultipartSession => session.retention)
        (Except.ok.inj same)
      have hold := congrArg (fun session : MultipartSession => session.legalHold)
        (Except.ok.inj same)
      exact ⟨lock.symm, hold.symm⟩
    · intro plain
      obtain ⟨lock, hold⟩ := plain
      cases s
      cases lock
      cases hold
      rfl
  | v12d s => exact iff_of_true (decodeSession_v12d s) trivial
  | v12c s => exact iff_of_true (decodeSession_v12c s) trivial
  | v12b s => exact iff_of_true (decodeSession_v12b s) trivial
  | v12 s => exact iff_of_true (decodeSession_v12 s) trivial
  | v11 s => exact iff_of_true (decodeSession_v11 s) trivial
  | legacy s =>
    constructor
    · intro same misread
      exact misread.lost same
    · exact decodeSession_legacy

def locked : SessionM12 where
  bucket := ⟨"bucket", by decide⟩
  key := ⟨"key", by decide⟩
  contentType := ⟨"text/plain", by decide⟩
  userMeta := noPairs
  respHeaders := noPairs
  created := 1756000000
  completed := false
  finalEtag := ⟨List.replicate 16 0, rfl⟩
  finalSize := 0
  finalMtime := 0
  tags := noPairs
  checksumAlg := none
  sseKeyMd5 := none
  sseS3 := none
  retention := some ⟨.compliance, 1900000000⟩
  legalHold := some true

/-- The lock of a stored session is dropped. -/
theorem locked_session_is_unlocked :
    ∃ session, decodeSession (Stored.m12 locked).bytes = .ok session ∧
      session.retention = none ∧ session.legalHold = none ∧
      (Stored.m12 locked).session.retention = some ⟨.compliance, 1900000000⟩ ∧
      (Stored.m12 locked).session.legalHold = some true ∧
      decodeSession (Stored.m12 locked).bytes ≠ .ok (Stored.m12 locked).session := by
  refine ⟨_, decodeSession_m12 locked, rfl, rfl, rfl, rfl, ?_⟩
  intro same
  rw [Stored.bytes, decodeSession_m12] at same
  have lock := congrArg (fun session : MultipartSession => session.retention)
    (Except.ok.inj same)
  cases lock

end FastS3.Meta.SessionFormat
