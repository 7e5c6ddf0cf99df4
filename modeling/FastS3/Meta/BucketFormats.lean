import FastS3.Meta.RecordFormats

namespace FastS3.Meta.RecordFormats

open Data SessionFormat
open FastS3.Core (VersioningState)

/-! The stored forms of buckets, and what is read of every form of objects and buckets.

The first byte of a bucket says which form follows, but the forms of the first releases have none.  They begin
with the time of creation, whose first byte is not a version unless it lies in the first minute of 1970.
-/

structure BucketClassTally where
  objects : UInt64
  bytes : UInt64

structure BucketStatsV2 where
  objects : UInt64
  bytes : UInt64

structure BucketStats where
  objects : UInt64
  bytes : UInt64
  byClass : Vec (Utf8 × BucketClassTally)

structure ObjectLockDefaultRetention where
  mode : RetentionMode
  unit : RetentionPeriodUnit
  n : Int32

structure LegacyBucketMeta where
  created : Int64
  owner : Utf8
  stats : BucketStatsV2
  quota : Option UInt64

structure BucketMetaV1 extends LegacyBucketMeta where
  createdWithAcl : Bool

structure BucketMetaV2NoDefault extends BucketMetaV1 where
  versioning : VersioningState
  defaultEncryption : Option SseAlgorithm
  objectLock : Bool

structure BucketMetaV2 extends BucketMetaV2NoDefault where
  defaultRetention : Option ObjectLockDefaultRetention

structure BucketMetaV3 where
  created : Int64
  owner : Utf8
  stats : BucketStats
  quota : Option UInt64
  createdWithAcl : Bool
  versioning : VersioningState
  defaultEncryption : Option SseAlgorithm
  objectLock : Bool
  defaultRetention : Option ObjectLockDefaultRetention

structure BucketMeta extends BucketMetaV3 where
  defaultKmsKey : Option Utf8

def i32 : Wire Int32 :=
  (Wire.number 4 (2 ^ 32) (by decide)).record
    (fun value => ⟨Wire.zigzag value.toInt, by
      have low := value.le_toInt
      have high := value.toInt_lt
      unfold Wire.zigzag
      split <;> omega⟩)
    (fun raw => Int32.ofInt (Wire.unzigzag raw.1))
    (fun value => by rw [Wire.unzigzag_zigzag, Int32.ofInt_toInt])
    (fun raw => by
      obtain ⟨raw, below⟩ := raw
      apply Subtype.ext
      have inside : -2 ^ 31 ≤ Wire.unzigzag raw ∧ Wire.unzigzag raw < 2 ^ 31 := by
        unfold Wire.unzigzag
        split <;> omega
      change Wire.zigzag (Int32.ofInt (Wire.unzigzag raw)).toInt = raw
      rw [Int32.toInt_ofInt_of_le inside.1 inside.2, Wire.zigzag_unzigzag])

def versioningStateWire : Wire VersioningState :=
  Wire.u32.refine (fun state => match state with | .off => 0 | .enabled => 1 | .suspended => 2)
    (fun raw =>
      if raw = 0 then some .off else if raw = 1 then some .enabled
      else if raw = 2 then some .suspended else none)
    (fun state => by cases state <;> rfl)
    fun raw state accepted => by split_ifs at accepted <;> cases accepted <;> subst_vars <;> rfl

def sseAlgorithmWire : Wire SseAlgorithm :=
  Wire.u32.refine (fun algorithm => match algorithm with | .aes256 => 0 | .kms => 1)
    (fun raw => if raw = 0 then some .aes256 else if raw = 1 then some .kms else none)
    (fun algorithm => by cases algorithm <;> rfl)
    fun raw algorithm accepted => by split_ifs at accepted <;> cases accepted <;> subst_vars <;> rfl

def retentionPeriodUnitWire : Wire RetentionPeriodUnit :=
  Wire.u32.refine (fun unit => match unit with | .days => 0 | .years => 1)
    (fun raw => if raw = 0 then some .days else if raw = 1 then some .years else none)
    (fun unit => by cases unit <;> rfl)
    fun raw unit accepted => by split_ifs at accepted <;> cases accepted <;> subst_vars <;> rfl

def defaultRetentionWire : Wire ObjectLockDefaultRetention :=
  (retentionModeWire.pair (retentionPeriodUnitWire.pair i32)).record (fun d => (d.mode, d.unit, d.n))
    (fun raw => ⟨raw.1, raw.2.1, raw.2.2⟩) (fun _ => rfl) fun _ => rfl

def bucketStatsV2Wire : Wire BucketStatsV2 :=
  (Wire.u64.pair Wire.u64).record (fun s => (s.objects, s.bytes)) (fun raw => ⟨raw.1, raw.2⟩)
    (fun _ => rfl) fun _ => rfl

def tallyWire : Wire BucketClassTally :=
  (Wire.u64.pair Wire.u64).record (fun s => (s.objects, s.bytes)) (fun raw => ⟨raw.1, raw.2⟩)
    (fun _ => rfl) fun _ => rfl

def bucketStatsWire : Wire BucketStats :=
  (Wire.u64.pair (Wire.u64.pair (Wire.vec (Wire.utf8.pair tallyWire)))).record
    (fun s => (s.objects, s.bytes, s.byClass)) (fun raw => ⟨raw.1, raw.2.1, raw.2.2⟩)
    (fun _ => rfl) fun _ => rfl

def LegacyBucketMeta.wire : Wire LegacyBucketMeta :=
  (Wire.i64.pair (Wire.utf8.pair (bucketStatsV2Wire.pair Wire.u64.option))).record
    (fun b => (b.created, b.owner, b.stats, b.quota)) (fun raw => ⟨raw.1, raw.2.1, raw.2.2.1, raw.2.2.2⟩)
    (fun _ => rfl) fun _ => rfl

def BucketMetaV1.wire : Wire BucketMetaV1 :=
  (LegacyBucketMeta.wire.pair Wire.bool).record (fun b => (b.toLegacyBucketMeta, b.createdWithAcl))
    (fun raw => ⟨raw.1, raw.2⟩) (fun _ => rfl) fun _ => rfl

def BucketMetaV2NoDefault.wire : Wire BucketMetaV2NoDefault :=
  (BucketMetaV1.wire.pair (versioningStateWire.pair (sseAlgorithmWire.option.pair Wire.bool))).record
    (fun b => (b.toBucketMetaV1, b.versioning, b.defaultEncryption, b.objectLock))
    (fun raw => ⟨raw.1, raw.2.1, raw.2.2.1, raw.2.2.2⟩) (fun _ => rfl) fun _ => rfl

def BucketMetaV2.wire : Wire BucketMetaV2 :=
  (BucketMetaV2NoDefault.wire.pair defaultRetentionWire.option).record
    (fun b => (b.toBucketMetaV2NoDefault, b.defaultRetention)) (fun raw => ⟨raw.1, raw.2⟩)
    (fun _ => rfl) fun _ => rfl

def BucketMetaV3.wire : Wire BucketMetaV3 :=
  (Wire.i64.pair (Wire.utf8.pair (bucketStatsWire.pair (Wire.u64.option.pair (Wire.bool.pair
    (versioningStateWire.pair (sseAlgorithmWire.option.pair (Wire.bool.pair
      defaultRetentionWire.option)))))))).record
    (fun b => (b.created, b.owner, b.stats, b.quota, b.createdWithAcl, b.versioning, b.defaultEncryption,
      b.objectLock, b.defaultRetention))
    (fun raw => ⟨raw.1, raw.2.1, raw.2.2.1, raw.2.2.2.1, raw.2.2.2.2.1, raw.2.2.2.2.2.1,
      raw.2.2.2.2.2.2.1, raw.2.2.2.2.2.2.2.1, raw.2.2.2.2.2.2.2.2⟩)
    (fun _ => rfl) fun _ => rfl

def BucketMeta.wire : Wire BucketMeta :=
  (BucketMetaV3.wire.pair Wire.utf8.option).record (fun b => (b.toBucketMetaV3, b.defaultKmsKey))
    (fun raw => ⟨raw.1, raw.2⟩) (fun _ => rfl) fun _ => rfl

def BucketMetaV3.upgrade (b : BucketMetaV3) : BucketMeta :=
  { b with defaultKmsKey := none }

def BucketMetaV2.upgrade (b : BucketMetaV2) : BucketMeta where
  created := b.created
  owner := b.owner
  stats := { objects := b.stats.objects, bytes := b.stats.bytes, byClass := noItems }
  quota := b.quota
  createdWithAcl := b.createdWithAcl
  versioning := b.versioning
  defaultEncryption := b.defaultEncryption
  objectLock := b.objectLock
  defaultRetention := b.defaultRetention
  defaultKmsKey := none

def BucketMetaV2NoDefault.upgrade (b : BucketMetaV2NoDefault) : BucketMeta :=
  BucketMetaV2.upgrade { b with defaultRetention := none }

def BucketMetaV1.upgrade (b : BucketMetaV1) : BucketMeta :=
  BucketMetaV2NoDefault.upgrade { b with versioning := .off, defaultEncryption := none, objectLock := false }

def LegacyBucketMeta.upgrade (b : LegacyBucketMeta) : BucketMeta :=
  BucketMetaV1.upgrade { b with createdWithAcl := false }

def bucketMetaVersion : UInt8 := 4

/-- `BucketMeta::decode_legacy`. -/
def decodeLegacyBucket (buf : List UInt8) : Except Core.Error BucketMeta :=
  match BucketMetaV2NoDefault.wire.fromBytes buf with
  | some old => .ok old.upgrade
  | none =>
    match BucketMetaV1.wire.fromBytes buf with
    | some l => .ok l.upgrade
    | none =>
      match LegacyBucketMeta.wire.fromBytes buf with
      | some l => .ok l.upgrade
      | none => .error (.corrupt "postcard decode bucket meta")

/-- `BucketMeta::decode_value`. -/
def decodeBucket (buf : List UInt8) : Except Core.Error BucketMeta :=
  match buf with
  | [] => decodeLegacyBucket buf
  | ver :: rest =>
    if ver = bucketMetaVersion then
      match BucketMeta.wire.fromBytes rest with
      | some b => .ok b
      | none => .error (.corrupt "postcard decode bucket meta")
    else if ver = 3 then
      match BucketMetaV3.wire.fromBytes rest with
      | some b => .ok b.upgrade
      | none => decodeLegacyBucket buf
    else if ver = 2 then
      match BucketMetaV2.wire.fromBytes rest with
      | some b => .ok b.upgrade
      | none =>
        match BucketMetaV2NoDefault.wire.fromBytes rest with
        | some old => .ok old.upgrade
        | none => decodeLegacyBucket buf
    else decodeLegacyBucket buf

/-- `BucketMeta::encode_value`. -/
def encodeBucket (b : BucketMeta) : List UInt8 :=
  bucketMetaVersion :: BucketMeta.wire.put b

inductive StoredObject where
  | legacy (m : LegacyObjectMeta)
  | v2 (m : ObjectMetaV2)
  | v3 (m : ObjectMetaV3)
  | v4 (m : ObjectMetaV4)
  | v5 (m : ObjectMetaV5)
  | v6 (m : ObjectMetaV6)
  | current (m : ObjectMeta)

def StoredObject.put : StoredObject → List UInt8
  | .legacy m => 2 :: LegacyObjectMeta.wire.put m
  | .v2 m => 2 :: ObjectMetaV2.wire.put m
  | .v3 m => 3 :: ObjectMetaV3.wire.put m
  | .v4 m => 4 :: ObjectMetaV4.wire.put m
  | .v5 m => 5 :: ObjectMetaV5.wire.put m
  | .v6 m => 6 :: ObjectMetaV6.wire.put m
  | .current m => 7 :: ObjectMeta.wire.put m

def StoredObject.value : StoredObject → ObjectMeta
  | .legacy m => m.upgrade
  | .v2 m => m.upgrade
  | .v3 m => m.upgrade
  | .v4 m => m.upgrade
  | .v5 m => m.upgrade
  | .v6 m => m.upgrade
  | .current m => m

/-- A bucket as some release stored it; without a version, it is no older than 64 seconds behind the epoch. -/
inductive StoredBucket where
  | legacy (b : LegacyBucketMeta) (dated : 64 ≤ b.created.toInt)
  | v1 (b : BucketMetaV1) (dated : 64 ≤ b.created.toInt)
  | bareV2 (b : BucketMetaV2NoDefault) (dated : 64 ≤ b.created.toInt)
  | v2NoDefault (b : BucketMetaV2NoDefault)
  | v2 (b : BucketMetaV2)
  | v3 (b : BucketMetaV3)
  | current (b : BucketMeta)

def StoredBucket.put : StoredBucket → List UInt8
  | .legacy b _ => LegacyBucketMeta.wire.put b
  | .v1 b _ => BucketMetaV1.wire.put b
  | .bareV2 b _ => BucketMetaV2NoDefault.wire.put b
  | .v2NoDefault b => 2 :: BucketMetaV2NoDefault.wire.put b
  | .v2 b => 2 :: BucketMetaV2.wire.put b
  | .v3 b => 3 :: BucketMetaV3.wire.put b
  | .current b => 4 :: BucketMeta.wire.put b

def StoredBucket.value : StoredBucket → BucketMeta
  | .legacy b _ => b.upgrade
  | .v1 b _ => b.upgrade
  | .bareV2 b _ => b.upgrade
  | .v2NoDefault b => b.upgrade
  | .v2 b => b.upgrade
  | .v3 b => b.upgrade
  | .current b => b

theorem objectV2_outgrows : ObjectMetaV2.wire.Outgrows LegacyObjectMeta.wire :=
  (Wire.outgrows_pair LegacyObjectMeta.wire _).record _ _ (fun _ => rfl) fun _ => rfl

theorem decodeObject_stored (stored : StoredObject) : decodeObject stored.put = .ok stored.value := by
  cases stored with
  | legacy m =>
    have unread := objectV2_outgrows.fromBytes_put m
    simp [decodeObject, StoredObject.put, StoredObject.value, objectMetaVersion, unread, Wire.fromBytes_put]
  | v2 m => simp [decodeObject, StoredObject.put, StoredObject.value, objectMetaVersion, Wire.fromBytes_put]
  | v3 m => simp [decodeObject, StoredObject.put, StoredObject.value, objectMetaVersion, Wire.fromBytes_put]
  | v4 m => simp [decodeObject, StoredObject.put, StoredObject.value, objectMetaVersion, Wire.fromBytes_put]
  | v5 m => simp [decodeObject, StoredObject.put, StoredObject.value, objectMetaVersion, Wire.fromBytes_put]
  | v6 m => simp [decodeObject, StoredObject.put, StoredObject.value, objectMetaVersion, Wire.fromBytes_put]
  | current m => exact decodeObject_encodeObject m

theorem bucketV1_outgrows : BucketMetaV1.wire.Outgrows LegacyBucketMeta.wire :=
  (Wire.outgrows_pair LegacyBucketMeta.wire _).record _ _ (fun _ => rfl) fun _ => rfl

theorem bucketV2NoDefault_outgrows : BucketMetaV2NoDefault.wire.Outgrows BucketMetaV1.wire :=
  (Wire.outgrows_pair BucketMetaV1.wire _).record _ _ (fun _ => rfl) fun _ => rfl

theorem bucketV2_outgrows : BucketMetaV2.wire.Outgrows BucketMetaV2NoDefault.wire :=
  (Wire.outgrows_pair BucketMetaV2NoDefault.wire _).record _ _ (fun _ => rfl) fun _ => rfl

def Unversioned (bytes : List UInt8) : Prop :=
  ∃ ver rest, bytes = ver :: rest ∧ 128 ≤ ver.toNat

theorem Unversioned.append {bytes : List UInt8} (unversioned : Unversioned bytes) (behind : List UInt8) :
    Unversioned (bytes ++ behind) := by
  obtain ⟨ver, rest, rfl, marked⟩ := unversioned
  exact ⟨ver, rest ++ behind, rfl, marked⟩

theorem i64_unversioned {value : Int64} (dated : 64 ≤ value.toInt) : Unversioned (Wire.i64.put value) := by
  have large : ¬ Wire.zigzag value.toInt < 128 := by
    unfold Wire.zigzag
    split <;> omega
  change Unversioned (Wire.putVarint (Wire.zigzag value.toInt))
  rw [Wire.putVarint, if_neg large]
  refine ⟨_, _, rfl, ?_⟩
  simp only [UInt8.toNat_ofNat']
  omega

theorem decodeBucket_unversioned {bytes : List UInt8} (unversioned : Unversioned bytes) :
    decodeBucket bytes = decodeLegacyBucket bytes := by
  obtain ⟨ver, rest, rfl, marked⟩ := unversioned
  have other : ∀ version : UInt8, version.toNat < 128 → ver ≠ version := by
    rintro version below rfl
    omega
  rw [decodeBucket, if_neg (other bucketMetaVersion (by decide)), if_neg (other 3 (by decide)),
    if_neg (other 2 (by decide))]

theorem legacy_unversioned {b : LegacyBucketMeta} (dated : 64 ≤ b.created.toInt) :
    Unversioned (LegacyBucketMeta.wire.put b) :=
  (i64_unversioned dated).append _

theorem decodeBucket_stored (stored : StoredBucket) : decodeBucket stored.put = .ok stored.value := by
  cases stored with
  | legacy b dated =>
    have bare := decodeBucket_unversioned (legacy_unversioned dated)
    have unread := bucketV1_outgrows.fromBytes_put b
    have unread' := (bucketV2NoDefault_outgrows.trans bucketV1_outgrows).fromBytes_put b
    rw [StoredBucket.put, StoredBucket.value, bare, decodeLegacyBucket, unread', unread, Wire.fromBytes_put]
  | v1 b dated =>
    have bare : decodeBucket (BucketMetaV1.wire.put b) = _ :=
      decodeBucket_unversioned ((legacy_unversioned dated).append _)
    have unread := bucketV2NoDefault_outgrows.fromBytes_put b
    rw [StoredBucket.put, StoredBucket.value, bare, decodeLegacyBucket, unread, Wire.fromBytes_put]
  | bareV2 b dated =>
    have bare : decodeBucket (BucketMetaV2NoDefault.wire.put b) = _ :=
      decodeBucket_unversioned (((legacy_unversioned dated).append _).append _)
    rw [StoredBucket.put, StoredBucket.value, bare, decodeLegacyBucket, Wire.fromBytes_put]
  | v2NoDefault b =>
    have unread := bucketV2_outgrows.fromBytes_put b
    simp [decodeBucket, StoredBucket.put, StoredBucket.value, bucketMetaVersion, unread, Wire.fromBytes_put]
  | v2 b => simp [decodeBucket, StoredBucket.put, StoredBucket.value, bucketMetaVersion, Wire.fromBytes_put]
  | v3 b => simp [decodeBucket, StoredBucket.put, StoredBucket.value, bucketMetaVersion, Wire.fromBytes_put]
  | current b =>
    simp [decodeBucket, StoredBucket.put, StoredBucket.value, bucketMetaVersion, Wire.fromBytes_put]

/-- Values of every release are read as they were meant, and what is written now is read back. -/
theorem released_decode :
    (∀ stored : StoredObject, decodeObject stored.put = .ok stored.value) ∧
      (∀ stored : StoredBucket, decodeBucket stored.put = .ok stored.value) ∧
      (∀ m, decodeObject (encodeObject m) = .ok m) ∧ ∀ b, decodeBucket (encodeBucket b) = .ok b :=
  ⟨decodeObject_stored, decodeBucket_stored, decodeObject_encodeObject, fun b => decodeBucket_stored (.current b)⟩

end FastS3.Meta.RecordFormats
