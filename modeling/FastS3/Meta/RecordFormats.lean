import FastS3.Meta.SessionFormat

namespace FastS3.Meta.RecordFormats

open Data SessionFormat
open FastS3.Core (ChecksumAlgorithm SseKind)

/-! The stored forms of objects, parts and events: the records of the engine and of the daemon, with
texts, lists and numbers as wide as they are written.

Fields were appended to these records over the releases as well.  The first byte of an object says
which format follows; the others are tried from the newest format to the oldest.  The texts behind
decoding errors are left out.
-/

structure Segment where
  extentId : UInt32
  offset : UInt32
  len : UInt32
  crcs : Vec UInt32
deriving DecidableEq

structure SseInfo where
  kind : SseKind
  kekId : UInt32
  wrappedDek : Vec UInt8
  nonceBase : ByteBlock 12
  chunkTags : Vec (ByteBlock 16)
  keyMd5 : ByteBlock 16

structure ChecksumInfo where
  algorithm : ChecksumAlgorithm
  value : Vec UInt8

inductive CompressionAlgorithm where
  | zstd
deriving Repr, DecidableEq

structure CompressionInfo where
  algorithm : CompressionAlgorithm
  level : UInt32
  originalSize : UInt64
  compressedSize : UInt64

structure RestoreState where
  restoredUntil : Int64
  restoredAt : Int64
  restoredSize : UInt64
  tier : Utf8
  restoredExtents : Vec Segment
  restoredInline : Option (Vec UInt8)

structure LegacyObjectMeta where
  size : UInt64
  etag : ByteBlock 16
  mtime : Int64
  extents : Vec Segment
  contentType : Utf8
  userMeta : Vec (Utf8 × Utf8)
  inline : Option (Vec UInt8)
  parts : Vec UInt64

structure ObjectMetaV2 extends LegacyObjectMeta where
  respHeaders : Vec (Utf8 × Utf8)

structure ObjectMetaV3 extends ObjectMetaV2 where
  versionId : Option (ByteBlock 16)
  isDeleteMarker : Bool
  tags : Vec (Utf8 × Utf8)
  sse : Option SseInfo
  checksum : Option ChecksumInfo
  retention : Option SessionFormat.Retention
  legalHold : Bool

structure ObjectMetaV4 extends ObjectMetaV3 where
  partChecksums : Vec (Option ChecksumInfo)

structure ObjectMetaV5 extends ObjectMetaV4 where
  compressed : Option CompressionInfo

structure ObjectMetaV6 extends ObjectMetaV5 where
  requestedStorageClass : Option Utf8

structure ObjectMeta extends ObjectMetaV6 where
  storageClass : Option Utf8
  restoreState : Option RestoreState

def segmentWire : Wire Segment :=
  (Wire.u32.pair (Wire.u32.pair (Wire.u32.pair (Wire.vec Wire.u32)))).record
    (fun s => (s.extentId, s.offset, s.len, s.crcs)) (fun raw => ⟨raw.1, raw.2.1, raw.2.2.1, raw.2.2.2⟩)
    (fun _ => rfl) fun _ => rfl

def sseKindWire : Wire SseKind :=
  Wire.u32.refine (fun kind => match kind with | .sseC => 0 | .sseS3 => 1 | .sseKms => 2)
    (fun raw =>
      if raw = 0 then some .sseC else if raw = 1 then some .sseS3
      else if raw = 2 then some .sseKms else none)
    (fun kind => by cases kind <;> rfl)
    fun raw kind accepted => by split_ifs at accepted <;> cases accepted <;> subst_vars <;> rfl

def sseInfoWire : Wire SseInfo :=
  (sseKindWire.pair (Wire.u32.pair ((Wire.vec Wire.byte).pair ((Wire.block 11).pair
    ((Wire.vec (Wire.block 15)).pair (Wire.block 15)))))).record
    (fun s => (s.kind, s.kekId, s.wrappedDek, s.nonceBase, s.chunkTags, s.keyMd5))
    (fun raw => ⟨raw.1, raw.2.1, raw.2.2.1, raw.2.2.2.1, raw.2.2.2.2.1, raw.2.2.2.2.2⟩)
    (fun _ => rfl) fun _ => rfl

def checksumInfoWire : Wire ChecksumInfo :=
  (checksumAlgorithmWire.pair (Wire.vec Wire.byte)).record (fun s => (s.algorithm, s.value))
    (fun raw => ⟨raw.1, raw.2⟩) (fun _ => rfl) fun _ => rfl

def compressionAlgorithmWire : Wire CompressionAlgorithm :=
  Wire.u32.refine (fun _ => 0) (fun raw => if raw = 0 then some .zstd else none)
    (fun algorithm => by cases algorithm; rfl)
    fun raw algorithm accepted => by split_ifs at accepted; cases algorithm; subst_vars; rfl

def compressionInfoWire : Wire CompressionInfo :=
  (compressionAlgorithmWire.pair (Wire.u32.pair (Wire.u64.pair Wire.u64))).record
    (fun s => (s.algorithm, s.level, s.originalSize, s.compressedSize))
    (fun raw => ⟨raw.1, raw.2.1, raw.2.2.1, raw.2.2.2⟩) (fun _ => rfl) fun _ => rfl

def restoreStateWire : Wire RestoreState :=
  (Wire.i64.pair (Wire.i64.pair (Wire.u64.pair (Wire.utf8.pair ((Wire.vec segmentWire).pair
    (Wire.vec Wire.byte).option))))).record
    (fun s => (s.restoredUntil, s.restoredAt, s.restoredSize, s.tier, s.restoredExtents, s.restoredInline))
    (fun raw => ⟨raw.1, raw.2.1, raw.2.2.1, raw.2.2.2.1, raw.2.2.2.2.1, raw.2.2.2.2.2⟩)
    (fun _ => rfl) fun _ => rfl

def LegacyObjectMeta.wire : Wire LegacyObjectMeta :=
  (Wire.u64.pair ((Wire.block 15).pair (Wire.i64.pair ((Wire.vec segmentWire).pair (Wire.utf8.pair
    (pairsWire.pair ((Wire.vec Wire.byte).option.pair (Wire.vec Wire.u64)))))))).record
    (fun s => (s.size, s.etag, s.mtime, s.extents, s.contentType, s.userMeta, s.inline, s.parts))
    (fun raw => ⟨raw.1, raw.2.1, raw.2.2.1, raw.2.2.2.1, raw.2.2.2.2.1, raw.2.2.2.2.2.1,
      raw.2.2.2.2.2.2.1, raw.2.2.2.2.2.2.2⟩)
    (fun _ => rfl) fun _ => rfl

def ObjectMetaV2.wire : Wire ObjectMetaV2 :=
  (LegacyObjectMeta.wire.pair pairsWire).record (fun s => (s.toLegacyObjectMeta, s.respHeaders))
    (fun raw => ⟨raw.1, raw.2⟩) (fun _ => rfl) fun _ => rfl

def ObjectMetaV3.wire : Wire ObjectMetaV3 :=
  (ObjectMetaV2.wire.pair ((Wire.block 15).option.pair (Wire.bool.pair (pairsWire.pair
    (sseInfoWire.option.pair (checksumInfoWire.option.pair (retentionWire.option.pair
      Wire.bool))))))).record
    (fun s => (s.toObjectMetaV2, s.versionId, s.isDeleteMarker, s.tags, s.sse, s.checksum, s.retention,
      s.legalHold))
    (fun raw => ⟨raw.1, raw.2.1, raw.2.2.1, raw.2.2.2.1, raw.2.2.2.2.1, raw.2.2.2.2.2.1,
      raw.2.2.2.2.2.2.1, raw.2.2.2.2.2.2.2⟩)
    (fun _ => rfl) fun _ => rfl

def ObjectMetaV4.wire : Wire ObjectMetaV4 :=
  (ObjectMetaV3.wire.pair (Wire.vec checksumInfoWire.option)).record
    (fun s => (s.toObjectMetaV3, s.partChecksums)) (fun raw => ⟨raw.1, raw.2⟩) (fun _ => rfl) fun _ => rfl

def ObjectMetaV5.wire : Wire ObjectMetaV5 :=
  (ObjectMetaV4.wire.pair compressionInfoWire.option).record
    (fun s => (s.toObjectMetaV4, s.compressed)) (fun raw => ⟨raw.1, raw.2⟩) (fun _ => rfl) fun _ => rfl

def ObjectMetaV6.wire : Wire ObjectMetaV6 :=
  (ObjectMetaV5.wire.pair Wire.utf8.option).record
    (fun s => (s.toObjectMetaV5, s.requestedStorageClass)) (fun raw => ⟨raw.1, raw.2⟩)
    (fun _ => rfl) fun _ => rfl

def ObjectMeta.wire : Wire ObjectMeta :=
  (ObjectMetaV6.wire.pair (Wire.utf8.option.pair restoreStateWire.option)).record
    (fun s => (s.toObjectMetaV6, s.storageClass, s.restoreState)) (fun raw => ⟨raw.1, raw.2.1, raw.2.2⟩)
    (fun _ => rfl) fun _ => rfl

def noItems {α : Type} : Vec α := ⟨[], Nat.two_pow_pos 64⟩

def ObjectMetaV6.upgrade (m : ObjectMetaV6) : ObjectMeta :=
  { m with storageClass := none, restoreState := none }

def ObjectMetaV5.upgrade (m : ObjectMetaV5) : ObjectMeta :=
  { m with requestedStorageClass := none, storageClass := none, restoreState := none }

def ObjectMetaV4.upgrade (m : ObjectMetaV4) : ObjectMeta :=
  { m with compressed := none, requestedStorageClass := none, storageClass := none, restoreState := none }

def ObjectMetaV3.upgrade (m : ObjectMetaV3) : ObjectMeta :=
  { m with
    partChecksums := noItems
    compressed := none
    requestedStorageClass := none
    storageClass := none
    restoreState := none }

def ObjectMetaV2.upgrade (m : ObjectMetaV2) : ObjectMeta :=
  { m with
    versionId := none
    isDeleteMarker := false
    tags := noItems
    sse := none
    checksum := none
    retention := none
    legalHold := false
    partChecksums := noItems
    compressed := none
    requestedStorageClass := none
    storageClass := none
    restoreState := none }

def LegacyObjectMeta.upgrade (m : LegacyObjectMeta) : ObjectMeta :=
  ObjectMetaV2.upgrade { m with respHeaders := noItems }

def objectMetaVersion : UInt8 := 7

/-- `ObjectMeta::decode_value`. -/
def decodeObject (buf : List UInt8) : Except Core.Error ObjectMeta :=
  let read := fun (found : Option ObjectMeta) =>
    match found with
    | some m => .ok m
    | none => .error (.corrupt "postcard decode object meta")
  match buf with
  | [] => .error (.corrupt "object meta value too short")
  | ver :: rest =>
    if ver = objectMetaVersion then read (ObjectMeta.wire.fromBytes rest)
    else if ver = 6 then read ((ObjectMetaV6.wire.fromBytes rest).map ObjectMetaV6.upgrade)
    else if ver = 5 then read ((ObjectMetaV5.wire.fromBytes rest).map ObjectMetaV5.upgrade)
    else if ver = 4 then read ((ObjectMetaV4.wire.fromBytes rest).map ObjectMetaV4.upgrade)
    else if ver = 3 then read ((ObjectMetaV3.wire.fromBytes rest).map ObjectMetaV3.upgrade)
    else if ver = 2 then
      match ObjectMetaV2.wire.fromBytes rest with
      | some m => .ok m.upgrade
      | none => read ((LegacyObjectMeta.wire.fromBytes rest).map LegacyObjectMeta.upgrade)
    else .error (.corrupt s!"object meta version {ver} unsupported (expected {objectMetaVersion})")

/-- `ObjectMeta::encode_value`. -/
def encodeObject (m : ObjectMeta) : List UInt8 :=
  objectMetaVersion :: ObjectMeta.wire.put m

theorem decodeObject_encodeObject (m : ObjectMeta) : decodeObject (encodeObject m) = .ok m := by
  rw [encodeObject, decodeObject]
  simp only [if_true, Wire.fromBytes_put]

structure LegacyPartMeta where
  size : UInt64
  etag : ByteBlock 16
  mtime : Int64
  extents : Vec Segment
  inline : Option (Vec UInt8)

structure PartMetaV12 extends LegacyPartMeta where
  checksum : Option ChecksumInfo

structure PartMetaV15 extends PartMetaV12 where
  sse : Option SseInfo

structure PartMeta extends PartMetaV15 where
  compressedSize : Option UInt64

def LegacyPartMeta.wire : Wire LegacyPartMeta :=
  (Wire.u64.pair ((Wire.block 15).pair (Wire.i64.pair ((Wire.vec segmentWire).pair
    (Wire.vec Wire.byte).option)))).record
    (fun p => (p.size, p.etag, p.mtime, p.extents, p.inline))
    (fun raw => ⟨raw.1, raw.2.1, raw.2.2.1, raw.2.2.2.1, raw.2.2.2.2⟩) (fun _ => rfl) fun _ => rfl

def PartMetaV12.wire : Wire PartMetaV12 :=
  (LegacyPartMeta.wire.pair checksumInfoWire.option).record (fun p => (p.toLegacyPartMeta, p.checksum))
    (fun raw => ⟨raw.1, raw.2⟩) (fun _ => rfl) fun _ => rfl

def PartMetaV15.wire : Wire PartMetaV15 :=
  (PartMetaV12.wire.pair sseInfoWire.option).record (fun p => (p.toPartMetaV12, p.sse))
    (fun raw => ⟨raw.1, raw.2⟩) (fun _ => rfl) fun _ => rfl

def PartMeta.wire : Wire PartMeta :=
  (PartMetaV15.wire.pair Wire.u64.option).record (fun p => (p.toPartMetaV15, p.compressedSize))
    (fun raw => ⟨raw.1, raw.2⟩) (fun _ => rfl) fun _ => rfl

def decodePart (v : List UInt8) : Except Core.Error PartMeta :=
  match PartMeta.wire.fromBytes v with
  | some p => .ok p
  | none =>
    match PartMetaV15.wire.fromBytes v with
    | some p => .ok { p with compressedSize := none }
    | none =>
      match PartMetaV12.wire.fromBytes v with
      | some p => .ok { p with sse := none, compressedSize := none }
      | none =>
        match LegacyPartMeta.wire.fromBytes v with
        | some l => .ok { l with checksum := none, sse := none, compressedSize := none }
        | none => .error (.corrupt "postcard decode part meta")

theorem decodePart_put (p : PartMeta) : decodePart (PartMeta.wire.put p) = .ok p := by
  rw [decodePart, Wire.fromBytes_put]

structure EventV1 where
  seq : UInt64
  ts : UInt64
  bucket : Utf8
  key : Utf8
  event : Utf8
  etag : Option Utf8
  size : Option UInt64
  versionId : Option Utf8
  deleteMarker : Bool

structure EventVDead extends EventV1 where
  dead : Bool

structure EventRecord extends EventVDead where
  sse : Option Utf8

def EventV1.wire : Wire EventV1 :=
  (Wire.u64.pair (Wire.u64.pair (Wire.utf8.pair (Wire.utf8.pair (Wire.utf8.pair (Wire.utf8.option.pair
    (Wire.u64.option.pair (Wire.utf8.option.pair Wire.bool)))))))).record
    (fun r => (r.seq, r.ts, r.bucket, r.key, r.event, r.etag, r.size, r.versionId, r.deleteMarker))
    (fun raw => ⟨raw.1, raw.2.1, raw.2.2.1, raw.2.2.2.1, raw.2.2.2.2.1, raw.2.2.2.2.2.1,
      raw.2.2.2.2.2.2.1, raw.2.2.2.2.2.2.2.1, raw.2.2.2.2.2.2.2.2⟩)
    (fun _ => rfl) fun _ => rfl

def EventVDead.wire : Wire EventVDead :=
  (EventV1.wire.pair Wire.bool).record (fun r => (r.toEventV1, r.dead)) (fun raw => ⟨raw.1, raw.2⟩)
    (fun _ => rfl) fun _ => rfl

def EventRecord.wire : Wire EventRecord :=
  (EventVDead.wire.pair Wire.utf8.option).record (fun r => (r.toEventVDead, r.sse))
    (fun raw => ⟨raw.1, raw.2⟩) (fun _ => rfl) fun _ => rfl

def decodeEventRecord (v : List UInt8) : Except Core.Error EventRecord :=
  match EventRecord.wire.fromBytes v with
  | some r => .ok r
  | none =>
    match EventVDead.wire.fromBytes v with
    | some old => .ok { old with sse := none }
    | none =>
      match EventV1.wire.fromBytes v with
      | some old => .ok { old with dead := false, sse := none }
      | none => .error (.corrupt "postcard decode event record")

theorem decodeEventRecord_put (r : EventRecord) :
    decodeEventRecord (EventRecord.wire.put r) = .ok r := by
  rw [decodeEventRecord, Wire.fromBytes_put]

end FastS3.Meta.RecordFormats
