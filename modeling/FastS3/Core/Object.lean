import FastS3.Core.Segment

namespace FastS3.Core

/-! The stored record of an object version, as far as the engine reads it. -/

abbrev Vk := Bytes

def vkNull : Vk := List.replicate 16 0xFF

/-- `from_be_bytes`; versions are ordered by this number. -/
def beNat (bytes : Bytes) : Nat :=
  bytes.foldl (fun value byte => 256 * value + byte.toNat) 0

theorem beNat_beBytes {width value : Nat} (fits : value < 256 ^ width) :
    beNat (beBytes width value) = value := by
  rw [beNat, beBytes, List.foldl_reverse]
  calc (leBytes width value).foldr (fun byte rest => 256 * rest + byte.toNat) 0
    _ = leNat (leBytes width value) := by
      rw [leNat]
      congr 1
      funext byte rest
      exact Nat.add_comm _ _
    _ = value := leNat_leBytes fits

def vkTimeUs (vk : Vk) : Nat :=
  beNat (vk.take 8)

inductive VersioningState where
  | off
  | enabled
  | suspended
deriving Repr, DecidableEq

structure BucketMeta where
  versioning : VersioningState
  quota : Option Nat
  objects : Nat
  bytes : Nat
deriving Repr, DecidableEq

structure StatsDelta where
  objects : Int
  bytes : Int
deriving Repr, DecidableEq

def BucketMeta.applyStats (bucket : BucketMeta) (delta : StatsDelta) : BucketMeta :=
  { bucket with
    objects := ((bucket.objects : Int) + delta.objects).toNat
    bytes := ((bucket.bytes : Int) + delta.bytes).toNat }

inductive EtagMode where
  | md5
  | crc32c
deriving Repr, DecidableEq

inductive SseKind where
  | sseC
  | sseS3
  | sseKms
deriving Repr, DecidableEq

structure SseInfo where
  kind : SseKind
  kekId : Nat
  wrappedDek : Bytes
  nonceBase : Bytes
  chunkTags : List Bytes
  keyMd5 : Bytes
deriving Repr, DecidableEq

structure CompressionInfo where
  level : Nat
  originalSize : Nat
  compressedSize : Nat
deriving Repr, DecidableEq

inductive ChecksumAlgorithm where
  | crc32c
  | crc32
  | sha1
  | sha256
  | crc64Nvme
deriving Repr, DecidableEq

structure RestoreState where
  restoredUntil : Int
  restoredAt : Int
  restoredSize : Nat
  tier : String
  restoredExtents : List Segment
  restoredInline : Option Bytes
deriving Repr, DecidableEq

structure ObjectMeta where
  size : Nat
  mtime : Int
  extents : List Segment
  inline : Option Bytes
  parts : List Nat
  versionId : Option Vk
  isDeleteMarker : Bool
  sse : Option SseInfo
  compressed : Option CompressionInfo
  storageClass : Option String
  restoreState : Option RestoreState
deriving Repr, DecidableEq

def eqIgnoreAsciiCase (left right : String) : Bool :=
  left.toLower == right.toLower

def isArchiveClass (c : String) : Bool :=
  eqIgnoreAsciiCase c "GLACIER_IR" || eqIgnoreAsciiCase c "GLACIER" ||
    eqIgnoreAsciiCase c "DEEP_ARCHIVE"

namespace ObjectMeta

def restoredExtents (m : ObjectMeta) : List Segment :=
  match m.restoreState with
  | some st => st.restoredExtents
  | none => []

def isArchive (m : ObjectMeta) : Bool :=
  m.storageClass.any isArchiveClass

def restoreOngoing (m : ObjectMeta) : Bool :=
  m.restoreState.any fun st => st.restoredUntil = 0

def restoreValid (m : ObjectMeta) (now : Int) : Bool :=
  m.restoreState.any fun st => 0 < st.restoredUntil ∧ now < st.restoredUntil

def restoreExpired (m : ObjectMeta) (now : Int) : Bool :=
  m.restoreState.any fun st => 0 < st.restoredUntil ∧ st.restoredUntil ≤ now

end ObjectMeta

/-- `d1a_pick_current`: the null family wins when it is younger than the second of the
largest real version. -/
def d1aPickCurrent {M : Type} (mtime : M → Int) (legacy nullSlot : Option M)
    (maxReal : Option (Vk × M)) : Option (Vk × M) :=
  let nullFamily := match legacy, nullSlot with
    | some l, some n => some (if mtime l ≥ mtime n then l else n)
    | some l, none => some l
    | none, n => n
  match nullFamily, maxReal with
  | some n, some (vk, real) =>
    if mtime n > (vkTimeUs vk / 1000000 : Nat) then some (vkNull, n) else some (vk, real)
  | some n, none => some (vkNull, n)
  | none, real => real

structure PartMeta where
  size : Nat
  extents : List Segment
  inline : Option Bytes
  sse : Option SseInfo
  compressedSize : Option Nat
deriving Repr, DecidableEq

end FastS3.Core
