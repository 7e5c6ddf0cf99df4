import FastS3.Core.KeyGroup
import FastS3.Engine.Store
import FastS3.Meta.Keys

/-! The stored versions of all keys with what is read from them, and how the operations of the engine
change them.

A content is what a read of the whole version returns; segments, statistics and the other rows are
left out.  The readings of the clock and the random bytes are drawn.
-/

namespace FastS3.Core

open Data

/-- What a write draws: `now_us`, `now_ts` and the random half of a version key. -/
structure Reading where
  micros : Nat
  seconds : Int
  random : Bytes
deriving Repr, DecidableEq

namespace KeyGroup

variable {α : Type} [VersionRecord α] (group : KeyGroup α)

def prevTs : Option Nat :=
  let real := group.maxReal.map fun real => vkTimeUs real.1
  let nullFamily := match group.nullSlot, group.single with
    | some n, some l => some (max (VersionRecord.mtime n) (VersionRecord.mtime l))
    | some n, none => some (VersionRecord.mtime n)
    | none, l => l.map VersionRecord.mtime
  match nullFamily with
  | none => real
  | some s =>
    let us := min ((max s 0).toNat * 1000000) (2 ^ 64 - 1)
    some (match real with
      | none => us
      | some p => max p us)

/-- `next_vk` with `new_version_vk`. -/
def nextVk (reading : Reading) : Vk :=
  let ts := match group.prevTs with
    | some p => max reading.micros (min (p + 1) (2 ^ 64 - 1))
    | none => reading.micros
  let rand :=
    if ts = 2 ^ 64 - 1 then reading.random.modifyHead (· &&& 0x7F) else reading.random
  beBytes 8 ts ++ rand

/-- A new version never goes to the null slot: the last of all times takes a random half below it. -/
theorem nextVk_ne_vkNull {reading : Reading} (clock : reading.micros < 2 ^ 64) :
    group.nextVk reading ≠ vkNull := by
  intro same
  rw [nextVk] at same
  obtain ⟨ts, written⟩ : ∃ ts, ts = match group.prevTs with
      | some p => max reading.micros (min (p + 1) (2 ^ 64 - 1))
      | none => reading.micros := ⟨_, rfl⟩
  have bound : ts < 2 ^ 64 := by
    rw [written]
    split
    · exact max_lt clock (lt_of_le_of_lt (min_le_right _ _) (by decide))
    · exact clock
  simp only [← written] at same
  have front := congrArg (List.take 8) same
  rw [List.take_left' (beBytes_length 8 ts)] at front
  have last : ts = 2 ^ 64 - 1 := by
    have value : beNat (beBytes 8 ts) = ts := beNat_beBytes bound
    rw [← value, front]
    decide
  have back := congrArg (List.drop 8) same
  rw [List.drop_left' (beBytes_length 8 ts), if_pos last] at back
  cases drawn : reading.random with
  | nil =>
    rw [drawn] at back
    cases back
  | cons first rest =>
    rw [drawn, List.modifyHead_cons] at back
    have head : first &&& 0x7F = 0xFF := (List.cons.inj back).1
    have bits := congrArg UInt8.toNat head
    have below : (first &&& 0x7F).toNat ≤ 0x7F := by
      rw [UInt8.toNat_and]
      exact Nat.and_le_right
    rw [bits] at below
    exact absurd below (by decide)

/-- `null_family_mtime`: behind every version key. -/
def nullFamilyMtime (reading : Reading) : Int :=
  match group.maxReal with
  | some (vk, _) => max reading.seconds ((vkTimeUs vk / 1000000 : Nat) + 1)
  | none => reading.seconds

end KeyGroup

end FastS3.Core

namespace FastS3.Engine

open Data
open FastS3.Core (Bytes VersioningState Vk vkNull VersionRecord KeyGroup Reading RestoreState SseInfo)
open Meta (validBucketName)

/-- A version: its record, and the bytes that a read of the whole of it returns. -/
structure Version where
  record : Core.ObjectMeta
  content : Bytes
  sized : content.length = record.size
deriving DecidableEq

instance : VersionRecord Version where
  mtime v := v.record.mtime
  isDeleteMarker v := v.record.isDeleteMarker

def deleteMarker (versionId : Option Vk) (mtime : Int) : Version :=
  ⟨{ size := 0, mtime := mtime, extents := [], inline := none, parts := [], versionId := versionId,
     isDeleteMarker := true, sse := none, compressed := none, storageClass := none,
     restoreState := none }, [], rfl⟩

class Marked (α : Type) extends VersionRecord α where
  deleteMarker : Option Vk → Int → α

instance : Marked Version where
  deleteMarker := deleteMarker

inductive DeleteRefusal where
  | locked
  | versionOfUnversioned
deriving Repr, DecidableEq

namespace KeyGroup

section Operations

variable {α : Type} [VersionRecord α] (group : KeyGroup α)

def planObjectWrite (reading : Reading) : VersioningState → WriteTarget
  | .off => .unversioned
  | .enabled => .newVersion (group.nextVk reading)
  | .suspended => if group.single.isSome then .legacySlot else .nullSlot

def writeMtime (reading : Reading) : WriteTarget → Int
  | .nullSlot => group.nullFamilyMtime reading
  | .legacySlot => group.nullFamilyMtime reading
  | .unversioned => reading.seconds
  | .newVersion _ => reading.seconds

def deletePlain (locked : α → Bool) : Except DeleteRefusal (KeyGroup α × Option α) :=
  match group.single with
  | none => .ok (group, none)
  | some m => if locked m then .error .locked else .ok (group.erase none, some m)

def deleteObjectVersion (locked : α → Bool) (vk : Vk) :
    Except DeleteRefusal (KeyGroup α × Option α) :=
  if vk = vkNull ∧ group.single.isSome then deletePlain group locked
  else
    match group.versions.get? vk with
    | none => .ok (group, none)
    | some m => if locked m then .error .locked else .ok (group.erase (some vk), some m)

end Operations

section Deletion

variable {α : Type} [Marked α] (group : KeyGroup α)

def deleteCurrentMarker (reading : Reading) (versioning : VersioningState) :
    KeyGroup α × Option α :=
  if versioning = .suspended then
    let marker := Marked.deleteMarker none (group.nullFamilyMtime reading)
    (group.put (if group.single.isSome then none else some vkNull) marker, some marker)
  else
    let vk := group.nextVk reading
    let marker := Marked.deleteMarker (some vk) reading.seconds
    (group.put (some vk) marker, some marker)

/-- `delete_version_inner`. -/
def deleteVersion (reading : Reading) (versioning : VersioningState) (locked : α → Bool)
    (version : Option Vk) : Except DeleteRefusal (KeyGroup α × Option α) :=
  match versioning, version with
  | .off, none => deletePlain group locked
  | .off, some vk => if vk = vkNull then deletePlain group locked else .error .versionOfUnversioned
  | _, none => .ok (deleteCurrentMarker group reading versioning)
  | _, some vk => deleteObjectVersion group locked vk

end Deletion

variable (group : KeyGroup Version)

def written (target : WriteTarget) (mtime : Int) (v : Version) : Version :=
  { v with record := { v.record with
      mtime := mtime
      versionId := target.metaVersionId
      isDeleteMarker := false } }

def write (reading : Reading) (versioning : VersioningState) (explicitMtime : Option Int)
    (v : Version) : KeyGroup Version :=
  let target := planObjectWrite group reading versioning
  group.put target.versionKey
    (written target (explicitMtime.getD (writeMtime group reading target)) v)

/-- The version that a copy leaves: its time is that of the clock, and it has no restored copy. -/
def copied (target : WriteTarget) (reading : Reading) (storageClass : Option String)
    (sse : Option SseInfo) (src : Version) : Version :=
  { src with record := { src.record with
      mtime := reading.seconds
      versionId := target.metaVersionId
      sse := if src.record.isDeleteMarker then src.record.sse else sse
      storageClass := storageClass
      restoreState := none } }

/-- `resolve_object_entry` where the versioning of the bucket is known: without versions there is
nothing but the row of the key. -/
def resolveFor (versioning : VersioningState) (version : Option Vk) : Option Version :=
  match version with
  | none => if versioning = .off then group.single else group.resolveEntry none
  | some vk => group.resolveEntry (some vk)

end KeyGroup

section Plain

variable {group : KeyGroup Version}

namespace KeyGroup

theorem write_plain (plain : group.versions = .empty) (reading : Reading) (mtime : Option Int)
    (v : Version) : (write group reading .off mtime v).versions = .empty :=
  plain

theorem deletePlain_versions {locked : Version → Bool} {after : KeyGroup Version × Option Version}
    (deleted : deletePlain group locked = .ok after) : after.1.versions = group.versions := by
  rw [deletePlain] at deleted
  split at deleted
  · cases deleted
    rfl
  · split at deleted
    · cases deleted
    · cases deleted
      rfl

theorem deleteVersion_plain (plain : group.versions = .empty) {reading : Reading}
    {locked : Version → Bool} {version : Option Vk} {after : KeyGroup Version × Option Version}
    (deleted : deleteVersion group reading .off locked version = .ok after) :
    after.1.versions = .empty := by
  cases version with
  | none => exact (deletePlain_versions deleted).trans plain
  | some vk =>
    simp only [deleteVersion] at deleted
    split at deleted
    · exact (deletePlain_versions deleted).trans plain
    · cases deleted

theorem resolveFor_plain {versioning : VersioningState}
    (plain : versioning = .off → group.versions = .empty) (version : Option Vk) :
    resolveFor group versioning version = group.resolveEntry version := by
  cases version with
  | some vk => rfl
  | none =>
    rw [resolveFor]
    split
    · next off =>
        have noReals : group.maxReal = none := by
          rw [KeyGroup.maxReal, plain off]
          rfl
        have noNull : group.nullSlot = none := by
          rw [KeyGroup.nullSlot, plain off]
          rfl
        rw [KeyGroup.resolveEntry, KeyGroup.current, noReals, noNull]
        cases group.single <;> rfl
    · rfl

end KeyGroup

end Plain

structure CatalogBucket where
  versioning : VersioningState
  groups : BTreeMap String (KeyGroup Version)
  plain : versioning = .off → ∀ key group, groups.get? key = some group → group.versions = .empty

namespace CatalogBucket

variable (bucket : CatalogBucket)

def empty : CatalogBucket where
  versioning := .off
  groups := .empty
  plain := by
    intro _ key group held
    cases held

def group (key : String) : KeyGroup Version :=
  (bucket.groups.get? key).getD .empty

def isEmpty : Bool :=
  bucket.groups.values.all fun group => group.single.isNone && group.versions.entries.isEmpty

def setVersioning (suspended : Bool) : CatalogBucket where
  versioning := if suspended then .suspended else .enabled
  groups := bucket.groups
  plain := by
    intro off
    split at off <;> cases off

theorem group_plain (off : bucket.versioning = .off) (key : String) :
    (bucket.group key).versions = .empty := by
  rw [group]
  cases held : bucket.groups.get? key with
  | none => rfl
  | some group => exact bucket.plain off key group held

def put (key : String) (group : KeyGroup Version)
    (plain : bucket.versioning = .off → group.versions = .empty) : CatalogBucket where
  versioning := bucket.versioning
  groups := bucket.groups.insert key group
  plain := by
    intro off other found held
    rw [BTreeMap.get?_insert] at held
    split at held
    · cases held
      exact plain off
    · exact bucket.plain off other found held

end CatalogBucket

structure Catalog where
  buckets : BTreeMap String CatalogBucket
  named : ∀ name bucket, buckets.get? name = some bucket → validBucketName name = true

structure Address where
  bucket : String
  key : String
  version : Option Vk
deriving Repr, DecidableEq

/-- What a rewriting of a record sets: the content stays what it is. -/
structure Rewriting where
  extents : List Core.Segment
  inline : Option Bytes
  compressed : Option Core.CompressionInfo
  storageClass : Option String
  restoreState : Option RestoreState
deriving Repr, DecidableEq

def Rewriting.of (rewriting : Rewriting) (v : Version) : Version :=
  { v with record := { v.record with
      extents := rewriting.extents
      inline := rewriting.inline
      compressed := rewriting.compressed
      storageClass := rewriting.storageClass
      restoreState := rewriting.restoreState } }

/-- `GLACIER_IR` is read online. -/
def archiveNeedsRestore (m : Core.ObjectMeta) : Bool :=
  m.storageClass.any fun c =>
    Core.eqIgnoreAsciiCase c "GLACIER" || Core.eqIgnoreAsciiCase c "DEEP_ARCHIVE"

structure CopyTarget where
  bucket : String
  key : String
  /-- The class of the header, if there is one; `STANDARD` is none. -/
  requestedClass : Option (Option String)
  sse : Option SseInfo
deriving Repr, DecidableEq

inductive CopyRefusal where
  | notFound
  | invalidObjectState
  | deleteMarker
  | encryption
deriving Repr, DecidableEq

namespace Catalog

variable (catalog : Catalog)

def empty : Catalog where
  buckets := .empty
  named := by
    intro name bucket held
    cases held

/-- `resolve_object_entry`; the versioning is that of the caller, where it knows one. -/
def resolveEntry (versioning : Option VersioningState) (address : Address) : Option Version :=
  (catalog.buckets.get? address.bucket).bind fun bucket =>
    match versioning with
    | some versioning => KeyGroup.resolveFor (bucket.group address.key) versioning address.version
    | none => (bucket.group address.key).resolveEntry address.version

/-- `resolve_object`. -/
def resolve (versioning : Option VersioningState) (address : Address) : Option Version :=
  (catalog.resolveEntry versioning address).filter fun v => !v.record.isDeleteMarker

theorem resolveEntry_some {address : Address} {bucket : CatalogBucket}
    (held : catalog.buckets.get? address.bucket = some bucket) :
    catalog.resolveEntry (some bucket.versioning) address = catalog.resolveEntry none address := by
  rw [resolveEntry, resolveEntry, held]
  exact KeyGroup.resolveFor_plain (fun off => bucket.group_plain off address.key) address.version

def update (name : String) (bucket : CatalogBucket) (held : catalog.buckets.get? name ≠ none) :
    Catalog where
  buckets := catalog.buckets.insert name bucket
  named := by
    intro other found inside
    rw [BTreeMap.get?_insert] at inside
    split at inside
    · next same =>
        obtain ⟨before, here⟩ := Option.ne_none_iff_exists'.mp held
        rw [same]
        exact catalog.named name before here
    · exact catalog.named other found inside

def replace (name key : String) (rows : (bucket : CatalogBucket) →
    { group : KeyGroup Version // bucket.versioning = .off → group.versions = .empty }) : Catalog :=
  match held : catalog.buckets.get? name with
  | none => catalog
  | some bucket =>
    catalog.update name (bucket.put key (rows bucket).1 (rows bucket).2) (by simp [held])

def createBucket (name : String) : Catalog :=
  if valid : validBucketName name = true ∧ catalog.buckets.get? name = none then
    { buckets := catalog.buckets.insert name .empty
      named := by
        intro other found inside
        rw [BTreeMap.get?_insert] at inside
        split at inside
        · next same => exact same ▸ valid.1
        · exact catalog.named other found inside }
  else catalog

def deleteBucket (name : String) : Catalog :=
  if (catalog.buckets.get? name).all CatalogBucket.isEmpty then
    { buckets := catalog.buckets.erase name
      named := by
        intro other found inside
        rw [BTreeMap.get?_erase] at inside
        split at inside
        · cases inside
        · exact catalog.named other found inside }
  else catalog

def setVersioning (name : String) (suspended : Bool) : Catalog :=
  match held : catalog.buckets.get? name with
  | none => catalog
  | some bucket => catalog.update name (bucket.setVersioning suspended) (by simp [held])

def write (name key : String) (reading : Reading) (explicitMtime : Option Int) (v : Version) :
    Catalog :=
  catalog.replace name key fun bucket =>
    ⟨KeyGroup.write (bucket.group key) reading bucket.versioning explicitMtime v, by
      intro off
      rw [off]
      exact KeyGroup.write_plain (bucket.group_plain off key) reading explicitMtime v⟩

def delete (address : Address) (reading : Reading) (locked : Version → Bool) : Catalog :=
  catalog.replace address.bucket address.key fun bucket =>
    match done : KeyGroup.deleteVersion (bucket.group address.key) reading bucket.versioning locked
        address.version with
    | .error _ => ⟨bucket.group address.key, fun off => bucket.group_plain off address.key⟩
    | .ok after => ⟨after.1, by
        intro off
        rw [off] at done
        exact KeyGroup.deleteVersion_plain (bucket.group_plain off address.key) done⟩

/-- `copy_object_with_lock_ev`, up to the place of the copy: a source that has to be restored is copied
to its own class only. -/
def copySource (src : Address) (dst : CopyTarget) (now : Int) (versioning : VersioningState) :
    Except CopyRefusal (Version × Option String) :=
  match catalog.resolveEntry none src with
  | none => .error .notFound
  | some v =>
    let targetClass := dst.requestedClass.getD v.record.storageClass
    if archiveNeedsRestore v.record ∧ ¬v.record.restoreValid now ∧
        targetClass ≠ v.record.storageClass then .error .invalidObjectState
    else if v.record.isDeleteMarker ∧ versioning = .off then .error .deleteMarker
    else if !v.record.isDeleteMarker ∧ v.record.sse.isSome ∧ dst.sse = none then .error .encryption
    else .ok (v, targetClass)

def copyObject (src : Address) (dst : CopyTarget) (reading : Reading) (now : Int) : Catalog :=
  catalog.replace dst.bucket dst.key fun bucket =>
    match catalog.copySource src dst now bucket.versioning with
    | .error _ => ⟨bucket.group dst.key, fun off => bucket.group_plain off dst.key⟩
    | .ok (v, targetClass) =>
      let target := KeyGroup.planObjectWrite (bucket.group dst.key) reading bucket.versioning
      ⟨(bucket.group dst.key).put target.versionKey
        (KeyGroup.copied target reading targetClass dst.sse v), by
          intro off
          rw [show target = .unversioned by simp only [target, off, KeyGroup.planObjectWrite]]
          exact bucket.group_plain off dst.key⟩

/-- A record is rewritten where it is: by a transition, by a restore or by the end of one. -/
def rewrite (name key : String) (slot : Option Vk) (rewriting : Rewriting) : Catalog :=
  catalog.replace name key fun bucket =>
    match held : (bucket.group key).row slot with
    | none => ⟨bucket.group key, fun off => bucket.group_plain off key⟩
    | some v => ⟨(bucket.group key).put slot (rewriting.of v), by
        intro off
        cases slot with
        | none => exact bucket.group_plain off key
        | some vk =>
          rw [KeyGroup.row, bucket.group_plain off key] at held
          cases held⟩

end Catalog

inductive Change where
  | createBucket (bucket : String)
  | deleteBucket (bucket : String)
  | setVersioning (bucket : String) (suspended : Bool)
  | write (bucket key : String) (reading : Reading) (explicitMtime : Option Int) (v : Version)
  | copy (src : Address) (dst : CopyTarget) (reading : Reading) (now : Int)
  | delete (address : Address) (reading : Reading) (locked : Version → Bool)
  | rewrite (bucket key : String) (slot : Option Vk) (rewriting : Rewriting)

def Catalog.apply (catalog : Catalog) : Change → Catalog
  | .createBucket bucket => catalog.createBucket bucket
  | .deleteBucket bucket => catalog.deleteBucket bucket
  | .setVersioning bucket suspended => catalog.setVersioning bucket suspended
  | .write bucket key reading explicitMtime v => catalog.write bucket key reading explicitMtime v
  | .copy src dst reading now => catalog.copyObject src dst reading now
  | .delete address reading locked => catalog.delete address reading locked
  | .rewrite bucket key slot rewriting => catalog.rewrite bucket key slot rewriting

end FastS3.Engine
