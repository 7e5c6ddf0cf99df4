import FastS3.Engine.State

namespace FastS3.Engine

open Alloc FastS3.Core

/-! The metadata store as the engine calls it.

Every call may fail before it does anything.  A commit writes one record and the
statistics of its bucket in one transaction; the allocation records it also writes
are read at recovery only.
-/

/-- `now_us`: the clock is not modeled. -/
def nowUs : EngineM Nat :=
  draw

/-- `now_ts`, in seconds. -/
def nowTs : EngineM Int := do
  return ((← draw : Nat) : Int)

def getBucket (name : String) : EngineM (Option BucketMeta) := do
  metaCall
  return (← get).store.buckets.lookup name

def getObject (bucket key : String) : EngineM (Option ObjectMeta) := do
  metaCall
  return (← get).store.objects.lookup ⟨bucket, key, .single⟩

def getObjectVersion (bucket key : String) (vk : Vk) : EngineM (Option ObjectMeta) := do
  metaCall
  return (← get).store.objects.lookup ⟨bucket, key, .version vk⟩

def MetaStore.realVersions (store : MetaStore) (bucket key : String) : List (Vk × ObjectMeta) :=
  store.objects.entries.filterMap fun entry =>
    match entry.1.slot with
    | .single => none
    | .version vk =>
      if entry.1.bucket = bucket ∧ entry.1.key = key ∧ vk ≠ vkNull then some (vk, entry.2)
      else none

def latest (versions : List (Vk × ObjectMeta)) : Option (Vk × ObjectMeta) :=
  versions.foldl
    (fun best version =>
      match best with
      | none => some version
      | some found => if beNat found.1 < beNat version.1 then some version else some found)
    none

def versionTip (bucket key : String) : EngineM (Option ObjectMeta × Option (Vk × ObjectMeta)) := do
  metaCall
  let store := (← get).store
  return (store.objects.lookup ⟨bucket, key, .version vkNull⟩,
    latest (store.realVersions bucket key))

def getCurrentVersion (bucket key : String) : EngineM (Option (Vk × ObjectMeta)) := do
  let legacy ← getObject bucket key
  let (nullSlot, maxReal) ← versionTip bucket key
  return d1aPickCurrent (·.mtime) legacy nullSlot maxReal

def checkQuota (bucket : String) (delta : Int) : EngineM Unit := do
  match ← getBucket bucket with
  | none => throw (.notFound s!"bucket {bucket}")
  | some found =>
    match found.quota with
    | none => return ()
    | some quota =>
      let after := (found.bytes : Int) + delta
      if after > quota then
        let excess := after - quota
        throw (.quotaExceeded
          s!"bucket {bucket}: quota {quota} bytes, would exceed by {excess} bytes")
      else return ()

/-- `commit_object_put` for a single key and `commit_object_put_version` for a version. -/
def commitObjectPut (bucket key : String) (slot : VersionSlot) (m : ObjectMeta)
    (delta : StatsDelta) : EngineM Unit := do
  let size := m.size
  if size > maxObjectSize then
    throw (.invalidArgument s!"object size {size} exceeds max {maxObjectSize}")
  metaCall
  let e ← get
  match e.store.buckets.lookup bucket with
  | none => throw (.notFound s!"bucket {bucket}")
  | some found =>
    set { e with store := { e.store with
      objects := e.store.objects.insert ⟨bucket, key, slot⟩ m
      buckets := e.store.buckets.insert bucket (found.applyStats delta) } }

inductive WriteTarget where
  | unversioned
  | newVersion (vk : Vk)
  | nullSlot
  | legacySlot
deriving Repr, DecidableEq

namespace WriteTarget

def versionKey : WriteTarget → Option Vk
  | .unversioned => none
  | .newVersion vk => some vk
  | .nullSlot => some vkNull
  | .legacySlot => none

def metaVersionId : WriteTarget → Option Vk
  | .newVersion vk => some vk
  | _ => none

def slot (target : WriteTarget) : VersionSlot :=
  match target.versionKey with
  | none => .single
  | some vk => .version vk

end WriteTarget

structure OldVersion where
  existed : Bool := false
  counted : Bool := false
  segments : List Segment := []
  size : Nat := 0
  storageClass : Option String := none
  restoredSegments : List Segment := []
deriving Repr, DecidableEq

def OldVersion.of : Option ObjectMeta → OldVersion
  | none => {}
  | some old => {
      existed := true
      counted := !old.isDeleteMarker
      segments := old.extents
      size := old.size
      storageClass := if old.isDeleteMarker then none else old.storageClass
      restoredSegments := old.restoredExtents }

/-- The time of a new version is above the previous one, also when the clock is not. -/
def newVersionVk (now : Nat) (prevTs : Option Nat) : EngineM Vk := do
  let ts := match prevTs with
    | some p => max now (min (p + 1) (2 ^ 64 - 1))
    | none => now
  let rand ← randomBytes 8
  let rand := if ts = 2 ^ 64 - 1 then rand.modifyHead (· &&& 0x7F) else rand
  return beBytes 8 ts ++ rand

def nextVk (bucket key : String) : EngineM Vk := do
  let (nullSlot, maxReal) ← versionTip bucket key
  let prevTs := maxReal.map fun real => vkTimeUs real.1
  let legacy ← getObject bucket key
  let nullFamilyMtime := match nullSlot, legacy with
    | some n, some l => some (max n.mtime l.mtime)
    | some n, none => some n.mtime
    | none, l => l.map ObjectMeta.mtime
  let prevTs := match nullFamilyMtime with
    | none => prevTs
    | some s =>
      let us := min ((max s 0).toNat * 1000000) (2 ^ 64 - 1)
      some (match prevTs with
        | none => us
        | some p => max p us)
  newVersionVk (← nowUs) prevTs

def planObjectWrite (bucket key : String) : VersioningState → EngineM (WriteTarget × OldVersion)
  | .off => do
      let old ← getObject bucket key
      return (.unversioned, .of old)
  | .enabled => do
      let vk ← nextVk bucket key
      return (.newVersion vk, {})
  | .suspended => do
      match ← getObject bucket key with
      | some legacy => return (.legacySlot, .of (some legacy))
      | none =>
        let old ← getObjectVersion bucket key vkNull
        return (.nullSlot, .of old)

def nullFamilyMtime (bucket key : String) : EngineM Int := do
  let now ← nowTs
  let (_, maxReal) ← versionTip bucket key
  match maxReal with
  | some (vk, _) => return max now ((vkTimeUs vk / 1000000 : Nat) + 1)
  | none => return now

def writeMtime (target : WriteTarget) (bucket key : String) : EngineM Int :=
  match target with
  | .nullSlot => nullFamilyMtime bucket key
  | .legacySlot => nullFamilyMtime bucket key
  | .unversioned => nowTs
  | .newVersion _ => nowTs

end FastS3.Engine
