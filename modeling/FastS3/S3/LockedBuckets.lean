import FastS3.Engine.LifecycleKeeps
import FastS3.S3.PutObject

namespace FastS3.S3

open Data Engine
open FastS3.Core (ClockReading KeyGroup VersioningState Vk lastMicros vkNull vkTimeUs)
open Meta (LifecycleRule ObjectLockDefaultRetention ObjectMeta Retention)

/-! Buckets with Object Lock, and the requests that change their versions.

An upload reads the bucket and writes in two sections of the lock; the other requests hold it throughout.
The lifecycle worker keeps what it read when its cycle began.
-/

/-- `check_retention_change`: why a retention may not take the place of another. -/
def checkRetentionChange (existing : Option Retention) (new : Retention) (now : Int) (bypass : Bool) :
    Option String :=
  match existing with
  | none => none
  | some cur =>
    if cur.retainUntil ≤ now then none
    else
      match cur.mode with
      | .compliance =>
        if new.mode ≠ .compliance ∨ new.retainUntil < cur.retainUntil then
          some ("object is under COMPLIANCE retention and the retain-until date " ++
            "cannot be shortened")
        else none
      | .governance =>
        if (new.retainUntil < cur.retainUntil ∨ new.mode ≠ .governance) ∧ bypass = false then
          some ("x-amz-bypass-governance-retention header is required to shorten " ++
            "GOVERNANCE retention")
        else none

section Locks

variable (group : KeyGroup ObjectMeta)

/-- `lock_write_vk`: the row whose lock is set. -/
def lockWriteVk : Option Vk → Option (Option Vk)
  | some vk => if vk ≠ vkNull then some (some vk) else some group.nullTarget
  | none =>
    match group.current with
    | some (vk, _) => if vk ≠ vkNull then some (some vk) else some group.nullTarget
    | none => none

/-- `lock_write_meta`: a delete marker has no lock. -/
def lockWriteMeta (slot : Option Vk) : Option ObjectMeta :=
  (group.row slot).filter fun m => !m.isDeleteMarker

def setLock (version : Option Vk) (change : ObjectMeta → ObjectMeta) : KeyGroup ObjectMeta :=
  match lockWriteVk group version with
  | none => group
  | some slot =>
    match lockWriteMeta group slot with
    | none => group
    | some m => group.put slot (change m)

def setObjectRetention (version : Option Vk) (retention : Retention) : KeyGroup ObjectMeta :=
  setLock group version fun m => { m with retention := some retention }

def setObjectLegalHold (version : Option Vk) (legalHold : Bool) : KeyGroup ObjectMeta :=
  setLock group version fun m => { m with legalHold := legalHold }

/-- `op_put_object_retention`, behind the check of the bucket. -/
def putObjectRetention (version : Option Vk) (retention : Retention) (lockNow : Int) (bypass : Bool) :
    KeyGroup ObjectMeta :=
  match group.head version with
  | .error _ => group
  | .ok cur =>
    match checkRetentionChange cur.retention retention lockNow bypass with
    | some _ => group
    | none => setObjectRetention group version retention

def copyRecord (versioning : VersioningState) (reading : ClockReading) (m : ObjectMeta) :
    KeyGroup ObjectMeta :=
  if m.isDeleteMarker ∧ versioning = .off then group
  else
    let target := KeyGroup.planObjectWrite group reading.toReading versioning
    group.put target.versionKey
      { m with mtime := reading.seconds, versionId := target.metaVersionId, restoreState := none }

def deletionOf (versioning : VersioningState) (reading : ClockReading) (locked : ObjectMeta → Bool)
    (version : Option Vk) : KeyGroup ObjectMeta :=
  match KeyGroup.deleteVersion group reading.toReading versioning locked version with
  | .error _ => group
  | .ok (after, _) => after

/-- `rollback_put_version`, under the versioning that the upload has read; no lock is asked. -/
def rollbackPutVersion (versioning : VersioningState) (versionId : Option Vk) (reading : ClockReading)
    (lockNow : Int) : KeyGroup ObjectMeta :=
  deletionOf group versioning reading (deniedIfLocked lockNow false true)
    (writtenVersion versioning versionId)

end Locks

structure LockWorld where
  stored : LifecycleWorld
  /-- The default retention of the buckets with Object Lock. -/
  locks : BTreeMap String (Option ObjectLockDefaultRetention)
  /-- The versioning of buckets as uploads have read it so far. -/
  views : List (String × VersioningState)

inductive LockStep where
  | createBucket (name : String) (objectLock : Bool)
  | deleteBucket (name : String)
  | putVersioning (name : String) (suspended : Bool)
  | putObjectLock (name : String) (defaultRetention : Option ObjectLockDefaultRetention)
  | putLifecycle (name : String) (rules : List LifecycleRule)
  | readBucket (name : String)
  /-- An upload writes; where a check behind the write fails, it is rolled back. -/
  | putObject (view : Nat) (key : String) (reading : ClockReading) (lockNow : Int) (m : ObjectMeta)
      (rollback : Option ClockReading)
  | completeMultipart (name key : String) (reading : ClockReading) (lockNow : Int) (m : ObjectMeta)
  | copyObject (name key : String) (reading : ClockReading) (lockNow : Int) (m : ObjectMeta)
  | deleteObject (name key : String) (reading : ClockReading) (lockNow : Int) (bypass : Bool)
      (version : Option Vk)
  | putRetention (name key : String) (version : Option Vk) (retention : Retention) (lockNow : Int)
      (bypass : Bool)
  | putLegalHold (name key : String) (version : Option Vk) (legalHold : Bool)
  | startCycle (now : Int)
  | work (draws : Nat → ActionDraw)
  | abandon

namespace LockWorld

variable (w : LockWorld)

def empty : LockWorld :=
  ⟨.empty, .empty, []⟩

def objectLock (name : String) : Bool :=
  (w.locks.get? name).isSome

def regroup (name key : String)
    (change : VersioningState → KeyGroup ObjectMeta → KeyGroup ObjectMeta) : LockWorld :=
  { w with stored := w.stored.modify name fun bucket =>
      bucket.put key (change bucket.versioning (bucket.group key)) }

def uploaded (stale versioning : VersioningState) (group : KeyGroup ObjectMeta) (reading : ClockReading)
    (lockNow : Int) (m : ObjectMeta) (rollback : Option ClockReading) : KeyGroup ObjectMeta :=
  let after := putRecord group versioning reading none m
  match rollback with
  | none => after
  | some again =>
    rollbackPutVersion after stale
      (KeyGroup.planObjectWrite group reading.toReading versioning).metaVersionId again lockNow

def step : LockStep → LockWorld
  | .createBucket name objectLock =>
    match w.stored.buckets.get? name with
    | some _ => w
    | none => { w with
        stored := w.stored.step (.createBucket name objectLock)
        locks := if objectLock then w.locks.insert name none else w.locks.erase name }
  | .deleteBucket name =>
    if (w.stored.buckets.get? name).all LifecycleWorld.isEmpty then
      { w with stored := w.stored.step (.deleteBucket name), locks := w.locks.erase name }
    else w
  | .putVersioning name suspended =>
    if w.objectLock name ∧ suspended then w
    else { w with stored := w.stored.step (.setVersioning name suspended) }
  | .putObjectLock name defaultRetention =>
    match w.stored.buckets.get? name with
    | none => w
    | some bucket =>
      if w.objectLock name = false ∧ bucket.versioning ≠ .enabled then w
      else { w with locks := w.locks.insert name defaultRetention }
  | .putLifecycle name rules => { w with stored := w.stored.step (.putLifecycle name rules) }
  | .readBucket name =>
    match w.stored.buckets.get? name with
    | none => w
    | some bucket => { w with views := w.views ++ [(name, bucket.versioning)] }
  | .putObject view key reading lockNow m rollback =>
    match w.views[view]? with
    | none => w
    | some (name, stale) =>
      w.regroup name key fun versioning group =>
        uploaded stale versioning group reading lockNow m rollback
  | .completeMultipart name key reading _ m =>
    w.regroup name key fun versioning group => putRecord group versioning reading none m
  | .copyObject name key reading _ m =>
    w.regroup name key fun versioning group => copyRecord group versioning reading m
  | .deleteObject name key reading lockNow bypass version =>
    w.regroup name key fun versioning group =>
      deletionOf group versioning reading (deniedIfLocked lockNow bypass false) version
  | .putRetention name key version retention lockNow bypass =>
    if w.objectLock name then
      w.regroup name key fun _ group =>
        putObjectRetention group version retention lockNow bypass
    else w
  | .putLegalHold name key version legalHold =>
    if w.objectLock name then
      w.regroup name key fun _ group => setObjectLegalHold group version legalHold
    else w
  | .startCycle now => { w with stored := w.stored.step (.startCycle now) }
  | .work draws => { w with stored := w.stored.step (.work draws) }
  | .abandon => { w with stored := w.stored.step .abandon }

end LockWorld

end FastS3.S3
