import FastS3.Engine.LastWrite
import FastS3.Engine.LifecycleRules
import FastS3.Engine.ObjectLock

namespace FastS3.Engine

open Data
open FastS3.Core (Bytes ClockReading CompressionInfo KeyGroup Segment VersioningState Vk vkNull)
open Meta (LifecycleRule ObjectMeta)

/-! A cycle of the lifecycle worker, next to the requests on the same buckets.

The worker reads the rules and the versioning of all buckets once, when its cycle begins.  From then on
it takes one page of a scan or one key at a time; between its steps requests are served.
-/

structure RuledBucket where
  versioning : VersioningState
  rules : List LifecycleRule
  groups : BTreeMap String (KeyGroup ObjectMeta)

namespace RuledBucket

variable (bucket : RuledBucket)

def group (key : String) : KeyGroup ObjectMeta :=
  (bucket.groups.get? key).getD .empty

def put (key : String) (group : KeyGroup ObjectMeta) : RuledBucket :=
  { bucket with groups := bucket.groups.insert key group }

end RuledBucket

def groupEntries (group : KeyGroup ObjectMeta) : List GroupEntry :=
  group.single.toList.map (fun m => (none, m)) ++
    group.versions.entries.map fun entry => (some entry.1, entry.2)

def RuledBucket.entries (bucket : RuledBucket) : List (String × GroupEntry) :=
  bucket.groups.entries.flatMap fun keyed => (groupEntries keyed.2).map fun entry => (keyed.1, entry)

structure Cycle where
  now : Int
  buckets : List (String × VersioningState × List LifecycleRule)
  bucketIdx : Nat
  scanDone : Bool
  cursor : Option (String × Option Vk)
  pendingKey : Option String
  pending : List GroupEntry
  ready : List String

structure LifecycleWorld where
  buckets : BTreeMap String RuledBucket
  cycle : Option Cycle

def snapshotRules (buckets : BTreeMap String RuledBucket) :
    List (String × VersioningState × List LifecycleRule) :=
  buckets.entries.filterMap fun entry =>
    if entry.2.rules = [] then none else some (entry.1, entry.2.versioning, entry.2.rules)

def beginCycle (buckets : BTreeMap String RuledBucket) (now : Int) : Cycle where
  now := now
  buckets := snapshotRules buckets
  bucketIdx := 0
  scanDone := false
  cursor := none
  pendingKey := none
  pending := []
  ready := []

def afterCursor (cursor : Option (String × Option Vk)) (row : String × GroupEntry) : Bool :=
  match cursor with
  | none => true
  | some (key, vk) => key < row.1 || (key = row.1 && !slotAtMost row.2.1 vk)

def scanObjectEntriesPage (rows : List (String × GroupEntry)) (cursor : Option (String × Option Vk))
    (limit : Nat) : List (String × GroupEntry) × Bool :=
  let rest := rows.filter (afterCursor cursor)
  (rest.take (max limit 1), rest.length ≤ max limit 1)

def scanPageEntries : Nat := 8192

namespace Cycle

variable (c : Cycle) (versioning : VersioningState) (rules : List LifecycleRule)

/-- The pending group is complete: its key is a candidate if a rule asks for something. -/
def closePending : Cycle :=
  match c.pendingKey with
  | none => c
  | some key =>
    { c with
      pendingKey := none
      pending := []
      ready := if evalKeyGroup key c.pending versioning rules c.now = [] then c.ready
        else c.ready ++ [key] }

def scanRow (row : String × GroupEntry) : Cycle :=
  let c := { c with cursor := some (row.1, row.2.1) }
  let c := if c.pendingKey = some row.1 then c
    else { c.closePending versioning rules with pendingKey := some row.1 }
  { c with pending := c.pending ++ [row.2] }

def scanOnePage (rows : List (String × GroupEntry)) : Cycle :=
  let (page, done) := scanObjectEntriesPage rows c.cursor scanPageEntries
  let c := page.foldl (fun c row => c.scanRow versioning rules row) c
  if done then { c.closePending versioning rules with cursor := none, scanDone := true } else c

end Cycle

/-- How the transaction of an action ends: it goes through, it fails without a change, or what comes
behind it fails. -/
inductive ActionEnd where
  | done
  | failed
  | unfinished
deriving Repr, DecidableEq

/-- What an action draws: the clocks, the random bytes, the archived content and its end. -/
structure ActionDraw where
  reading : ClockReading
  /-- `lock_now`, read by the worker and again by the engine. -/
  lockNow : Int
  lockNowAgain : Int
  extents : List Segment
  inline : Option Bytes
  compressed : Option CompressionInfo
  ending : ActionEnd

def archived (m : ObjectMeta) (storageClass : String) (draw : ActionDraw) : ObjectMeta :=
  { m with
    extents := draw.extents
    inline := draw.inline
    compressed := draw.compressed
    storageClass := some storageClass
    restoreState := none }

def endedDelete (group : KeyGroup ObjectMeta) (versioning : VersioningState) (draw : ActionDraw)
    (version : Option Vk) : KeyGroup ObjectMeta × Bool :=
  match draw.ending with
  | .failed => (group, false)
  | ending =>
    match KeyGroup.deleteVersion group draw.reading.toReading versioning
        (deniedIfLocked draw.lockNowAgain false false) version with
    | .error _ => (group, false)
    | .ok (after, _) => (after, ending = .done)

/-- `lifecycle_transition`. -/
def endedTransition (group : KeyGroup ObjectMeta) (draw : ActionDraw) (version : Option Vk)
    (storageClass : String) (now : Int) : KeyGroup ObjectMeta × Bool :=
  match group.resolveEntry version with
  | none => (group, true)
  | some m =>
    if m.isDeleteMarker then (group, true)
    else if m.storageClass.getD "STANDARD" ≠ "STANDARD" then (group, true)
    else if m.legalHold || m.retention.any fun r => r.retainUntil > now then (group, true)
    else
      match draw.ending, group.row (group.slotOf m.versionId) with
      | .failed, _ => (group, false)
      | _, none => (group, false)
      | ending, some _ =>
        (group.put (group.slotOf m.versionId) (archived m storageClass draw), ending = .done)

/-- One action of `apply_group`. -/
def performAction (group : KeyGroup ObjectMeta) (versioning : VersioningState) (now : Int)
    (draw : ActionDraw) (ga : GroupAction) : KeyGroup ObjectMeta × Bool :=
  match ga.action with
  | .deleteCurrent => endedDelete group versioning draw none
  | .insertDeleteMarker => endedDelete group versioning draw none
  | .deleteNoncurrentVersion _ => endedDelete group versioning draw (some ga.targetVk)
  | .expireDeleteMarker => endedDelete group versioning draw (some ga.targetVk)
  | .transition storageClass =>
    endedTransition group draw (if ga.targetVk = vkNull then none else some ga.targetVk)
      storageClass now

/-- The loop of `apply_group`: an action whose target is locked is left out, and the first error ends
the loop. -/
def applyActions (fresh : List GroupEntry) (versioning : VersioningState) (now : Int) :
    List GroupAction → (Nat → ActionDraw) → KeyGroup ObjectMeta → KeyGroup ObjectMeta × Bool
  | [], _, group => (group, true)
  | ga :: rest, draws, group =>
    let later := fun n => draws (n + 1)
    match fresh.find? fun entry => GroupEntry.addressed entry = ga.targetVk with
    | none => applyActions fresh versioning now rest later group
    | some target =>
      if ga.action ≠ .expireDeleteMarker ∧ isLocked target.2 (draws 0).lockNow = true then
        applyActions fresh versioning now rest later group
      else
        match performAction group versioning now (draws 0) ga with
        | (after, true) => applyActions fresh versioning now rest later after
        | (after, false) => (after, false)

/-- `apply_group`: the versions of the key are read again and evaluated under the rules of the cycle. -/
def applyGroup (group : KeyGroup ObjectMeta) (key : String) (versioning : VersioningState)
    (rules : List LifecycleRule) (now : Int) (draws : Nat → ActionDraw) : KeyGroup ObjectMeta × Bool :=
  applyActions (groupEntries group) versioning now
    (evalKeyGroup key (groupEntries group) versioning rules now) draws group

inductive LifecycleStep where
  | createBucket (name : String) (objectLock : Bool)
  | deleteBucket (name : String)
  | setVersioning (name : String) (suspended : Bool)
  | putLifecycle (name : String) (rules : List LifecycleRule)
  | put (name key : String) (reading : ClockReading) (mtime : Option Int) (m : ObjectMeta)
  | delete (name key : String) (reading : ClockReading) (lockNow : Int) (bypassGovernance : Bool)
      (version : Option Vk)
  | startCycle (now : Int)
  | work (draws : Nat → ActionDraw)
  | abandon

def recordAt (target : WriteTarget) (mtime : Int) (m : ObjectMeta) : ObjectMeta :=
  { m with mtime := mtime, versionId := target.metaVersionId, isDeleteMarker := false }

def putRecord (group : KeyGroup ObjectMeta) (versioning : VersioningState) (reading : ClockReading)
    (mtime : Option Int) (m : ObjectMeta) : KeyGroup ObjectMeta :=
  let target := KeyGroup.planObjectWrite group reading.toReading versioning
  group.put target.versionKey
    (recordAt target (mtime.getD (KeyGroup.writeMtime group reading.toReading target)) m)

namespace LifecycleWorld

variable (w : LifecycleWorld)

def empty : LifecycleWorld :=
  ⟨.empty, none⟩

def group (name key : String) : KeyGroup ObjectMeta :=
  ((w.buckets.get? name).map fun bucket => bucket.group key).getD .empty

def isEmpty (bucket : RuledBucket) : Bool :=
  bucket.groups.values.all fun group => group.single.isNone && group.versions.entries.isEmpty

def modify (name : String) (change : RuledBucket → RuledBucket) : LifecycleWorld :=
  match w.buckets.get? name with
  | none => w
  | some bucket => { w with buckets := w.buckets.insert name (change bucket) }

/-- One step of the worker: a key of the queue, the next bucket, the end of the cycle or a page. -/
def work (c : Cycle) (draws : Nat → ActionDraw) : LifecycleWorld :=
  match c.buckets[c.bucketIdx]?, c.ready with
  | some (name, versioning, rules), key :: ready =>
    match w.buckets.get? name with
    | none => { w with cycle := some { c with ready := ready } }
    | some bucket =>
      let (after, done) := applyGroup (bucket.group key) key versioning rules c.now draws
      { buckets := w.buckets.insert name (bucket.put key after)
        cycle := if done then some { c with ready := ready } else none }
  | some (name, versioning, rules), [] =>
    if c.scanDone then
      { w with cycle := some { c with scanDone := false, bucketIdx := c.bucketIdx + 1 } }
    else
      let rows := ((w.buckets.get? name).map RuledBucket.entries).getD []
      { w with cycle := some (c.scanOnePage versioning rules rows) }
  | none, _ => { w with cycle := none }

def step : LifecycleStep → LifecycleWorld
  | .createBucket name objectLock =>
    match w.buckets.get? name with
    | some _ => w
    | none => { w with
        buckets := w.buckets.insert name ⟨if objectLock then .enabled else .off, [], .empty⟩ }
  | .deleteBucket name =>
    if (w.buckets.get? name).all isEmpty then { w with buckets := w.buckets.erase name } else w
  | .setVersioning name suspended =>
    w.modify name fun bucket =>
      { bucket with versioning := if suspended then .suspended else .enabled }
  | .putLifecycle name rules => w.modify name fun bucket => { bucket with rules := rules }
  | .put name key reading mtime m =>
    w.modify name fun bucket =>
      bucket.put key (putRecord (bucket.group key) bucket.versioning reading mtime m)
  | .delete name key reading lockNow bypassGovernance version =>
    w.modify name fun bucket =>
      match KeyGroup.deleteVersion (bucket.group key) reading.toReading bucket.versioning
          (deniedIfLocked lockNow bypassGovernance false) version with
      | .error _ => bucket
      | .ok (after, _) => bucket.put key after
  | .startCycle now =>
    match w.cycle with
    | some _ => w
    | none => { w with cycle := some (beginCycle w.buckets now) }
  | .work draws =>
    match w.cycle with
    | none => w
    | some c => w.work c draws
  | .abandon => { w with cycle := none }

end LifecycleWorld

end FastS3.Engine
