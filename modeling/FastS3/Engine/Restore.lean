import FastS3.Alloc.Transactions
import FastS3.Core.KeyRows
import FastS3.Engine.Catalog
import FastS3.Engine.Put

namespace FastS3.Engine

open Alloc Data
open FastS3.Core (Error ObjectMeta RestoreState Segment Vk vkNull VersioningState KeyGroup Reading
  SseInfo Bytes)
open Meta (RestoreJob)

/-! Restores of archived versions, next to the writes and deletions of the same keys.

The state has the stored records, the queue of restore jobs and the allocator.  A step of the queue
is one job, and a step of the collection is one record.  Content is not modeled: what a writer does
with the pool is drawn, and so is the end of every transaction.
-/

def notFoundObject (bucket key : String) : Error :=
  .notFound s!"object {bucket}/{key}"

instance : Marked ObjectMeta where
  deleteMarker versionId mtime := (deleteMarker versionId mtime).record

abbrev ObjectName := Lex (String × String)

structure RestoreEngine where
  versioning : String → VersioningState
  objects : BTreeMap ObjectName (KeyGroup ObjectMeta)
  /-- `restore_jobs`, under their sequence numbers. -/
  jobs : BTreeMap Nat RestoreJob
  seq : Nat
  pool : World
  smallObjectLimit : Nat

namespace RestoreEngine

def group (e : RestoreEngine) (name : ObjectName) : KeyGroup ObjectMeta :=
  (e.objects.get? name).getD .empty

def row (e : RestoreEngine) (name : ObjectName) (slot : Option Vk) : Option ObjectMeta :=
  (e.group name).row slot

def bucketVersioning (e : RestoreEngine) (name : ObjectName) : VersioningState :=
  e.versioning (ofLex name).1

def commitRows (e : RestoreEngine) (name : ObjectName) (group : KeyGroup ObjectMeta) : RestoreEngine :=
  { e with objects := e.objects.insert name group, seq := e.seq + 1 }

end RestoreEngine

inductive RestoreEnqueueOutcome where
  | extended (expiry : Int)
  | enqueued
deriving Repr, DecidableEq

def nameError (name : ObjectName) : Error :=
  notFoundObject (ofLex name).1 (ofLex name).2

def storageClassName (m : ObjectMeta) : String :=
  m.storageClass.getD "STANDARD"

namespace RestoreEngine

variable (e : RestoreEngine)

def restorable (name : ObjectName) (vk : Option Vk) : Except Error ObjectMeta :=
  match (e.group name).resolveEntry vk with
  | none => .error (nameError name)
  | some m =>
    let bucket := (ofLex name).1
    let key := (ofLex name).2
    let className := storageClassName m
    if m.isDeleteMarker then .error (nameError name)
    else if !m.isArchive then
      .error (.invalidRequest ("restore is only valid for archive storage classes " ++
        s!"(object {bucket}/{key} is {className})"))
    else if m.sse.any fun s => s.kind = .sseC then
      .error (.invalidRequest ("restore of SSE-C encrypted archived objects is not supported " ++
        "(customer key is never stored); copy to a new object instead"))
    else .ok m

/-- `Op::ObjectMetaRewrite` in a transaction that may be refused. -/
def commitMetaRewrite (fault : Option Error) (name : ObjectName) (slot : Option Vk) (m : ObjectMeta) :
    Except Error RestoreEngine :=
  match fault, e.row name slot with
  | some fault, _ => .error fault
  | none, none => .error (.notFound "object raw key")
  | none, some _ => .ok (e.commitRows name ((e.group name).put slot m))

end RestoreEngine

def extendedMeta (m : ObjectMeta) (expiry now : Int) : ObjectMeta :=
  { m with restoreState := m.restoreState.map fun st =>
      { st with restoredUntil := expiry, restoredAt := now } }

def pendingMeta (m : ObjectMeta) (tier : String) (now : Int) : ObjectMeta :=
  { m with restoreState := some ⟨0, now, m.size, tier, [], none⟩ }

def jobName (job : RestoreJob) : ObjectName :=
  toLex (job.bucket, job.key)

def enqueuedJob (name : ObjectName) (m : ObjectMeta) (days : Nat) (tier : String) (now : Int) :
    RestoreJob :=
  ⟨(ofLex name).1, (ofLex name).2, m.versionId, now, days, tier⟩

namespace RestoreEngine

variable (e : RestoreEngine)

def restoreEnqueue (name : ObjectName) (vk : Option Vk) (days : Nat) (tier : String) (now : Int)
    (fault : Option Error) : Except Error (RestoreEnqueueOutcome × RestoreEngine) :=
  match e.restorable name vk with
  | .error refusal => .error refusal
  | .ok m =>
    let expiry := now + days * 86400
    let slot := (e.group name).slotOf vk
    if m.restoreValid now then
      match e.commitMetaRewrite fault name slot (extendedMeta m expiry now) with
      | .error refusal => .error refusal
      | .ok after => .ok (.extended expiry, after)
    else
      match e.commitMetaRewrite fault name slot (pendingMeta m tier now) with
      | .error refusal => .error refusal
      | .ok after =>
        .ok (.enqueued,
          { after with jobs := after.jobs.insert after.seq (enqueuedJob name m days tier now) })

end RestoreEngine

def endingOn (found : Option ObjectMeta) (ending : Ending) : Ending :=
  match found, ending with
  | none, .committed => .refused
  | _, ending => ending

def segmentLists (m : ObjectMeta) : List (List Segment) :=
  [m.extents, m.restoredExtents].filter fun segs => segs ≠ []

/-- `release_all_segments` of a record, where there is one; releasing nothing changes nothing. -/
def releaseAllSegments (found : Option ObjectMeta) : List DraftCall :=
  releaseCalls (found.elim [] segmentLists)

namespace RestoreEngine

variable (e : RestoreEngine)

def transact (name : ObjectName) (group : KeyGroup ObjectMeta) (calls : List DraftCall)
    (rollsBack : Bool) (ending : Ending) : RestoreEngine :=
  let after := { e with pool := e.pool.transact calls rollsBack ending }
  match ending with
  | .committed => after.commitRows name group
  | _ => after

end RestoreEngine

structure CopyDraw where
  content : Bytes
  writes : List WriterCall
  ending : Ending
deriving Repr, DecidableEq

def completedMeta (m : ObjectMeta) (job : RestoreJob) (now : Int) (extents : List Segment)
    (inline : Option Bytes) : ObjectMeta :=
  { m with restoreState := some ⟨now + job.days * 86400, now, m.size, job.tier, extents, inline⟩ }

namespace RestoreEngine

variable (e : RestoreEngine)

/-- What the copy of a version asks of the pool: a small one is stored in the record. -/
def copyCalls (draw : CopyDraw) (m : ObjectMeta) : List DraftCall :=
  if m.size ≤ e.smallObjectLimit then [] else storeCalls draw.writes

def copyOf (job : RestoreJob) (now : Int) (draw : CopyDraw) (m : ObjectMeta) : ObjectMeta :=
  if m.size ≤ e.smallObjectLimit then completedMeta m job now [] (some draw.content)
  else completedMeta m job now (written draw.writes) none

def dropJob (seq : Nat) : Ending → Option Bool × RestoreEngine
  | .committed => (some false, { e with jobs := e.jobs.erase seq, seq := e.seq + 1 })
  | _ => (none, e)

/-- `restore_materialize_one`; a job that fails stays in the queue.  Only the commit is followed by a
rollback. -/
def restoreMaterializeOne (seq : Nat) (job : RestoreJob) (now : Int) (draw : CopyDraw) :
    Option Bool × RestoreEngine :=
  let name := jobName job
  match (e.group name).resolveEntry job.vk with
  | none => e.dropJob seq draw.ending
  | some m =>
    if m.restoreValid now || !m.restoreOngoing then e.dropJob seq draw.ending
    else
      let slot := (e.group name).slotOf m.versionId
      let ending := endingOn (e.row name slot) draw.ending
      let after := e.transact name ((e.group name).put slot (e.copyOf job now draw m))
        (e.copyCalls draw m) false ending
      match ending with
      | .committed => (some true, { after with jobs := after.jobs.erase seq })
      | _ => (none, after)

end RestoreEngine

namespace RestoreEngine

variable (e : RestoreEngine)

/-- One record of `restore_gc_scan`: nothing where `after_release` fails and ends the scan. -/
def restoreGcEntry (now : Int) (name : ObjectName) (slot : Option Vk) (m : ObjectMeta)
    (ending : Ending) : Option Nat × RestoreEngine :=
  match m.restoreState with
  | none => (some 0, e)
  | some st =>
    if m.isDeleteMarker || !m.restoreExpired now then (some 0, e)
    else
      let calls := releaseCalls ([st.restoredExtents].filter fun segs => segs ≠ [])
      let cleared := (e.group name).put slot { m with restoreState := none }
      let ending := endingOn (e.row name slot) ending
      let after := e.transact name cleared calls false ending
      match ending with
      | .committed => (some 1, after)
      | .refused => (some 0, after)
      | .failed _ => (none, after)

end RestoreEngine

structure PutDraw where
  /-- The record but for its place, its time and its segments. -/
  record : ObjectMeta
  writes : List WriterCall
  reading : Reading
  explicitMtime : Option Int
  rollsBack : Bool
  ending : Ending
deriving Repr, DecidableEq

structure ShareDraw where
  storageClass : Option String
  sse : Option SseInfo
  reading : Reading
  rollsBack : Bool
  ending : Ending
deriving Repr, DecidableEq

def shareCalls (src : ObjectMeta) : List DraftCall :=
  if src.inline.isNone then [.shareObject src.extents] else []

def replacedBy (group : KeyGroup ObjectMeta) : WriteTarget → Option ObjectMeta
  | .newVersion _ => none
  | .unversioned => group.single
  | .legacySlot => group.single
  | .nullSlot => group.nullSlot

def deletedBy (group : KeyGroup ObjectMeta) (versioning : VersioningState) (version : Option Vk) :
    Option ObjectMeta :=
  match versioning, version with
  | .off, _ => group.single
  | .enabled, none => none
  | .suspended, none => group.single.orElse fun _ => group.nullSlot
  | _, some vk => group.row (group.slotOf (some vk))

namespace RestoreEngine

variable (e : RestoreEngine)

/-- A put: the segments of the writer lie apart from the old ones, which are released.  A record has
inline bytes or segments. -/
def putObject (name : ObjectName) (draw : PutDraw) : RestoreEngine :=
  let group := e.group name
  let target := KeyGroup.planObjectWrite group draw.reading (e.bucketVersioning name)
  let m := { draw.record with
    mtime := draw.explicitMtime.getD (KeyGroup.writeMtime group draw.reading target)
    extents := written draw.writes
    inline := if written draw.writes = [] then draw.record.inline else none
    versionId := target.metaVersionId
    isDeleteMarker := false
    restoreState := none }
  e.transact name (group.put target.versionKey m)
    (storeCalls draw.writes ++ releaseAllSegments (replacedBy group target)) draw.rollsBack draw.ending

def shareObject (source : ObjectName) (version : Option Vk) (name : ObjectName) (draw : ShareDraw) :
    RestoreEngine :=
  match (e.group source).resolveEntry version with
  | none => e
  | some src =>
    if src.isDeleteMarker && decide (e.bucketVersioning name = .off) then e
    else
      let group := e.group name
      let target := KeyGroup.planObjectWrite group draw.reading (e.bucketVersioning name)
      let m := { src with
        mtime := draw.reading.seconds
        versionId := target.metaVersionId
        storageClass := draw.storageClass
        sse := draw.sse
        restoreState := none }
      e.transact name (group.put target.versionKey m)
        (shareCalls src ++ releaseAllSegments (replacedBy group target)) draw.rollsBack draw.ending

/-- `delete_version_inner`. -/
def deleteObject (name : ObjectName) (version : Option Vk) (reading : Reading)
    (locked : ObjectMeta → Bool) (rollsBack : Bool) (ending : Ending) : RestoreEngine :=
  let group := e.group name
  match KeyGroup.deleteVersion group reading (e.bucketVersioning name) locked version with
  | .error _ => e
  | .ok (after, _) =>
    e.transact name after (releaseAllSegments (deletedBy group (e.bucketVersioning name) version))
      rollsBack ending

end RestoreEngine

inductive RestoreAction where
  | setVersioning (bucket : String) (suspended : Bool)
  | put (name : ObjectName) (draw : PutDraw)
  | share (source : ObjectName) (version : Option Vk) (name : ObjectName) (draw : ShareDraw)
  | delete (name : ObjectName) (version : Option Vk) (reading : Reading) (locked : ObjectMeta → Bool)
      (rollsBack : Bool) (ending : Ending)
  | enqueue (name : ObjectName) (vk : Option Vk) (days : Nat) (tier : String) (now : Int)
      (fault : Option Error)
  | materialize (now : Int) (draw : CopyDraw)
  | collect (now : Int) (name : ObjectName) (slot : Option Vk) (ending : Ending)

def RestoreEngine.step (e : RestoreEngine) : RestoreAction → RestoreEngine
  | .setVersioning bucket suspended =>
    { e with versioning :=
        Function.update e.versioning bucket (if suspended then .suspended else .enabled) }
  | .put name draw => e.putObject name draw
  | .share source version name draw => e.shareObject source version name draw
  | .delete name version reading locked rollsBack ending =>
    e.deleteObject name version reading locked rollsBack ending
  | .enqueue name vk days tier now fault =>
    match e.restoreEnqueue name vk days tier now fault with
    | .ok (_, after) => after
    | .error _ => e
  | .materialize now draw =>
    match e.jobs.entries.head? with
    | some (seq, job) => (e.restoreMaterializeOne seq job now draw).2
    | none => e
  | .collect now name slot ending =>
    match e.row name slot with
    | some m => (e.restoreGcEntry now name slot m ending).2
    | none => e

end FastS3.Engine
