import FastS3.S3.LockedBuckets

namespace FastS3.S3

open Data Engine
open FastS3.Core (ClockReading KeyGroup VersioningState Vk lastMicros vkNull vkTimeUs)
open Meta (ObjectMeta Retention)

/-! Versions under Object Lock over whole runs.

A bucket with Object Lock has versioning enabled from its creation on, so that a write takes a new version
key, and every deletion of a stored version asks its lock.  What remains are the two places that act on
what they have read before: the rollback of an upload and the lifecycle worker.
-/

def withoutLock (m : ObjectMeta) : ObjectMeta :=
  { m with retention := none, legalHold := false }

namespace LockStep

/-- The readings of `lock_now` that a step takes. -/
def Reads : LockStep → Int → Prop
  | .putObject _ _ _ lockNow _ _, t => t = lockNow
  | .completeMultipart _ _ _ lockNow _, t => t = lockNow
  | .copyObject _ _ _ lockNow _, t => t = lockNow
  | .deleteObject _ _ _ lockNow _ _, t => t = lockNow
  | .putRetention _ _ _ _ lockNow _, t => t = lockNow
  | .work draws, t => ∃ n, t = (draws n).lockNow ∨ t = (draws n).lockNowAgain
  | _, _ => False

/-- A step carries `x-amz-bypass-governance-retention`. -/
def bypasses : LockStep → Bool
  | .deleteObject _ _ _ _ bypass _ => bypass
  | .putRetention _ _ _ _ _ bypass => bypass
  | _ => false

def Before (step : LockStep) (time : Int) : Prop :=
  ∀ t, step.Reads t → t < time

/-- The content of a record through a step; the worker may store the same bytes in another place. -/
def KeepsContent (step : LockStep) (m m' : ObjectMeta) : Prop :=
  match step with
  | .work _ => identity m' = identity m
  | _ => withoutLock m' = withoutLock m

end LockStep

namespace LockWorld

/-- What Object Lock promises of a step: a version that is under a hold or a retention stays with its
content, and its retention is not shortened. -/
structure Protects (w : LockWorld) (step : LockStep) : Prop where
  hold : ∀ name key slot m, w.objectLock name = true →
    (w.stored.group name key).row slot = some m → m.isDeleteMarker = false → m.legalHold = true →
      ∃ m', ((w.step step).stored.group name key).row slot = some m' ∧ step.KeepsContent m m'
  compliance : ∀ name key slot m time, w.objectLock name = true →
    (w.stored.group name key).row slot = some m → m.isDeleteMarker = false →
      m.retention = some ⟨.compliance, time⟩ → step.Before time →
        ∃ m' later, ((w.step step).stored.group name key).row slot = some m' ∧
          step.KeepsContent m m' ∧ m'.retention = some ⟨.compliance, later⟩ ∧ time ≤ later
  governance : ∀ name key slot m time, w.objectLock name = true →
    (w.stored.group name key).row slot = some m → m.isDeleteMarker = false →
      m.retention = some ⟨.governance, time⟩ → step.Before time → step.bypasses = false →
        ∃ m' later, ((w.step step).stored.group name key).row slot = some m' ∧
          step.KeepsContent m m' ∧ m'.retention = some ⟨.governance, later⟩ ∧ time ≤ later

def free (row : Option ObjectMeta) (lockNow : Int) : Bool :=
  row.all fun m => !isLocked m lockNow

def rolledBack (group : KeyGroup ObjectMeta) : VersioningState → Option ObjectMeta
  | .enabled => none
  | .suspended => group.row group.nullTarget
  | .off => group.row none

/-- A new version key is free; a rollback under another versioning erases no locked version; and a cycle
that began while versioning was suspended finds no locked null version. -/
def Spares (w : LockWorld) : LockStep → Prop
  | .putObject view key reading lockNow _ rollback =>
    ∀ name stale, w.views[view]? = some (name, stale) → w.objectLock name = true →
      let group := w.stored.group name key
      free (group.row (some (group.nextVk reading.toReading))) lockNow = true ∧
        (rollback.isSome → free (rolledBack group stale) lockNow = true)
  | .completeMultipart name key reading lockNow _ =>
    w.objectLock name = true →
      let group := w.stored.group name key
      free (group.row (some (group.nextVk reading.toReading))) lockNow = true
  | .copyObject name key reading lockNow _ =>
    w.objectLock name = true →
      let group := w.stored.group name key
      free (group.row (some (group.nextVk reading.toReading))) lockNow = true
  | .deleteObject name key reading lockNow _ version =>
    w.objectLock name = true → version = none →
      let group := w.stored.group name key
      free (group.row (some (group.nextVk reading.toReading))) lockNow = true
  | .work draws =>
    ∀ due, w.stored.dueGroup = some due → w.objectLock due.name = true →
      let group := w.stored.group due.name due.key
      (due.versioning = .suspended →
        ∃ n, free (group.row group.nullTarget) (draws n).lockNowAgain = true) ∧
      ∀ vk, vkTimeUs vk = lastMicros →
        ∃ n, free (group.row (some vk)) (draws n).lockNowAgain = true
  | _ => True

end LockWorld

section Rows

variable {group after : KeyGroup ObjectMeta} {versioning : VersioningState} {reading : ClockReading}
  {locked : ObjectMeta → Bool} {version slot : Option Vk} {m : ObjectMeta}

theorem isLocked_of_blocks {now : Int} {bypass : Bool}
    (blocks : lockBlocksDelete m now bypass ≠ none) : isLocked m now = true := by
  rw [isLocked, Option.isSome_iff_ne_none]
  intro unlocked
  refine blocks ?_
  rw [lockBlocksDelete] at unlocked ⊢
  split at unlocked
  · next marker => rw [if_pos marker]
  · next content =>
      rw [if_neg content]
      split at unlocked
      · cases unlocked
      · next unheld =>
          rw [if_neg unheld]
          cases under : m.retention with
          | none => rfl
          | some r =>
            rw [under] at unlocked
            dsimp only at unlocked ⊢
            split at unlocked
            · next expired => rw [if_pos expired]
            · cases mode : r.mode with
              | compliance =>
                rw [mode] at unlocked
                cases unlocked
              | governance =>
                rw [mode] at unlocked
                cases unlocked

theorem isLocked_identity {m' : ObjectMeta} (same : identity m' = identity m) (now : Int) :
    isLocked m' now = isLocked m now := by
  have marker : (identity m').isDeleteMarker = (identity m).isDeleteMarker := by rw [same]
  have marker : m'.isDeleteMarker = m.isDeleteMarker := marker
  have hold : (identity m').legalHold = (identity m).legalHold := by rw [same]
  have hold : m'.legalHold = m.legalHold := hold
  have retention : (identity m').retention = (identity m).retention := by rw [same]
  have retention : m'.retention = m.retention := retention
  rw [isLocked, isLocked, lockBlocksDelete, lockBlocksDelete, marker, hold, retention]

theorem free_iff {row : Option ObjectMeta} {lockNow : Int} :
    LockWorld.free row lockNow = true ↔ ∀ m, row = some m → isLocked m lockNow = false := by
  rw [LockWorld.free, Option.all_eq_true]
  simp only [Bool.not_eq_true']

theorem Deleted.keeps (deleted : Deleted group versioning reading locked version after)
    (held : group.row slot = some m)
    (plain : version = none → versioning = .off → slot = none → locked m = true)
    (named : ∀ vk, version = some vk → slot = group.slotOf (some vk) → locked m = true)
    (suspended : version = none → versioning = .suspended → slot ≠ group.nullTarget)
    (enabled : version = none → versioning = .enabled →
      slot ≠ some (group.nextVk reading.toReading)) : after.row slot = some m := by
  cases deleted with
  | unchanged => exact held
  | plain unversioned current there open_ =>
    rw [KeyGroup.row_erase, if_neg]
    · exact held
    · intro same
      rw [same] at held
      rw [held] at there
      cases there
      rw [plain current unversioned same] at open_
      cases open_
  | named asked there open_ =>
    rw [KeyGroup.row_erase, if_neg]
    · exact held
    · intro same
      rw [same] at held
      rw [held] at there
      cases there
      rw [named _ asked same] at open_
      cases open_
  | suspended state current =>
    rw [KeyGroup.row_put, if_neg (suspended current state)]
    exact held
  | enabled state current =>
    rw [KeyGroup.row_put, if_neg (enabled current state)]
    exact held

theorem deletionOf_deleted (group : KeyGroup ObjectMeta) (versioning : VersioningState)
    (reading : ClockReading) (locked : ObjectMeta → Bool) (version : Option Vk) :
    Deleted group versioning reading locked version
      (deletionOf group versioning reading locked version) := by
  rw [deletionOf]
  split
  · exact .unchanged
  · next deleted => exact deleteVersion_ok deleted

theorem putRecord_enabled (group : KeyGroup ObjectMeta) (reading : ClockReading) (mtime : Option Int)
    (m : ObjectMeta) :
    ∃ new, putRecord group .enabled reading mtime m =
      group.put (some (group.nextVk reading.toReading)) new :=
  ⟨_, rfl⟩

theorem copyRecord_enabled (group : KeyGroup ObjectMeta) (reading : ClockReading) (m : ObjectMeta) :
    ∃ new, copyRecord group .enabled reading m =
      group.put (some (group.nextVk reading.toReading)) new := by
  rw [copyRecord, if_neg (by simp)]
  exact ⟨_, rfl⟩

theorem put_keeps {target : Option Vk} {new : ObjectMeta} (held : group.row slot = some m)
    (elsewhere : slot ≠ target) : (group.put target new).row slot = some m := by
  rw [KeyGroup.row_put, if_neg elsewhere]
  exact held

/-- An upload to a bucket with versions keeps a locked version where its version key is free and its
rollback erases no locked version. -/
theorem uploaded_keeps {stale : VersioningState} {lockNow : Int} {new : ObjectMeta}
    {rollback : Option ClockReading} (held : group.row slot = some m)
    (locked : isLocked m lockNow = true)
    (fresh : LockWorld.free (group.row (some (group.nextVk reading.toReading))) lockNow = true)
    (back : rollback.isSome → LockWorld.free (LockWorld.rolledBack group stale) lockNow = true) :
    (LockWorld.uploaded stale .enabled group reading lockNow new rollback).row slot = some m := by
  have elsewhere : slot ≠ some (group.nextVk reading.toReading) := by
    intro same
    rw [same] at held
    rw [free_iff.mp fresh m held] at locked
    cases locked
  obtain ⟨record, written⟩ := putRecord_enabled group reading none new
  unfold LockWorld.uploaded
  rw [written]
  have kept : (group.put (some (group.nextVk reading.toReading)) record).row slot = some m :=
    put_keeps held elsewhere
  cases rollback with
  | none => exact kept
  | some again =>
    have spared := free_iff.mp (back rfl)
    have real := KeyGroup.nextVk_ne_vkNull group reading.inClock
    refine Deleted.keeps (deletionOf_deleted _ _ _ _ _) kept ?_ ?_ ?_ ?_
    · intro _ off same
      subst off
      subst same
      rw [spared m held] at locked
      cases locked
    · intro vk asked same
      exfalso
      cases stale with
      | off => cases asked
      | enabled =>
        cases asked
        rw [KeyGroup.slotOf, if_neg fun both => real both.1] at same
        exact elsewhere same
      | suspended =>
        cases asked
        have place : group.nullTarget = slot := by
          rw [same, KeyGroup.nullTarget, KeyGroup.slotOf]
          simp only [true_and]
          rfl
        rw [LockWorld.rolledBack, place] at spared
        rw [spared m held] at locked
        cases locked
    · intro none_ state
      rw [state] at none_
      cases none_
    · intro none_ state
      rw [state] at none_
      cases none_

end Rows

section Worker

variable {group : KeyGroup ObjectMeta} {versioning state : VersioningState} {slot : Option Vk}
  {m : ObjectMeta}

/-- An action of the worker asks the lock of what it removes, the marker of a suspended bucket apart. -/
theorem performAction_keeps (placed : Placed group state) (held : group.row slot = some m)
    (time : Int) (draw : ActionDraw) (ga : GroupAction)
    (locked : isLocked m draw.lockNowAgain = true)
    (aside : versioning = .suspended → slot ≠ none ∧ slot ≠ some vkNull)
    (early : ∀ vk, slot = some vk → vkTimeUs vk ≠ lastMicros) :
    ∃ m', (performAction group versioning time draw ga).1.row slot = some m' ∧
      identity m' = identity m := by
  have deleted : ∀ version, ∃ m', (endedDelete group versioning draw version).1.row slot = some m' ∧
      identity m' = identity m := by
    intro version
    refine ⟨m, ?_, rfl⟩
    refine Deleted.keeps (endedDelete_rows group versioning draw version) held
      (fun _ _ _ => locked) (fun _ _ _ => locked) ?_ ?_
    · intro _ suspended same
      obtain ⟨single, null⟩ := aside suspended
      rw [KeyGroup.nullTarget] at same
      split at same
      · exact single same
      · exact null same
    · intro _ _ same
      rw [same] at held
      exact early _ same (placed.fresh draw.reading held)
  rw [performAction]
  cases ga.action with
  | deleteCurrent => exact deleted none
  | insertDeleteMarker => exact deleted none
  | deleteNoncurrentVersion named => exact deleted _
  | expireDeleteMarker => exact deleted _
  | transition storageClass =>
    obtain same | ⟨place, old, there, moved⟩ := endedTransition_rows placed draw
      (if ga.targetVk = vkNull then none else some ga.targetVk) storageClass time
    · dsimp only
      rw [same]
      exact ⟨m, held, rfl⟩
    · dsimp only
      rw [moved, KeyGroup.row_put]
      split
      · next same =>
          rw [← same, held] at there
          cases there
          exact ⟨_, rfl, rfl⟩
      · exact ⟨m, held, rfl⟩

theorem applyActions_keeps (fresh : List GroupEntry) (time : Int) (actions : List GroupAction)
    (draws : Nat → ActionDraw) (placed : Placed group state) (held : group.row slot = some m)
    (locked : ∀ n, isLocked m (draws n).lockNowAgain = true)
    (aside : versioning = .suspended → slot ≠ none ∧ slot ≠ some vkNull)
    (early : ∀ vk, slot = some vk → vkTimeUs vk ≠ lastMicros) :
    ∃ m', (applyActions fresh versioning time actions draws group).1.row slot = some m' ∧
      identity m' = identity m := by
  induction actions generalizing draws group m with
  | nil => exact ⟨m, held, rfl⟩
  | cons ga rest ih =>
    have later : ∀ n, isLocked m (draws (n + 1)).lockNowAgain = true := fun n => locked (n + 1)
    obtain ⟨moved, there, same⟩ :=
      performAction_keeps placed held time (draws 0) ga (locked 0) aside early
    have places : Placed (performAction group versioning time (draws 0) ga).1 state :=
      placed.performed time (draws 0) ga
    rw [applyActions]
    split
    · exact ih _ placed held later
    · split
      · exact ih _ placed held later
      · split
        · next done =>
            rw [done] at there places
            obtain ⟨m', kept, equal⟩ := ih _ places there fun n =>
              (isLocked_identity same _).trans (later n)
            exact ⟨m', kept, equal.trans same⟩
        · next failed =>
            rw [failed] at there
            exact ⟨moved, there, same⟩

/-- The worker keeps a locked version of a key where no marker of a suspended bucket takes its place. -/
theorem applyGroup_keeps (key : String) (rules : List Meta.LifecycleRule) (now : Int)
    (draws : Nat → ActionDraw) (placed : Placed group state) (held : group.row slot = some m)
    (locked : ∀ n, isLocked m (draws n).lockNowAgain = true)
    (null : versioning = .suspended →
      ∃ n, LockWorld.free (group.row group.nullTarget) (draws n).lockNowAgain = true)
    (last : ∀ vk, vkTimeUs vk = lastMicros →
      ∃ n, LockWorld.free (group.row (some vk)) (draws n).lockNowAgain = true) :
    ∃ m', (applyGroup group key versioning rules now draws).1.row slot = some m' ∧
      identity m' = identity m := by
  have content : m.isDeleteMarker = false := by
    cases marker : m.isDeleteMarker with
    | false => rfl
    | true =>
      have held := locked 0
      rw [isLocked, lockBlocksDelete, if_pos marker] at held
      cases held
  refine applyActions_keeps _ now _ draws placed held locked ?_ ?_
  · intro suspended
    obtain ⟨n, spared⟩ := null suspended
    have spared := free_iff.mp spared
    have elsewhere : slot ≠ group.nullTarget := by
      intro same
      rw [← same] at spared
      have unlocked := spared m held
      rw [locked n] at unlocked
      cases unlocked
    constructor
    · intro same
      rw [same] at held elsewhere
      exact elsewhere (nullTarget_single (by rw [held]; nofun)).symm
    · intro same
      rw [same] at held elsewhere
      by_cases single : group.row none = none
      · exact elsewhere (nullTarget_alone single).symm
      · have marker := placed.apart single m held
        rw [content] at marker
        cases marker
  · intro vk same late
    obtain ⟨n, spared⟩ := last vk late
    rw [same] at held
    have unlocked := free_iff.mp spared m held
    rw [locked n] at unlocked
    cases unlocked

end Worker

section Setting

variable {group : KeyGroup ObjectMeta} {versioning : VersioningState} {slot version : Option Vk}
  {m cur : ObjectMeta}

theorem current_row {vk : Vk} (current : group.current = some (vk, m)) :
    (vk ≠ vkNull ∧ group.row (some vk) = some m) ∨
      (vk = vkNull ∧ (group.row none = some m ∨ group.row (some vkNull) = some m)) := by
  have family : ∀ n, KeyGroup.pickNull group.single group.nullSlot = some n →
      group.row none = some n ∨ group.row (some vkNull) = some n := by
    intro n chosen
    rw [row_none, row_vkNull]
    unfold KeyGroup.pickNull at chosen
    split at chosen
    · next single slot =>
        cases chosen
        rw [single, slot]
        split
        · exact .inl rfl
        · exact .inr rfl
    · next single slot =>
        cases chosen
        exact .inl single
    · exact .inr chosen
  unfold KeyGroup.current KeyGroup.pickCurrent at current
  split at current
  · next n named real chosen last =>
      split at current
      · cases current
        exact .inr ⟨rfl, family _ chosen⟩
      · cases current
        obtain ⟨held, proper⟩ := KeyGroup.maxReal_held last
        exact .inl ⟨proper, held⟩
  · next n chosen last =>
      cases current
      exact .inr ⟨rfl, family _ chosen⟩
  · next chosen =>
      obtain ⟨held, proper⟩ := KeyGroup.maxReal_held current
      exact .inl ⟨proper, held⟩

theorem lockWriteVk_head (placed : Placed group versioning) (head : group.head version = .ok cur)
    (writes : lockWriteVk group version = some slot) (held : group.row slot = some m) : m = cur := by
  have found : group.resolveEntry version = some cur ∧ cur.isDeleteMarker = false := by
    rw [KeyGroup.head] at head
    split at head
    · cases head
    · next entry =>
        split at head
        · cases head
        · next content =>
            cases head
            exact ⟨entry, Bool.eq_false_iff.mpr content⟩
  obtain ⟨found, content⟩ := found
  have family : group.row group.nullTarget = some m →
      (group.row none = some cur ∨ group.row (some vkNull) = some cur) → m = cur := by
    intro target either
    by_cases single : group.row none = none
    · rw [nullTarget_alone single] at target
      rw [single] at either
      obtain there | there := either
      · cases there
      · rw [target] at there
        exact Option.some.inj there
    · rw [nullTarget_single single] at target
      obtain there | there := either
      · rw [target] at there
        exact Option.some.inj there
      · have marker := placed.apart single cur there
        rw [content] at marker
        cases marker
  cases version with
  | some vk =>
    rw [lockWriteVk] at writes
    rw [KeyGroup.resolveEntry] at found
    split at writes
    · next proper =>
        cases writes
        rw [if_neg proper] at found
        rw [row_some, found] at held
        exact (Option.some.inj held).symm
    · next null =>
        cases writes
        rw [if_pos (not_not.mp null)] at found
        refine family held ?_
        rw [row_none, row_vkNull]
        cases single : group.single with
        | some l =>
          rw [single] at found
          exact .inl found
        | none =>
          rw [single] at found
          exact .inr found
  | none =>
    obtain ⟨⟨vk, top⟩, current, rfl⟩ := Option.map_eq_some_iff.mp found
    rw [lockWriteVk, current] at writes
    dsimp only at writes
    obtain ⟨proper, there⟩ | ⟨null, there⟩ := current_row current
    · rw [if_pos proper] at writes
      cases writes
      rw [held] at there
      exact Option.some.inj there
    · rw [if_neg (not_not.mpr null)] at writes
      cases writes
      exact family held there

theorem setLock_cases (group : KeyGroup ObjectMeta) (version : Option Vk)
    (change : ObjectMeta → ObjectMeta) :
    setLock group version change = group ∨
      ∃ slot m, lockWriteVk group version = some slot ∧ group.row slot = some m ∧
        setLock group version change = group.put slot (change m) := by
  rw [setLock]
  split
  · exact .inl rfl
  · next slot writes =>
      split
      · exact .inl rfl
      · next m there =>
          rw [lockWriteMeta, Option.filter_eq_some_iff] at there
          exact .inr ⟨slot, m, writes, there.1, rfl⟩

theorem setLock_placed (placed : Placed group versioning) (version : Option Vk)
    {change : ObjectMeta → ObjectMeta} (kept : ∀ m, withoutLock (change m) = withoutLock m) :
    Placed (setLock group version change) versioning := by
  obtain same | ⟨slot, m, _, held, put⟩ := setLock_cases group version change
  · rw [same]
    exact placed
  · rw [put]
    have named : (withoutLock (change m)).versionId = (withoutLock m).versionId := by rw [kept]
    have marker : (withoutLock (change m)).isDeleteMarker = (withoutLock m).isDeleteMarker := by
      rw [kept]
    exact placed.replace held named marker

theorem setLegalHold_keeps (held : group.row slot = some m) (legalHold : Bool) :
    ∃ m', (setObjectLegalHold group version legalHold).row slot = some m' ∧
      withoutLock m' = withoutLock m ∧ m'.retention = m.retention := by
  rw [setObjectLegalHold]
  obtain same | ⟨place, old, _, there, put⟩ := setLock_cases group version
    fun m => { m with legalHold := legalHold }
  · rw [same]
    exact ⟨m, held, rfl, rfl⟩
  · rw [put, KeyGroup.row_put]
    split
    · next same =>
        rw [← same, held] at there
        cases there
        exact ⟨_, rfl, rfl, rfl⟩
    · exact ⟨m, held, rfl, rfl⟩

theorem putRetention_keeps (placed : Placed group versioning) (held : group.row slot = some m)
    (new : Retention) (lockNow : Int) (bypass : Bool) :
    ∃ m', (putObjectRetention group version new lockNow bypass).row slot = some m' ∧
      withoutLock m' = withoutLock m ∧
      (m'.retention = m.retention ∨
        checkRetentionChange m.retention new lockNow bypass = none ∧ m'.retention = some new) := by
  rw [putObjectRetention]
  split
  · exact ⟨m, held, rfl, .inl rfl⟩
  · next cur head =>
      split
      · exact ⟨m, held, rfl, .inl rfl⟩
      · next allowed =>
          rw [setObjectRetention]
          obtain same | ⟨place, old, writes, there, put⟩ := setLock_cases group version
            fun m => { m with retention := some new }
          · rw [same]
            exact ⟨m, held, rfl, .inl rfl⟩
          · rw [put, KeyGroup.row_put]
            split
            · next same =>
                have checked : old = cur := lockWriteVk_head placed head writes there
                rw [← same, held] at there
                cases there
                rw [← checked] at allowed
                exact ⟨_, rfl, rfl, .inr ⟨allowed, rfl⟩⟩
            · exact ⟨m, held, rfl, .inl rfl⟩

theorem putRetention_placed (placed : Placed group versioning) (new : Retention) (lockNow : Int)
    (bypass : Bool) :
    Placed (putObjectRetention group version new lockNow bypass) versioning := by
  rw [putObjectRetention]
  split
  · exact placed
  · split
    · exact placed
    · exact setLock_placed placed version fun _ => rfl

end Setting

/-- The records are in their places, and a bucket with Object Lock has versioning enabled. -/
structure LockWorld.Sound (w : LockWorld) : Prop where
  placed : w.stored.AllPlaced
  enabled : ∀ name bucket, w.objectLock name = true → w.stored.buckets.get? name = some bucket →
    bucket.versioning = .enabled

def SameVersioning (before after : LifecycleWorld) : Prop :=
  ∀ name bucket, after.buckets.get? name = some bucket →
    ∃ first, before.buckets.get? name = some first ∧ bucket.versioning = first.versioning

section Worlds

variable {w : LockWorld} {name key : String} {slot : Option Vk} {m : ObjectMeta}

theorem SameVersioning.refl (stored : LifecycleWorld) : SameVersioning stored stored :=
  fun _ bucket held => ⟨bucket, held, rfl⟩

variable {stored : LifecycleWorld} {other : String}

theorem SameVersioning.insert {bucket changed : RuledBucket}
    (held : stored.buckets.get? name = some bucket) (same : changed.versioning = bucket.versioning)
    (cycle : Option Cycle) : SameVersioning stored ⟨stored.buckets.insert name changed, cycle⟩ := by
  intro other found there
  rw [BTreeMap.get?_insert] at there
  split at there
  · next here =>
      cases there
      rw [here]
      exact ⟨bucket, held, same⟩
  · exact ⟨found, there, rfl⟩

theorem SameVersioning.modify (stored : LifecycleWorld) (name : String)
    {change : RuledBucket → RuledBucket}
    (same : ∀ bucket, (change bucket).versioning = bucket.versioning) :
    SameVersioning stored (stored.modify name change) := by
  rw [LifecycleWorld.modify]
  split
  · exact .refl stored
  · next bucket held => exact .insert held (same bucket) _

theorem SameVersioning.work (stored : LifecycleWorld) (draws : Nat → ActionDraw) :
    SameVersioning stored (stored.step (.work draws)) := by
  rw [LifecycleWorld.step]
  split
  · exact .refl stored
  · rw [LifecycleWorld.work]
    split
    · split
      · exact .refl stored
      · next bucket held =>
          generalize applyGroup _ _ _ _ _ draws = applied
          obtain ⟨after, done⟩ := applied
          refine .insert held ?_ _
          rfl
    · split
      · exact .refl stored
      · exact .refl stored
    · exact .refl stored

theorem SameVersioning.startCycle (stored : LifecycleWorld) (now : Int) :
    SameVersioning stored (stored.step (.startCycle now)) := by
  rw [LifecycleWorld.step]
  split
  · exact .refl stored
  · exact .refl stored

theorem LockWorld.Sound.serve (sound : w.Sound) (placed : stored.AllPlaced)
    (same : SameVersioning w.stored stored) :
    LockWorld.Sound { w with stored := stored } where
  placed := placed
  enabled name bucket lock held := by
    obtain ⟨first, there, equal⟩ := same name bucket held
    exact equal.trans (sound.enabled name first lock there)

theorem LockWorld.Sound.regroup (sound : w.Sound) (name key : String)
    {change : VersioningState → KeyGroup ObjectMeta → KeyGroup ObjectMeta}
    (kept : ∀ versioning group, Placed group versioning → Placed (change versioning group) versioning) :
    (w.regroup name key change).Sound := by
  refine sound.serve (allPlaced_modify sound.placed ?_) (SameVersioning.modify _ _ fun _ => rfl)
  intro bucket fits
  exact placed_group_put fits (kept _ _ (fits key))

theorem copyRecord_placed {group : KeyGroup ObjectMeta} {versioning : VersioningState}
    (placed : Placed group versioning) (reading : ClockReading) (m : ObjectMeta) :
    Placed (copyRecord group versioning reading m) versioning := by
  rw [copyRecord]
  split
  · exact placed
  · exact placed.putPlanned reading rfl

theorem deletionOf_placed {group : KeyGroup ObjectMeta} {versioning : VersioningState}
    (placed : Placed group versioning) (state : VersioningState) (reading : ClockReading) (locked : ObjectMeta → Bool)
    (version : Option Vk) : Placed (deletionOf group state reading locked version) versioning :=
  (deletionOf_deleted group state reading locked version).placed placed

theorem uploaded_placed {group : KeyGroup ObjectMeta} {versioning : VersioningState}
    (placed : Placed group versioning) (stale : VersioningState) (reading : ClockReading) (lockNow : Int)
    (m : ObjectMeta) (rollback : Option ClockReading) :
    Placed (LockWorld.uploaded stale versioning group reading lockNow m rollback) versioning := by
  have written : Placed (putRecord group versioning reading none m) versioning :=
    placed.putRecord reading none m
  cases rollback with
  | none => exact written
  | some again => exact deletionOf_placed written stale again _ _

theorem objectLock_insert {views : List (String × VersioningState)}
    {retention : Option Meta.ObjectLockDefaultRetention}
    (lock : LockWorld.objectLock ⟨stored, w.locks.insert name retention, views⟩ other = true) :
    other = name ∨ w.objectLock other = true := by
  rw [LockWorld.objectLock, BTreeMap.get?_insert] at lock
  split at lock
  · next same => exact .inl same
  · exact .inr lock

theorem objectLock_erase {views : List (String × VersioningState)}
    (lock : LockWorld.objectLock ⟨stored, w.locks.erase name, views⟩ other = true) :
    other ≠ name ∧ w.objectLock other = true := by
  rw [LockWorld.objectLock, BTreeMap.get?_erase] at lock
  split at lock
  · cases lock
  · next apart => exact ⟨apart, lock⟩

theorem step_sound (sound : w.Sound) (step : LockStep) : (w.step step).Sound := by
  have placed := sound.placed
  cases step with
  | createBucket name objectLock =>
    rw [LockWorld.step]
    split
    · exact sound
    · next absent =>
        refine ⟨step_allPlaced placed _, ?_⟩
        intro other bucket lock held
        simp only [LifecycleWorld.step, absent, BTreeMap.get?_insert] at held
        by_cases same : other = name
        · rw [if_pos same] at held
          cases held
          cases objectLock with
          | true => rfl
          | false => exact absurd same (objectLock_erase lock).1
        · rw [if_neg same] at held
          refine sound.enabled other bucket ?_ held
          cases objectLock with
          | true => exact (objectLock_insert lock).resolve_left same
          | false => exact (objectLock_erase lock).2
  | deleteBucket name =>
    rw [LockWorld.step]
    split
    · next empty =>
        refine ⟨step_allPlaced placed _, ?_⟩
        intro other bucket lock held
        obtain ⟨apart, lock⟩ := objectLock_erase lock
        simp only [LifecycleWorld.step, if_pos empty, BTreeMap.get?_erase, if_neg apart] at held
        exact sound.enabled other bucket lock held
    · exact sound
  | putVersioning name suspended =>
    rw [LockWorld.step]
    split
    · exact sound
    · next allowed =>
        refine ⟨step_allPlaced placed _, ?_⟩
        intro other bucket lock held
        simp only [LifecycleWorld.step, LifecycleWorld.modify] at held
        split at held
        · exact sound.enabled other bucket lock held
        · rw [BTreeMap.get?_insert] at held
          split at held
          · next same =>
              cases held
              have here : w.objectLock name = true := by
                rw [← same]
                exact lock
              cases suspended with
              | false => rfl
              | true => exact absurd ⟨here, rfl⟩ allowed
          · exact sound.enabled other bucket lock held
  | putObjectLock name defaultRetention =>
    rw [LockWorld.step]
    split
    · exact sound
    · next bucket there =>
        split
        · exact sound
        · next allowed =>
            refine ⟨placed, ?_⟩
            intro other found lock held
            obtain same | lock := objectLock_insert lock
            · rw [same] at held
              have equal : bucket = found := Option.some.inj (there.symm.trans held)
              rw [← equal]
              by_cases already : w.objectLock name = true
              · exact sound.enabled name bucket already there
              · by_contra other
                exact allowed ⟨Bool.eq_false_iff.mpr already, other⟩
            · exact sound.enabled other found lock held
  | putLifecycle name rules =>
    exact sound.serve (step_allPlaced placed _) (SameVersioning.modify _ _ fun _ => rfl)
  | readBucket name =>
    rw [LockWorld.step]
    split
    · exact sound
    · exact ⟨placed, sound.enabled⟩
  | putObject view key reading lockNow m rollback =>
    rw [LockWorld.step]
    split
    · exact sound
    · exact sound.regroup _ _ fun _ _ fits => uploaded_placed fits _ reading lockNow m rollback
  | completeMultipart name key reading lockNow m =>
    exact sound.regroup _ _ fun _ _ fits => fits.putRecord reading none m
  | copyObject name key reading lockNow m =>
    exact sound.regroup _ _ fun _ _ fits => copyRecord_placed fits reading m
  | deleteObject name key reading lockNow bypass version =>
    exact sound.regroup name key fun versioning _ fits =>
      deletionOf_placed fits versioning reading (deniedIfLocked lockNow bypass false) version
  | putRetention name key version retention lockNow bypass =>
    rw [LockWorld.step]
    split
    · exact sound.regroup _ _ fun _ _ fits => putRetention_placed fits retention lockNow bypass
    · exact sound
  | putLegalHold name key version legalHold =>
    rw [LockWorld.step]
    split
    · exact sound.regroup _ _ fun _ _ fits => setLock_placed fits version fun _ => rfl
    · exact sound
  | startCycle now => exact sound.serve (step_allPlaced placed _) (.startCycle _ now)
  | work draws => exact sound.serve (step_allPlaced placed _) (.work _ draws)
  | abandon => exact sound.serve placed (.refl _)

theorem row_of_empty (empty : (w.stored.buckets.get? name).all LifecycleWorld.isEmpty = true) :
    (w.stored.group name key).row slot = none := by
  have absent : (KeyGroup.empty : KeyGroup ObjectMeta).row slot = none := by
    cases slot with
    | none => rfl
    | some vk => rfl
  rw [LifecycleWorld.group]
  cases there : w.stored.buckets.get? name with
  | none => exact absent
  | some bucket =>
    rw [there, Option.all_some, LifecycleWorld.isEmpty, List.all_eq_true] at empty
    rw [Option.map_some, Option.getD_some, RuledBucket.group]
    cases rows : bucket.groups.get? key with
    | none => exact absent
    | some group =>
      have member : group ∈ bucket.groups.values :=
        List.mem_map.mpr ⟨(key, group), BTreeMap.get?_eq_some_iff.mp rows, rfl⟩
      have both := empty group member
      rw [Bool.and_eq_true, Option.isNone_iff_eq_none, List.isEmpty_iff] at both
      cases slot with
      | none => exact both.1
      | some vk =>
        rw [Option.getD_some, row_some]
        cases found : group.versions.get? vk with
        | none => rfl
        | some m =>
          rw [BTreeMap.get?_eq_some_iff, both.2] at found
          cases found

structure Kept (step : LockStep) (m m' : ObjectMeta) : Prop where
  content : step.KeepsContent m m'
  retention : m'.retention = m.retention ∨ ∃ now new, step.Reads now ∧
    checkRetentionChange m.retention new now step.bypasses = none ∧ m'.retention = some new

theorem Kept.refl (step : LockStep) (m : ObjectMeta) : Kept step m m :=
  ⟨by cases step <;> rfl, .inl rfl⟩

/-- The version in its place has been kept by the step. -/
def Retained (step : LockStep) (name key : String) (slot : Option Vk) (m : ObjectMeta)
    (after : LockWorld) : Prop :=
  ∃ m', (after.stored.group name key).row slot = some m' ∧ Kept step m m'

section Arms

variable (held : (w.stored.group name key).row slot = some m)

include held

theorem createBucket_keeps (other : String) (objectLock : Bool) :
    ((w.step (.createBucket other objectLock)).stored.group name key).row slot = some m := by
  rw [LockWorld.step]
  split
  · exact held
  · next absent =>
      simp only [LifecycleWorld.step, absent]
      rw [LifecycleWorld.group, BTreeMap.get?_insert]
      split
      · next same =>
          rw [LifecycleWorld.group, same, absent] at held
          cases slot with
          | none => cases held
          | some vk => cases held
      · exact held

theorem deleteBucket_keeps (other : String) :
    ((w.step (.deleteBucket other)).stored.group name key).row slot = some m := by
  rw [LockWorld.step]
  split
  · next empty =>
      simp only [LifecycleWorld.step, if_pos empty]
      rw [LifecycleWorld.group, BTreeMap.get?_erase]
      split
      · next same =>
          rw [← same] at empty
          cases (row_of_empty empty).symm.trans held
      · exact held
  · exact held

theorem modify_keeps (other : String) {change : RuledBucket → RuledBucket}
    (same : ∀ bucket found, (change bucket).group found = bucket.group found) :
    ((w.stored.modify other change).group name key).row slot = some m := by
  rw [LifecycleWorld.modify]
  split
  · exact held
  · next bucket there =>
      rw [LifecycleWorld.group, BTreeMap.get?_insert]
      split
      · next here =>
          rw [LifecycleWorld.group, here, there] at held
          exact (congrArg (fun rows => rows.row slot) (same bucket key)).trans held
      · exact held

theorem fresh_elsewhere {reading : ClockReading} {t : Int} (locked : isLocked m t = true)
    (fresh : LockWorld.free ((w.stored.group name key).row
      (some ((w.stored.group name key).nextVk reading.toReading))) t = true) :
    slot ≠ some ((w.stored.group name key).nextVk reading.toReading) := by
  intro same
  rw [← same] at fresh
  rw [free_iff.mp fresh m held] at locked
  cases locked

variable (sound : w.Sound) (lock : w.objectLock name = true)

include sound lock

theorem regroup_keeps {step : LockStep} {found : String}
    {change : VersioningState → KeyGroup ObjectMeta → KeyGroup ObjectMeta}
    (own : name = other → key = found → Placed (w.stored.group name key) .enabled →
      ∃ m', (change .enabled (w.stored.group name key)).row slot = some m' ∧ Kept step m m') :
    Retained step name key slot m (w.regroup other found change) := by
  rw [LockWorld.regroup, LifecycleWorld.modify, Retained]
  split
  · exact ⟨m, held, .refl step m⟩
  · next bucket there =>
      rw [group_insert there]
      split
      · next here =>
          obtain ⟨rfl, rfl⟩ := here
          have rows : bucket.group key = w.stored.group name key := by
            rw [LifecycleWorld.group, there]
            rfl
          have enabled := sound.enabled name bucket lock there
          have placed := sound.placed name bucket there key
          rw [enabled, rows] at placed
          rw [enabled, rows]
          exact own rfl rfl placed
      · exact ⟨m, held, .refl step m⟩

theorem putObject_keeps {view : Nat} {found : String} {reading : ClockReading} {lockNow : Int}
    {new : ObjectMeta} {rollback : Option ClockReading}
    (spares : w.Spares (.putObject view found reading lockNow new rollback))
    (locked : isLocked m lockNow = true) :
    Retained (.putObject view found reading lockNow new rollback) name key slot m
      (w.step (.putObject view found reading lockNow new rollback)) := by
  rw [LockWorld.step]
  split
  · exact ⟨m, held, .refl _ m⟩
  · next other stale seen =>
      refine regroup_keeps held sound lock ?_
      intro here same _
      subst here
      subst same
      obtain ⟨fresh, back⟩ := spares _ _ seen lock
      exact ⟨m, uploaded_keeps held locked fresh back, .refl _ m⟩

theorem deleteObject_keeps {found : String} {reading : ClockReading} {lockNow : Int} {bypass : Bool}
    {version : Option Vk} (spares : w.Spares (.deleteObject other found reading lockNow bypass version))
    (blocks : lockBlocksDelete m lockNow bypass ≠ none) :
    Retained (.deleteObject other found reading lockNow bypass version) name key slot m
      (w.step (.deleteObject other found reading lockNow bypass version)) := by
  have denied : deniedIfLocked lockNow bypass false m = true := Option.isSome_iff_ne_none.mpr blocks
  refine regroup_keeps held sound lock ?_
  intro here same _
  subst here
  subst same
  refine ⟨m, ?_, .refl _ m⟩
  refine Deleted.keeps (deletionOf_deleted _ _ _ _ _) held (fun _ _ _ => denied)
    (fun _ _ _ => denied) (by rintro _ ⟨⟩) ?_
  intro current _
  exact fresh_elsewhere held (isLocked_of_blocks blocks) (spares lock current)

theorem work_keeps {draws : Nat → ActionDraw} (spares : w.Spares (.work draws))
    (locked : ∀ n, isLocked m (draws n).lockNowAgain = true) :
    Retained (.work draws) name key slot m (w.step (.work draws)) := by
  have worked : (w.step (.work draws)).stored = w.stored.step (.work draws) := rfl
  rw [Retained, worked]
  obtain same | ⟨due, bucket, listed, named, keyed, there, changed⟩ :=
    step_work (w := w.stored) draws name key
  · rw [same]
    exact ⟨m, held, .refl _ m⟩
  · have rows : w.stored.group name key = bucket.group key := by
      rw [LifecycleWorld.group, there]
      rfl
    obtain ⟨null, last⟩ := spares due listed (by rw [named]; exact lock)
    rw [named, keyed, rows] at null last
    rw [changed]
    rw [rows] at held
    obtain ⟨m', row, equal⟩ := applyGroup_keeps key due.rules due.now draws
      (sound.placed name bucket there key) held locked null last
    have retention : (identity m').retention = (identity m).retention := by rw [equal]
    exact ⟨m', row, equal, .inl retention⟩

end Arms

/-- A step that spares what it does not check keeps every version that is locked at its times. -/
theorem step_keeps (sound : w.Sound) (step : LockStep) (spares : w.Spares step)
    (lock : w.objectLock name = true) (held : (w.stored.group name key).row slot = some m)
    (blocked : ∀ t, step.Reads t → lockBlocksDelete m t step.bypasses ≠ none) :
    Retained step name key slot m (w.step step) := by
  cases step with
  | createBucket other objectLock =>
    exact ⟨m, createBucket_keeps held other objectLock, .refl _ m⟩
  | deleteBucket other => exact ⟨m, deleteBucket_keeps held other, .refl _ m⟩
  | putVersioning other suspended =>
    rw [LockWorld.step]
    split
    · exact ⟨m, held, .refl _ m⟩
    · exact ⟨m, modify_keeps held other fun _ _ => rfl, .refl _ m⟩
  | putObjectLock other defaultRetention =>
    rw [LockWorld.step]
    split
    · exact ⟨m, held, .refl _ m⟩
    · split
      · exact ⟨m, held, .refl _ m⟩
      · exact ⟨m, held, .refl _ m⟩
  | putLifecycle other rules => exact ⟨m, modify_keeps held other fun _ _ => rfl, .refl _ m⟩
  | readBucket other =>
    rw [LockWorld.step]
    split
    · exact ⟨m, held, .refl _ m⟩
    · exact ⟨m, held, .refl _ m⟩
  | putObject view found reading lockNow new rollback =>
    exact putObject_keeps held sound lock spares (isLocked_of_blocks (blocked lockNow rfl))
  | completeMultipart other found reading lockNow new =>
    refine regroup_keeps held sound lock ?_
    intro here same _
    subst here
    subst same
    obtain ⟨record, written⟩ := putRecord_enabled (w.stored.group name key) reading none new
    rw [written]
    have locked : isLocked m lockNow = true := isLocked_of_blocks (blocked lockNow rfl)
    exact ⟨m, put_keeps held (fresh_elsewhere held locked (spares lock)), .refl _ m⟩
  | copyObject other found reading lockNow new =>
    refine regroup_keeps held sound lock ?_
    intro here same _
    subst here
    subst same
    obtain ⟨record, written⟩ := copyRecord_enabled (w.stored.group name key) reading new
    rw [written]
    have locked : isLocked m lockNow = true := isLocked_of_blocks (blocked lockNow rfl)
    exact ⟨m, put_keeps held (fresh_elsewhere held locked (spares lock)), .refl _ m⟩
  | deleteObject other found reading lockNow bypass version =>
    exact deleteObject_keeps held sound lock spares (blocked lockNow rfl)
  | putRetention other found version new lockNow bypass =>
    rw [LockWorld.step]
    split
    · refine regroup_keeps held sound lock fun _ _ fits => ?_
      obtain ⟨m', row, content, retention⟩ := putRetention_keeps fits held new lockNow bypass
      refine ⟨m', row, content, retention.imp_right ?_⟩
      rintro ⟨allowed, set⟩
      exact ⟨lockNow, new, rfl, allowed, set⟩
    · exact ⟨m, held, .refl _ m⟩
  | putLegalHold other found version legalHold =>
    rw [LockWorld.step]
    split
    · refine regroup_keeps held sound lock fun _ _ _ => ?_
      obtain ⟨m', row, content, retention⟩ := setLegalHold_keeps held legalHold
      exact ⟨m', row, content, .inl retention⟩
    · exact ⟨m, held, .refl _ m⟩
  | startCycle now =>
    refine ⟨m, ?_, .refl _ m⟩
    simp only [LockWorld.step, LifecycleWorld.step]
    split
    · exact held
    · exact held
  | work draws =>
    exact work_keeps held sound lock spares fun n => isLocked_of_blocks (blocked _ ⟨n, .inr rfl⟩)
  | abandon => exact ⟨m, held, .refl _ m⟩

theorem step_protects (sound : w.Sound) (step : LockStep) (spares : w.Spares step) :
    w.Protects step := by
  constructor
  · intro name key slot m lock held content hold
    obtain ⟨m', row, kept⟩ := step_keeps sound step spares lock held (by
      intro t _
      rw [lockBlocksDelete, if_neg (Bool.eq_false_iff.mp content), if_pos hold]
      nofun)
    exact ⟨m', row, kept.content⟩
  · intro name key slot m time lock held content under before
    obtain ⟨m', row, kept⟩ := step_keeps sound step spares lock held (by
      intro t reads
      have early := before t reads
      rw [lockBlocksDelete, if_neg (Bool.eq_false_iff.mp content), under]
      split
      · nofun
      · dsimp only
        rw [if_neg (not_le.mpr early)]
        nofun)
    obtain same | ⟨now, new, reads, allowed, set⟩ := kept.retention
    · exact ⟨m', time, row, kept.content, same.trans under, le_refl time⟩
    · have early := before now reads
      rw [under, checkRetentionChange] at allowed
      dsimp only at allowed
      rw [if_neg (not_le.mpr early)] at allowed
      split at allowed
      · cases allowed
      · next longer =>
          rw [not_or, not_not, not_lt] at longer
          refine ⟨m', new.retainUntil, row, kept.content, ?_, longer.2⟩
          rw [set, ← longer.1]
  · intro name key slot m time lock held content under before plain
    obtain ⟨m', row, kept⟩ := step_keeps sound step spares lock held (by
      intro t reads
      have early := before t reads
      rw [lockBlocksDelete, if_neg (Bool.eq_false_iff.mp content), under, plain]
      split
      · nofun
      · dsimp only
        rw [if_neg (not_le.mpr early), if_neg Bool.false_ne_true]
        nofun)
    obtain same | ⟨now, new, reads, allowed, set⟩ := kept.retention
    · exact ⟨m', time, row, kept.content, same.trans under, le_refl time⟩
    · have early := before now reads
      rw [under, checkRetentionChange, plain] at allowed
      dsimp only at allowed
      rw [if_neg (not_le.mpr early)] at allowed
      split at allowed
      · cases allowed
      · next longer =>
          rw [and_iff_left rfl, not_or, not_not, not_lt] at longer
          refine ⟨m', new.retainUntil, row, kept.content, ?_, longer.1⟩
          rw [set, ← longer.2]

theorem empty_sound : LockWorld.empty.Sound where
  placed name bucket held := by cases held
  enabled name bucket lock held := by cases held

end Worlds

/-- Object Lock holds throughout a run whose uploads roll back under the versioning that they have read,
and whose lifecycle cycles began with versioning enabled, wherever a locked version is at stake. -/
theorem object_lock_holds (steps : List LockStep)
    (spares : EveryStep LockWorld.step LockWorld.Spares .empty steps) :
    EveryStep LockWorld.step LockWorld.Protects .empty steps := by
  have sound : ∀ earlier : List LockStep, (earlier.foldl LockWorld.step .empty).Sound := by
    intro earlier
    induction earlier using List.reverseRecOn with
    | nil => exact empty_sound
    | append_singleton earlier step ih =>
      rw [List.foldl_append]
      exact step_sound ih step
  intro earlier next later split
  exact step_protects (sound earlier) next (spares earlier next later split)

def lateReading : ClockReading :=
  ⟨⟨1700000000000000, 1700000000, List.replicate 8 7⟩, by decide, rfl⟩

def heldRun : List LockStep :=
  [.createBucket "photos" true, .readBucket "photos",
    .putObject 0 "one" lateReading 1700000000 oneRecord none,
    .putLegalHold "photos" "one" none true,
    .deleteObject "photos" "one" lateReading 1700000001 true
      (some ((KeyGroup.empty : KeyGroup ObjectMeta).nextVk lateReading.toReading))]

theorem object_lock_holds_heldRun :
    EveryStep LockWorld.step LockWorld.Protects .empty heldRun := by
  refine object_lock_holds heldRun ?_
  rw [heldRun, everyStep_cons, everyStep_cons, everyStep_cons, everyStep_cons, everyStep_cons]
  refine ⟨trivial, trivial, ?_, trivial, ?_, everyStep_nil⟩
  · intro name stale seen _
    have first : (LockWorld.step (LockWorld.step .empty (.createBucket "photos" true))
        (.readBucket "photos")).views[0]? = some ("photos", .enabled) := by decide +kernel
    rw [first] at seen
    cases seen
    exact ⟨by decide +kernel, nofun⟩
  · intro _ current
    cases current

/-- Object Lock comes to a bucket between the two sections of an upload that fails its check. -/
def overtakenUpload : List LockStep :=
  [.createBucket "photos" false, .readBucket "photos",
    .putObject 0 "one" earlyReading 0 oneRecord none,
    .readBucket "photos", .putVersioning "photos" false, .putObjectLock "photos" none,
    .putLegalHold "photos" "one" (some vkNull) true]

/-- The rollback of an upload erases a null version under a legal hold. -/
theorem rollback_erases_held_version :
    ¬∀ steps, EveryStep LockWorld.step LockWorld.Protects .empty steps := by
  intro protects
  have protects := protects
    (overtakenUpload ++ [.putObject 1 "one" lateReading 1700000000 oneRecord (some lateReading)])
    overtakenUpload (.putObject 1 "one" lateReading 1700000000 oneRecord (some lateReading)) [] rfl
  have lock : (overtakenUpload.foldl LockWorld.step .empty).objectLock "photos" = true := by
    decide +kernel
  have held : (((overtakenUpload.foldl LockWorld.step .empty).stored.group "photos" "one").row
      none).map (fun m => (m.isDeleteMarker, m.legalHold)) = some (false, true) := by decide +kernel
  have gone : ((((overtakenUpload.foldl LockWorld.step .empty).step
      (.putObject 1 "one" lateReading 1700000000 oneRecord (some lateReading))).stored.group
        "photos" "one").row none).isNone = true := by decide +kernel
  obtain ⟨m, there, both⟩ := Option.map_eq_some_iff.mp held
  obtain ⟨content, hold⟩ := Prod.mk.inj both
  obtain ⟨m', row, _⟩ := protects.hold "photos" "one" none m lock there content hold
  rw [row] at gone
  cases gone

end FastS3.S3
