import FastS3.Data.Runs
import FastS3.Engine.RestoreRows

namespace FastS3.Engine

open Alloc Data
open FastS3.Core (Error ObjectMeta RestoreState Segment SegKey Vk vkNull VersioningState KeyGroup
  Reading)
open Meta (RestoreJob)

/-! Which version a restore is about.

A request resolves a version, rewrites a row, and leaves a version id in the queue.  These three name one
row as long as every request and every write meets a condition; then no two records come to hold the same
segments, and every restore in progress has a job that finds it.
-/

def rowId : Option Vk → Option Vk
  | none => none
  | some vk => if vk = vkNull then none else some vk

structure Formed (group : KeyGroup ObjectMeta) : Prop where
  numbered : ∀ slot m, group.row slot = some m → m.versionId = rowId slot
  inlined : ∀ slot m, group.row slot = some m → m.inline.isSome = true → m.extents = []

/-- Every version of a key that is being restored has a job with its version id that finds it. -/
def Pinned (jobs : BTreeMap Nat RestoreJob) (name : ObjectName) (group : KeyGroup ObjectMeta) : Prop :=
  ∀ slot m, group.row slot = some m → m.restoreOngoing = true →
    ∃ seq job, jobs.get? seq = some job ∧ jobName job = name ∧ job.vk = m.versionId ∧
      group.resolveRow job.vk = some slot

/-- A version of the null family that is being restored, and stays, stays the current one. -/
def KeepsCurrent (before after : KeyGroup ObjectMeta) : Prop :=
  ∀ slot m, before.row slot = some m → after.row slot = some m → m.restoreOngoing = true →
    m.versionId = none → after.currentRow = some slot

namespace RestoreEngine

def references (e : RestoreEngine) : Multiset SegKey :=
  e.lists.bind fun segs => (segs.map Segment.key : List SegKey)

def Backed (e : RestoreEngine) : Prop :=
  ∀ key, e.references.count key ≤ (heldKeys e.pool.held).count key

def Queued (e : RestoreEngine) : Prop :=
  ∀ name slot m, e.row name slot = some m → m.restoreOngoing = true →
    ∃ seq job, e.jobs.get? seq = some job ∧ jobName job = name ∧
      (e.group name).resolveRow job.vk = some slot

structure Sound (e : RestoreEngine) : Prop where
  formed : ∀ name, Formed (e.group name)
  recent : ∀ seq job, e.jobs.get? seq = some job → seq ≤ e.seq
  pinned : ∀ name, Pinned e.jobs name (e.group name)
  held : e.lists ≤ (e.pool.held : Multiset (List Segment))

end RestoreEngine

namespace RestoreAction

def resolved (e : RestoreEngine) : RestoreAction → Option (ObjectName × Option Vk)
  | .enqueue name vk _ _ _ _ => ((e.group name).resolveRow vk).map fun slot => (name, slot)
  | .materialize _ _ => e.jobs.entries.head?.bind fun entry =>
    ((e.group (jobName entry.2)).resolveRow entry.2.vk).map fun slot => (jobName entry.2, slot)
  | _ => none

/-- `restore_enqueue` and `restore_materialize_one`. -/
def restores : RestoreAction → Bool
  | .enqueue _ _ _ _ _ _ => true
  | .materialize _ _ => true
  | _ => false

def Confined (e : RestoreEngine) (action : RestoreAction) : Prop :=
  action.restores = true → ∀ name slot, (e.step action).row name slot ≠ e.row name slot →
    action.resolved e = some (name, slot) ∧ e.row name slot ≠ none

/-- A request rewrites the row of the version that it resolves, and leaves a version id that resolves to
it as well; a job rewrites the row that it resolves; and no write takes the place of a current version of
the null family that is being restored. -/
def Addressed (e : RestoreEngine) : RestoreAction → Prop
  | .setVersioning _ _ => True
  | .put name draw =>
    draw.reading.micros < 2 ^ 64 ∧ KeepsCurrent (e.group name) ((e.putObject name draw).group name)
  | .share source version name draw =>
    draw.reading.micros < 2 ^ 64 ∧
      KeepsCurrent (e.group name) ((e.shareObject source version name draw).group name)
  | .delete name version reading locked rollsBack ending =>
    reading.micros < 2 ^ 64 ∧ KeepsCurrent (e.group name)
      ((e.deleteObject name version reading locked rollsBack ending).group name)
  | .enqueue name vk days _ now fault =>
    ∀ m, e.restorable name vk = .ok m → fault = none → e.row name ((e.group name).slotOf vk) ≠ none →
      (e.group name).resolveRow vk = some ((e.group name).slotOf vk) ∧
        if m.restoreValid now then now + days * 86400 ≠ 0
        else (e.group name).resolveRow m.versionId = (e.group name).resolveRow vk
  | .materialize now draw =>
    ∀ seq job m, e.jobs.entries.head? = some (seq, job) →
      (e.group (jobName job)).resolveEntry job.vk = some m → m.restoreOngoing = true →
      draw.ending = .committed → e.row (jobName job) ((e.group (jobName job)).slotOf m.versionId) ≠ none →
      (e.group (jobName job)).resolveRow job.vk =
          some ((e.group (jobName job)).slotOf m.versionId) ∧
        now + job.days * 86400 ≠ 0
  | .collect _ _ _ _ => True

end RestoreAction

section Keys

variable {group after : KeyGroup ObjectMeta} {slot : Option Vk} {m : ObjectMeta} {name : ObjectName}
  {jobs : BTreeMap Nat RestoreJob}

theorem rowId_eq_some {vk : Vk} (named : rowId slot = some vk) : slot = some vk ∧ vk ≠ vkNull := by
  cases slot with
  | none => cases named
  | some other =>
    rw [rowId] at named
    split at named
    · cases named
    · next real =>
        cases named
        exact ⟨rfl, real⟩

theorem Formed.put (formed : Formed group) (numbered : m.versionId = rowId slot)
    (inlined : m.inline.isSome = true → m.extents = []) : Formed (group.put slot m) := by
  constructor
  · intro other found held
    rw [KeyGroup.row_put] at held
    split at held
    · next same =>
        cases held
        rw [same, numbered]
    · exact formed.numbered other found held
  · intro other found held
    rw [KeyGroup.row_put] at held
    split at held
    · cases held
      exact inlined
    · exact formed.inlined other found held

theorem Formed.erase (formed : Formed group) (slot : Option Vk) : Formed (group.erase slot) := by
  have kept : ∀ other found, (group.erase slot).row other = some found →
      group.row other = some found := by
    intro other found held
    rw [KeyGroup.row_erase] at held
    split at held
    · cases held
    · exact held
  exact ⟨fun other found held => formed.numbered other found (kept other found held),
    fun other found held => formed.inlined other found (kept other found held)⟩

theorem resolveRow_real {vk : Vk} (real : vk ≠ vkNull) (held : group.row (some vk) = some m) :
    group.resolveRow (some vk) = some (some vk) := by
  have there : (group.versions.get? vk).isSome = true := Option.isSome_iff_exists.mpr ⟨m, held⟩
  rw [KeyGroup.resolveRow, if_neg real, if_pos there]

theorem Pinned.write (pinned : Pinned jobs name group) (formed : Formed group)
    (old : ∀ slot m, after.row slot = some m → m.restoreOngoing = true → group.row slot = some m)
    (keeps : KeepsCurrent group after) : Pinned jobs name after := by
  intro slot m held ongoing
  have before := old slot m held ongoing
  obtain ⟨seq, job, queued, about, version, _⟩ := pinned slot m before ongoing
  refine ⟨seq, job, queued, about, version, ?_⟩
  rw [version]
  cases id : m.versionId with
  | none => exact keeps slot m before held ongoing id
  | some vk =>
    have named : rowId slot = some vk := (formed.numbered slot m before).symm.trans id
    obtain ⟨rfl, real⟩ := rowId_eq_some named
    exact resolveRow_real real held

end Keys

namespace RestoreEngine

section Transactions

variable {e : RestoreEngine} {name : ObjectName} {after : KeyGroup ObjectMeta}
  {calls : List DraftCall} {rollsBack : Bool} {ending : Ending}

theorem Sound.transact (sound : e.Sound) (formed : Formed after)
    (old : ∀ slot m, after.row slot = some m → m.restoreOngoing = true → e.row name slot = some m)
    (keeps : KeepsCurrent (e.group name) ((e.transact name after calls rollsBack ending).group name))
    (balance : ∀ rest, groupLists (e.group name) + rest ≤ (e.pool.held : Multiset (List Segment)) →
      groupLists after + rest ≤ (heldAfter e.pool.held calls : List (List Segment))) :
    (e.transact name after calls rollsBack ending).Sound := by
  rcases e.transact_cases name after calls rollsBack ending with
    ⟨_, committed⟩ | ⟨_, alloc, failed, _⟩
  · rw [committed] at keeps ⊢
    have sameGroup : ∀ other, other ≠ name →
        (({ e with pool := e.pool.commit calls } : RestoreEngine).commitRows name after).group other =
          e.group other := by
      intro other different
      rw [group_commitRows, if_neg different]
      rfl
    rw [group_commitRows, if_pos rfl] at keeps
    refine ⟨?_, ?_, ?_, ?_⟩
    · intro other
      by_cases same : other = name
      · rw [group_commitRows, if_pos same]
        exact formed
      · rw [sameGroup other same]
        exact sound.formed other
    · intro seq job queued
      exact Nat.le_succ_of_le (sound.recent seq job queued)
    · intro other
      by_cases same : other = name
      · rw [group_commitRows, if_pos same, same]
        exact (sound.pinned name).write (sound.formed name) old keeps
      · rw [sameGroup other same]
        exact sound.pinned other
    · obtain ⟨rest, before, commits⟩ :=
        ({ e with pool := e.pool.commit calls } : RestoreEngine).lists_split name
      rw [commits]
      apply balance
      have total : e.lists = groupLists (e.group name) + rest := before
      rw [← total]
      exact sound.held
  · rw [failed]
    exact ⟨sound.formed, sound.recent, sound.pinned, sound.held⟩

variable {reading : Reading} {version : Option Vk}

theorem planned_row (clock : reading.micros < 2 ^ 64) (group : KeyGroup ObjectMeta)
    (versioning : VersioningState) :
    let target := KeyGroup.planObjectWrite group reading versioning
    target.metaVersionId = rowId target.versionKey ∧
      (replacedBy group target = group.row target.versionKey ∨ replacedBy group target = none) := by
  cases versioning with
  | off => exact ⟨rfl, .inl rfl⟩
  | enabled =>
    have real : group.nextVk reading ≠ vkNull := group.nextVk_ne_vkNull clock
    refine ⟨?_, .inr rfl⟩
    simp only [KeyGroup.planObjectWrite, WriteTarget.metaVersionId, WriteTarget.versionKey, rowId]
    rw [if_neg real]
  | suspended =>
    simp only [KeyGroup.planObjectWrite]
    split
    · exact ⟨rfl, .inl rfl⟩
    · exact ⟨rfl, .inl rfl⟩

theorem Sound.store (sound : e.Sound) {slot : Option Vk} {m : ObjectMeta}
    (numbered : m.versionId = rowId slot) (inlined : m.inline.isSome = true → m.extents = [])
    (plain : m.restoreState = none)
    (keeps : KeepsCurrent (e.group name)
      ((e.transact name ((e.group name).put slot m) calls rollsBack ending).group name))
    (balance : ∀ rest, groupLists (e.group name) + rest ≤ (e.pool.held : Multiset (List Segment)) →
      groupLists ((e.group name).put slot m) + rest ≤
        (heldAfter e.pool.held calls : List (List Segment))) :
    (e.transact name ((e.group name).put slot m) calls rollsBack ending).Sound := by
  apply sound.transact ((sound.formed name).put numbered inlined) ?_ keeps balance
  intro other found held ongoing
  rw [KeyGroup.row_put] at held
  split at held
  · cases held
    rw [ObjectMeta.restoreOngoing, plain] at ongoing
    cases ongoing
  · exact held

theorem Sound.put (sound : e.Sound) {draw : PutDraw} (clock : draw.reading.micros < 2 ^ 64)
    (keeps : KeepsCurrent (e.group name) ((e.putObject name draw).group name)) :
    (e.putObject name draw).Sound := by
  obtain ⟨numbered, replaced⟩ := planned_row clock (e.group name) (e.bucketVersioning name)
  unfold putObject at keeps ⊢
  refine sound.store numbered ?_ rfl keeps ?_
  · intro inlined
    by_cases empty : written draw.writes = []
    · exact empty
    · simp [empty] at inlined
  · intro rest within
    rw [heldAfter_put]
    exact put_balance replaced (segmentLists_le _ rfl) within

theorem Sound.share (sound : e.Sound) {source : ObjectName} {draw : ShareDraw}
    (clock : draw.reading.micros < 2 ^ 64)
    (keeps : KeepsCurrent (e.group name) ((e.shareObject source version name draw).group name)) :
    (e.shareObject source version name draw).Sound := by
  unfold shareObject at keeps ⊢
  cases found : (e.group source).resolveEntry version with
  | none => exact sound
  | some src =>
    simp only [found] at keeps ⊢
    by_cases refused : (src.isDeleteMarker && decide (e.bucketVersioning name = .off)) = true
    · rw [if_pos refused]
      exact sound
    · rw [if_neg refused] at keeps ⊢
      obtain ⟨slot, _, held⟩ := KeyGroup.resolveEntry_eq_some_iff.mp found
      have inlined := (sound.formed source).inlined slot src held
      obtain ⟨numbered, replaced⟩ := planned_row clock (e.group name) (e.bucketVersioning name)
      refine sound.store numbered inlined rfl keeps ?_
      intro rest within
      rw [heldAfter_append, heldAfter_releaseAll]
      obtain ⟨gained, shared, brings⟩ := heldAfter_share e.pool.held inlined
      rw [shared]
      exact put_balance replaced (brings _ rfl rfl) within

theorem deleteVersion_cases {group after : KeyGroup ObjectMeta} (clock : reading.micros < 2 ^ 64)
    {versioning : VersioningState} {locked : ObjectMeta → Bool} {found : Option ObjectMeta}
    (deleted : KeyGroup.deleteVersion group reading versioning locked version = .ok (after, found)) :
    (∃ slot, after = group.erase slot ∧ deletedBy group versioning version = group.row slot) ∨
      ∃ slot mtime, after = group.put slot (deleteMarker (rowId slot) mtime).record ∧
        (deletedBy group versioning version = group.row slot ∨
          deletedBy group versioning version = none) := by
  have plain : ∀ {outcome}, KeyGroup.deletePlain group locked = .ok outcome →
      outcome.1 = group.erase none := by
    intro outcome done
    rw [KeyGroup.deletePlain] at done
    cases single : group.single with
    | none =>
      rw [single] at done
      cases done
      change group = { group with single := none }
      rw [← single]
    | some m =>
      simp only [single] at done
      split at done
      · cases done
      · cases done
        rfl
  have object : ∀ vk, KeyGroup.deleteObjectVersion group locked vk = .ok (after, found) →
      after = group.erase (group.slotOf (some vk)) := by
    intro vk done
    rw [KeyGroup.deleteObjectVersion] at done
    rw [KeyGroup.slotOf]
    split at done
    · next null =>
        rw [if_pos null]
        exact plain done
    · next other =>
        rw [if_neg other]
        cases held : group.versions.get? vk with
        | none =>
          rw [held] at done
          cases done
          change group = { group with versions := group.versions.erase vk }
          rw [BTreeMap.erase_of_get? held]
        | some m =>
          simp only [held] at done
          split at done
          · cases done
          · cases done
            rfl
  cases versioning with
  | off =>
    cases version with
    | none => exact .inl ⟨none, plain deleted, rfl⟩
    | some vk =>
      simp only [KeyGroup.deleteVersion] at deleted
      split at deleted
      · exact .inl ⟨none, plain deleted, rfl⟩
      · cases deleted
  | enabled =>
    cases version with
    | none =>
      cases deleted
      have real : group.nextVk reading ≠ vkNull := group.nextVk_ne_vkNull clock
      refine .inr ⟨some (group.nextVk reading), reading.seconds, ?_, .inr rfl⟩
      rw [rowId, if_neg real]
      rfl
    | some vk => exact .inl ⟨group.slotOf (some vk), object vk deleted, rfl⟩
  | suspended =>
    cases version with
    | none =>
      cases deleted
      right
      cases single : group.single with
      | none =>
        refine ⟨some vkNull, group.nullFamilyMtime reading, ?_, .inl ?_⟩
        · rw [rowId, if_pos rfl]
          rfl
        · rw [deletedBy, single]
          rfl
      | some m =>
        refine ⟨none, group.nullFamilyMtime reading, rfl, .inl ?_⟩
        rw [deletedBy, single]
        exact single.symm
    | some vk => exact .inl ⟨group.slotOf (some vk), object vk deleted, rfl⟩

theorem Sound.delete (sound : e.Sound) {locked : ObjectMeta → Bool}
    (clock : reading.micros < 2 ^ 64)
    (keeps : KeepsCurrent (e.group name)
      ((e.deleteObject name version reading locked rollsBack ending).group name)) :
    (e.deleteObject name version reading locked rollsBack ending).Sound := by
  unfold deleteObject at keeps ⊢
  cases done : KeyGroup.deleteVersion (e.group name) reading (e.bucketVersioning name) locked version with
  | error refusal =>
    simp only [done]
    exact sound
  | ok outcome =>
    obtain ⟨after, found⟩ := outcome
    simp only [done] at keeps ⊢
    rcases deleteVersion_cases clock done with ⟨slot, rfl, released⟩ | ⟨slot, mtime, rfl, released⟩
    · apply sound.transact ((sound.formed name).erase slot) ?_ keeps ?_
      · intro other m held _
        rw [KeyGroup.row_erase] at held
        split at held
        · cases held
        · exact held
      · intro rest within
        rw [heldAfter_releaseAll, released]
        exact erase_balance within
    · refine sound.store rfl (fun _ => rfl) rfl keeps ?_
      intro rest within
      rw [heldAfter_releaseAll]
      have nothing : (segmentLists (deleteMarker (rowId slot) mtime).record :
          Multiset (List Segment)) ≤ 0 := le_of_eq rfl
      have balanced := put_balance released nothing within
      rwa [zero_add] at balanced

end Transactions

section Rewrites

variable {e : RestoreEngine} {name : ObjectName} {slot : Option Vk} {m copy : ObjectMeta}
  {jobs : BTreeMap Nat RestoreJob} {pool : World}

/-- What a restore writes into a row leaves its time and its number. -/
structure Rewrites (m copy : ObjectMeta) : Prop where
  time : copy.mtime = m.mtime
  version : copy.versionId = m.versionId
  inline : copy.inline = m.inline
  extents : copy.extents = m.extents

theorem Rewrites.resolveRow (rewrites : Rewrites m copy) (held : e.row name slot = some m)
    (version : Option Vk) :
    ((e.group name).put slot copy).resolveRow version = (e.group name).resolveRow version := by
  apply KeyGroup.resolveRow_congr
  intro other
  rw [KeyGroup.row_put]
  split
  · next same =>
      have found : (e.group name).row other = some m := same ▸ held
      rw [found]
      exact congrArg some rewrites.time
  · rfl

/-- A rewritten row keeps the invariant if its restore has a job, and the jobs of other rows stay. -/
theorem Sound.rewrite (sound : e.Sound) (held : e.row name slot = some m)
    (rewrites : Rewrites m copy)
    (recent : ∀ seq job, jobs.get? seq = some job → seq ≤ e.seq + 1)
    (kept : ∀ seq job, e.jobs.get? seq = some job → jobs.get? seq = some job ∨
      jobName job = name ∧ (e.group name).resolveRow job.vk = some slot)
    (own : copy.restoreOngoing = true → ∃ seq job, jobs.get? seq = some job ∧ jobName job = name ∧
      job.vk = m.versionId ∧ (e.group name).resolveRow job.vk = some slot)
    (balance : ∀ rest, groupLists (e.group name) + rest ≤ (e.pool.held : Multiset (List Segment)) →
      groupLists ((e.group name).put slot copy) + rest ≤ (pool.held : Multiset (List Segment))) :
    (({ e with pool := pool, jobs := jobs } : RestoreEngine).commitRows name
      ((e.group name).put slot copy)).Sound := by
  have formed := sound.formed name
  have sameGroup : ∀ other, (({ e with pool := pool, jobs := jobs } : RestoreEngine).commitRows name
      ((e.group name).put slot copy)).group other =
        if other = name then (e.group name).put slot copy else e.group other :=
    fun other => group_commitRows _ name other _
  have witness : ∀ other otherSlot found, e.row other otherSlot = some found →
      found.restoreOngoing = true → ¬(other = name ∧ otherSlot = slot) →
      ∃ seq job, jobs.get? seq = some job ∧ jobName job = other ∧ job.vk = found.versionId ∧
        (e.group other).resolveRow job.vk = some otherSlot := by
    intro other otherSlot found there ongoing different
    obtain ⟨seq, job, queued, about, version, finds⟩ := sound.pinned other otherSlot found there ongoing
    refine ⟨seq, job, ?_, about, version, finds⟩
    rcases kept seq job queued with stays | ⟨here, this⟩
    · exact stays
    · have sameName : other = name := about.symm.trans here
      rw [sameName, this] at finds
      exact absurd ⟨sameName, (Option.some.inj finds).symm⟩ different
  refine ⟨?_, recent, ?_, ?_⟩
  · intro other
    rw [sameGroup]
    split
    · refine formed.put (rewrites.version.trans (formed.numbered slot m held)) ?_
      rw [rewrites.inline, rewrites.extents]
      exact formed.inlined slot m held
    · exact sound.formed other
  · intro other otherSlot found there ongoing
    rw [sameGroup] at there ⊢
    split at there
    · next here =>
        rw [if_pos here, here]
        rw [KeyGroup.row_put] at there
        by_cases same : otherSlot = slot
        · rw [if_pos same] at there
          cases there
          obtain ⟨seq, job, queued, about, version, finds⟩ := own ongoing
          refine ⟨seq, job, queued, about, version.trans rewrites.version.symm, ?_⟩
          rw [rewrites.resolveRow held, same]
          exact finds
        · rw [if_neg same] at there
          obtain ⟨seq, job, queued, about, version, finds⟩ :=
            witness name otherSlot found there ongoing fun both => same both.2
          refine ⟨seq, job, queued, about, version, ?_⟩
          rw [rewrites.resolveRow held]
          exact finds
    · next elsewhere =>
        rw [if_neg elsewhere]
        exact witness other otherSlot found there ongoing fun both => elsewhere both.1
  · obtain ⟨rest, before, commits⟩ :=
      ({ e with pool := pool, jobs := jobs } : RestoreEngine).lists_split name
    rw [commits]
    apply balance
    have total : e.lists = groupLists (e.group name) + rest := before
    rw [← total]
    exact sound.held

variable {now : Int} {job : RestoreJob} {seq : Nat}

theorem extendedMeta_ongoing {expiry : Int} (later : expiry ≠ 0) :
    (extendedMeta m expiry now).restoreOngoing = false := by
  rw [ObjectMeta.restoreOngoing, extendedMeta]
  cases m.restoreState with
  | none => rfl
  | some st => simp [later]

theorem get?_insert_recent (sound : e.Sound) (added : RestoreJob)
    (queued : e.jobs.get? seq = some job) :
    (e.jobs.insert (e.seq + 1) added).get? seq = some job := by
  have old := sound.recent seq job queued
  rw [BTreeMap.get?_insert, if_neg (by omega)]
  exact queued

theorem Sound.enqueue (sound : e.Sound) {vk : Option Vk} {days : Nat} {tier : String}
    {fault : Option Error}
    (addressed : RestoreAction.Addressed e (.enqueue name vk days tier now fault)) :
    (e.step (.enqueue name vk days tier now fault)).Sound := by
  rw [step]
  cases run : e.restoreEnqueue name vk days tier now fault with
  | error refusal => exact sound
  | ok outcome =>
    obtain ⟨answer, after⟩ := outcome
    obtain ⟨m, found, quiet, there, done⟩ := restoreEnqueue_ok run
    obtain ⟨resolves, pins⟩ := addressed m found quiet there
    obtain ⟨slot, resolved, read⟩ := KeyGroup.resolveEntry_eq_some_iff.mp (restorable_ok found).1
    obtain rfl : slot = (e.group name).slotOf vk := Option.some.inj (resolved.symm.trans resolves)
    have held : e.row name ((e.group name).slotOf vk) = some m := read
    rcases done with ⟨valid, rfl⟩ | ⟨expired, rfl⟩
    · rw [if_pos valid] at pins
      have rewrites : Rewrites m (extendedMeta m (now + days * 86400) now) := ⟨rfl, rfl, rfl, rfl⟩
      have same : segmentLists (extendedMeta m (now + days * 86400) now) = segmentLists m := by
        rw [segmentLists, segmentLists, ObjectMeta.restoredExtents, ObjectMeta.restoredExtents,
          extendedMeta]
        cases m.restoreState <;> rfl
      refine sound.rewrite held rewrites ?_ (fun seq job queued => .inl queued) ?_ ?_
      · intro seq job queued
        exact Nat.le_succ_of_le (sound.recent seq job queued)
      · intro ongoing
        rw [extendedMeta_ongoing pins] at ongoing
        cases ongoing
      · intro rest within
        exact shrink_balance held (le_of_eq (congrArg _ same)) within
    · rw [if_neg (by rw [expired]; simp)] at pins
      have rewrites : Rewrites m (pendingMeta m tier now) := ⟨rfl, rfl, rfl, rfl⟩
      change (({ e with
        pool := e.pool
        jobs := e.jobs.insert (e.seq + 1) (enqueuedJob name m days tier now) } :
          RestoreEngine).commitRows name _).Sound
      refine sound.rewrite held rewrites ?_ ?_ ?_ ?_
      · intro seq job queued
        rw [BTreeMap.get?_insert] at queued
        split at queued
        · next new => exact le_of_eq new
        · exact Nat.le_succ_of_le (sound.recent seq job queued)
      · intro seq job queued
        exact .inl (get?_insert_recent sound _ queued)
      · intro _
        refine ⟨e.seq + 1, enqueuedJob name m days tier now, ?_, rfl, rfl, ?_⟩
        · rw [BTreeMap.get?_insert, if_pos rfl]
        · exact pins.trans resolves
      · intro rest within
        have fewer : (segmentLists (pendingMeta m tier now) : Multiset (List Segment)) ≤
            segmentLists m := by
          rw [coe_segmentLists, coe_segmentLists]
          exact add_le_add (le_refl _) (Multiset.zero_le _)
        exact shrink_balance held fewer within

theorem copyOf_rewrites (e : RestoreEngine) (job : RestoreJob) (now : Int) (draw : CopyDraw)
    (m : ObjectMeta) : Rewrites m (e.copyOf job now draw m) := by
  rw [copyOf]
  split
  · exact ⟨rfl, rfl, rfl, rfl⟩
  · exact ⟨rfl, rfl, rfl, rfl⟩

theorem copyOf_ongoing (later : now + job.days * 86400 ≠ 0) (e : RestoreEngine) (draw : CopyDraw)
    (m : ObjectMeta) : (e.copyOf job now draw m).restoreOngoing = false := by
  rw [copyOf]
  split
  · simp [completedMeta, ObjectMeta.restoreOngoing, later]
  · simp [completedMeta, ObjectMeta.restoreOngoing, later]

theorem kept_erase (queued : e.jobs.get? seq = some job) (other : Nat) (found : RestoreJob)
    (there : e.jobs.get? other = some found) :
    (e.jobs.erase seq).get? other = some found ∨ found = job := by
  rw [BTreeMap.get?_erase]
  split
  · next same =>
      rw [same, queued] at there
      exact .inr (Option.some.inj there).symm
  · exact .inl there

theorem Sound.materializeOne (sound : e.Sound) {draw : CopyDraw}
    (queued : e.jobs.get? seq = some job)
    (addressed : ∀ m, (e.group (jobName job)).resolveEntry job.vk = some m → m.restoreOngoing = true →
      draw.ending = .committed → e.row (jobName job) ((e.group (jobName job)).slotOf m.versionId) ≠ none →
      (e.group (jobName job)).resolveRow job.vk = some ((e.group (jobName job)).slotOf m.versionId) ∧
        now + job.days * 86400 ≠ 0) : (e.restoreMaterializeOne seq job now draw).2.Sound := by
  rcases e.restoreMaterializeOne_cases seq job now draw with
    ⟨alloc, failed⟩ | ⟨idle, dropped⟩ | ⟨m, read, ongoing, committed, there, copied⟩
  · rw [failed]
    exact ⟨sound.formed, sound.recent, sound.pinned, sound.held⟩
  · rw [dropped]
    refine ⟨sound.formed, ?_, ?_, sound.held⟩
    · intro other found there
      rw [BTreeMap.get?_erase] at there
      split at there
      · cases there
      · exact Nat.le_succ_of_le (sound.recent other found there)
    · intro name slot m held ongoing
      obtain ⟨other, found, there, about, version, finds⟩ := sound.pinned name slot m held ongoing
      rcases kept_erase queued other found there with stays | rfl
      · exact ⟨other, found, stays, about, version, finds⟩
      · -- a job that finds a version in progress is not one about nothing
        rw [← about] at finds held
        have excess := idle m (KeyGroup.resolveEntry_eq_some_iff.mpr ⟨slot, finds, held⟩)
        rw [ongoing] at excess
        cases excess
  · rw [copied]
    obtain ⟨resolves, later⟩ := addressed m read ongoing committed there
    obtain ⟨slot, resolved, found⟩ := KeyGroup.resolveEntry_eq_some_iff.mp read
    obtain rfl : slot = (e.group (jobName job)).slotOf m.versionId :=
      Option.some.inj (resolved.symm.trans resolves)
    have held : e.row (jobName job) ((e.group (jobName job)).slotOf m.versionId) = some m := found
    refine sound.rewrite held (e.copyOf_rewrites job now draw m) ?_ ?_ ?_ ?_
    · intro other found there
      rw [BTreeMap.get?_erase] at there
      split at there
      · cases there
      · exact Nat.le_succ_of_le (sound.recent other found there)
    · intro other found there
      rcases kept_erase queued other found there with stays | rfl
      · exact .inl stays
      · exact .inr ⟨rfl, resolved⟩
    · intro again
      rw [copyOf_ongoing later] at again
      cases again
    · intro rest within
      obtain ⟨gained, holds, brings⟩ := e.heldAfter_copy e.pool.held job now draw m
      rw [← add_zero (segmentLists (e.copyOf job now draw m) : Multiset (List Segment))] at brings
      have balanced := rewrite_balance held brings within
      rw [tsub_zero, ← holds] at balanced
      exact balanced

theorem Sound.collect (sound : e.Sound) {ending : Ending} (held : e.row name slot = some m) :
    (e.restoreGcEntry now name slot m ending).2.Sound := by
  rcases e.restoreGcEntry_cases now name slot m ending with
    same | ⟨_, alloc, failed⟩ | ⟨_, _, _, cleared⟩
  · rw [same]
    exact sound
  · rw [failed]
    exact ⟨sound.formed, sound.recent, sound.pinned, sound.held⟩
  · rw [cleared]
    have rewrites : Rewrites m { m with restoreState := none } := ⟨rfl, rfl, rfl, rfl⟩
    refine sound.rewrite held rewrites ?_ (fun seq job queued => .inl queued) ?_ ?_
    · intro seq job queued
      exact Nat.le_succ_of_le (sound.recent seq job queued)
    · intro impossible
      cases impossible
    · intro rest within
      have change : (segmentLists { m with restoreState := none } : Multiset (List Segment)) +
          stored m.restoredExtents ≤ 0 + segmentLists m := by
        rw [collected_lists, zero_add]
      have balanced := rewrite_balance held change within
      rw [zero_add, ← heldAfter_collect] at balanced
      exact balanced

end Rewrites

section Steps

variable {e : RestoreEngine}

theorem Sound.step (sound : e.Sound) {action : RestoreAction} (addressed : action.Addressed e) :
    (e.step action).Sound := by
  cases action with
  | setVersioning bucket suspended => exact ⟨sound.formed, sound.recent, sound.pinned, sound.held⟩
  | put name draw => exact sound.put addressed.1 addressed.2
  | share source version name draw => exact sound.share addressed.1 addressed.2
  | delete name version reading locked rollsBack ending => exact sound.delete addressed.1 addressed.2
  | enqueue name vk days tier now fault => exact sound.enqueue addressed
  | materialize now draw =>
    rw [RestoreEngine.step]
    cases first : e.jobs.entries.head? with
    | none => exact sound
    | some entry =>
      obtain ⟨seq, job⟩ := entry
      have queued : e.jobs.get? seq = some job :=
        BTreeMap.get?_eq_some_iff.mpr (List.mem_of_mem_head? first)
      exact sound.materializeOne queued fun m => addressed seq job m first
  | collect now name slot ending =>
    rw [RestoreEngine.step]
    cases held : e.row name slot with
    | none => exact sound
    | some m => exact sound.collect held

theorem Sound.queued (sound : e.Sound) : e.Queued := by
  intro name slot m held ongoing
  obtain ⟨seq, job, queued, about, _, finds⟩ := sound.pinned name slot m held ongoing
  exact ⟨seq, job, queued, about, finds⟩

theorem heldKeys_bind (held : List (List Segment)) :
    heldKeys held = (held : Multiset (List Segment)).bind fun segs => (segs.map Segment.key : List SegKey) := by
  induction held with
  | nil => rfl
  | cons segs rest ih =>
    rw [heldKeys_cons, ih, ← Multiset.cons_coe, Multiset.cons_bind]
    rfl

theorem Sound.backed (sound : e.Sound) : e.Backed := by
  intro key
  obtain ⟨rest, whole⟩ := Multiset.le_iff_exists_add.mp sound.held
  rw [heldKeys_bind, whole, Multiset.add_bind, Multiset.count_add]
  exact Nat.le_add_right _ _

theorem changed_row (jobs : BTreeMap Nat RestoreJob) {pool : World} {name other : ObjectName}
    {slot place : Option Vk} {m : ObjectMeta}
    (changed : (({ e with pool := pool, jobs := jobs } : RestoreEngine).commitRows name
      ((e.group name).put slot m)).row other place ≠ e.row other place) :
    other = name ∧ place = slot := by
  by_contra apart
  apply changed
  rw [row, group_commitRows]
  by_cases same : other = name
  · have elsewhere : place ≠ slot := fun equal => apart ⟨same, equal⟩
    rw [if_pos same, KeyGroup.row_put, if_neg elsewhere, same]
    rfl
  · rw [if_neg same]
    rfl

theorem confined_of_addressed {action : RestoreAction} (addressed : action.Addressed e) :
    action.Confined e := by
  intro restores name slot changed
  cases action with
  | setVersioning bucket suspended => cases restores
  | put name draw => cases restores
  | share source version name draw => cases restores
  | delete name version reading locked rollsBack ending => cases restores
  | collect now name slot ending => cases restores
  | enqueue about vk days tier now fault =>
    rw [RestoreEngine.step] at changed
    cases run : e.restoreEnqueue about vk days tier now fault with
    | error refusal =>
      rw [run] at changed
      exact absurd rfl changed
    | ok outcome =>
      obtain ⟨answer, after⟩ := outcome
      rw [run] at changed
      obtain ⟨m, found, quiet, there, done⟩ := restoreEnqueue_ok run
      have resolves := (addressed m found quiet there).1
      have same : name = about ∧ slot = (e.group about).slotOf vk := by
        rcases done with ⟨_, rfl⟩ | ⟨_, rfl⟩
        · exact changed_row _ changed
        · exact changed_row _ changed
      obtain ⟨rfl, rfl⟩ := same
      exact ⟨by rw [RestoreAction.resolved, resolves]; rfl, there⟩
  | materialize now draw =>
    rw [RestoreEngine.step] at changed
    cases first : e.jobs.entries.head? with
    | none =>
      rw [first] at changed
      exact absurd rfl changed
    | some entry =>
      obtain ⟨seq, job⟩ := entry
      simp only [first] at changed
      rcases e.restoreMaterializeOne_cases seq job now draw with
        ⟨alloc, failed⟩ | ⟨_, dropped⟩ | ⟨m, read, ongoing, committed, there, copied⟩
      · rw [failed] at changed
        exact absurd rfl changed
      · rw [dropped] at changed
        exact absurd rfl changed
      · rw [copied] at changed
        obtain ⟨rfl, rfl⟩ := changed_row _ changed
        have resolves := (addressed seq job m first read ongoing committed there).1
        refine ⟨?_, there⟩
        rw [RestoreAction.resolved, first, Option.bind_some, resolves]
        rfl

end Steps

def blank (alloc : Allocator) (smallObjectLimit : Nat) : RestoreEngine where
  versioning := fun _ => .off
  objects := .empty
  jobs := .empty
  seq := 0
  pool := ⟨alloc, []⟩
  smallObjectLimit := smallObjectLimit

theorem blank_sound (alloc : Allocator) (smallObjectLimit : Nat) :
    (blank alloc smallObjectLimit).Sound := by
  have nothing : ∀ name slot, (blank alloc smallObjectLimit).row name slot = none := by
    intro name slot
    cases slot with
    | none => rfl
    | some vk => rfl
  refine ⟨?_, ?_, ?_, ?_⟩
  · intro name
    constructor
    · intro slot m held
      exact absurd ((nothing name slot).symm.trans held) (by simp)
    · intro slot m held
      exact absurd ((nothing name slot).symm.trans held) (by simp)
  · intro seq job queued
    cases queued
  · intro name slot m held
    exact absurd ((nothing name slot).symm.trans held) (by simp)
  · exact Multiset.zero_le _

def shelf : RestoreEngine :=
  blank (Allocator.new 4) 0

def shelved : ObjectName :=
  toLex ("bucket", "key")

def putSegment (className : String) (offset micros : Nat) : RestoreAction :=
  .put shelved
    { record := ⟨4096, 0, [], none, [], none, false, none, none, some className, none⟩
      writes := [.allocateInRange 0 0 1, .noteInflightSegment ⟨0, offset, 4096, []⟩]
      reading := ⟨micros, (micros / 1000000 : Nat), List.replicate 8 0⟩
      explicitMtime := none
      rollsBack := true
      ending := .committed }

def request : RestoreAction :=
  .enqueue shelved none 1 "Standard" 3 none

def copySegment : RestoreAction :=
  .materialize 4 ⟨[], [.allocateInRange 0 1 1, .noteInflightSegment ⟨1, 8192, 4096, []⟩], .committed⟩

def archived : RestoreEngine :=
  shelf.step (putSegment "GLACIER" 8192 1000000)

def requested : RestoreEngine :=
  archived.step request

/-- An object from before the versions of its bucket, and an archived version of it. -/
def versioned : RestoreEngine :=
  ((shelf.step (putSegment "STANDARD" 8192 1000000)).step (.setVersioning "bucket" false)).step
    (putSegment "GLACIER" 16384 2000000)

end RestoreEngine

end FastS3.Engine
