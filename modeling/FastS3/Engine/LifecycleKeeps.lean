import FastS3.Engine.LifecycleCycle

namespace FastS3.Engine

open Data
open FastS3.Core (ClockReading KeyGroup VersioningState Vk lastMicros vkNull vkTimeUs)
open Meta (LifecycleRule ObjectMeta)

/-! What a cycle of the lifecycle worker removes.

A group is evaluated once and its actions are done one after the other.  Between the evaluation and an
action the rows of the key change only by the actions before it.
-/

def identity (m : ObjectMeta) : ObjectMeta :=
  { m with extents := [], inline := none, compressed := none, storageClass := none, restoreState := none }

section Rows

variable {α : Type} {group : KeyGroup α} {slot other : Option Vk} {m : α}

theorem row_none : group.row none = group.single := rfl

theorem row_some (vk : Vk) : group.row (some vk) = group.versions.get? vk := rfl

theorem row_vkNull : group.row (some vkNull) = group.nullSlot := rfl

theorem filter_real {vk : Vk} (real : vk ≠ vkNull) : (some vk).filter (· ≠ vkNull) = some vk := by
  rw [Option.filter_some, if_pos (decide_eq_true real)]

theorem filter_vkNull : (some vkNull).filter (· ≠ vkNull) = none := by
  rw [Option.filter_some, if_neg (by simp)]

end Rows

/-- The records of a key name their rows; of the null family at most one has content; and without
versions only delete markers have version keys. -/
structure Placed (group : KeyGroup ObjectMeta) (versioning : VersioningState) : Prop where
  named : ∀ slot m, group.row slot = some m → m.versionId = slot.filter (· ≠ vkNull)
  sized : ∀ vk m, group.row (some vk) = some m → vk.length = 16
  apart : group.row none ≠ none → ∀ m, group.row (some vkNull) = some m → m.isDeleteMarker = true
  plain : versioning = .off → ∀ vk m, group.row (some vk) = some m → m.isDeleteMarker = true

section Placed

variable {group : KeyGroup ObjectMeta} {versioning : VersioningState} {slot : Option Vk} {m : ObjectMeta}

theorem Placed.empty (versioning : VersioningState) : Placed .empty versioning where
  named slot m held := by
    cases slot with
    | none => cases held
    | some vk => cases held
  sized vk m held := by cases held
  apart there := absurd rfl there
  plain _ vk m held := by cases held

theorem Placed.put (placed : Placed group versioning) (named : m.versionId = slot.filter (· ≠ vkNull))
    (sized : ∀ vk, slot = some vk → vk.length = 16)
    (beside : slot = none → ∀ n, group.row (some vkNull) = some n → n.isDeleteMarker = true)
    (behind : slot = some vkNull → group.row none ≠ none → m.isDeleteMarker = true)
    (plain : versioning = .off → slot ≠ none → m.isDeleteMarker = true) :
    Placed (group.put slot m) versioning where
  named other n held := by
    rw [KeyGroup.row_put] at held
    split at held
    · next same =>
        cases held
        rw [same]
        exact named
    · exact placed.named other n held
  sized vk n held := by
    rw [KeyGroup.row_put] at held
    split at held
    · next same => exact sized vk same.symm
    · exact placed.sized vk n held
  apart there n held := by
    rw [KeyGroup.row_put] at held there
    split at held
    · next same =>
        cases held
        rw [if_neg (by rw [← same]; nofun)] at there
        exact behind same.symm there
    · split at there
      · next same => exact beside same.symm n held
      · exact placed.apart there n held
  plain off vk n held := by
    rw [KeyGroup.row_put] at held
    split at held
    · next same =>
        cases held
        exact plain off (by rw [← same]; nofun)
    · exact placed.plain off vk n held

theorem Placed.erase (placed : Placed group versioning) : Placed (group.erase slot) versioning where
  named other n held := by
    rw [KeyGroup.row_erase] at held
    split at held
    · cases held
    · exact placed.named other n held
  sized vk n held := by
    rw [KeyGroup.row_erase] at held
    split at held
    · cases held
    · exact placed.sized vk n held
  apart there n held := by
    rw [KeyGroup.row_erase] at held there
    split at held
    · cases held
    · split at there
      · exact absurd rfl there
      · exact placed.apart there n held
  plain off vk n held := by
    rw [KeyGroup.row_erase] at held
    split at held
    · cases held
    · exact placed.plain off vk n held

theorem Placed.replace (placed : Placed group versioning) {old : ObjectMeta}
    (held : group.row slot = some old) (named : m.versionId = old.versionId)
    (marker : m.isDeleteMarker = old.isDeleteMarker) : Placed (group.put slot m) versioning := by
  refine placed.put (named.trans (placed.named slot old held)) ?_ ?_ ?_ ?_
  · intro vk there
    rw [there] at held
    exact placed.sized vk old held
  · intro there n beside
    rw [there] at held
    exact placed.apart (by rw [held]; nofun) n beside
  · intro there single
    rw [there] at held
    rw [marker]
    exact placed.apart single old held
  · intro off there
    rw [marker]
    cases slot with
    | none => exact absurd rfl there
    | some vk => exact placed.plain off vk old held

theorem Placed.rewrite (placed : Placed group versioning) {old : ObjectMeta}
    (held : group.row slot = some old) (same : identity m = identity old) :
    Placed (group.put slot m) versioning := by
  have named : (identity m).versionId = (identity old).versionId := by rw [same]
  have marker : (identity m).isDeleteMarker = (identity old).isDeleteMarker := by rw [same]
  exact placed.replace held named marker

theorem Placed.versioned (placed : Placed group versioning) {other : VersioningState}
    (kept : other ≠ .off) : Placed group other where
  named := placed.named
  sized := placed.sized
  apart := placed.apart
  plain off := absurd off kept

theorem Placed.fresh (placed : Placed group versioning) (reading : ClockReading) {n : ObjectMeta}
    (held : group.row (some (group.nextVk reading.toReading)) = some n) :
    vkTimeUs (group.nextVk reading.toReading) = lastMicros := by
  have sized : ∀ vk m, group.versions.get? vk = some m → vk.length = 16 := placed.sized
  have real := KeyGroup.nextVk_ne_vkNull group reading.inClock
  cases last : group.maxReal with
  | none => exact absurd (KeyGroup.maxReal_eq_none_iff.mp last _ n held) real
  | some entry =>
    obtain ⟨vk, top⟩ := entry
    obtain ⟨there, _, greatest⟩ := KeyGroup.maxReal_eq_some_iff.mp last
    have atMost := Core.vkTimeUs_le_of_le (sized _ n held) (sized vk top there) (greatest _ n held real)
    obtain ⟨p, prev, behind⟩ := KeyGroup.prevTs_real last
    have after := (KeyGroup.nextVk_spec group reading).2.2 p prev
    have bound := Core.vkTimeUs_lt (group.nextVk reading.toReading)
    rw [lastMicros] at after ⊢
    omega

end Placed

section Deletion

variable {group after : KeyGroup ObjectMeta} {versioning : VersioningState} {reading : ClockReading}
  {locked : ObjectMeta → Bool} {version : Option Vk} {gone : Option ObjectMeta}

/-- What a deletion does to the rows of a key: nothing, or it erases the version it names, or it puts a
delete marker. -/
inductive Deleted (group : KeyGroup ObjectMeta) (versioning : VersioningState) (reading : ClockReading)
    (locked : ObjectMeta → Bool) (version : Option Vk) : KeyGroup ObjectMeta → Prop where
  | unchanged : Deleted group versioning reading locked version group
  | plain {m : ObjectMeta} (unversioned : versioning = .off) (current : version = none)
      (held : group.row none = some m) (free : locked m = false) :
      Deleted group versioning reading locked version (group.erase none)
  | named {vk : Vk} {m : ObjectMeta} (asked : version = some vk)
      (held : group.row (group.slotOf (some vk)) = some m) (free : locked m = false) :
      Deleted group versioning reading locked version (group.erase (group.slotOf (some vk)))
  | suspended (state : versioning = .suspended) (current : version = none) :
      Deleted group versioning reading locked version
        (group.put group.nullTarget (deleteMarkerMeta none (group.nullFamilyMtime reading.toReading)))
  | enabled (state : versioning = .enabled) (current : version = none) :
      Deleted group versioning reading locked version
        (group.put (some (group.nextVk reading.toReading))
          (deleteMarkerMeta (some (group.nextVk reading.toReading)) reading.seconds))

theorem deletePlain_ok (deleted : KeyGroup.deletePlain group locked = .ok (after, gone)) :
    after = group ∨ ∃ m, group.row none = some m ∧ locked m = false ∧ after = group.erase none := by
  rw [KeyGroup.deletePlain] at deleted
  split at deleted
  · cases deleted
    exact .inl rfl
  · next m held =>
      split at deleted
      · cases deleted
      · next free =>
          cases deleted
          exact .inr ⟨m, held, Bool.eq_false_iff.mpr free, rfl⟩

theorem deleteVersion_ok
    (deleted : KeyGroup.deleteVersion group reading.toReading versioning locked version =
      .ok (after, gone)) : Deleted group versioning reading locked version after := by
  cases version with
  | none =>
    cases versioning with
    | off =>
      obtain rfl | ⟨m, held, free, rfl⟩ := deletePlain_ok deleted
      · exact .unchanged
      · exact .plain rfl rfl held free
    | enabled =>
      cases deleted
      exact .enabled rfl rfl
    | suspended =>
      cases deleted
      exact .suspended rfl rfl
  | some vk =>
    have single : ∀ m, group.row none = some m → vk = vkNull → group.slotOf (some vk) = none := by
      intro m held null
      rw [row_none] at held
      rw [KeyGroup.slotOf, if_pos ⟨null, by rw [held]; rfl⟩]
    have byRow : vk = vkNull → KeyGroup.deletePlain group locked = .ok (after, gone) →
        Deleted group versioning reading locked (some vk) after := by
      intro null done
      obtain rfl | ⟨m, held, free, rfl⟩ := deletePlain_ok done
      · exact .unchanged
      · have slot := single m held null
        have named : Deleted group versioning reading locked (some vk)
            (group.erase (group.slotOf (some vk))) := .named rfl (by rw [slot]; exact held) free
        rw [slot] at named
        exact named
    have byVersion : KeyGroup.deleteObjectVersion group locked vk = .ok (after, gone) →
        Deleted group versioning reading locked (some vk) after := by
      intro done
      rw [KeyGroup.deleteObjectVersion] at done
      split at done
      · next both => exact byRow both.1 done
      · next apart =>
          have slot : group.slotOf (some vk) = some vk := if_neg apart
          split at done
          · cases done
            exact .unchanged
          · next m held =>
              split at done
              · cases done
              · next free =>
                  cases done
                  have named : Deleted group versioning reading locked (some vk)
                      (group.erase (group.slotOf (some vk))) :=
                    .named rfl (by rw [slot]; exact held) (Bool.eq_false_iff.mpr free)
                  rw [slot] at named
                  exact named
    cases versioning with
    | off =>
      simp only [KeyGroup.deleteVersion] at deleted
      split at deleted
      · next null => exact byRow null deleted
      · cases deleted
    | enabled => exact byVersion deleted
    | suspended => exact byVersion deleted

theorem Deleted.placed {state : VersioningState} (placed : Placed group state)
    (deleted : Deleted group versioning reading locked version after) : Placed after state := by
  cases deleted with
  | unchanged => exact placed
  | plain => exact placed.erase
  | named => exact placed.erase
  | suspended =>
    refine placed.put ?_ ?_ ?_ (fun _ _ => rfl) (fun _ _ => rfl)
    · rw [Core.KeyGroup.nullTarget]
      split
      · rfl
      · exact filter_vkNull.symm
    · intro vk same
      rw [Core.KeyGroup.nullTarget] at same
      split at same
      · cases same
      · cases same
        rfl
    · intro same
      refine placed.apart ?_
      rw [Core.KeyGroup.nullTarget] at same
      split at same
      · next single =>
          rw [row_none]
          exact Option.isSome_iff_ne_none.mp single
      · cases same
  | enabled =>
    have real := KeyGroup.nextVk_ne_vkNull group reading.inClock
    refine placed.put ?_ ?_ (by rintro ⟨⟩) (fun _ _ => rfl) (fun _ _ => rfl)
    · exact (filter_real real).symm
    · intro vk same
      cases same
      exact (KeyGroup.nextVk_spec group reading).1

end Deletion

section Transition

variable {group after : KeyGroup ObjectMeta} {versioning : VersioningState}

theorem Placed.slot_of_content (placed : Placed group versioning) {slot : Option Vk} {m n : ObjectMeta}
    (held : group.row slot = some m) (content : m.isDeleteMarker = false)
    (there : group.row (group.slotOf m.versionId) = some n) : group.slotOf m.versionId = slot := by
  rw [placed.named slot m held] at there ⊢
  cases slot with
  | none => rfl
  | some vk =>
    by_cases null : vk = vkNull
    · rw [null] at held
      rw [null, filter_vkNull] at there
      have marker := placed.apart (by
        intro absent
        rw [KeyGroup.slotOf, absent] at there
        cases there) m held
      rw [content] at marker
      cases marker
    · rw [filter_real null, KeyGroup.slotOf, if_neg (fun both => null both.1)]

theorem endedTransition_rows (placed : Placed group versioning) (draw : ActionDraw)
    (version : Option Vk) (storageClass : String) (now : Int) :
    (endedTransition group draw version storageClass now).1 = group ∨
      ∃ slot m, group.row slot = some m ∧
        (endedTransition group draw version storageClass now).1 =
          group.put slot (archived m storageClass draw) := by
  rw [endedTransition]
  cases found : group.resolveEntry version with
  | none => exact .inl rfl
  | some m =>
    obtain ⟨slot, _, held⟩ := KeyGroup.resolveEntry_eq_some_iff.mp found
    dsimp only
    split
    · exact .inl rfl
    · next content =>
        split
        · exact .inl rfl
        · split
          · exact .inl rfl
          · cases there : group.row (group.slotOf m.versionId) with
            | none =>
              cases draw.ending with
              | failed => exact .inl rfl
              | done => exact .inl rfl
              | unfinished => exact .inl rfl
            | some n =>
              have slot' := placed.slot_of_content held (Bool.eq_false_iff.mpr content) there
              rw [slot']
              cases draw.ending with
              | failed => exact .inl rfl
              | done => exact .inr ⟨slot, m, held, rfl⟩
              | unfinished => exact .inr ⟨slot, m, held, rfl⟩

end Transition

def Expiring (actions : List GroupAction) : Prop :=
  ∃ ga ∈ actions, ga.action = .deleteCurrent ∨ ga.action = .insertDeleteMarker

def Removing (actions : List GroupAction) (vk : Vk) : Prop :=
  ∃ ga ∈ actions, ga.targetVk = vk ∧
    (ga.action = .expireDeleteMarker ∨ ∃ named, ga.action = .deleteNoncurrentVersion named)

inductive Due (group : KeyGroup ObjectMeta) (versioning : VersioningState)
    (actions : List GroupAction) : Option Vk → Prop where
  | current (unversioned : versioning = .off) (expiring : Expiring actions) :
      Due group versioning actions none
  | named {vk : Vk} (removing : Removing actions vk) :
      Due group versioning actions (group.slotOf (some vk))
  | replaced (state : versioning = .suspended) (expiring : Expiring actions) :
      Due group versioning actions group.nullTarget
  /-- A marker may take the key of a version of the last microsecond. -/
  | last {vk : Vk} (end_of_time : vkTimeUs vk = lastMicros) : Due group versioning actions (some vk)

/-- What has become of the rows of a group while its actions are done. -/
structure Progress (group : KeyGroup ObjectMeta) (versioning : VersioningState)
    (actions : List GroupAction) (now : KeyGroup ObjectMeta) : Prop where
  placed : Placed now versioning
  single : now.row none ≠ none → group.row none ≠ none
  family : versioning ≠ .off → group.row none ≠ none → group.row (some vkNull) ≠ none →
    now.row none ≠ none
  rows : ∀ slot m, group.row slot = some m →
    (∃ m', now.row slot = some m' ∧ identity m' = identity m) ∨ Due group versioning actions slot
  marked : ∀ slot m', now.row slot = some m' →
    (∃ m, group.row slot = some m ∧ identity m' = identity m) ∨
      (m'.isDeleteMarker = true ∧ versioning ≠ .off ∧ Expiring actions)

section Actions

variable {group now after : KeyGroup ObjectMeta} {versioning : VersioningState}
  {actions : List GroupAction} {slot : Option Vk}

theorem Progress.start (placed : Placed group versioning) : Progress group versioning actions group where
  placed := placed
  single := id
  family _ single _ := single
  rows _ m held := .inl ⟨m, held, rfl⟩
  marked _ m held := .inl ⟨m, held, rfl⟩

theorem Progress.erase (progress : Progress group versioning actions now)
    (due : ∀ m, group.row slot = some m → Due group versioning actions slot)
    (family : versioning ≠ .off → slot = none → group.row (some vkNull) = none) :
    Progress group versioning actions (now.erase slot) where
  placed := progress.placed.erase
  single there := by
    rw [KeyGroup.row_erase] at there
    split at there
    · exact absurd rfl there
    · exact progress.single there
  family versioned single null := by
    rw [KeyGroup.row_erase]
    split
    · next same => exact absurd (family versioned same.symm) null
    · exact progress.family versioned single null
  rows other m held := by
    rw [KeyGroup.row_erase]
    split
    · next same =>
        rw [same] at held ⊢
        exact .inr (due m held)
    · exact progress.rows other m held
  marked other m held := by
    rw [KeyGroup.row_erase] at held
    split at held
    · cases held
    · exact progress.marked other m held

theorem Progress.mark (progress : Progress group versioning actions now) {marker : ObjectMeta}
    (placed : Placed (now.put slot marker) versioning) (mark : marker.isDeleteMarker = true)
    (versioned : versioning ≠ .off) (expiring : Expiring actions)
    (single : slot = none → now.row none ≠ none)
    (due : ∀ m, group.row slot = some m →
      Due group versioning actions slot ∨ now.row slot = none) :
    Progress group versioning actions (now.put slot marker) where
  placed := placed
  single there := by
    rw [KeyGroup.row_put] at there
    split at there
    · next same => exact progress.single (single same.symm)
    · exact progress.single there
  family versioned single null := by
    rw [KeyGroup.row_put]
    split
    · nofun
    · exact progress.family versioned single null
  rows other m held := by
    rw [KeyGroup.row_put]
    split
    · next same =>
        rw [same] at held ⊢
        obtain here | absent := due m held
        · exact .inr here
        · obtain ⟨m', there, _⟩ | gone := progress.rows slot m held
          · rw [absent] at there
            cases there
          · exact .inr gone
    · exact progress.rows other m held
  marked other m held := by
    rw [KeyGroup.row_put] at held
    split at held
    · cases held
      exact .inr ⟨mark, versioned, expiring⟩
    · exact progress.marked other m held

theorem Progress.rewrite (progress : Progress group versioning actions now) {old moved : ObjectMeta}
    (held : now.row slot = some old) (same : identity moved = identity old) :
    Progress group versioning actions (now.put slot moved) where
  placed := progress.placed.rewrite held same
  single there := by
    rw [KeyGroup.row_put] at there
    split at there
    · next here =>
        refine progress.single ?_
        rw [here, held]
        nofun
    · exact progress.single there
  family versioned single null := by
    rw [KeyGroup.row_put]
    split
    · nofun
    · exact progress.family versioned single null
  rows other m there := by
    rw [KeyGroup.row_put]
    split
    · next here =>
        rw [here] at there ⊢
        obtain ⟨m', found, equal⟩ | due := progress.rows slot m there
        · rw [held] at found
          cases found
          exact .inl ⟨moved, rfl, same.trans equal⟩
        · exact .inr due
    · exact progress.rows other m there
  marked other m there := by
    rw [KeyGroup.row_put] at there
    split at there
    · next here =>
        cases there
        rw [here]
        obtain ⟨first, found, equal⟩ | ⟨mark, rest⟩ := progress.marked slot old held
        · exact .inl ⟨first, found, same.trans equal⟩
        · have mark : (identity old).isDeleteMarker = true := mark
          rw [← same] at mark
          exact .inr ⟨mark, rest⟩
    · exact progress.marked other m there

theorem slotOf_single (single : now.row none ≠ none) : now.slotOf (some vkNull) = none :=
  if_pos ⟨rfl, Option.isSome_iff_ne_none.mpr single⟩

theorem slotOf_alone (absent : now.row none = none) (vk : Vk) : now.slotOf (some vk) = some vk := by
  refine if_neg ?_
  intro both
  have single : now.single.isSome = true := both.2
  rw [← row_none, absent] at single
  cases single

theorem nullTarget_single (single : now.row none ≠ none) : now.nullTarget = none :=
  if_pos (Option.isSome_iff_ne_none.mpr single)

theorem nullTarget_alone (absent : now.row none = none) : now.nullTarget = some vkNull := by
  refine if_neg ?_
  intro there
  rw [← row_none, absent] at there
  cases there

theorem Progress.deleted (progress : Progress group versioning actions now)
    {reading : ClockReading} {locked : ObjectMeta → Bool} {version : Option Vk}
    (deleted : Deleted now versioning reading locked version after)
    (expiring : version = none → Expiring actions)
    (removing : ∀ vk, version = some vk → Removing actions vk)
    (unique : Removing actions vkNull → group.row none = none ∨ group.row (some vkNull) = none) :
    Progress group versioning actions after := by
  have placed := deleted.placed progress.placed
  cases deleted with
  | unchanged => exact progress
  | plain unversioned current held free =>
    refine progress.erase ?_ fun versioned => absurd unversioned versioned
    intro m held
    exact .current unversioned (expiring current)
  | @named vk m asked held free =>
    have removing := removing vk asked
    by_cases null : vk = vkNull
    · subst null
      by_cases single : now.row none = none
      · rw [slotOf_alone single]
        refine progress.erase ?_ nofun
        intro m held
        have absent : group.row none = none := by
          obtain absent | absent := unique removing
          · exact absent
          · rw [held] at absent
            cases absent
        have due : Due group versioning actions (group.slotOf (some vkNull)) := .named removing
        rw [slotOf_alone absent] at due
        exact due
      · rw [slotOf_single single]
        have there := progress.single single
        refine progress.erase ?_ ?_
        · intro m held
          have due : Due group versioning actions (group.slotOf (some vkNull)) := .named removing
          rw [slotOf_single there] at due
          exact due
        · intro _ _
          exact (unique removing).resolve_left there
    · have real (rows : KeyGroup ObjectMeta) : rows.slotOf (some vk) = some vk :=
        if_neg fun both => null both.1
      have due : Due group versioning actions (group.slotOf (some vk)) := .named removing
      rw [real] at due ⊢
      exact progress.erase (fun _ _ => due) nofun
  | suspended state current =>
    have versioned : versioning ≠ .off := by
      rw [state]
      nofun
    have replaced : Due group versioning actions group.nullTarget :=
      .replaced state (expiring current)
    by_cases single : now.row none = none
    · rw [nullTarget_alone single] at placed ⊢
      refine progress.mark placed rfl versioned (expiring current) nofun ?_
      intro m held
      by_cases absent : group.row none = none
      · rw [nullTarget_alone absent] at replaced
        exact .inl replaced
      · exact absurd single (progress.family versioned absent (by rw [held]; nofun))
    · rw [nullTarget_single single] at placed ⊢
      rw [nullTarget_single (progress.single single)] at replaced
      exact progress.mark placed rfl versioned (expiring current) (fun _ => single)
        fun _ _ => .inl replaced
  | enabled state current =>
    refine progress.mark placed rfl (by rw [state]; nofun) (expiring current) nofun ?_
    intro m held
    cases there : now.row (some (now.nextVk reading.toReading)) with
    | none => exact .inr rfl
    | some n => exact .inl (.last (progress.placed.fresh reading there))

theorem endedDelete_rows (group : KeyGroup ObjectMeta) (versioning : VersioningState)
    (draw : ActionDraw) (version : Option Vk) :
    Deleted group versioning draw.reading (deniedIfLocked draw.lockNowAgain false false) version
      (endedDelete group versioning draw version).1 := by
  rw [endedDelete]
  cases draw.ending with
  | failed => exact .unchanged
  | done =>
    dsimp only
    split
    · exact .unchanged
    · next deleted => exact deleteVersion_ok deleted
  | unfinished =>
    dsimp only
    split
    · exact .unchanged
    · next deleted => exact deleteVersion_ok deleted

theorem Progress.perform (progress : Progress group versioning actions now) {ga : GroupAction}
    (member : ga ∈ actions) (time : Int) (draw : ActionDraw)
    (unique : Removing actions vkNull → group.row none = none ∨ group.row (some vkNull) = none) :
    Progress group versioning actions (performAction now versioning time draw ga).1 := by
  have expired : (ga.action = .deleteCurrent ∨ ga.action = .insertDeleteMarker) →
      Progress group versioning actions (endedDelete now versioning draw none).1 := by
    intro asked
    exact progress.deleted (endedDelete_rows now versioning draw none)
      (fun _ => ⟨ga, member, asked⟩) nofun unique
  have removed : (ga.action = .expireDeleteMarker ∨
      ∃ named, ga.action = .deleteNoncurrentVersion named) →
        Progress group versioning actions (endedDelete now versioning draw (some ga.targetVk)).1 := by
    intro asked
    refine progress.deleted (endedDelete_rows now versioning draw (some ga.targetVk)) nofun ?_ unique
    intro vk same
    cases same
    exact ⟨ga, member, rfl, asked⟩
  rw [performAction]
  cases asked : ga.action with
  | deleteCurrent => exact expired (.inl asked)
  | insertDeleteMarker => exact expired (.inr asked)
  | deleteNoncurrentVersion named => exact removed (.inr ⟨named, asked⟩)
  | expireDeleteMarker => exact removed (.inl asked)
  | transition storageClass =>
    obtain same | ⟨slot, m, held, moved⟩ := endedTransition_rows progress.placed draw
      (if ga.targetVk = vkNull then none else some ga.targetVk) storageClass time
    · rw [same]
      exact progress
    · rw [moved]
      exact progress.rewrite held rfl

theorem Progress.applied (fresh : List GroupEntry) (time : Int) (later : List GroupAction)
    (draws : Nat → ActionDraw) (progress : Progress group versioning actions now)
    (members : ∀ ga ∈ later, ga ∈ actions)
    (unique : Removing actions vkNull → group.row none = none ∨ group.row (some vkNull) = none) :
    Progress group versioning actions (applyActions fresh versioning time later draws now).1 := by
  induction later generalizing draws now with
  | nil => exact progress
  | cons ga rest ih =>
    have others : ∀ other ∈ rest, other ∈ actions := by
      intro other member
      exact members other (List.mem_cons_of_mem _ member)
    have performed := progress.perform (members ga List.mem_cons_self) time (draws 0) unique
    rw [applyActions]
    split
    · exact ih _ progress others
    · split
      · exact ih _ progress others
      · split
        · next done =>
            rw [done] at performed
            exact ih _ performed others
        · next failed =>
            rw [failed] at performed
            exact performed

end Actions

def Expired (key : String) (current : GroupEntry) (rules : List LifecycleRule) (now : Int) : Prop :=
  ∃ rule ∈ rules, rule.status = .enabled ∧ filterMatches rule.filter key current.2.tags = true ∧
    ∃ exp, rule.expiration = some exp ∧ current.2.isDeleteMarker = false ∧
      dueBy current.2.mtime now exp.days exp.date = true

def MarkerExpired (key : String) (marker : GroupEntry) (rules : List LifecycleRule) : Prop :=
  marker.2.isDeleteMarker = true ∧ ∃ rule ∈ rules, rule.status = .enabled ∧
    filterMatches rule.filter key marker.2.tags = true ∧
      ∃ exp, rule.expiration = some exp ∧ exp.expiredObjectDeleteMarker = true

/-- The versions of a key that rules give up, under a versioning state. -/
inductive Removable (group : KeyGroup ObjectMeta) (key : String) (versioning : VersioningState)
    (rules : List LifecycleRule) (now : Int) : GroupEntry → Prop where
  | expired {entry : GroupEntry} (unversioned : versioning = .off)
      (current : currentOf (groupEntries group) = some entry) (expired : Expired key entry rules now) :
      Removable group key versioning rules now entry
  /-- The marker of a suspended bucket takes the place of the null version. -/
  | replaced {entry current : GroupEntry} (state : versioning = .suspended)
      (found : currentOf (groupEntries group) = some current) (expired : Expired key current rules now)
      (null : entry.1 = group.nullTarget) : Removable group key versioning rules now entry
  | released {entry current : GroupEntry} {rule : LifecycleRule}
      (found : currentOf (groupEntries group) = some current) (noncurrent : entry ≠ current)
      (member : rule ∈ rules) (enabled : rule.status = .enabled)
      (applies : filterMatches rule.filter key entry.2.tags = true)
      (released : Released (groupEntries group) current entry rule now) :
      Removable group key versioning rules now entry
  | alone {entry : GroupEntry} (only : groupEntries group = [entry])
      (expired : MarkerExpired key entry rules) : Removable group key versioning rules now entry
  | last {entry : GroupEntry} {vk : Vk} (named : entry.1 = some vk)
      (end_of_time : vkTimeUs vk = lastMicros) : Removable group key versioning rules now entry

/-- Every version is still there or was given up by the rules, and every new row is the marker of an
expired version. -/
structure Justified (group after : KeyGroup ObjectMeta) (key : String) (versioning : VersioningState)
    (rules : List LifecycleRule) (now : Int) : Prop where
  removed : ∀ slot m, group.row slot = some m →
    (∃ m', after.row slot = some m' ∧ identity m' = identity m) ∨
      Removable group key versioning rules now (slot, m)
  marked : ∀ slot m', after.row slot = some m' →
    (∃ m, group.row slot = some m ∧ identity m' = identity m) ∨
      (m'.isDeleteMarker = true ∧ versioning ≠ .off ∧
        ∃ current, currentOf (groupEntries group) = some current ∧ Expired key current rules now)

section Asked

variable {group : KeyGroup ObjectMeta} {key : String} {versioning : VersioningState}
  {rules : List LifecycleRule} {now : Int} {slot : Option Vk} {m : ObjectMeta}

theorem mem_groupEntries : (slot, m) ∈ groupEntries group ↔ group.row slot = some m := by
  rw [groupEntries, List.mem_append, List.mem_map, List.mem_map]
  cases slot with
  | none =>
    rw [row_none]
    constructor
    · rintro (⟨found, inside, same⟩ | ⟨entry, _, same⟩)
      · cases same
        exact Option.mem_toList.mp inside
      · cases same
    · intro held
      exact .inl ⟨m, Option.mem_toList.mpr held, rfl⟩
  | some vk =>
    rw [row_some, BTreeMap.get?_eq_some_iff]
    constructor
    · rintro (⟨found, _, same⟩ | ⟨entry, inside, same⟩)
      · cases same
      · cases same
        exact inside
    · intro inside
      exact .inr ⟨(vk, m), inside, rfl⟩

theorem groupEntries_distinct (group : KeyGroup ObjectMeta) : Distinct (groupEntries group) := by
  rw [Distinct, groupEntries, List.map_append, List.map_map, List.map_map]
  refine List.Nodup.append ?_ ?_ ?_
  · cases group.single with
    | none => exact List.nodup_nil
    | some m => exact List.nodup_singleton _
  · have keys : (group.versions.entries.map Prod.fst).Nodup :=
      List.pairwise_map.mpr (group.versions.sorted.imp fun less => less.ne)
    have named := keys.map (Option.some_injective Vk)
    rw [List.map_map] at named
    exact named
  · intro place here there
    obtain ⟨_, _, same⟩ := List.mem_map.mp here
    obtain ⟨_, _, other⟩ := List.mem_map.mp there
    rw [← other] at same
    cases same

variable {entries : List GroupEntry}

theorem expiring_eval (expiring : Expiring (evalKeyGroup key entries versioning rules now)) :
    ∃ current, currentOf entries = some current ∧ Expired key current rules now := by
  obtain ⟨ga, asked, kind⟩ := expiring
  obtain ⟨current, found, entry, inside, wanted⟩ := mem_evalKeyGroup.mp asked
  obtain ⟨rule, member, inner, applies, due, kept, rfl⟩ := mem_entryActions.mp wanted
  rw [LifecycleRule.applies, Bool.and_eq_true, decide_eq_true_eq] at applies
  have kind : inner = .deleteCurrent ∨ inner = .insertDeleteMarker := by
    cases inner <;> simp [groupAction] at kind ⊢
  rw [ruleActions] at due
  split at due
  · next here =>
      have same : entry = current := of_decide_eq_true here
      subst same
      refine ⟨entry, found, rule, member, applies.1, applies.2, ?_⟩
      rw [currentActions, List.mem_append] at due
      obtain moved | expired := due
      · exfalso
        split at moved
        · split at moved
          · rw [List.mem_singleton.mp moved] at kind
            obtain kind | kind := kind <;> cases kind
          · cases moved
        · cases moved
      · split at expired
        · next exp expiration =>
            split at expired
            · exfalso
              split at expired
              · rw [List.mem_singleton.mp expired] at kind
                obtain kind | kind := kind <;> cases kind
              · cases expired
            · next content =>
                split at expired
                · next hit => exact ⟨exp, expiration, Bool.eq_false_iff.mpr content, hit⟩
                · cases expired
        · cases expired
  · exfalso
    rw [noncurrentActions] at due
    split at due
    · split at due
      · rw [List.mem_singleton.mp due] at kind
        obtain kind | kind := kind <;> cases kind
      · cases due
    · cases due

theorem markerExpired_eval {ga : GroupAction}
    (asked : ga ∈ evalKeyGroup key entries versioning rules now)
    (kind : ga.action = .expireDeleteMarker) :
    ∃ current, currentOf entries = some current ∧ entries.length = 1 ∧
      MarkerExpired key current rules := by
  obtain ⟨current, found, entry, inside, wanted⟩ := mem_evalKeyGroup.mp asked
  obtain ⟨rule, member, inner, applies, due, kept, rfl⟩ := mem_entryActions.mp wanted
  rw [LifecycleRule.applies, Bool.and_eq_true, decide_eq_true_eq] at applies
  have kind : inner = .expireDeleteMarker := by
    cases inner <;> simp [groupAction] at kind ⊢
  subst kind
  rw [ruleActions] at due
  split at due
  · next here =>
      have same : entry = current := of_decide_eq_true here
      subst same
      rw [currentActions, List.mem_append] at due
      obtain moved | expired := due
      · exfalso
        split at moved
        · split at moved
          · cases List.mem_singleton.mp moved
          · cases moved
        · cases moved
      · split at expired
        · next exp expiration =>
            split at expired
            · next marker =>
                split at expired
                · next both =>
                    rw [Bool.and_eq_true, decide_eq_true_eq] at both
                    exact ⟨entry, found, both.2, marker, rule, member, applies.1, applies.2, exp,
                      expiration, both.1⟩
                · cases expired
            · exfalso
              split at expired
              · split at expired
                · cases List.mem_singleton.mp expired
                · cases List.mem_singleton.mp expired
              · cases expired
        · cases expired
  · exfalso
    rw [noncurrentActions] at due
    split at due
    · split at due
      · cases List.mem_singleton.mp due
      · cases due
    · cases due

theorem removal_target {ga : GroupAction} {vk : Vk}
    (asked : ga ∈ evalKeyGroup key entries versioning rules now)
    (kind : ga.action = .deleteNoncurrentVersion vk) : ga.targetVk = vk := by
  obtain ⟨current, found, entry, inside, wanted⟩ := mem_evalKeyGroup.mp asked
  obtain ⟨rule, member, inner, applies, due, kept, rfl⟩ := mem_entryActions.mp wanted
  rw [groupAction_noncurrent kind]
  rfl

theorem removing_unique (removing : Removing
      (evalKeyGroup key (groupEntries group) versioning rules now) vkNull) :
    group.row none = none ∨ group.row (some vkNull) = none := by
  by_contra both
  rw [not_or] at both
  obtain ⟨l, legacy⟩ := Option.ne_none_iff_exists'.mp both.1
  obtain ⟨n, null⟩ := Option.ne_none_iff_exists'.mp both.2
  have legacyIn := mem_groupEntries.mpr legacy
  have nullIn := mem_groupEntries.mpr null
  obtain ⟨ga, asked, target, kind | ⟨named, kind⟩⟩ := removing
  · obtain ⟨_, _, alone, _⟩ := markerExpired_eval asked kind
    obtain ⟨only, same⟩ := List.length_eq_one_iff.mp alone
    rw [same] at legacyIn nullIn
    have equal := (List.mem_singleton.mp legacyIn).trans (List.mem_singleton.mp nullIn).symm
    cases equal
  · obtain ⟨_, _, entry, _, _, _, unique, _⟩ :=
      evalKeyGroup_removal (groupEntries_distinct group) asked kind
    rw [← removal_target asked kind, target] at unique
    have equal := (unique _ legacyIn rfl).trans (unique _ nullIn rfl).symm
    cases equal

theorem addressed_slotOf {vk : Vk} (m : ObjectMeta) :
    GroupEntry.addressed (group.slotOf (some vk), m) = vk := by
  rw [KeyGroup.slotOf]
  split
  · next both => exact both.1.symm
  · rfl

theorem removable_of_due (placed : Placed group versioning) (held : group.row slot = some m)
    (due : Due group versioning (evalKeyGroup key (groupEntries group) versioning rules now) slot) :
    Removable group key versioning rules now (slot, m) := by
  have inside := mem_groupEntries.mpr held
  cases due with
  | current unversioned expiring =>
    obtain ⟨⟨place, record⟩, found, expired⟩ := expiring_eval expiring
    have there := mem_groupEntries.mp (currentOf_mem found)
    have place : place = none := by
      cases place with
      | none => rfl
      | some vk =>
        have marker := placed.plain unversioned vk record there
        obtain ⟨_, _, _, _, _, _, content, _⟩ := expired
        rw [marker] at content
        cases content
    subst place
    rw [there] at held
    cases held
    exact .expired unversioned found expired
  | @named vk removing =>
    obtain ⟨ga, asked, target, kind | ⟨named, kind⟩⟩ := removing
    · obtain ⟨current, found, alone, expired⟩ := markerExpired_eval asked kind
      obtain ⟨only, same⟩ := List.length_eq_one_iff.mp alone
      have member := currentOf_mem found
      rw [same] at member inside
      rw [← List.mem_singleton.mp inside] at same member
      rw [List.mem_singleton.mp member] at expired
      exact .alone same expired
    · obtain ⟨current, found, entry, there, noncurrent, addressed, unique, rule, member, enabled,
        applies, released⟩ := evalKeyGroup_removal (groupEntries_distinct group) asked kind
      have vk' : vk = named := target.symm.trans (removal_target asked kind)
      have same := unique _ inside ((addressed_slotOf m).trans vk')
      rw [← same] at noncurrent applies released
      exact .released found noncurrent member enabled applies released
  | replaced state expiring =>
    obtain ⟨current, found, expired⟩ := expiring_eval expiring
    exact .replaced state found expired rfl
  | last end_of_time => exact .last rfl end_of_time

/-- What `apply_group` does under the versioning of the bucket is justified by the rules. -/
theorem applyGroup_justified (placed : Placed group versioning) (draws : Nat → ActionDraw) :
    Justified group (applyGroup group key versioning rules now draws).1 key versioning rules now := by
  have progress := Progress.applied (groupEntries group) now
    (evalKeyGroup key (groupEntries group) versioning rules now) draws (.start placed)
    (fun _ member => member) removing_unique
  constructor
  · intro slot m held
    exact (progress.rows slot m held).imp_right fun due => removable_of_due placed held due
  · intro slot m held
    refine (progress.marked slot m held).imp_right ?_
    intro ⟨marker, versioned, expiring⟩
    exact ⟨marker, versioned, expiring_eval expiring⟩

end Asked

namespace LifecycleWorld

def AllPlaced (w : LifecycleWorld) : Prop :=
  ∀ name bucket, w.buckets.get? name = some bucket → ∀ key, Placed (bucket.group key) bucket.versioning

end LifecycleWorld

section Places

variable {group : KeyGroup ObjectMeta} {versioning other : VersioningState} {bucket : RuledBucket}
  {w : LifecycleWorld} {name key : String}

theorem Placed.putPlanned (placed : Placed group versioning) (reading : ClockReading) {m : ObjectMeta}
    (named : m.versionId =
      (KeyGroup.planObjectWrite group reading.toReading versioning).metaVersionId) :
    Placed (group.put (KeyGroup.planObjectWrite group reading.toReading versioning).versionKey m)
      versioning := by
  cases versioning with
  | off =>
    refine placed.put named nofun ?_ nofun (fun _ there => absurd rfl there)
    intro _ n held
    exact placed.plain rfl vkNull n held
  | enabled =>
    have real := KeyGroup.nextVk_ne_vkNull group reading.inClock
    refine placed.put (named.trans (filter_real real).symm) ?_ nofun ?_ nofun
    · intro vk same
      cases same
      exact (KeyGroup.nextVk_spec group reading).1
    · intro same
      exact absurd (Option.some.inj same) real
  | suspended =>
    rw [KeyGroup.planObjectWrite] at named ⊢
    by_cases single : group.single.isSome = true
    · rw [if_pos single] at named ⊢
      refine placed.put named nofun ?_ nofun nofun
      intro _ n held
      exact placed.apart (Option.isSome_iff_ne_none.mp single) n held
    · rw [if_neg single] at named ⊢
      refine placed.put (named.trans filter_vkNull.symm) ?_ nofun ?_ nofun
      · intro vk same
        cases same
        rfl
      · intro _ there
        exact absurd (Option.isSome_iff_ne_none.mpr there) single

theorem Placed.putRecord (placed : Placed group versioning) (reading : ClockReading)
    (mtime : Option Int) (m : ObjectMeta) :
    Placed (Engine.putRecord group versioning reading mtime m) versioning :=
  placed.putPlanned reading rfl

theorem Placed.performed (placed : Placed group versioning) (time : Int) (draw : ActionDraw)
    (ga : GroupAction) : Placed (performAction group other time draw ga).1 versioning := by
  have deleted : ∀ version, Placed (endedDelete group other draw version).1 versioning :=
    fun version => (endedDelete_rows group other draw version).placed placed
  rw [performAction]
  cases ga.action with
  | deleteCurrent => exact deleted none
  | insertDeleteMarker => exact deleted none
  | deleteNoncurrentVersion named => exact deleted _
  | expireDeleteMarker => exact deleted _
  | transition storageClass =>
    obtain same | ⟨slot, m, held, moved⟩ := endedTransition_rows placed draw
      (if ga.targetVk = vkNull then none else some ga.targetVk) storageClass time
    · rw [same]
      exact placed
    · rw [moved]
      exact placed.rewrite held rfl

theorem Placed.applied (fresh : List GroupEntry) (time : Int) (actions : List GroupAction)
    (draws : Nat → ActionDraw) (placed : Placed group versioning) :
    Placed (applyActions fresh other time actions draws group).1 versioning := by
  induction actions generalizing draws group with
  | nil => exact placed
  | cons ga rest ih =>
    have performed : Placed (performAction group other time (draws 0) ga).1 versioning :=
      placed.performed time (draws 0) ga
    rw [applyActions]
    split
    · exact ih _ placed
    · split
      · exact ih _ placed
      · split
        · next done =>
            rw [done] at performed
            exact ih _ performed
        · next failed =>
            rw [failed] at performed
            exact performed

theorem group_put (rows : KeyGroup ObjectMeta) (other : String) :
    (bucket.put key rows).group other = if other = key then rows else bucket.group other := by
  rw [RuledBucket.group, RuledBucket.put, BTreeMap.get?_insert]
  split
  · rfl
  · rfl

theorem placed_group_put (placed : ∀ key, Placed (bucket.group key) bucket.versioning)
    {rows : KeyGroup ObjectMeta} (fits : Placed rows bucket.versioning) (other : String) :
    Placed ((bucket.put key rows).group other) bucket.versioning := by
  rw [group_put]
  split
  · exact fits
  · exact placed other

theorem allPlaced_insert (placed : w.AllPlaced) {cycle : Option Cycle}
    (fits : ∀ key, Placed (bucket.group key) bucket.versioning) :
    LifecycleWorld.AllPlaced ⟨w.buckets.insert name bucket, cycle⟩ := by
  intro found there held
  rw [BTreeMap.get?_insert] at held
  split at held
  · cases held
    exact fits
  · exact placed found there held

theorem allPlaced_modify (placed : w.AllPlaced) {change : RuledBucket → RuledBucket}
    (fits : ∀ bucket, (∀ key, Placed (bucket.group key) bucket.versioning) →
      ∀ key, Placed ((change bucket).group key) (change bucket).versioning) :
    (w.modify name change).AllPlaced := by
  rw [LifecycleWorld.modify]
  split
  · exact placed
  · next bucket held => exact allPlaced_insert placed (fits bucket (placed name bucket held))

theorem step_allPlaced (placed : w.AllPlaced) (step : LifecycleStep) : (w.step step).AllPlaced := by
  cases step with
  | createBucket name objectLock =>
    rw [LifecycleWorld.step]
    split
    · exact placed
    · exact allPlaced_insert placed fun key => Placed.empty _
  | deleteBucket name =>
    rw [LifecycleWorld.step]
    split
    · intro found bucket held
      rw [BTreeMap.get?_erase] at held
      split at held
      · cases held
      · exact placed found bucket held
    · exact placed
  | setVersioning name suspended =>
    refine allPlaced_modify placed ?_
    intro bucket fits key
    refine (fits key).versioned ?_
    split
    · nofun
    · nofun
  | putLifecycle name rules => exact allPlaced_modify placed fun _ fits => fits
  | put name key reading mtime m =>
    refine allPlaced_modify placed ?_
    intro bucket fits
    exact placed_group_put fits ((fits key).putRecord reading mtime m)
  | delete name key reading lockNow bypassGovernance version =>
    refine allPlaced_modify placed ?_
    intro bucket fits
    split
    · exact fits
    · next deleted => exact placed_group_put fits ((deleteVersion_ok deleted).placed (fits key))
  | startCycle now =>
    rw [LifecycleWorld.step]
    split
    · exact placed
    · exact placed
  | work draws =>
    rw [LifecycleWorld.step]
    split
    · exact placed
    · next c _ =>
        rw [LifecycleWorld.work]
        split
        · next name versioning rules key ready _ _ =>
            split
            · exact placed
            · next bucket held =>
                have fits := placed name bucket held
                exact allPlaced_insert placed
                  (placed_group_put fits (Placed.applied _ _ _ draws (fits key)))
        · split
          · exact placed
          · exact placed
        · exact placed
  | abandon => exact placed

theorem run_allPlaced (steps : List LifecycleStep) :
    (steps.foldl LifecycleWorld.step .empty).AllPlaced := by
  have all : ∀ w : LifecycleWorld, w.AllPlaced → (steps.foldl LifecycleWorld.step w).AllPlaced := by
    induction steps with
    | nil => exact fun _ placed => placed
    | cons step steps ih => exact fun w placed => ih _ (step_allPlaced placed step)
  apply all
  intro name bucket held
  cases held

end Places

namespace LifecycleWorld

def run (steps : List LifecycleStep) : LifecycleWorld :=
  steps.foldl step .empty

/-- The cycle works from what was stored when it began, and it has been going on since. -/
def Begun (steps : List LifecycleStep) (c : Cycle) : Prop :=
  ∃ earlier between, steps = earlier ++ .startCycle c.now :: between ∧ (run earlier).cycle = none ∧
    c.buckets = snapshotRules (run earlier).buckets ∧
    ∀ part rest, between = part ++ rest →
      (run (earlier ++ .startCycle c.now :: part)).cycle ≠ none

end LifecycleWorld

structure DueGroup where
  now : Int
  name : String
  versioning : VersioningState
  rules : List LifecycleRule
  key : String

def LifecycleWorld.dueGroup (w : LifecycleWorld) : Option DueGroup :=
  w.cycle.bind fun c =>
    match c.buckets[c.bucketIdx]?, c.ready with
    | some (name, versioning, rules), key :: _ => some ⟨c.now, name, versioning, rules, key⟩
    | _, _ => none

section Cycles

variable {w : LifecycleWorld} {c : Cycle} {steps : List LifecycleStep} {versioning : VersioningState}
  {rules : List LifecycleRule}

theorem closePending_kept :
    (c.closePending versioning rules).now = c.now ∧
      (c.closePending versioning rules).buckets = c.buckets := by
  rw [Cycle.closePending]
  split
  · exact ⟨rfl, rfl⟩
  · exact ⟨rfl, rfl⟩

theorem scanRow_kept (row : String × GroupEntry) :
    (c.scanRow versioning rules row).now = c.now ∧
      (c.scanRow versioning rules row).buckets = c.buckets := by
  rw [Cycle.scanRow]
  dsimp only
  split
  · exact ⟨rfl, rfl⟩
  · exact closePending_kept

theorem scanOnePage_kept (rows : List (String × GroupEntry)) :
    (c.scanOnePage versioning rules rows).now = c.now ∧
      (c.scanOnePage versioning rules rows).buckets = c.buckets := by
  have folded : ∀ (page : List (String × GroupEntry)) (c : Cycle),
      (page.foldl (fun c row => c.scanRow versioning rules row) c).now = c.now ∧
        (page.foldl (fun c row => c.scanRow versioning rules row) c).buckets = c.buckets := by
    intro page
    induction page with
    | nil => exact fun _ => ⟨rfl, rfl⟩
    | cons row page ih =>
      intro c
      obtain ⟨now, buckets⟩ := ih (c.scanRow versioning rules row)
      exact ⟨now.trans (scanRow_kept row).1, buckets.trans (scanRow_kept row).2⟩
  rw [Cycle.scanOnePage]
  generalize scanObjectEntriesPage rows c.cursor scanPageEntries = scanned
  obtain ⟨page, done⟩ := scanned
  obtain ⟨now, buckets⟩ := folded page c
  dsimp only
  split
  · exact ⟨closePending_kept.1.trans now, closePending_kept.2.trans buckets⟩
  · exact ⟨now, buckets⟩

theorem step_cycle {step : LifecycleStep} (later : (w.step step).cycle = some c) :
    (∃ before, w.cycle = some before ∧ before.now = c.now ∧ before.buckets = c.buckets) ∨
      (w.cycle = none ∧ ∃ now, step = .startCycle now ∧ c = beginCycle w.buckets now) := by
  have modified : ∀ name change, (w.modify name change).cycle = w.cycle := by
    intro name change
    rw [LifecycleWorld.modify]
    split
    · rfl
    · rfl
  have same : (w.step step).cycle = w.cycle →
      ∃ before, w.cycle = some before ∧ before.now = c.now ∧ before.buckets = c.buckets :=
    fun kept => ⟨c, kept.symm.trans later, rfl, rfl⟩
  cases step with
  | createBucket name objectLock =>
    refine .inl (same ?_)
    rw [LifecycleWorld.step]
    split
    · rfl
    · rfl
  | deleteBucket name =>
    refine .inl (same ?_)
    rw [LifecycleWorld.step]
    split
    · rfl
    · rfl
  | setVersioning name suspended => exact .inl (same (modified _ _))
  | putLifecycle name rules => exact .inl (same (modified _ _))
  | put name key reading mtime m => exact .inl (same (modified _ _))
  | delete name key reading lockNow bypassGovernance version => exact .inl (same (modified _ _))
  | startCycle now =>
    rw [LifecycleWorld.step] at later
    cases running : w.cycle with
    | some before =>
      simp only [running] at later
      cases later
      exact .inl ⟨c, rfl, rfl, rfl⟩
    | none =>
      simp only [running] at later
      cases later
      exact .inr ⟨rfl, now, rfl, rfl⟩
  | work draws =>
    rw [LifecycleWorld.step] at later
    cases running : w.cycle with
    | none =>
      simp only [running] at later
      cases later
    | some before =>
      simp only [running] at later
      refine .inl ⟨before, rfl, ?_⟩
      rw [LifecycleWorld.work] at later
      split at later
      · split at later
        · cases later
          exact ⟨rfl, rfl⟩
        · dsimp only at later
          split at later
          · cases later
            exact ⟨rfl, rfl⟩
          · cases later
      · split at later
        · cases later
          exact ⟨rfl, rfl⟩
        · cases later
          obtain ⟨now, buckets⟩ := scanOnePage_kept _
          exact ⟨now.symm, buckets.symm⟩
      · cases later
  | abandon => cases later

theorem run_snoc (step : LifecycleStep) :
    LifecycleWorld.run (steps ++ [step]) = (LifecycleWorld.run steps).step step := by
  rw [LifecycleWorld.run, List.foldl_append]
  rfl

theorem run_begun (running : (LifecycleWorld.run steps).cycle = some c) :
    LifecycleWorld.Begun steps c := by
  induction steps using List.reverseRecOn generalizing c with
  | nil => cases running
  | append_singleton steps step ih =>
    have later := running
    rw [run_snoc] at running
    obtain ⟨before, held, now, buckets⟩ | ⟨idle, now, rfl, rfl⟩ := step_cycle running
    · obtain ⟨earlier, between, rfl, idle, stored, since⟩ := ih held
      rw [now] at since later
      refine ⟨earlier, between ++ [step], ?_, idle, buckets ▸ stored, ?_⟩
      · rw [now, List.append_assoc, List.cons_append]
      · intro part rest split
        cases rest using List.reverseRecOn with
        | nil =>
          rw [List.append_nil] at split
          rw [← split]
          rw [List.append_assoc, List.cons_append] at later
          rw [later]
          nofun
        | append_singleton rest last =>
          rw [← List.append_assoc] at split
          obtain ⟨split, _⟩ := List.append_inj' split rfl
          exact since part rest split
    · refine ⟨steps, [], rfl, idle, rfl, ?_⟩
      intro part rest split
      obtain ⟨rfl, _⟩ := List.append_eq_nil_iff.mp split.symm
      change (LifecycleWorld.run (steps ++ [.startCycle now])).cycle ≠ none
      rw [later]
      nofun

theorem mem_snapshotRules {buckets : BTreeMap String RuledBucket} {name : String}
    (member : (name, versioning, rules) ∈ snapshotRules buckets) :
    ∃ bucket, buckets.get? name = some bucket ∧ bucket.versioning = versioning ∧
      bucket.rules = rules := by
  obtain ⟨entry, inside, listed⟩ := List.mem_filterMap.mp member
  split at listed
  · cases listed
  · cases listed
    exact ⟨entry.2, BTreeMap.get?_eq_some_iff.mpr inside, rfl, rfl⟩

theorem group_insert {buckets : BTreeMap String RuledBucket} {cycle cycle' : Option Cycle}
    {bucket : RuledBucket} {name key : String} (held : buckets.get? name = some bucket)
    (rows : KeyGroup ObjectMeta) (other found : String) :
    (⟨buckets.insert name (bucket.put key rows), cycle⟩ : LifecycleWorld).group other found =
      if other = name ∧ found = key then rows
      else (⟨buckets, cycle'⟩ : LifecycleWorld).group other found := by
  rw [LifecycleWorld.group, LifecycleWorld.group, BTreeMap.get?_insert]
  by_cases same : other = name
  · rw [if_pos same, same, held, Option.map_some, Option.getD_some, group_put]
    by_cases here : found = key
    · rw [if_pos here, if_pos ⟨rfl, here⟩]
    · rw [if_neg here, if_neg fun both => here both.2]
      rfl
  · rw [if_neg same, if_neg fun both => same both.1]

theorem step_work (draws : Nat → ActionDraw) (name key : String) :
    (w.step (.work draws)).group name key = w.group name key ∨
      ∃ due bucket, w.dueGroup = some due ∧ due.name = name ∧ due.key = key ∧
        w.buckets.get? name = some bucket ∧
        (w.step (.work draws)).group name key = (applyGroup (bucket.group key) key due.versioning
          due.rules due.now draws).1 := by
  obtain ⟨buckets, cycle⟩ := w
  cases cycle with
  | none => exact .inl rfl
  | some c =>
    simp only [LifecycleWorld.step, LifecycleWorld.dueGroup, Option.bind_some]
    rw [LifecycleWorld.work]
    cases place : c.buckets[c.bucketIdx]? with
    | none => exact .inl rfl
    | some listed =>
      obtain ⟨other, versioning, rules⟩ := listed
      cases queue : c.ready with
      | nil =>
        refine .inl ?_
        dsimp only
        split
        · rfl
        · rfl
      | cons found ready =>
        dsimp only
        cases held : buckets.get? other with
        | none => exact .inl rfl
        | some bucket =>
          dsimp only
          rw [group_insert held]
          by_cases same : name = other ∧ key = found
          · obtain ⟨rfl, rfl⟩ := same
            refine .inr ⟨_, bucket, rfl, rfl, rfl, held, ?_⟩
            rw [if_pos ⟨rfl, rfl⟩]
          · refine .inl ?_
            rw [if_neg same]

end Cycles

/-- A cycle changes a key by the rules that were stored when it began.  Where the versioning of the
bucket is still that of then, every version that it removes is given up by these rules, evaluated on the
versions that are stored at that moment. -/
theorem lifecycle_deletes_due (steps : List LifecycleStep) (draws : Nat → ActionDraw)
    (name key : String) :
    ((LifecycleWorld.run steps).step (.work draws)).group name key =
        (LifecycleWorld.run steps).group name key ∨
      ∃ due bucket stored earlier between, (LifecycleWorld.run steps).dueGroup = some due ∧
        due.name = name ∧ due.key = key ∧
        (LifecycleWorld.run steps).buckets.get? name = some bucket ∧
        steps = earlier ++ .startCycle due.now :: between ∧
        (LifecycleWorld.run earlier).cycle = none ∧
        (∀ part rest, between = part ++ rest →
          (LifecycleWorld.run (earlier ++ .startCycle due.now :: part)).cycle ≠ none) ∧
        (LifecycleWorld.run earlier).buckets.get? name = some stored ∧
        stored.versioning = due.versioning ∧ stored.rules = due.rules ∧
        (bucket.versioning = stored.versioning →
          Justified (bucket.group key)
            (((LifecycleWorld.run steps).step (.work draws)).group name key) key bucket.versioning
            stored.rules due.now) := by
  refine (step_work draws name key).imp_right ?_
  intro ⟨due, bucket, listed, named, keyed, held, changed⟩
  obtain ⟨c, running, place⟩ := Option.bind_eq_some_iff.mp listed
  obtain ⟨earlier, between, split, idle, snapshot, since⟩ := run_begun running
  have facts : due.now = c.now ∧ (due.name, due.versioning, due.rules) ∈ c.buckets := by
    split at place
    · next found _ =>
        cases place
        exact ⟨rfl, List.mem_of_getElem? found⟩
    · cases place
  obtain ⟨time, member⟩ := facts
  rw [snapshot, named] at member
  obtain ⟨stored, there, versioning, rules⟩ := mem_snapshotRules member
  rw [← time] at split since
  refine ⟨due, bucket, stored, earlier, between, listed, named, keyed, held, split, idle, since, there,
    versioning, rules, ?_⟩
  intro same
  have placed := run_allPlaced steps name bucket held key
  rw [changed, ← versioning, ← rules, ← same]
  exact applyGroup_justified placed draws

def dayRule : LifecycleRule where
  id := "day"
  status := .enabled
  expiration := some { days := some 1 }

def oneRecord : ObjectMeta :=
  { deleteMarkerMeta none 0 with size := 1, inline := some [7], isDeleteMarker := false }

def earlyReading : ClockReading :=
  ⟨⟨0, 0, List.replicate 8 7⟩, by decide, rfl⟩

def plainDraws : Nat → ActionDraw :=
  fun _ => ⟨earlyReading, 1000000, 1000000, [], none, none, .done⟩

def withdrawnRules : List LifecycleStep :=
  [.createBucket "photos" false, .putLifecycle "photos" [dayRule],
    .put "photos" "one" earlyReading none oneRecord, .startCycle 1000000, .work plainDraws,
    .putLifecycle "photos" []]

/-- A cycle removes an object although its bucket has no rules any more. -/
theorem lifecycle_ignores_withdrawn_rules :
    ¬∀ steps draws name key bucket, (LifecycleWorld.run steps).buckets.get? name = some bucket →
      ∀ c, (LifecycleWorld.run steps).cycle = some c →
        Justified (bucket.group key)
          (((LifecycleWorld.run steps).step (.work draws)).group name key) key bucket.versioning
          bucket.rules c.now := by
  intro justified
  have stored : ∃ bucket, (LifecycleWorld.run withdrawnRules).buckets.get? "photos" = some bucket ∧
      bucket.rules = [] := by
    have there : ((LifecycleWorld.run withdrawnRules).buckets.get? "photos").map
        RuledBucket.rules = some [] := by decide +kernel
    exact Option.map_eq_some_iff.mp there
  have running : ∃ c, (LifecycleWorld.run withdrawnRules).cycle = some c := by
    have there : (LifecycleWorld.run withdrawnRules).cycle.isSome = true := by decide +kernel
    exact Option.isSome_iff_exists.mp there
  obtain ⟨bucket, held, none⟩ := stored
  obtain ⟨c, running⟩ := running
  have same : (LifecycleWorld.run withdrawnRules).group "photos" "one" = bucket.group "one" := by
    rw [LifecycleWorld.group, held]
    rfl
  have before : ((LifecycleWorld.run withdrawnRules).group "photos" "one").row Option.none =
      some oneRecord := by decide +kernel
  have after : (((LifecycleWorld.run withdrawnRules).step (.work plainDraws)).group
      "photos" "one").row Option.none = Option.none := by decide +kernel
  rw [same] at before
  obtain ⟨m, there, _⟩ | removable :=
    (justified withdrawnRules plainDraws "photos" "one" bucket held c running).removed _ _ before
  · rw [after] at there
    cases there
  · rw [none] at removable
    cases removable with
    | expired _ _ expired =>
      obtain ⟨_, member, _⟩ := expired
      cases member
    | replaced _ _ expired =>
      obtain ⟨_, member, _⟩ := expired
      cases member
    | released _ _ member => cases member
    | alone _ expired =>
      obtain ⟨_, _, member, _⟩ := expired
      cases member
    | last named => cases named

end FastS3.Engine
