import FastS3.Core.VersionOrder
import FastS3.Data.Runs
import FastS3.Engine.Catalog

/-! Which version of a key is the current one behind a write.

The key of a version carries microseconds, a record of the null family seconds.  Each side of the
writes has to move past the other.
-/

namespace FastS3.Core

open Data

/-- The readings of the clock and of the random source are of the width of the code. -/
structure ClockReading extends Reading where
  inClock : micros < 2 ^ 64
  drawn : random.length = 8

def lastMicros : Nat :=
  2 ^ 64 - 1

def lastSecond : Int :=
  18446744073709

/-- The random half of a key of the last microsecond, which stays below the null slot. -/
def Reading.masked (reading : Reading) : Bytes :=
  reading.random.modifyHead (· &&& 0x7F)

namespace KeyGroup

section NextVk

variable {α : Type} [VersionRecord α] {group : KeyGroup α} {vk : Vk} {m n : α}

theorem prevTs_real (last : group.maxReal = some (vk, m)) :
    ∃ p, group.prevTs = some p ∧ vkTimeUs vk ≤ p := by
  rw [prevTs, last]
  dsimp only [Option.map_some]
  split
  · exact ⟨_, rfl, le_refl _⟩
  · exact ⟨_, rfl, le_max_left _ _⟩

theorem prevTs_null (counts : pickNull group.single group.nullSlot = some n) :
    ∃ p, group.prevTs = some p ∧
      min ((VersionRecord.mtime n).toNat * 1000000) lastMicros ≤ p := by
  have time := pickNull_time group.single group.nullSlot
  rw [counts, Option.map_some] at time
  have close : ∀ s q, s = VersionRecord.mtime n →
      min ((max s 0).toNat * 1000000) (2 ^ 64 - 1) ≤ q →
      min ((VersionRecord.mtime n).toNat * 1000000) lastMicros ≤ q := by
    intro s q same above
    have seconds : (max s 0).toNat = (VersionRecord.mtime n).toNat := by
      rw [same]
      omega
    rwa [seconds] at above
  rw [prevTs]
  cases single : group.single with
  | none =>
    rw [single] at time
    cases nullSlot : group.nullSlot with
    | none =>
      rw [nullSlot] at time
      cases time
    | some slot =>
      rw [nullSlot] at time
      refine ⟨_, rfl, close _ _ (Option.some.inj time).symm ?_⟩
      split
      · exact le_refl _
      · exact le_max_right _ _
  | some legacy =>
    rw [single] at time
    cases nullSlot : group.nullSlot with
    | none =>
      rw [nullSlot] at time
      refine ⟨_, rfl, close _ _ (Option.some.inj time).symm ?_⟩
      split
      · exact le_refl _
      · exact le_max_right _ _
    | some slot =>
      rw [nullSlot] at time
      simp only [Option.map_some, Option.some.injEq] at time
      refine ⟨_, rfl, close (max (VersionRecord.mtime slot) (VersionRecord.mtime legacy)) _ ?_ ?_⟩
      · rw [time, max_def]
      · split
        · exact le_refl _
        · exact le_max_right _ _

theorem nextVk_spec (group : KeyGroup α) (reading : ClockReading) :
    (group.nextVk reading.toReading).length = 16 ∧
      (group.nextVk reading.toReading).drop 8 =
        (if vkTimeUs (group.nextVk reading.toReading) = lastMicros then reading.masked
          else reading.random) ∧
      ∀ p, group.prevTs = some p →
        min (p + 1) lastMicros ≤ vkTimeUs (group.nextVk reading.toReading) := by
  have inClock : reading.micros ≤ lastMicros := Nat.le_pred_of_lt reading.inClock
  obtain ⟨ts, inRange, made, behind⟩ : ∃ ts, ts ≤ lastMicros ∧ group.nextVk reading.toReading =
        beBytes 8 ts ++ (if ts = lastMicros then reading.masked else reading.random) ∧
      ∀ p, group.prevTs = some p → min (p + 1) lastMicros ≤ ts := by
    rw [nextVk]
    cases prev : group.prevTs with
    | none => exact ⟨reading.micros, inClock, rfl, by rintro _ ⟨⟩⟩
    | some p =>
      refine ⟨max reading.micros (min (p + 1) lastMicros), ?_, rfl, ?_⟩
      · exact max_le inClock (min_le_right _ _)
      · intro q same
        cases same
        exact le_max_right _ _
  have time : vkTimeUs (group.nextVk reading.toReading) = ts := by
    rw [made, vkTimeUs, List.take_left' (beBytes_length 8 ts)]
    apply beNat_beBytes
    calc ts
      _ ≤ lastMicros := inRange
      _ < 256 ^ 8 := by decide
  rw [time]
  refine ⟨?_, ?_, behind⟩
  · have masked : reading.masked.length = 8 := by
      rw [Reading.masked, List.length_modifyHead, reading.drawn]
    rw [made, List.length_append, beBytes_length]
    split
    · rw [masked]
    · rw [reading.drawn]
  · rw [made, List.drop_left' (beBytes_length 8 ts)]

/-- A new key is above all others, up to the order of the random halves in the last microsecond. -/
theorem nextVk_above_iff (reading : ClockReading)
    (sized : ∀ vk m, group.versions.get? vk = some m → vk.length = 16) :
    (∀ vk m, group.maxReal = some (vk, m) → vk < group.nextVk reading.toReading) ↔
      ∀ vk m, group.maxReal = some (vk, m) → vkTimeUs vk = lastMicros →
        vk.drop 8 < reading.masked := by
  obtain ⟨length, random, behind⟩ := nextVk_spec group reading
  apply forall_congr'
  intro vk
  apply forall_congr'
  intro m
  apply imp_congr_right
  intro last
  have length' := sized vk m (maxReal_held last).1
  obtain ⟨p, prev, atMost⟩ := prevTs_real last
  have after := behind p prev
  by_cases final : vkTimeUs vk = lastMicros
  · have same : vkTimeUs vk = vkTimeUs (group.nextVk reading.toReading) := by
      have bound := vkTimeUs_lt (group.nextVk reading.toReading)
      rw [final] at atMost ⊢
      rw [min_eq_right (by omega)] at after
      exact le_antisymm after (Nat.le_pred_of_lt bound)
    rw [vk_lt_iff_of_time length' length same, random, if_pos (same.symm.trans final)]
    exact ⟨fun less _ => less, fun less => less final⟩
  · have below := Nat.lt_of_le_of_ne (Nat.le_pred_of_lt (vkTimeUs_lt vk)) final
    have earlier : vkTimeUs vk < vkTimeUs (group.nextVk reading.toReading) := by
      calc vkTimeUs vk
        _ < min (p + 1) lastMicros := lt_min (Nat.lt_succ_of_le atMost) below
        _ ≤ _ := after
    exact ⟨fun _ same => absurd same final, fun _ => vk_lt_of_time length' length earlier⟩

theorem nextVk_covers_iff (reading : ClockReading)
    (counts : pickNull group.single group.nullSlot = some n) :
    VersionRecord.mtime n ≤ (vkTimeUs (group.nextVk reading.toReading) / 1000000 : Nat) ↔
      VersionRecord.mtime n ≤ lastSecond := by
  obtain ⟨p, prev, atMost⟩ := prevTs_null counts
  have after := (nextVk_spec group reading).2.2 p prev
  have bound := vkTimeUs_lt (group.nextVk reading.toReading)
  rw [lastSecond]
  rw [lastMicros] at after atMost
  omega

end NextVk

section Rows

variable {α : Type} {group : KeyGroup α} {vk : Vk} {m : α}

theorem put_real_nullSlot (real : vk ≠ vkNull) : (group.put (some vk) m).nullSlot = group.nullSlot := by
  rw [nullSlot, put, BTreeMap.get?_insert, if_neg real.symm]
  rfl

theorem put_real_maxReal (real : vk ≠ vkNull)
    (above : ∀ other found, group.versions.get? other = some found → other ≠ vkNull → other < vk) :
    (group.put (some vk) m).maxReal = some (vk, m) := by
  refine maxReal_eq_some_iff.mpr ⟨?_, real, ?_⟩
  · rw [put, BTreeMap.get?_insert, if_pos rfl]
  · intro other found held named
    rw [put, BTreeMap.get?_insert] at held
    split at held
    · next same => exact same.le
    · exact (above other found held named).le

def nullTarget (group : KeyGroup α) : Option Vk :=
  if group.single.isSome then none else some vkNull

theorem put_nullTarget_maxReal : (group.put group.nullTarget m).maxReal = group.maxReal := by
  apply maxReal_congr
  intro vk real
  rw [nullTarget]
  split
  · rfl
  · rw [put, BTreeMap.get?_insert, if_neg real]

end Rows

section Current

variable {α : Type} [VersionRecord α] {group : KeyGroup α} {vk : Vk} {m n : α}

theorem current_eq_real_iff (last : group.maxReal = some (vk, m)) :
    group.current = some (vk, m) ↔ ∀ n, pickNull group.single group.nullSlot = some n →
      VersionRecord.mtime n ≤ (vkTimeUs vk / 1000000 : Nat) := by
  have real := (maxReal_held last).2
  unfold current pickCurrent
  rw [last]
  cases pickNull group.single group.nullSlot with
  | none => simp
  | some n =>
    dsimp only
    split
    · next later =>
        apply iff_of_false
        · intro same
          cases same
          exact real rfl
        · intro before
          exact absurd (before n rfl) (not_le.mpr later)
    · next before =>
        apply iff_of_true rfl
        intro n' same
        cases same
        exact not_lt.mp before

/-- The null family has the current version if its time is behind the second of the last real one. -/
theorem current_eq_null_iff (counts : pickNull group.single group.nullSlot = some n) :
    group.current = some (vkNull, m) ↔ n = m ∧ ∀ vk real, group.maxReal = some (vk, real) →
      ((vkTimeUs vk / 1000000 : Nat) : Int) < VersionRecord.mtime n := by
  unfold current pickCurrent
  rw [counts]
  cases last : group.maxReal with
  | none => simp
  | some entry =>
    obtain ⟨vk, found⟩ := entry
    have real := (maxReal_held last).2
    dsimp only
    split
    · next later =>
        constructor
        · intro same
          cases same
          refine ⟨rfl, ?_⟩
          intro _ _ same
          cases same
          exact later
        · intro both
          rw [both.1]
    · next before =>
        apply iff_of_false
        · intro same
          cases same
          exact real rfl
        · intro both
          exact before (both.2 vk found rfl)

theorem put_nullTarget_pickNull :
    pickNull (group.put group.nullTarget m).single (group.put group.nullTarget m).nullSlot =
      match group.single, group.nullSlot with
      | some _, some n => some (if VersionRecord.mtime m ≥ VersionRecord.mtime n then m else n)
      | _, _ => some m := by
  rw [nullTarget]
  cases single : group.single with
  | none =>
    have slot : (group.put (some vkNull) m).nullSlot = some m := by
      rw [nullSlot, put, BTreeMap.get?_insert, if_pos rfl]
    have absent : (group.put (some vkNull) m).single = none := single
    simp [slot, absent, pickNull]
  | some legacy =>
    have here : (group.put none m).single = some m := rfl
    have slot : (group.put none m).nullSlot = group.nullSlot := rfl
    simp only [Option.isSome_some, if_true, here, slot]
    cases group.nullSlot with
    | none => rfl
    | some n => rfl

/-- A null version that is written last is current if it is behind the seconds of the real versions
and no other member of the family is behind it. -/
theorem current_put_null :
    (group.put group.nullTarget m).current = some (vkNull, m) ↔
      (∀ vk real, group.maxReal = some (vk, real) →
        ((vkTimeUs vk / 1000000 : Nat) : Int) < VersionRecord.mtime m) ∧
      (group.single.isSome → ∀ n, group.nullSlot = some n →
        VersionRecord.mtime n ≤ VersionRecord.mtime m) := by
  have family : pickNull (group.put group.nullTarget m).single
      (group.put group.nullTarget m).nullSlot = _ := put_nullTarget_pickNull
  have alone : pickNull (group.put group.nullTarget m).single
      (group.put group.nullTarget m).nullSlot = some m →
        ((group.put group.nullTarget m).current = some (vkNull, m) ↔
          ∀ vk real, group.maxReal = some (vk, real) →
            ((vkTimeUs vk / 1000000 : Nat) : Int) < VersionRecord.mtime m) := by
    intro counts
    rw [current_eq_null_iff counts, put_nullTarget_maxReal, and_iff_right rfl]
  cases single : group.single with
  | none =>
    rw [single] at family
    rw [and_iff_left nofun]
    exact alone family
  | some legacy =>
    cases slot : group.nullSlot with
    | none =>
      rw [single, slot] at family
      rw [and_iff_left (fun _ => nofun)]
      exact alone family
    | some n =>
      rw [single, slot] at family
      dsimp only at family
      by_cases newer : VersionRecord.mtime m ≥ VersionRecord.mtime n
      · rw [if_pos newer] at family
        rw [alone family, and_iff_left]
        intro _ _ same
        cases same
        exact newer
      · rw [if_neg newer] at family
        rw [current_eq_null_iff family]
        apply iff_of_false
        · intro both
          rw [both.1] at newer
          exact newer (le_refl _)
        · intro both
          exact newer (both.2 rfl n rfl)

end Current

end KeyGroup

end FastS3.Core

namespace FastS3.Engine

open Data
open FastS3.Core (ClockReading KeyGroup SseInfo VersionRecord VersioningState Vk lastMicros lastSecond
  vkNull vkTimeUs)

structure VersionedKey where
  group : KeyGroup Version
  suspended : Bool
  sized : ∀ vk v, group.versions.get? vk = some v → vk.length = 16

/-- What is written to a key, and the switches of its bucket. -/
inductive KeyWrite where
  | switch (suspended : Bool)
  | put (reading : ClockReading) (v : Version)
  | ingest (reading : ClockReading) (mtime : Int) (v : Version)
  | copy (reading : ClockReading) (storageClass : Option String) (sse : Option SseInfo) (src : Version)
  | deleteMarker (reading : ClockReading)

namespace VersionedKey

variable (k : VersionedKey)

def versioning : VersioningState :=
  if k.suspended then .suspended else .enabled

def target (reading : ClockReading) : WriteTarget :=
  KeyGroup.planObjectWrite k.group reading.toReading k.versioning

def rowsBehind : KeyWrite → KeyGroup Version
  | .switch _ => k.group
  | .put reading v => KeyGroup.write k.group reading.toReading k.versioning none v
  | .ingest reading mtime v => KeyGroup.write k.group reading.toReading k.versioning (some mtime) v
  | .copy reading storageClass sse src =>
    k.group.put (k.target reading).versionKey
      (KeyGroup.copied (k.target reading) reading.toReading storageClass sse src)
  | .deleteMarker reading =>
    (KeyGroup.deleteCurrentMarker k.group reading.toReading k.versioning).1

def stored : KeyWrite → Option (WriteTarget × Version)
  | .switch _ => none
  | .put reading v =>
    some (k.target reading, KeyGroup.written (k.target reading)
      (KeyGroup.writeMtime k.group reading.toReading (k.target reading)) v)
  | .ingest reading mtime v =>
    some (k.target reading, KeyGroup.written (k.target reading) mtime v)
  | .copy reading storageClass sse src =>
    some (k.target reading,
      KeyGroup.copied (k.target reading) reading.toReading storageClass sse src)
  | .deleteMarker reading =>
    some (k.target reading, Engine.deleteMarker (k.target reading).metaVersionId
      (KeyGroup.writeMtime k.group reading.toReading (k.target reading)))

end VersionedKey

section Targets

variable {k : VersionedKey} {reading : ClockReading} {write : KeyWrite} {target : WriteTarget}
  {v : Version}

theorem target_enabled (reading : ClockReading) (enabled : k.suspended = false) :
    k.target reading = .newVersion (k.group.nextVk reading.toReading) := by
  rw [VersionedKey.target, VersionedKey.versioning, enabled]
  rfl

theorem target_suspended (reading : ClockReading) (suspended : k.suspended = true) :
    (k.target reading).versionKey = k.group.nullTarget ∧ (k.target reading).metaVersionId = none ∧
      KeyGroup.writeMtime k.group reading.toReading (k.target reading) =
        k.group.nullFamilyMtime reading.toReading := by
  rw [VersionedKey.target, VersionedKey.versioning, suspended, if_pos rfl, KeyGroup.planObjectWrite,
    Core.KeyGroup.nullTarget]
  split
  · exact ⟨rfl, rfl, rfl⟩
  · exact ⟨rfl, rfl, rfl⟩

theorem rowsBehind_eq (held : k.stored write = some (target, v)) :
    k.rowsBehind write = k.group.put target.versionKey v := by
  cases write with
  | switch => cases held
  | put reading v => cases held; rfl
  | ingest reading mtime v => cases held; rfl
  | copy reading storageClass sse src => cases held; rfl
  | deleteMarker reading =>
    cases held
    rw [VersionedKey.rowsBehind, KeyGroup.deleteCurrentMarker]
    cases suspended : k.suspended with
    | true =>
      obtain ⟨row, named, time⟩ := target_suspended reading suspended
      have state : k.versioning = .suspended := by rw [VersionedKey.versioning, suspended]; rfl
      rw [row, named, time, if_pos state]
      rfl
    | false =>
      have state : k.versioning = .enabled := by rw [VersionedKey.versioning, suspended]; rfl
      rw [target_enabled _ suspended, if_neg (by rw [state]; nofun)]
      rfl

theorem stored_target (held : k.stored write = some (target, v)) :
    ∃ reading, target = k.target reading := by
  cases write with
  | switch => cases held
  | put reading v => cases held; exact ⟨reading, rfl⟩
  | ingest reading mtime v => cases held; exact ⟨reading, rfl⟩
  | copy reading storageClass sse src => cases held; exact ⟨reading, rfl⟩
  | deleteMarker reading => cases held; exact ⟨reading, rfl⟩

theorem stored_sized (held : k.stored write = some (target, v)) {vk : Vk}
    (row : target.versionKey = some vk) : vk.length = 16 := by
  obtain ⟨reading, rfl⟩ := stored_target held
  cases suspended : k.suspended with
  | true =>
    rw [(target_suspended _ suspended).1, Core.KeyGroup.nullTarget] at row
    split at row
    · cases row
    · cases row
      rfl
  | false =>
    rw [target_enabled _ suspended] at row
    cases row
    exact (Core.KeyGroup.nextVk_spec k.group reading).1

theorem rowsBehind_sized (k : VersionedKey) (write : KeyWrite) (vk : Vk) (v : Version)
    (held : (k.rowsBehind write).versions.get? vk = some v) : vk.length = 16 := by
  cases writes : k.stored write with
  | none =>
    cases write with
    | switch => exact k.sized vk v held
    | _ => cases writes
  | some stores =>
    obtain ⟨target, stored⟩ := stores
    rw [rowsBehind_eq writes] at held
    cases row : target.versionKey with
    | none =>
      rw [row] at held
      exact k.sized vk v held
    | some other =>
      rw [row, Core.KeyGroup.put, BTreeMap.get?_insert] at held
      split at held
      · next same =>
          rw [same]
          exact stored_sized writes row
      · exact k.sized vk v held

end Targets

namespace VersionedKey

def step (k : VersionedKey) (write : KeyWrite) : VersionedKey where
  group := k.rowsBehind write
  suspended := match write with
    | .switch suspended => suspended
    | _ => k.suspended
  sized := rowsBehind_sized k write

def newKey (k : VersionedKey) (write : KeyWrite) : Option Vk :=
  match k.stored write with
  | some (.newVersion vk, _) => some vk
  | _ => none

def newKeys (k : VersionedKey) : List KeyWrite → List Vk
  | [] => []
  | write :: rest => (k.newKey write).toList ++ (k.step write).newKeys rest

def Designated (k : VersionedKey) (write : KeyWrite) : Prop :=
  ∀ target v, k.stored write = some (target, v) →
    (k.step write).group.current = some (target.versionKey.getD vkNull, v)

def Ascending (k : VersionedKey) (writes : List KeyWrite) : Prop :=
  (∀ vk v, k.group.versions.get? vk = some v → vk ≠ vkNull → ∀ new ∈ k.newKeys writes, vk < new) ∧
    (k.newKeys writes).Pairwise (· < ·)

/-- A real version can be put behind all others: the null family is not behind all version keys,
and in the last microsecond the random half is above that of the last version. -/
def RealAhead (k : VersionedKey) (reading : ClockReading) : Prop :=
  (∀ n, KeyGroup.pickNull k.group.single k.group.nullSlot = some n → n.record.mtime ≤ lastSecond) ∧
    ∀ vk v, k.group.maxReal = some (vk, v) → vkTimeUs vk = lastMicros → vk.drop 8 < reading.masked

/-- A time is behind the seconds of the real versions and not before that of the other member of the
null family. -/
def NullAhead (k : VersionedKey) (time : Int) : Prop :=
  (∀ vk v, k.group.maxReal = some (vk, v) → ((vkTimeUs vk / 1000000 : Nat) : Int) < time) ∧
    (k.group.single.isSome → ∀ n, k.group.nullSlot = some n → n.record.mtime ≤ time)

/-- A time that moves past the real versions is not before that of the other member of the null
family. -/
def FamilyAhead (k : VersionedKey) (reading : ClockReading) : Prop :=
  k.group.single.isSome → ∀ n, k.group.nullSlot = some n → n.record.mtime ≤ reading.seconds ∨
    ∃ vk v, k.group.maxReal = some (vk, v) ∧ n.record.mtime ≤ (vkTimeUs vk / 1000000 : Nat) + 1

/-- When a write becomes the current version.  A copy takes the reading of the clock as it is, and an
ingested object the time of its source. -/
def Ahead (k : VersionedKey) : KeyWrite → Prop
  | .switch _ => True
  | .put reading _ => if k.suspended then k.FamilyAhead reading else k.RealAhead reading
  | .ingest reading mtime _ => if k.suspended then k.NullAhead mtime else k.RealAhead reading
  | .copy reading _ _ _ => if k.suspended then k.NullAhead reading.seconds else k.RealAhead reading
  | .deleteMarker reading => if k.suspended then k.FamilyAhead reading else k.RealAhead reading

end VersionedKey

section Step

variable {k : VersionedKey} {reading : ClockReading} {write : KeyWrite} {v : Version}

theorem above_all_iff {group : KeyGroup Version} {new : Vk} :
    (∀ vk v, group.versions.get? vk = some v → vk ≠ vkNull → vk < new) ↔
      ∀ vk v, group.maxReal = some (vk, v) → vk < new := by
  constructor
  · intro above vk v last
    obtain ⟨held, real⟩ := KeyGroup.maxReal_held last
    exact above vk v held real
  · intro above vk v held real
    cases last : group.maxReal with
    | none => exact absurd (KeyGroup.maxReal_eq_none_iff.mp last vk v held) real
    | some entry =>
      obtain ⟨_, _, greatest⟩ := KeyGroup.maxReal_eq_some_iff.mp last
      exact lt_of_le_of_lt (greatest vk v held real) (above entry.1 entry.2 last)

theorem step_group {target : WriteTarget} (held : k.stored write = some (target, v)) :
    (k.step write).group = k.group.put target.versionKey v :=
  rowsBehind_eq held

theorem designated_enabled (enabled : k.suspended = false)
    (held : k.stored write = some (k.target reading, v)) :
    (k.Designated write ∧ ∀ new, k.newKey write = some new →
      ∀ vk v, k.group.versions.get? vk = some v → vk ≠ vkNull → vk < new) ↔ k.RealAhead reading := by
  have target := target_enabled reading enabled
  have rows : (k.step write).group =
      k.group.put (some (k.group.nextVk reading.toReading)) v := by
    rw [step_group held, target]
    rfl
  have newKey : k.newKey write = some (k.group.nextVk reading.toReading) := by
    rw [VersionedKey.newKey, held, target]
  have real := KeyGroup.nextVk_ne_vkNull k.group reading.inClock
  have shown : k.Designated write ↔ (k.group.put (some (k.group.nextVk reading.toReading)) v).current =
      some (k.group.nextVk reading.toReading, v) := by
    rw [VersionedKey.Designated, rows, held]
    constructor
    · intro designated
      have here := designated _ _ rfl
      rw [target] at here
      exact here
    · intro here other found same
      cases same
      rw [target]
      exact here
  rw [VersionedKey.RealAhead, ← KeyGroup.nextVk_above_iff reading k.sized, ← above_all_iff, shown,
    newKey]
  have single : (k.group.put (some (k.group.nextVk reading.toReading)) v).single = k.group.single := rfl
  constructor
  · intro both
    have above := both.2 _ rfl
    refine ⟨?_, above⟩
    have covers := (KeyGroup.current_eq_real_iff (KeyGroup.put_real_maxReal real above)).mp both.1
    rw [single, KeyGroup.put_real_nullSlot real] at covers
    intro n counts
    exact (KeyGroup.nextVk_covers_iff reading counts).mp (covers n counts)
  · intro both
    refine ⟨?_, ?_⟩
    · apply (KeyGroup.current_eq_real_iff (KeyGroup.put_real_maxReal real both.2)).mpr
      rw [single, KeyGroup.put_real_nullSlot real]
      intro n counts
      exact (KeyGroup.nextVk_covers_iff reading counts).mpr (both.1 n counts)
    · intro new same
      cases same
      exact both.2

theorem designated_suspended (suspended : k.suspended = true)
    (held : k.stored write = some (k.target reading, v)) :
    (k.Designated write ∧ ∀ new, k.newKey write = some new →
      ∀ vk v, k.group.versions.get? vk = some v → vk ≠ vkNull → vk < new) ↔
        k.NullAhead v.record.mtime := by
  obtain ⟨row, -, -⟩ := target_suspended reading suspended
  have rows : (k.step write).group = k.group.put k.group.nullTarget v := by
    rw [step_group held, row]
  have newKey : k.newKey write = none := by
    rw [VersionedKey.newKey, held]
    cases target : k.target reading with
    | newVersion vk =>
      rw [target, Core.KeyGroup.nullTarget] at row
      have real : vk ≠ vkNull := by
        intro same
        rw [VersionedKey.target, VersionedKey.versioning, suspended, if_pos rfl,
          KeyGroup.planObjectWrite] at target
        split at target
        · cases target
        · cases target
      split at row
      · cases row
      · exact absurd (Option.some.inj row) real
    | _ => rfl
  have display : (k.target reading).versionKey.getD vkNull = vkNull := by
    rw [row, Core.KeyGroup.nullTarget]
    split
    · rfl
    · rfl
  have shown : k.Designated write ↔
      (k.group.put k.group.nullTarget v).current = some (vkNull, v) := by
    rw [VersionedKey.Designated, rows, held]
    constructor
    · intro designated
      have here := designated _ _ rfl
      rw [display] at here
      exact here
    · intro here other found same
      cases same
      rw [display]
      exact here
  rw [shown, newKey, and_iff_left (fun _ => nofun), KeyGroup.current_put_null]
  rfl

theorem nullAhead_moved :
    k.NullAhead (k.group.nullFamilyMtime reading.toReading) ↔ k.FamilyAhead reading := by
  rw [VersionedKey.NullAhead, VersionedKey.FamilyAhead, KeyGroup.nullFamilyMtime]
  cases last : k.group.maxReal with
  | none => simp
  | some entry =>
    obtain ⟨vk, v⟩ := entry
    have behind : ∀ vk' v', some (vk, v) = some (vk', v') → ((vkTimeUs vk' / 1000000 : Nat) : Int) <
        max reading.seconds ((vkTimeUs vk / 1000000 : Nat) + 1) := by
      intro _ _ same
      cases same
      exact lt_of_lt_of_le (Int.lt_succ _) (le_max_right _ _)
    rw [and_iff_right behind]
    simp only [le_max_iff, Option.some.injEq, Prod.mk.injEq]
    constructor
    · intro both single n slot
      obtain before | before := both single n slot
      · exact .inl before
      · exact .inr ⟨vk, v, ⟨rfl, rfl⟩, before⟩
    · intro either single n slot
      obtain before | ⟨_, _, ⟨rfl, rfl⟩, before⟩ := either single n slot
      · exact .inl before
      · exact .inr before

theorem step_designated (k : VersionedKey) (write : KeyWrite) :
    (k.Designated write ∧ ∀ new, k.newKey write = some new →
      ∀ vk v, k.group.versions.get? vk = some v → vk ≠ vkNull → vk < new) ↔ k.Ahead write := by
  have moved : ∀ reading, k.suspended = true →
      KeyGroup.writeMtime k.group reading.toReading (k.target reading) =
        k.group.nullFamilyMtime reading.toReading :=
    fun reading suspended => (target_suspended reading suspended).2.2
  cases write with
  | switch suspended =>
    refine iff_of_true ⟨?_, ?_⟩ trivial
    · intro target v held
      cases held
    · intro new made
      cases made
  | put reading v =>
    rw [VersionedKey.Ahead]
    cases suspended : k.suspended with
    | false => exact designated_enabled suspended rfl
    | true =>
      have held : k.stored (.put reading v) = some (k.target reading, _) := rfl
      rw [if_pos rfl, ← nullAhead_moved, ← moved reading suspended]
      exact designated_suspended suspended held
  | ingest reading mtime v =>
    rw [VersionedKey.Ahead]
    cases suspended : k.suspended with
    | false => exact designated_enabled suspended rfl
    | true =>
      have held : k.stored (.ingest reading mtime v) = some (k.target reading, _) := rfl
      rw [if_pos rfl]
      exact designated_suspended suspended held
  | copy reading storageClass sse src =>
    rw [VersionedKey.Ahead]
    cases suspended : k.suspended with
    | false => exact designated_enabled suspended rfl
    | true =>
      have held : k.stored (.copy reading storageClass sse src) = some (k.target reading, _) := rfl
      rw [if_pos rfl]
      exact designated_suspended suspended held
  | deleteMarker reading =>
    rw [VersionedKey.Ahead]
    cases suspended : k.suspended with
    | false => exact designated_enabled suspended rfl
    | true =>
      have held : k.stored (.deleteMarker reading) = some (k.target reading, _) := rfl
      rw [if_pos rfl, ← nullAhead_moved, ← moved reading suspended]
      exact designated_suspended suspended held

end Step

section Runs

variable {k : VersionedKey} {write : KeyWrite} {writes : List KeyWrite}

theorem step_reals (k : VersionedKey) (write : KeyWrite) {vk : Vk} (real : vk ≠ vkNull) :
    (∃ v, (k.step write).group.versions.get? vk = some v) ↔
      (∃ v, k.group.versions.get? vk = some v) ∨ k.newKey write = some vk := by
  cases held : k.stored write with
  | none =>
    have newKey : k.newKey write = none := by
      rw [VersionedKey.newKey, held]
    rw [newKey, or_iff_left (Option.some_ne_none vk).symm]
    cases write with
    | switch => rfl
    | _ => cases held
  | some stores =>
    obtain ⟨target, v⟩ := stores
    have newKey : k.newKey write = some vk ↔ target = .newVersion vk := by
      rw [VersionedKey.newKey, held]
      cases target with
      | newVersion other => simp
      | _ => simp
    have rows : (k.step write).group = k.group.put target.versionKey v := rowsBehind_eq held
    rw [rows, newKey]
    cases target with
    | newVersion other =>
      rw [WriteTarget.versionKey, KeyGroup.put, BTreeMap.get?_insert]
      by_cases same : vk = other
      · rw [if_pos same, same]
        exact iff_of_true ⟨v, rfl⟩ (.inr rfl)
      · have apart : ¬WriteTarget.newVersion other = .newVersion vk := by
          intro equal
          cases equal
          exact same rfl
        rw [if_neg same, or_iff_left apart]
    | nullSlot =>
      rw [WriteTarget.versionKey, KeyGroup.put, BTreeMap.get?_insert, if_neg real]
      exact (or_iff_left (by rintro ⟨⟩)).symm
    | unversioned => exact (or_iff_left (by rintro ⟨⟩)).symm
    | legacySlot => exact (or_iff_left (by rintro ⟨⟩)).symm

theorem newKey_real {new : Vk} (made : k.newKey write = some new) : new ≠ vkNull := by
  rw [VersionedKey.newKey] at made
  cases held : k.stored write with
  | none =>
    rw [held] at made
    cases made
  | some stores =>
    obtain ⟨target, v⟩ := stores
    obtain ⟨reading, same⟩ := stored_target held
    rw [held] at made
    cases suspended : k.suspended with
    | false =>
      rw [target_enabled _ suspended] at same
      rw [same] at made
      cases made
      exact KeyGroup.nextVk_ne_vkNull k.group reading.inClock
    | true =>
      rw [VersionedKey.target, VersionedKey.versioning, suspended, if_pos rfl,
        KeyGroup.planObjectWrite] at same
      split at same
      · rw [same] at made
        cases made
      · rw [same] at made
        cases made

theorem ascending_cons :
    k.Ascending (write :: writes) ↔
      (∀ new, k.newKey write = some new →
        ∀ vk v, k.group.versions.get? vk = some v → vk ≠ vkNull → vk < new) ∧
      (k.step write).Ascending writes := by
  rw [VersionedKey.Ascending, VersionedKey.Ascending, VersionedKey.newKeys, List.pairwise_append]
  constructor
  · intro ⟨bounds, _, rest, cross⟩
    refine ⟨?_, ?_, rest⟩
    · intro new made vk v held real
      exact bounds vk v held real new (by simp [made])
    · intro vk v held real new member
      obtain ⟨old, there⟩ | made := (step_reals k write real).mp ⟨v, held⟩
      · exact bounds vk old there real new (List.mem_append_right _ member)
      · exact cross vk (by simp [made]) new member
  · intro ⟨first, bounds, rest⟩
    refine ⟨?_, ?_, rest, ?_⟩
    · intro vk v held real new member
      obtain made | later := List.mem_append.mp member
      · exact first new (Option.mem_toList.mp made) vk v held real
      · obtain ⟨v', there⟩ := (step_reals k write real).mpr (.inl ⟨v, held⟩)
        exact bounds vk v' there real new later
    · cases k.newKey write with
      | none => exact List.Pairwise.nil
      | some new => exact List.pairwise_singleton _ _
    · intro new made later member
      have made := Option.mem_toList.mp made
      have real := newKey_real made
      obtain ⟨v, there⟩ := (step_reals k write real).mpr (.inr made)
      exact bounds new v there real later member

end Runs

/-- In a run of writes the last one is always the current version, and the real version keys ascend,
exactly if every write gets ahead of the versions before it. -/
theorem last_write_current_iff (start : VersionedKey) (writes : List KeyWrite) :
    (EveryStep VersionedKey.step VersionedKey.Designated start writes ∧ start.Ascending writes) ↔
      EveryStep VersionedKey.step VersionedKey.Ahead start writes := by
  induction writes generalizing start with
  | nil =>
    apply iff_of_true
    · refine ⟨everyStep_nil, ?_, List.Pairwise.nil⟩
      intro _ _ _ _ _ member
      cases member
    · exact everyStep_nil
  | cons write writes ih =>
    rw [everyStep_cons, everyStep_cons, ascending_cons, ← ih, ← step_designated]
    constructor
    · intro ⟨⟨shown, later⟩, above, ascend⟩
      exact ⟨⟨shown, above⟩, later, ascend⟩
    · intro ⟨⟨shown, above⟩, later, ascend⟩
      exact ⟨⟨shown, later⟩, above, ascend⟩

def sampleVersion (letter : UInt8) : Version :=
  ⟨{ size := 1, mtime := 0, extents := [], inline := some [letter], parts := [], versionId := none,
     isDeleteMarker := false, sse := none, compressed := none, storageClass := none,
     restoreState := none }, [letter], rfl⟩

def sampleReading : ClockReading :=
  ⟨⟨100250000, 100, List.replicate 8 7⟩, by decide, rfl⟩

def emptyKey : VersionedKey where
  group := .empty
  suspended := false
  sized := by
    intro vk v held
    cases held

/-- A copy to a key of a suspended bucket within the second of its last version stays behind that. -/
theorem copy_not_current :
    ¬∀ start writes, EveryStep VersionedKey.step VersionedKey.Designated start writes ∧
      start.Ascending writes := by
  intro holds
  have designated := (holds emptyKey [.put sampleReading (sampleVersion 1), .switch true,
    .copy sampleReading none none (sampleVersion 2)]).1
    [.put sampleReading (sampleVersion 1), .switch true]
    (.copy sampleReading none none (sampleVersion 2)) [] rfl _ _ rfl
  revert designated
  decide +kernel

end FastS3.Engine
