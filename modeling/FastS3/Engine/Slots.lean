import FastS3.Core.Pool
import FastS3.Core.SuperBlock

namespace FastS3.Engine

open FastS3.Core

/-! Assembly of the device table at open, and the mapping of global extent ids.

A manifest device whose disk cannot be used is skipped, so the table holds the
present devices only.  Their bases still count every manifest device.
-/

structure DeviceSlot where
  sb : SuperBlock
  base : Nat
  extentCount : Nat
  weight : Nat
deriving Repr, DecidableEq

/-- One manifest device with what opening its disk gave: the superblock read
from it, or the text of the failure. -/
abbrev PoolDevice := DeviceEntry × Except String SuperBlock

/-- The reason for which `Engine::open` treats the device as missing. -/
def deviceProblem : PoolDevice → Except String SuperBlock
  | (_, .error e) => .error s!"open failed: {e}"
  | (entry, .ok sb) =>
    if sb.uuid ≠ entry.uuid then .error "uuid mismatch (wrong disk attached?)"
    else if sb.extentCount ≠ entry.extentCount ∨ sb.dataEnd ≠ entry.capacity then
      .error (s!"layout mismatch: superblock {sb.extentCount} extents / {sb.dataEnd} bytes " ++
        s!"vs manifest {entry.extentCount} / {entry.capacity}")
    else .ok sb

/-- The base assignment of `Engine::open`, starting at `base`: the slots, the
texts of the missing devices and the first id behind the pool. -/
def assignBases : Nat → List PoolDevice → List DeviceSlot × List String × Nat
  | base, [] => ([], [], base)
  | base, device :: rest =>
    match deviceProblem device with
    | .error problem =>
      let (slots, degraded, limit) := assignBases (base + device.1.extentCount) rest
      (slots, s!"{device.1.path}: {problem}" :: degraded, limit)
    | .ok sb =>
      let (slots, degraded, limit) := assignBases (base + sb.extentCount) rest
      (⟨sb, base, sb.extentCount, device.1.weight⟩ :: slots, degraded, limit)

def assemblePool (manifest : PoolManifest) (outcomes : List (Except String SuperBlock)) :
    Except Error (List DeviceSlot × List String) :=
  let (slots, degraded, limit) := assignBases 0 (manifest.devices.zip outcomes)
  if limit > u32Max then
    .error (.invalidLayout s!"pool exceeds u32 extent id space ({limit} extents)")
  else .ok (slots, degraded)

/-- The walk of `Engine::resolve_extent` from slot `di` on. -/
def resolveExtentFrom : Nat → Nat → List DeviceSlot → Nat → Option (Nat × Nat)
  | _, _, [], _ => none
  | di, base, slot :: rest, extentId =>
    if extentId < base + slot.extentCount then some (di, extentId - base)
    else resolveExtentFrom (di + 1) (base + slot.extentCount) rest extentId

def resolveExtent (devices : List DeviceSlot) (extentId : Nat) : Option (Nat × Nat) :=
  resolveExtentFrom 0 0 devices extentId

def present (device : PoolDevice) : Bool :=
  (deviceProblem device).isOk

variable {device : PoolDevice} {sb : SuperBlock} {base : Nat} {pool : List PoolDevice}

theorem deviceProblem_ok (usable : deviceProblem device = .ok sb) :
    sb.extentCount = device.1.extentCount := by
  obtain ⟨entry, opened⟩ := device
  cases opened with
  | error e => cases usable
  | ok found =>
    simp only [deviceProblem] at usable
    split at usable
    · cases usable
    · split at usable
      · cases usable
      · next matching =>
        cases usable
        simp only [not_or, ne_eq, not_not] at matching
        exact matching.1

theorem resolveExtentFrom_eq (di base : Nat) (devices : List DeviceSlot) (extentId : Nat) :
    resolveExtentFrom di base devices extentId =
      (Data.locateFrom base (devices.map DeviceSlot.extentCount) extentId).map
        fun found => (di + found.1, found.2) := by
  induction devices generalizing di base with
  | nil => rfl
  | cons slot rest ih =>
    simp only [resolveExtentFrom, List.map_cons, Data.locateFrom]
    by_cases inside : extentId < base + slot.extentCount
    · simp only [inside, if_true, Option.map_some, Nat.add_zero]
    · simp only [inside, if_false, ih, Option.map_map]
      congr 1
      funext found
      simp only [Function.comp_apply, Prod.mk.injEq, and_true]
      omega

theorem resolveExtent_eq_locate (devices : List DeviceSlot) (extentId : Nat) :
    resolveExtent devices extentId =
      Data.locate (devices.map DeviceSlot.extentCount) extentId := by
  simp [resolveExtent, resolveExtentFrom_eq, Data.locate]

def healthyPrefix (pool : List PoolDevice) : Nat :=
  ((pool.takeWhile present).map fun device => device.1.extentCount).sum

def presentTotal (pool : List PoolDevice) : Nat :=
  ((pool.filter present).map fun device => device.1.extentCount).sum

/-- The first global id of manifest device `idx`. -/
def manifestBase (pool : List PoolDevice) (idx : Nat) : Nat :=
  ((pool.take idx).map fun device => device.1.extentCount).sum

/-- The table position of manifest device `idx` when it is present. -/
def slotIndex (pool : List PoolDevice) (idx : Nat) : Nat :=
  (pool.take idx).countP present

private theorem present_of_ok (usable : deviceProblem device = .ok sb) : present device = true := by
  simp [present, usable, Except.isOk, Except.toBool]

private theorem absent_of_error {problem : String}
    (missing : deviceProblem device = .error problem) : present device = false := by
  simp [present, missing, Except.isOk, Except.toBool]

private theorem slotIndex_succ (head : PoolDevice) (rest : List PoolDevice) (idx : Nat) :
    slotIndex (head :: rest) (idx + 1) =
      slotIndex rest idx + if present head then 1 else 0 := by
  simp [slotIndex, List.countP_cons]

private theorem manifestBase_succ (head : PoolDevice) (rest : List PoolDevice) (idx : Nat) :
    manifestBase (head :: rest) (idx + 1) = head.1.extentCount + manifestBase rest idx := by
  simp [manifestBase]

@[simp] theorem assignBases_nil (base : Nat) : (assignBases base []).1 = [] :=
  rfl

theorem assignBases_missing {rest : List PoolDevice} {problem : String}
    (missing : deviceProblem device = .error problem) :
    (assignBases base (device :: rest)).1 = (assignBases (base + device.1.extentCount) rest).1 := by
  rw [assignBases, missing]

theorem assignBases_usable {rest : List PoolDevice} (usable : deviceProblem device = .ok sb) :
    (assignBases base (device :: rest)).1 =
      ⟨sb, base, sb.extentCount, device.1.weight⟩ :: (assignBases (base + sb.extentCount) rest).1 := by
  rw [assignBases, usable]

theorem assignBases_of_present (base : Nat) {idx : Nat} (listed : pool[idx]? = some device)
    (usable : deviceProblem device = .ok sb) :
    (assignBases base pool).1[slotIndex pool idx]? =
      some ⟨sb, base + manifestBase pool idx, device.1.extentCount, device.1.weight⟩ := by
  induction pool generalizing base idx with
  | nil => simp at listed
  | cons head rest ih =>
    cases idx with
    | zero =>
      simp only [List.getElem?_cons_zero, Option.some.injEq] at listed
      subst listed
      simp [assignBases_usable usable, slotIndex, manifestBase, deviceProblem_ok usable]
    | succ idx =>
      simp only [List.getElem?_cons_succ] at listed
      rw [slotIndex_succ, manifestBase_succ, ← Nat.add_assoc]
      cases opened : deviceProblem head with
      | error problem =>
        simpa [assignBases_missing opened, absent_of_error opened] using ih _ listed
      | ok found =>
        simpa [assignBases_usable opened, present_of_ok opened, deviceProblem_ok opened]
          using ih _ listed

theorem assignBases_slot {di : Nat} {slot : DeviceSlot}
    (found : (assignBases base pool).1[di]? = some slot) :
    ∃ idx device sb, pool[idx]? = some device ∧ deviceProblem device = .ok sb ∧
      slotIndex pool idx = di ∧ slot.base = base + manifestBase pool idx ∧
      slot.extentCount = device.1.extentCount := by
  induction pool generalizing base di with
  | nil => simp at found
  | cons head rest ih =>
    cases opened : deviceProblem head with
    | error problem =>
      rw [assignBases_missing opened] at found
      obtain ⟨idx, device, sb, listed, usable, index, start, width⟩ := ih found
      refine ⟨idx + 1, device, sb, listed, usable, ?_, ?_, width⟩
      · simp [slotIndex_succ, absent_of_error opened, index]
      · rw [manifestBase_succ, start]
        omega
    | ok sb =>
      rw [assignBases_usable opened] at found
      cases di with
      | zero =>
        simp only [List.getElem?_cons_zero, Option.some.injEq] at found
        subst found
        exact ⟨0, head, sb, rfl, opened, by simp [slotIndex], by simp [manifestBase],
          deviceProblem_ok opened⟩
      | succ di =>
        simp only [List.getElem?_cons_succ] at found
        obtain ⟨idx, device, other, listed, usable, index, start, width⟩ := ih found
        refine ⟨idx + 1, device, other, listed, usable, ?_, ?_, width⟩
        · simp [slotIndex_succ, present_of_ok opened, index]
        · rw [manifestBase_succ, start, deviceProblem_ok opened]
          omega

/-- Compares the manifest base of a slot with the running sum that
`resolve_extent` reaches there: they agree up to the first missing device, and
behind it the running sum is too small. -/
theorem assignBases_runningSum (positive : ∀ device ∈ pool, 0 < device.1.extentCount) {di : Nat}
    {slot : DeviceSlot} (found : (assignBases base pool).1[di]? = some slot) :
    let walked := (((assignBases base pool).1.take di).map DeviceSlot.extentCount).sum
    (walked < healthyPrefix pool ∧ slot.base = base + walked ∧
        walked + slot.extentCount ≤ healthyPrefix pool) ∨
      (healthyPrefix pool ≤ walked ∧ base + walked < slot.base) := by
  induction pool generalizing base di with
  | nil => simp at found
  | cons head rest ih =>
    have headPositive : 0 < head.1.extentCount := positive head (by simp)
    have restPositive : ∀ device ∈ rest, 0 < device.1.extentCount :=
      fun device member => positive device (by simp [member])
    cases opened : deviceProblem head with
    | error problem =>
      rw [assignBases_missing opened] at found ⊢
      right
      have empty : healthyPrefix (head :: rest) = 0 := by
        simp [healthyPrefix, absent_of_error opened]
      rw [empty]
      rcases ih restPositive found with ⟨_, start, _⟩ | ⟨_, start⟩
      · exact ⟨Nat.zero_le _, by omega⟩
      · exact ⟨Nat.zero_le _, by omega⟩
    | ok sb =>
      have width := deviceProblem_ok opened
      have longer : healthyPrefix (head :: rest) =
          head.1.extentCount + healthyPrefix rest := by
        simp [healthyPrefix, present_of_ok opened]
      rw [assignBases_usable opened] at found ⊢
      rw [longer]
      cases di with
      | zero =>
        simp only [List.getElem?_cons_zero, Option.some.injEq] at found
        subst found
        left
        simp only [List.take_zero, List.map_nil, List.sum_nil]
        omega
      | succ di =>
        simp only [List.getElem?_cons_succ] at found
        simp only [List.take_succ_cons, List.map_cons, List.sum_cons]
        rcases ih restPositive found with ⟨below, start, fits⟩ | ⟨above, start⟩
        · left
          omega
        · right
          omega

theorem assignBases_ordered (base : Nat) (pool : List PoolDevice) :
    (∀ slot ∈ (assignBases base pool).1, base ≤ slot.base) ∧
      (assignBases base pool).1.Pairwise fun left right => left.base + left.extentCount ≤ right.base := by
  induction pool generalizing base with
  | nil => simp
  | cons device rest ih =>
    cases opened : deviceProblem device with
    | error problem =>
      rw [assignBases_missing opened]
      obtain ⟨above, ordered⟩ := ih (base + device.1.extentCount)
      exact ⟨fun slot member => Nat.le_of_add_right_le (above slot member), ordered⟩
    | ok sb =>
      rw [assignBases_usable opened]
      obtain ⟨above, ordered⟩ := ih (base + sb.extentCount)
      refine ⟨?_, List.pairwise_cons.mpr ⟨above, ordered⟩⟩
      intro slot member
      rcases List.mem_cons.mp member with rfl | later
      · exact Nat.le_refl _
      · exact Nat.le_of_add_right_le (above slot later)

theorem assignBases_total (base : Nat) (pool : List PoolDevice) :
    ((assignBases base pool).1.map DeviceSlot.extentCount).sum = presentTotal pool := by
  induction pool generalizing base with
  | nil => rfl
  | cons head rest ih =>
    cases opened : deviceProblem head with
    | error problem =>
      rw [assignBases_missing opened, ih]
      simp [presentTotal, absent_of_error opened]
    | ok sb =>
      simp only [assignBases_usable opened, List.map_cons, List.sum_cons, ih, deviceProblem_ok opened]
      simp [presentTotal, present_of_ok opened]

/-- What the mapping of one id must do: find exactly the present device whose
range holds it, as the manifest does, and find nothing for a missing device. -/
structure ResolvesLikeManifest (manifest : PoolManifest)
    (outcomes : List (Except String SuperBlock)) (slots : List DeviceSlot) (id : Nat) : Prop where
  ranges : ∀ di inner, resolveExtent slots id = some (di, inner) ↔
    ∃ slot, slots[di]? = some slot ∧ slot.base ≤ id ∧ id < slot.base + slot.extentCount ∧
      inner = id - slot.base
  agrees : ∀ idx inner device, manifest.resolve id = .ok (idx, inner) →
    (manifest.devices.zip outcomes)[idx]? = some device → present device = true →
      resolveExtent slots id = some (slotIndex (manifest.devices.zip outcomes) idx, inner)
  missing : ∀ idx inner device, manifest.resolve id = .ok (idx, inner) →
    (manifest.devices.zip outcomes)[idx]? = some device → present device = false →
      resolveExtent slots id = none

/-- The ids for which the running sum of `resolve_extent` is harmless: they lie
before every missing device, or behind the running sum and on no present disk. -/
def BeforeMissingOrNowhere (pool : List PoolDevice) (id : Nat) : Prop :=
  id < healthyPrefix pool ∨
    (presentTotal pool ≤ id ∧ ∀ idx device, pool[idx]? = some device → present device = true →
      ¬(manifestBase pool idx ≤ id ∧ id < manifestBase pool idx + device.1.extentCount))

section Resolution

variable {manifest : PoolManifest} {outcomes : List (Except String SuperBlock)}

private theorem zip_widths (matched : outcomes.length = manifest.devices.length) :
    (manifest.devices.zip outcomes).map (fun device => device.1.extentCount) =
      manifest.devices.map DeviceEntry.extentCount := by
  have fsts : (manifest.devices.zip outcomes).map Prod.fst = manifest.devices :=
    List.map_fst_zip (by omega)
  calc
    (manifest.devices.zip outcomes).map (fun device => device.1.extentCount) =
        ((manifest.devices.zip outcomes).map Prod.fst).map DeviceEntry.extentCount := by
      rw [List.map_map]
      rfl
    _ = manifest.devices.map DeviceEntry.extentCount := by rw [fsts]

theorem pool_positive (outcomes : List (Except String SuperBlock))
    (valid : manifest.validate = .ok ()) :
    ∀ device ∈ manifest.devices.zip outcomes, 0 < device.1.extentCount := by
  intro device member
  exact PoolManifest.validate_positive valid _ (List.of_mem_zip member).1

theorem resolve_pool_iff (valid : manifest.validate = .ok ())
    (matched : outcomes.length = manifest.devices.length) {id idx inner : Nat} :
    manifest.resolve id = .ok (idx, inner) ↔
      ∃ device, (manifest.devices.zip outcomes)[idx]? = some device ∧
        inner < device.1.extentCount ∧
        manifestBase (manifest.devices.zip outcomes) idx + inner = id := by
  rw [PoolManifest.resolve_eq_ok_iff valid, ← zip_widths matched, Data.locate_eq_some_iff]
  simp only [List.getElem?_map, Option.map_eq_some_iff, manifestBase, List.map_take]
  constructor
  · intro walked
    obtain ⟨width, ⟨device, listed, same⟩, below, sum⟩ := walked
    exact ⟨device, listed, by omega, sum⟩
  · intro walked
    obtain ⟨device, listed, below, sum⟩ := walked
    exact ⟨_, ⟨device, listed, rfl⟩, below, sum⟩

theorem resolvesLikeManifest_of_ranges (valid : manifest.validate = .ok ())
    (matched : outcomes.length = manifest.devices.length) {id : Nat}
    (ranges : ∀ di inner,
      resolveExtent (assignBases 0 (manifest.devices.zip outcomes)).1 id = some (di, inner) ↔
        ∃ slot, (assignBases 0 (manifest.devices.zip outcomes)).1[di]? = some slot ∧
          slot.base ≤ id ∧ id < slot.base + slot.extentCount ∧ inner = id - slot.base) :
    ResolvesLikeManifest manifest outcomes
      (assignBases 0 (manifest.devices.zip outcomes)).1 id := by
  refine ⟨ranges, ?_, ?_⟩
  · intro idx inner device resolved listed usable
    obtain ⟨same, listed', below, sum⟩ := (resolve_pool_iff valid matched).mp resolved
    rw [listed, Option.some.injEq] at listed'
    subst listed'
    cases opened : deviceProblem device with
    | error problem => simp [absent_of_error opened] at usable
    | ok sb =>
      have slot := assignBases_of_present 0 listed opened
      refine (ranges _ _).mpr ⟨_, slot, ?_, ?_, ?_⟩ <;> simp only <;> omega
  · intro idx inner device resolved listed absent
    cases walked : resolveExtent (assignBases 0 (manifest.devices.zip outcomes)).1 id with
    | none => rfl
    | some answer =>
      obtain ⟨di, offset⟩ := answer
      obtain ⟨slot, atSlot, low, high, _⟩ := (ranges di offset).mp walked
      obtain ⟨idx', device', sb, listed', usable, _, start, width⟩ := assignBases_slot atSlot
      have resolved' : manifest.resolve id = .ok (idx', id - slot.base) :=
        (resolve_pool_iff valid matched).mpr ⟨device', listed', by omega, by omega⟩
      rw [resolved, Except.ok.injEq, Prod.mk.injEq] at resolved'
      obtain ⟨rfl, _⟩ := resolved'
      rw [listed, Option.some.injEq] at listed'
      subst listed'
      rw [present_of_ok usable] at absent
      cases absent

/-- The mapping of an id agrees with the manifest exactly when the id avoids the
shift that a missing disk causes: `resolve_extent` sums the widths of the
present devices and ignores the bases assigned at open. -/
theorem resolveExtent_like_manifest_iff (valid : manifest.validate = .ok ())
    (matched : outcomes.length = manifest.devices.length)
    {slots : List DeviceSlot} {degraded : List String}
    (assembled : assemblePool manifest outcomes = .ok (slots, degraded)) (id : Nat) :
    ResolvesLikeManifest manifest outcomes slots id ↔
      BeforeMissingOrNowhere (manifest.devices.zip outcomes) id := by
  have slotsEq : slots = (assignBases 0 (manifest.devices.zip outcomes)).1 := by
    unfold assemblePool at assembled
    split at assembled
    next assigned =>
    split at assembled
    · cases assembled
    · cases assembled
      rw [assigned]
  subst slotsEq
  have positive := pool_positive outcomes valid
  have total := assignBases_total 0 (manifest.devices.zip outcomes)
  constructor
  · intro correct
    by_cases early : id < healthyPrefix (manifest.devices.zip outcomes)
    · exact .inl early
    · right
      have behind : presentTotal (manifest.devices.zip outcomes) ≤ id := by
        rw [← total, ← Data.locate_eq_none_iff, ← resolveExtent_eq_locate]
        cases walked : resolveExtent (assignBases 0 (manifest.devices.zip outcomes)).1 id with
        | none => rfl
        | some answer =>
          obtain ⟨di, inner⟩ := answer
          obtain ⟨slot, atSlot, low, high, offset⟩ := (correct.ranges di inner).mp walked
          rw [resolveExtent_eq_locate, Data.locate_eq_some_iff] at walked
          obtain ⟨width, atWidth, below, sum⟩ := walked
          rw [← List.map_take] at sum
          rw [List.getElem?_map, atSlot, Option.map_some, Option.some.injEq] at atWidth
          rcases assignBases_runningSum positive atSlot with ⟨_, _, fits⟩ | ⟨_, later⟩
          · omega
          · omega
      refine ⟨behind, ?_⟩
      intro idx device listed usable inside
      cases opened : deviceProblem device with
      | error problem => simp [absent_of_error opened] at usable
      | ok sb =>
        have slot := assignBases_of_present 0 listed opened
        have found := (correct.ranges _ _).mpr
          ⟨_, slot, by simpa using inside.1, by simpa using inside.2, rfl⟩
        rw [resolveExtent_eq_locate, Data.locate_eq_none_iff.mpr (by omega)] at found
        cases found
  · intro harmless
    apply resolvesLikeManifest_of_ranges valid matched
    intro di inner
    rw [resolveExtent_eq_locate]
    rcases harmless with early | ⟨behind, nowhere⟩
    · rw [Data.locate_eq_some_iff]
      simp only [List.getElem?_map, Option.map_eq_some_iff, ← List.map_take]
      constructor
      · intro walked
        obtain ⟨width, ⟨slot, atSlot, sameWidth⟩, below, sum⟩ := walked
        rcases assignBases_runningSum positive atSlot with ⟨_, start, _⟩ | ⟨late, _⟩
        · exact ⟨slot, atSlot, by omega, by omega, by omega⟩
        · omega
      · intro inRange
        obtain ⟨slot, atSlot, low, high, offset⟩ := inRange
        rcases assignBases_runningSum positive atSlot with ⟨_, start, _⟩ | ⟨late, start⟩
        · exact ⟨_, ⟨slot, atSlot, rfl⟩, by omega, by omega⟩
        · omega
    · rw [Data.locate_eq_none_iff.mpr (by omega)]
      constructor
      · intro impossible
        cases impossible
      · intro inRange
        obtain ⟨slot, atSlot, low, high, _⟩ := inRange
        obtain ⟨idx, device, sb, listed, usable, _, start, width⟩ := assignBases_slot atSlot
        exact absurd ⟨by omega, by omega⟩ (nowhere idx device listed (present_of_ok usable))

end Resolution

def smallDisk (uuid : UInt8) : SuperBlock where
  uuid := List.replicate 16 uuid
  layoutVersion := layoutVersion
  deviceGeneration := 1
  extentSize := 4194304
  checkpointOffset := 1048576
  checkpointLen := 4096
  dataStart := 1056768
  dataEnd := 67108864
  features := 7
  metadataOffset := 0
  metadataLen := 0

def smallEntry (uuid : UInt8) (path : String) : DeviceEntry where
  uuid := List.replicate 16 uuid
  path := path
  capacity := 67108864
  extentCount := 15
  weight := 1
  addedAt := 0

def smallPool : PoolManifest :=
  ⟨[smallEntry 1 "/dev/a", smallEntry 2 "/dev/b"]⟩

theorem resolveExtent_like_manifest_last_missing :
    ∃ slots degraded, assemblePool smallPool [.ok (smallDisk 1), .error "gone"] =
        .ok (slots, degraded) ∧
      ResolvesLikeManifest smallPool [.ok (smallDisk 1), .error "gone"] slots 14 := by
  have assembled : assemblePool smallPool [.ok (smallDisk 1), .error "gone"] =
      .ok ([⟨smallDisk 1, 0, 15, 1⟩], ["/dev/b: open failed: gone"]) := by decide
  refine ⟨_, _, assembled, ?_⟩
  apply (resolveExtent_like_manifest_iff (by rfl) (by rfl) assembled 14).mpr
  left
  decide

theorem resolveExtent_wrong_first_missing :
    smallPool.validate = .ok () ∧
      assemblePool smallPool [.error "gone", .ok (smallDisk 2)] =
        .ok ([⟨smallDisk 2, 15, 15, 1⟩], ["/dev/a: open failed: gone"]) ∧
      smallPool.resolve 3 = .ok (0, 3) ∧
      resolveExtent [⟨smallDisk 2, 15, 15, 1⟩] 3 = some (0, 3) ∧
      smallPool.resolve 18 = .ok (1, 3) ∧
      resolveExtent [⟨smallDisk 2, 15, 15, 1⟩] 18 = none := by
  refine ⟨rfl, ?_, rfl, rfl, rfl, rfl⟩
  decide

end FastS3.Engine
