import FastS3.Core.Bytes
import FastS3.Data.Ranges

namespace FastS3.Core

/-! The pool manifest and its derived numbering of extents: device `i` owns the
global ids that follow those of the devices before it. -/

structure DeviceEntry where
  uuid : Bytes
  path : String
  capacity : Nat
  extentCount : Nat
  weight : Nat
  addedAt : Int
deriving Repr, DecidableEq

structure PoolManifest where
  devices : List DeviceEntry
deriving Repr, DecidableEq

def u32Max : Nat := 2 ^ 32 - 1

namespace PoolManifest

def totalExtents (manifest : PoolManifest) : Nat :=
  (manifest.devices.map DeviceEntry.extentCount).sum

/-- The walk of `PoolManifest::resolve` from device `idx` on. -/
def resolveFrom (total : Nat) : Nat → Nat → List DeviceEntry → Nat → Except Error (Nat × Nat)
  | _, _, [], global =>
    .error (.invalidArgument s!"global extent id {global} out of pool range (limit {total})")
  | idx, base, device :: rest, global =>
    if device.extentCount = 0 then
      .error (.invalidArgument s!"device {idx} has zero extents")
    else if global < base + device.extentCount then .ok (idx, global - base)
    else resolveFrom total (idx + 1) (base + device.extentCount) rest global

def resolve (manifest : PoolManifest) (global : Nat) : Except Error (Nat × Nat) :=
  resolveFrom manifest.totalExtents 0 0 manifest.devices global

/-- The per-device part of `validate`, with the running total of extents. -/
def validateFrom : Nat → Nat → List DeviceEntry → Except Error Nat
  | _, total, [] => .ok total
  | i, total, device :: rest =>
    if device.extentCount = 0 then
      .error (.invalidArgument s!"device {i} has zero extents")
    else if device.weight = 0 then
      .error (.invalidArgument s!"device {i} weight must be > 0")
    else if total + device.extentCount ≥ 2 ^ 64 then
      .error (.invalidArgument "pool extent count overflow")
    else validateFrom (i + 1) (total + device.extentCount) rest

def validate (manifest : PoolManifest) : Except Error Unit :=
  if manifest.devices = [] then
    .error (.invalidArgument "pool manifest is empty")
  else do
    let total ← validateFrom 0 0 manifest.devices
    if total > u32Max then
      .error (.invalidArgument s!"pool exceeds u32 extent id space ({total} > {u32Max})")
    else .ok ()

theorem validateFrom_positive {i total result : Nat} {devices : List DeviceEntry}
    (checked : validateFrom i total devices = .ok result) :
    ∀ device ∈ devices, 0 < device.extentCount := by
  induction devices generalizing i total with
  | nil => simp
  | cons device rest ih =>
    simp only [validateFrom] at checked
    split at checked
    · cases checked
    · next nonzero =>
      split at checked
      · cases checked
      · split at checked
        · cases checked
        · intro other member
          rcases List.mem_cons.mp member with rfl | later
          · omega
          · exact ih checked other later

theorem validate_positive {manifest : PoolManifest} (valid : manifest.validate = .ok ()) :
    ∀ device ∈ manifest.devices, 0 < device.extentCount := by
  unfold validate at valid
  split at valid
  · cases valid
  · cases checked : validateFrom 0 0 manifest.devices with
    | error e =>
      rw [checked] at valid
      cases valid
    | ok total => exact validateFrom_positive checked

theorem resolveFrom_eq_ok_iff {total idx base global : Nat} {devices : List DeviceEntry}
    (positive : ∀ device ∈ devices, 0 < device.extentCount) {found : Nat × Nat} :
    resolveFrom total idx base devices global = .ok found ↔
      ∃ index, found.1 = idx + index ∧
        Data.locateFrom base (devices.map DeviceEntry.extentCount) global =
          some (index, found.2) := by
  induction devices generalizing idx base with
  | nil => simp [resolveFrom, Data.locateFrom]
  | cons device rest ih =>
    have nonzero : device.extentCount ≠ 0 := by
      have := positive device (by simp)
      omega
    simp only [resolveFrom, if_neg nonzero, List.map_cons, Data.locateFrom]
    by_cases inside : global < base + device.extentCount
    · obtain ⟨first, second⟩ := found
      simp only [inside, if_true, Except.ok.injEq, Prod.mk.injEq, Option.some.injEq]
      constructor
      · rintro ⟨rfl, rfl⟩
        exact ⟨0, rfl, rfl, rfl⟩
      · rintro ⟨_, rfl, rfl, rfl⟩
        exact ⟨rfl, rfl⟩
    · simp only [inside, if_false]
      rw [ih (fun other member => positive other (by simp [member]))]
      simp only [Option.map_eq_some_iff, Prod.mk.injEq, Prod.exists]
      constructor
      · rintro ⟨index, shifted, walked⟩
        exact ⟨index + 1, by omega, index, found.2, walked, rfl, rfl⟩
      · rintro ⟨_, shifted, index, _, walked, rfl, rfl⟩
        exact ⟨index, by omega, walked⟩

theorem resolve_eq_ok_iff {manifest : PoolManifest} (valid : manifest.validate = .ok ())
    {global idx inner : Nat} :
    manifest.resolve global = .ok (idx, inner) ↔
      Data.locate (manifest.devices.map DeviceEntry.extentCount) global = some (idx, inner) := by
  rw [resolve, resolveFrom_eq_ok_iff (validate_positive valid)]
  simp [Data.locate]

end PoolManifest

end FastS3.Core
