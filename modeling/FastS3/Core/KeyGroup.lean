import FastS3.Core.Object
import FastS3.Data.BTreeMap
import FastS3.Data.Lexicographic

namespace FastS3.Core

open Data

/-! The stored versions of a key.

A key has a row of its own, from before its bucket had versions, and rows under version keys, of which
one is the null slot.  The row and the null slot are the null family.
-/

/-- What decides which version is the current one, and whether it is an object. -/
class VersionRecord (α : Type) where
  mtime : α → Int
  isDeleteMarker : α → Bool

instance : VersionRecord ObjectMeta where
  mtime m := m.mtime
  isDeleteMarker m := m.isDeleteMarker

structure KeyGroup (α : Type) where
  single : Option α
  versions : BTreeMap Vk α

inductive Unreadable where
  | notFound
  | deleteMarker
deriving Repr, DecidableEq

namespace KeyGroup

variable {α : Type} [VersionRecord α] (group : KeyGroup α)

def empty : KeyGroup α :=
  ⟨none, .empty⟩

def nullSlot : Option α :=
  group.versions.get? vkNull

def maxReal : Option (Vk × α) :=
  (group.versions.entries.filter fun entry => entry.1 ≠ vkNull).getLast?

def pickNull (legacy nullSlot : Option α) : Option α :=
  match legacy, nullSlot with
  | some l, some n =>
    some (if VersionRecord.mtime l ≥ VersionRecord.mtime n then l else n)
  | some l, none => some l
  | none, n => n

/-- The rule of `d1a_pick_current`. -/
def pickCurrent (legacy nullSlot : Option α) (maxReal : Option (Vk × α)) : Option (Vk × α) :=
  match pickNull legacy nullSlot, maxReal with
  | some n, some (vk, real) =>
    if VersionRecord.mtime n > (vkTimeUs vk / 1000000 : Nat) then some (vkNull, n)
    else some (vk, real)
  | some n, none => some (vkNull, n)
  | none, real => real

def current : Option (Vk × α) :=
  pickCurrent group.single group.nullSlot group.maxReal

/-- `resolve_object_entry`: without a version the current one. -/
def resolveEntry (version : Option Vk) : Option α :=
  match version with
  | none => group.current.map Prod.snd
  | some vk =>
    if vk = vkNull then group.single.orElse fun _ => group.nullSlot
    else group.versions.get? vk

/-- `resolve_object` and `head_version`. -/
def head (version : Option Vk) : Except Unreadable α :=
  match group.resolveEntry version with
  | none => .error .notFound
  | some m => if VersionRecord.isDeleteMarker m then .error .deleteMarker else .ok m

def row : Option Vk → Option α
  | none => group.single
  | some vk => group.versions.get? vk

def put (slot : Option Vk) (m : α) : KeyGroup α :=
  match slot with
  | none => { group with single := some m }
  | some vk => { group with versions := group.versions.insert vk m }

def erase (slot : Option Vk) : KeyGroup α :=
  match slot with
  | none => { group with single := none }
  | some vk => { group with versions := group.versions.erase vk }

/-- The row that a version names: a null version is the row of the key where there is one. -/
def slotOf (version : Option Vk) : Option Vk :=
  match version with
  | none => none
  | some vk => if vk = vkNull ∧ group.single.isSome then none else some vk

end KeyGroup

namespace KeyGroup

section Rows

variable {α : Type} {group : KeyGroup α} {slot : Option Vk} {m : α}

theorem put_eq_self_iff : group.put slot m = group ↔ group.row slot = some m := by
  cases slot with
  | none =>
    constructor
    · intro same
      rw [row, ← same]
      rfl
    · intro held
      rw [put, ← held]
      rfl
  | some vk =>
    rw [row, ← BTreeMap.insert_eq_self_iff]
    constructor
    · intro same
      exact congrArg KeyGroup.versions same
    · intro same
      rw [put, same]

theorem erase_put_eq_self_iff : (group.put slot m).erase slot = group ↔ group.row slot = none := by
  cases slot with
  | none =>
    constructor
    · intro same
      rw [row, ← same]
      rfl
    · intro absent
      change ({ group with single := none } : KeyGroup α) = group
      rw [← absent]
      rfl
  | some vk =>
    have restored : (group.versions.insert vk m).erase vk = group.versions ↔
        group.versions.get? vk = none := BTreeMap.erase_insert_eq_self_iff
    rw [row, ← restored]
    constructor
    · intro same
      exact congrArg KeyGroup.versions same
    · intro same
      change ({ group with versions := (group.versions.insert vk m).erase vk } : KeyGroup α) = group
      rw [same]

end Rows

end KeyGroup

end FastS3.Core
