import FastS3.Core.KeyGroup
import Mathlib.Algebra.Order.Group.Multiset

namespace FastS3.Core

open Data

/-! The rows of a key: which of them a version is read from, and all of them together. -/

namespace KeyGroup

section Resolving

variable {α : Type} [VersionRecord α] (group : KeyGroup α)

def nullRow : Option (Option Vk) :=
  match group.single.map VersionRecord.mtime, group.nullSlot.map VersionRecord.mtime with
  | some l, some n => some (if l ≥ n then none else some vkNull)
  | some _, none => some none
  | none, some _ => some (some vkNull)
  | none, none => none

def currentRow : Option (Option Vk) :=
  match (pickNull group.single group.nullSlot).map VersionRecord.mtime,
    group.maxReal.map Prod.fst with
  | some time, some vk =>
    if time > (vkTimeUs vk / 1000000 : Nat) then group.nullRow else some (some vk)
  | some _, none => group.nullRow
  | none, real => real.map some

/-- The row that `resolve_object_entry` reads. -/
def resolveRow (version : Option Vk) : Option (Option Vk) :=
  match version with
  | none => group.currentRow
  | some vk =>
    if vk = vkNull then
      if group.single.isSome then some none
      else if group.nullSlot.isSome then some (some vkNull)
      else none
    else if (group.versions.get? vk).isSome then some (some vk)
    else none

end Resolving

section Largest

variable {α : Type} {group : KeyGroup α} {slot : Option Vk} {m : α}

theorem maxReal_held {vk : Vk} (last : group.maxReal = some (vk, m)) :
    group.versions.get? vk = some m ∧ vk ≠ vkNull := by
  have member := List.mem_of_getLast? last
  rw [List.mem_filter, decide_eq_true_eq] at member
  exact ⟨BTreeMap.get?_eq_some_iff.mpr member.1, member.2⟩

theorem maxReal_fst (group : KeyGroup α) :
    group.maxReal.map Prod.fst =
      ((group.versions.entries.map Prod.fst).filter fun vk => vk ≠ vkNull).getLast? := by
  rw [maxReal, List.filter_map, List.getLast?_map]
  rfl

inductive Stands (group : KeyGroup α) : Option α → Option (Option Vk) → Prop where
  | absent : Stands group none none
  | stored {slot : Option Vk} {m : α} (held : group.row slot = some m) :
      Stands group (some m) (some slot)

theorem Stands.eq_some_iff {found : Option α} {place : Option (Option Vk)}
    (stands : group.Stands found place) :
    found = some m ↔ ∃ slot, place = some slot ∧ group.row slot = some m := by
  cases stands with
  | absent => simp
  | stored held => simp [held]

end Largest

section Reading

variable {α : Type} [VersionRecord α] {group : KeyGroup α} {version : Option Vk} {slot : Option Vk}
  {m : α}

theorem pickNull_time (legacy nullSlot : Option α) :
    (pickNull legacy nullSlot).map VersionRecord.mtime =
      match legacy.map VersionRecord.mtime, nullSlot.map VersionRecord.mtime with
      | some l, some n => some (if l ≥ n then l else n)
      | some l, none => some l
      | none, n => n := by
  cases legacy with
  | none => rfl
  | some l =>
    cases nullSlot with
    | none => rfl
    | some n =>
      simp only [pickNull, Option.map_some]
      split
      · rfl
      · rfl

theorem nullRow_stands : group.Stands (pickNull group.single group.nullSlot) group.nullRow := by
  have slotRow : group.row (some vkNull) = group.nullSlot := rfl
  have singleRow : group.row none = group.single := rfl
  unfold nullRow
  cases single : group.single with
  | none =>
    cases nullSlot : group.nullSlot with
    | none => exact .absent
    | some n => exact .stored (slotRow.trans nullSlot)
  | some l =>
    cases nullSlot : group.nullSlot with
    | none => exact .stored (singleRow.trans single)
    | some n =>
      simp only [pickNull, Option.map_some]
      split
      · exact .stored (singleRow.trans single)
      · exact .stored (slotRow.trans nullSlot)

theorem currentRow_stands : group.Stands (group.current.map Prod.snd) group.currentRow := by
  have family : group.Stands (pickNull group.single group.nullSlot) group.nullRow := nullRow_stands
  unfold current pickCurrent currentRow
  cases chosen : pickNull group.single group.nullSlot with
  | none =>
    cases last : group.maxReal with
    | none => exact .absent
    | some real =>
      have held : group.row (some real.1) = some real.2 := (maxReal_held last).1
      exact .stored held
  | some n =>
    rw [chosen] at family
    cases last : group.maxReal with
    | none => exact family
    | some real =>
      have held : group.row (some real.1) = some real.2 := (maxReal_held last).1
      simp only [Option.map_some]
      split
      · exact family
      · exact .stored held

theorem resolveRow_stands (version : Option Vk) :
    group.Stands (group.resolveEntry version) (group.resolveRow version) := by
  cases version with
  | none => exact currentRow_stands
  | some vk =>
    have slotRow : group.row (some vkNull) = group.nullSlot := rfl
    have singleRow : group.row none = group.single := rfl
    have versionRow : group.row (some vk) = group.versions.get? vk := rfl
    rw [resolveEntry, resolveRow]
    by_cases null : vk = vkNull
    · rw [if_pos null, if_pos null]
      cases single : group.single with
      | some l => exact .stored (singleRow.trans single)
      | none =>
        cases nullSlot : group.nullSlot with
        | none => exact .absent
        | some n => exact .stored (slotRow.trans nullSlot)
    · rw [if_neg null, if_neg null]
      cases held : group.versions.get? vk with
      | none => exact .absent
      | some found => exact .stored (versionRow.trans held)

theorem resolveEntry_eq_some_iff :
    group.resolveEntry version = some m ↔
      ∃ slot, group.resolveRow version = some slot ∧ group.row slot = some m :=
  (resolveRow_stands version).eq_some_iff

theorem resolveRow_congr {after : KeyGroup α}
    (same : ∀ slot, (after.row slot).map VersionRecord.mtime = (group.row slot).map VersionRecord.mtime)
    (version : Option Vk) : after.resolveRow version = group.resolveRow version := by
  have there : ∀ slot, (after.row slot).isSome = (group.row slot).isSome := by
    intro slot
    rw [← Option.isSome_map (f := VersionRecord.mtime), same, Option.isSome_map]
  have single : (after.single).map VersionRecord.mtime = (group.single).map VersionRecord.mtime :=
    same none
  have nullSlot : (after.nullSlot).map VersionRecord.mtime = (group.nullSlot).map VersionRecord.mtime :=
    same (some vkNull)
  have largest : after.maxReal.map Prod.fst = group.maxReal.map Prod.fst := by
    rw [maxReal_fst, maxReal_fst, BTreeMap.keys_eq fun vk => there (some vk)]
  have sameRow : after.nullRow = group.nullRow := by
    rw [nullRow, nullRow, single, nullSlot]
  have sameTime : (pickNull after.single after.nullSlot).map VersionRecord.mtime =
      (pickNull group.single group.nullSlot).map VersionRecord.mtime := by
    rw [pickNull_time, pickNull_time, single, nullSlot]
  cases version with
  | none => rw [resolveRow, resolveRow, currentRow, currentRow, sameRow, sameTime, largest]
  | some vk =>
    have singleThere : after.single.isSome = group.single.isSome := there none
    have slotThere : after.nullSlot.isSome = group.nullSlot.isSome := there (some vkNull)
    have versionThere : (after.versions.get? vk).isSome = (group.versions.get? vk).isSome :=
      there (some vk)
    rw [resolveRow, resolveRow, singleThere, slotThere, versionThere]

end Reading

section Rows

variable {α : Type} {group : KeyGroup α} {slot other : Option Vk} {m : α}

theorem row_put (group : KeyGroup α) (slot other : Option Vk) (m : α) :
    (group.put slot m).row other = if other = slot then some m else group.row other := by
  cases slot with
  | none =>
    cases other with
    | none => rfl
    | some vk => rfl
  | some vk =>
    cases other with
    | none => rfl
    | some vk' =>
      change (group.versions.insert vk m).get? vk' = _
      rw [BTreeMap.get?_insert]
      by_cases same : vk' = vk
      · rw [if_pos same, if_pos (congrArg some same)]
      · rw [if_neg same, if_neg fun equal => same (Option.some.inj equal)]
        rfl

theorem row_erase (group : KeyGroup α) (slot other : Option Vk) :
    (group.erase slot).row other = if other = slot then none else group.row other := by
  cases slot with
  | none =>
    cases other with
    | none => rfl
    | some vk => rfl
  | some vk =>
    cases other with
    | none => rfl
    | some vk' =>
      change (group.versions.erase vk).get? vk' = _
      rw [BTreeMap.get?_erase]
      by_cases same : vk' = vk
      · rw [if_pos same, if_pos (congrArg some same)]
      · rw [if_neg same, if_neg fun equal => same (Option.some.inj equal)]
        rfl

def records (group : KeyGroup α) : Multiset α :=
  ((group.single.toList ++ group.versions.values : List α) : Multiset α)

@[simp] theorem records_empty : (empty : KeyGroup α).records = 0 := rfl

theorem records_erase (group : KeyGroup α) (slot : Option Vk) :
    (group.erase slot).records + ((group.row slot).toList : Multiset α) = group.records := by
  cases slot with
  | none =>
    rw [records, records, ← Multiset.coe_add, ← Multiset.coe_add, add_comm]
    change _ + (((none : Option α).toList : Multiset α) + (group.versions.values : Multiset α)) = _
    simp [row]
  | some vk =>
    have values : ((group.versions.erase vk).values : Multiset α) +
        ((group.versions.get? vk).toList : Multiset α) = (group.versions.values : Multiset α) := by
      cases held : group.versions.get? vk with
      | none => simp [BTreeMap.erase_of_get? held]
      | some old =>
        have perm := (BTreeMap.entries_perm held).map Prod.snd
        rw [BTreeMap.values, BTreeMap.values, Multiset.coe_eq_coe.mpr perm, List.map_cons,
          Option.toList_some, add_comm]
        rfl
    rw [records, records, ← Multiset.coe_add, ← Multiset.coe_add, add_assoc]
    exact congrArg _ values

theorem records_put (group : KeyGroup α) (slot : Option Vk) (m : α) :
    (group.put slot m).records + ((group.row slot).toList : Multiset α) = m ::ₘ group.records := by
  have stored : (group.put slot m).records = m ::ₘ (group.erase slot).records := by
    cases slot with
    | none => rfl
    | some vk =>
      have perm := (group.versions.insert_perm vk m).map Prod.snd
      have values : ((group.versions.insert vk m).values : Multiset α) =
          m ::ₘ ((group.versions.erase vk).values : Multiset α) := Multiset.coe_eq_coe.mpr perm
      rw [records, records, ← Multiset.coe_add, ← Multiset.coe_add]
      change _ + ((group.versions.insert vk m).values : Multiset α) = _
      rw [values, Multiset.add_cons]
      rfl
  rw [stored, Multiset.cons_add, records_erase]

end Rows

end KeyGroup

end FastS3.Core
