import FastS3.Data.Areas
import FastS3.Data.Fallible
import FastS3.Engine.Writer

namespace FastS3.Engine

open Alloc FastS3.Core Data Device

/-! Where the bytes of an extent are, and what each step leaves of them.

The data areas of the extents are seen as one map from extent and offset to bytes.
A block write changes one range of one area; header writes, reads and flushes change
none.
-/

namespace EngineState

def data (e : EngineState) (id position : Nat) : UInt8 :=
  match resolveExtent e.devices id with
  | none => 0
  | some (di, localExtent) =>
    match e.devices[di]? with
    | none => 0
    | some slot =>
      match e.disks[di]? with
      | none => 0
      | some disk =>
        if position < e.mainSb.extentCapacity then
          disk.content (slot.dataOffset localExtent + position)
        else 0

/-- The main superblock is valid and every device has its extent size. -/
structure Uniform (e : EngineState) : Prop where
  main : e.mainSb.validate = .ok ()
  size : ∀ slot ∈ e.devices, slot.sb.extentSize = e.mainSb.extentSize
  disks : e.disks.length = e.devices.length
  table : e.openExtents.length = e.devices.length
  chunkSize : e.chunkSize = defaultChunkSize

structure Fixed (e e' : EngineState) : Prop where
  devices : e'.devices = e.devices
  mainSb : e'.mainSb = e.mainSb
  chunkSize : e'.chunkSize = e.chunkSize
  disks : e'.disks.length = e.disks.length
  table : e'.openExtents.length = e.openExtents.length

theorem Fixed.refl (e : EngineState) : Fixed e e :=
  ⟨rfl, rfl, rfl, rfl, rfl⟩

theorem Fixed.trans {e middle e' : EngineState} (first : Fixed e middle)
    (second : Fixed middle e') : Fixed e e' where
  devices := second.devices.trans first.devices
  mainSb := second.mainSb.trans first.mainSb
  chunkSize := second.chunkSize.trans first.chunkSize
  disks := second.disks.trans first.disks
  table := second.table.trans first.table

theorem Uniform.of_fixed {e e' : EngineState} (uniform : Uniform e) (fixed : Fixed e e') :
    Uniform e' where
  main := fixed.mainSb ▸ uniform.main
  size := by
    rw [fixed.devices, fixed.mainSb]
    exact uniform.size
  disks := by rw [fixed.disks, fixed.devices, uniform.disks]
  table := by rw [fixed.table, fixed.devices, uniform.table]
  chunkSize := fixed.chunkSize.trans uniform.chunkSize

end EngineState

theorem validate_bounds {sb : SuperBlock} (valid : sb.validate = .ok ()) :
    1048576 ≤ sb.extentSize ∧ sb.extentSize ≤ 16777216 ∧ 4096 ∣ sb.extentSize := by
  unfold SuperBlock.validate at valid
  split at valid
  · cases valid
  · next range =>
    split at valid
    · cases valid
    · next aligned =>
      simp only [sectorSize, ne_eq, not_not] at aligned
      exact ⟨by omega, by omega, Nat.dvd_of_mod_eq_zero aligned⟩

theorem resolveExtent_inj {devices : List DeviceSlot} {id other : Nat} {found : Nat × Nat}
    (first : resolveExtent devices id = some found)
    (second : resolveExtent devices other = some found) : id = other := by
  obtain ⟨di, localExtent⟩ := found
  rw [resolveExtent_eq_locate] at first second
  obtain ⟨_, _, _, sum⟩ := locate_eq_some_iff.mp first
  obtain ⟨_, _, _, sum'⟩ := locate_eq_some_iff.mp second
  omega

theorem resolveExtent_slot {devices : List DeviceSlot} {id di localExtent : Nat}
    (found : resolveExtent devices id = some (di, localExtent)) :
    ∃ slot, devices[di]? = some slot := by
  rw [resolveExtent_eq_locate] at found
  obtain ⟨width, entry, _, _⟩ := locate_eq_some_iff.mp found
  rw [List.getElem?_map, Option.map_eq_some_iff] at entry
  obtain ⟨slot, entry, _⟩ := entry
  exact ⟨slot, entry⟩

section Calls

variable {e e' : EngineState} {di off : Nat}

theorem writeAll_ok {data : Bytes} (run : writeAll di data off e = .ok () e') :
    ∃ disk, e.disks[di]? = some disk ∧
      e' = e.setDisk di (disk.nextFault.2.store data off) := by
  revert run
  fun_cases writeAll di data off e with
  | case1 => rintro ⟨⟩
  | case2 disk found next fault =>
    rintro ⟨⟩
    exact ⟨disk, found, by rw [fault]⟩
  | case3 => rintro ⟨⟩

theorem readExact_ok {len : Nat} {bytes : Bytes} (run : readExact di off len e = .ok bytes e') :
    ∃ disk, e.disks[di]? = some disk ∧ bytes = disk.read off len ∧
      e' = e.setDisk di disk.nextFault.2 := by
  revert run
  fun_cases readExact di off len e with
  | case1 => rintro ⟨⟩
  | case2 disk found next fault =>
    rintro ⟨⟩
    have same : next.content = disk.content := by
      rw [← disk.nextFault_content, fault]
    refine ⟨disk, found, ?_, by rw [fault]⟩
    simp only [BlockDevice.read, same]
  | case3 => rintro ⟨⟩

theorem fsync_ok (run : fsync di e = .ok () e') :
    ∃ disk, e.disks[di]? = some disk ∧
      e' = e.setDisk di disk.nextFault.2 := by
  revert run
  fun_cases fsync di e with
  | case1 => rintro ⟨⟩
  | case2 disk found next fault =>
    rintro ⟨⟩
    exact ⟨disk, found, by rw [fault]⟩
  | case3 => rintro ⟨⟩

theorem locateExtent_ok {id : Nat} {missing : Error} {found : Nat × Nat}
    (run : locateExtent id missing e = .ok found e') :
    resolveExtent e.devices id = some found ∧ e = e' := by
  unfold locateExtent at run
  cases place : resolveExtent e.devices id with
  | none => simp [place] at run
  | some answer =>
    simp only [place, EStateM.Result.ok.injEq] at run
    exact ⟨by rw [run.1], run.2⟩

theorem expect_ok {α : Type} {message : String} {option : Option α} {value : α}
    (run : expect message option e = .ok value e') : option = some value ∧ e = e' := by
  cases option with
  | none => simp [expect] at run
  | some found =>
    obtain ⟨rfl, rfl⟩ := pure_eq_ok.mp run
    exact ⟨rfl, rfl⟩

theorem slotAt_ok {slot : DeviceSlot} (run : slotAt di e = .ok slot e') :
    e.devices[di]? = some slot ∧ e = e' := by
  obtain ⟨_, _, got, rest⟩ := bind_eq_ok.mp run
  obtain ⟨rfl, rfl⟩ := get_eq_ok.mp got
  exact expect_ok rest

theorem extentDataOffset_ok {id result : Nat} (run : extentDataOffset id e = .ok result e') :
    ∃ di localExtent slot, resolveExtent e.devices id = some (di, localExtent) ∧
      e.devices[di]? = some slot ∧ result = slot.dataOffset localExtent ∧ e = e' := by
  simp only [extentDataOffset, bind_eq_ok, Prod.exists, pure_eq_ok] at run
  obtain ⟨di, localExtent, _, located, slot, _, found, rfl, rfl⟩ := run
  obtain ⟨place, rfl⟩ := locateExtent_ok located
  obtain ⟨entry, rfl⟩ := slotAt_ok found
  exact ⟨di, localExtent, slot, place, entry, rfl, rfl⟩

theorem extentHeaderOffset_ok {id result : Nat} (run : extentHeaderOffset id e = .ok result e') :
    ∃ di localExtent slot, resolveExtent e.devices id = some (di, localExtent) ∧
      e.devices[di]? = some slot ∧ result = slot.headerOffset localExtent ∧ e = e' := by
  simp only [extentHeaderOffset, bind_eq_ok, Prod.exists, pure_eq_ok] at run
  obtain ⟨di, localExtent, _, located, slot, _, found, rfl, rfl⟩ := run
  obtain ⟨place, rfl⟩ := locateExtent_ok located
  obtain ⟨entry, rfl⟩ := slotAt_ok found
  exact ⟨di, localExtent, slot, place, entry, rfl, rfl⟩

end Calls

namespace EngineState

variable {e : EngineState} {id di localExtent : Nat} {slot : DeviceSlot} {disk : BlockDevice}

theorem Uniform.capacity (uniform : Uniform e) :
    e.mainSb.extentCapacity + 4096 = e.mainSb.extentSize ∧ 4096 ∣ e.mainSb.extentCapacity ∧
      65536 ≤ e.mainSb.extentCapacity ∧ e.mainSb.extentCapacity < 16777216 := by
  obtain ⟨low, high, aligned⟩ := validate_bounds uniform.main
  have header : e.mainSb.extentCapacity = e.mainSb.extentSize - 4096 := rfl
  exact ⟨by omega, by omega, by omega, by omega⟩

theorem data_of_place (place : resolveExtent e.devices id = some (di, localExtent))
    (entry : e.devices[di]? = some slot) (mounted : e.disks[di]? = some disk) {position : Nat}
    (inside : position < e.mainSb.extentCapacity) :
    e.data id position = disk.content (slot.dataOffset localExtent + position) := by
  simp only [data, place, entry, mounted, inside, if_true]

theorem read_of_place (place : resolveExtent e.devices id = some (di, localExtent))
    (entry : e.devices[di]? = some slot) (mounted : e.disks[di]? = some disk) {off len : Nat}
    (inside : off + len ≤ e.mainSb.extentCapacity) :
    disk.read (slot.dataOffset localExtent + off) len = readArea e.data id off len := by
  apply List.map_congr_left
  intro i below
  have below := List.mem_range.mp below
  rw [data_of_place place entry mounted (by omega), Nat.add_assoc]

theorem data_beyond (e : EngineState) (id : Nat) {position : Nat}
    (outside : ¬position < e.mainSb.extentCapacity) : e.data id position = 0 := by
  simp only [data, outside, if_false]
  split
  · rfl
  · split
    · rfl
    · split <;> rfl

theorem fixed_setDisk (e : EngineState) (di : Nat) (disk : BlockDevice) :
    Fixed e (e.setDisk di disk) :=
  ⟨rfl, rfl, rfl, by simp [setDisk], rfl⟩

theorem disks_setDisk (mounted : e.disks[di]? = some disk) (next : BlockDevice) :
    (e.setDisk di next).disks[di]? = some next := by
  rw [List.getElem?_eq_some_iff] at mounted
  exact List.getElem?_set_self mounted.1

theorem data_setDisk_of_other {other : Nat} (next : BlockDevice)
    (elsewhere : ∀ localExtent, resolveExtent e.devices other ≠ some (di, localExtent)) :
    (e.setDisk di next).data other = e.data other := by
  funext position
  simp only [data, setDisk]
  cases place : resolveExtent e.devices other with
  | none => rfl
  | some found =>
    obtain ⟨di', localExtent⟩ := found
    have device : di ≠ di' := by
      intro same
      subst same
      exact elsewhere localExtent place
    simp only [List.getElem?_set_ne device]
    rfl

theorem data_setDisk (mounted : e.disks[di]? = some disk) {next : BlockDevice}
    {area : Nat → Nat → UInt8}
    (here : ∀ id localExtent slot position, resolveExtent e.devices id = some (di, localExtent) →
      e.devices[di]? = some slot → position < e.mainSb.extentCapacity →
      next.content (slot.dataOffset localExtent + position) = area id position)
    (elsewhere : ∀ id position,
      (∀ localExtent, resolveExtent e.devices id ≠ some (di, localExtent)) ∨
        ¬position < e.mainSb.extentCapacity → area id position = e.data id position) :
    (e.setDisk di next).data = area := by
  funext id position
  by_cases inside : position < e.mainSb.extentCapacity
  · by_cases placed : ∃ localExtent, resolveExtent e.devices id = some (di, localExtent)
    · obtain ⟨localExtent, place⟩ := placed
      obtain ⟨slot, entry⟩ := resolveExtent_slot place
      rw [← here id localExtent slot position place entry inside]
      exact data_of_place (e := e.setDisk di next) place entry (disks_setDisk mounted next) inside
    · have apart : ∀ localExtent, resolveExtent e.devices id ≠ some (di, localExtent) :=
        not_exists.mp placed
      rw [data_setDisk_of_other next apart, elsewhere id position (.inl apart)]
  · rw [elsewhere id position (.inr inside), data_beyond e id inside,
      data_beyond (e.setDisk di next) id inside]

theorem data_of_read (mounted : e.disks[di]? = some disk) :
    (e.setDisk di disk.nextFault.2).data = e.data := by
  apply data_setDisk mounted
  · intro id localExtent slot position place entry inside
    rw [data_of_place place entry mounted inside, BlockDevice.nextFault_content]
  · intro id position _
    rfl

theorem Uniform.places_apart (uniform : Uniform e) (entry : e.devices[di]? = some slot)
    {left right : Nat} (different : left ≠ right) {position : Nat}
    (inside : position < e.mainSb.extentCapacity) :
    slot.dataOffset right + position < slot.headerOffset left ∨
      slot.headerOffset left + e.mainSb.extentSize ≤ slot.dataOffset right + position := by
  have size := uniform.size slot (List.mem_of_getElem? entry)
  have room := uniform.capacity.1
  have header : extentHeaderSize = 4096 := rfl
  simp only [DeviceSlot.headerOffset, DeviceSlot.dataOffset, extentOffset, size]
  rcases Nat.lt_or_gt_of_ne different with before | after
  · have step := Nat.mul_le_mul_right e.mainSb.extentSize (Nat.succ_le_of_lt before)
    rw [Nat.succ_mul] at step
    omega
  · have step := Nat.mul_le_mul_right e.mainSb.extentSize (Nat.succ_le_of_lt after)
    rw [Nat.succ_mul] at step
    omega

theorem Uniform.data_of_write (uniform : Uniform e)
    (place : resolveExtent e.devices id = some (di, localExtent))
    (entry : e.devices[di]? = some slot) (mounted : e.disks[di]? = some disk) {bytes : Bytes}
    {off : Nat} (inside : off + bytes.length ≤ e.mainSb.extentCapacity) :
    (e.setDisk di (disk.nextFault.2.store bytes (slot.dataOffset localExtent + off))).data =
      writeArea e.data id off bytes := by
  have room := uniform.capacity.1
  have base : slot.dataOffset localExtent = slot.headerOffset localExtent + 4096 := rfl
  apply data_setDisk mounted
  · intro other localExtent' slot' position place' entry' reach
    obtain rfl : slot = slot' := Option.some.inj (entry.symm.trans entry')
    have old := data_of_place place' entry mounted reach
    simp only [BlockDevice.store, BlockDevice.nextFault, writeArea]
    by_cases same : other = id
    · subst same
      obtain rfl : localExtent = localExtent' := by
        simpa using place.symm.trans place'
      by_cases hit : off ≤ position
      · have shift : slot.dataOffset localExtent + position -
            (slot.dataOffset localExtent + off) = position - off := by omega
        by_cases covered : position - off < bytes.length
        · rw [if_pos (by omega), if_pos ⟨rfl, hit⟩, shift, List.getElem?_eq_getElem covered,
            Option.getD_some, List.getD_eq_getElem?_getD, List.getElem?_eq_getElem covered,
            Option.getD_some]
        · rw [if_neg (by omega), if_pos ⟨rfl, hit⟩, List.getElem?_eq_none (by omega),
            Option.getD_none, old]
      · rw [if_neg (by omega), if_neg (by omega), old]
    · have different : localExtent ≠ localExtent' := by
        intro equal
        subst equal
        exact same (resolveExtent_inj place' place)
      have apart := uniform.places_apart entry different reach
      rw [if_neg (by omega), if_neg (fun covered => same covered.1), old]
  · intro other position outside
    unfold writeArea
    split
    · next hit =>
      obtain ⟨rfl, above⟩ := hit
      rcases outside with elsewhere | beyond
      · exact absurd place (elsewhere localExtent)
      · rw [List.getElem?_eq_none (by omega), Option.getD_none]
    · rfl

theorem Uniform.data_of_header (uniform : Uniform e) (entry : e.devices[di]? = some slot)
    (mounted : e.disks[di]? = some disk) {bytes : Bytes} (short : bytes.length ≤ 4096) :
    (e.setDisk di (disk.nextFault.2.store bytes (slot.headerOffset localExtent))).data =
      e.data := by
  have room := uniform.capacity.1
  apply data_setDisk mounted
  · intro id localExtent' slot' position place entry' reach
    obtain rfl : slot = slot' := Option.some.inj (entry.symm.trans entry')
    rw [data_of_place place entry mounted reach]
    have missed : ¬(slot.headerOffset localExtent ≤ slot.dataOffset localExtent' + position ∧
        slot.dataOffset localExtent' + position <
          slot.headerOffset localExtent + bytes.length) := by
      by_cases same : localExtent = localExtent'
      · subst same
        have base : slot.dataOffset localExtent = slot.headerOffset localExtent + 4096 := rfl
        omega
      · have apart := uniform.places_apart entry same reach
        omega
    simp only [BlockDevice.store, BlockDevice.nextFault]
    rw [if_neg missed]
  · intro id position _
    rfl

end EngineState

end FastS3.Engine
