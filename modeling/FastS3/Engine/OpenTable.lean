import FastS3.Alloc.Allocate
import FastS3.Engine.Placement

namespace FastS3.Engine

open Alloc FastS3.Core Data Device

/-! What sealing and opening extents do to the table of open extents.

Neither stores object data.  Sealing takes an entry out of the table; a new entry is
an extent whose bit was clear, so that no record written before in the same object
can share it.
-/

namespace EngineState

def bit (e : EngineState) (id : Nat) : Bool :=
  e.alloc.bitmap.test id

structure Silent (e e' : EngineState) : Prop where
  fixed : e.Fixed e'
  data : e'.data = e.data
  bits : ∀ id, e.bit id = true → e'.bit id = true
  openExtents : e'.openExtents = e.openExtents
  curDevice : e'.curDevice = e.curDevice

theorem Silent.refl (e : EngineState) : Silent e e :=
  ⟨Fixed.refl e, rfl, fun _ held => held, rfl, rfl⟩

theorem Silent.trans {e middle e' : EngineState} (first : Silent e middle)
    (second : Silent middle e') : Silent e e' where
  fixed := first.fixed.trans second.fixed
  data := second.data.trans first.data
  bits := fun id held => second.bits id (first.bits id held)
  openExtents := second.openExtents.trans first.openExtents
  curDevice := second.curDevice.trans first.curDevice

theorem Silent.curOpen {e e' : EngineState} (silent : Silent e e') : e'.curOpen = e.curOpen := by
  rw [EngineState.curOpen, EngineState.curOpen, silent.openExtents, silent.curDevice]

theorem silent_setDisk {e : EngineState} {di : Nat} {disk : BlockDevice}
    (same : (e.setDisk di disk).data = e.data) : Silent e (e.setDisk di disk) :=
  ⟨fixed_setDisk e di disk, same, fun _ held => held, rfl, rfl⟩

theorem silent_of_bits (e : EngineState) {alloc : Allocator} (draft : Staged) (store : MetaStore)
    (choices : List Nat) (bits : ∀ id, e.bit id = true → alloc.bitmap.test id = true) :
    Silent e { e with alloc := alloc, draft := draft, store := store, choices := choices } :=
  ⟨⟨rfl, rfl, rfl, rfl, rfl⟩, rfl, bits, rfl, rfl⟩

structure Quiet (e e' : EngineState) : Prop where
  fixed : e.Fixed e'
  data : e'.data = e.data
  bits : ∀ id, e.bit id = true → e'.bit id = true
  opened : ∀ (di : Nat) (oe : OpenExtent), e'.openExtents[di]? = some (some oe) →
    ∃ old : OpenExtent, e.openExtents[di]? = some (some old) ∧ old.extentId = oe.extentId ∧
      old.watermark = oe.watermark

end EngineState

open EngineState

section Steps

variable {e e' : EngineState}

variable {di id capacity : Nat}

theorem readExact_silent {off len : Nat} {bytes : Bytes}
    (run : readExact di off len e = .ok bytes e') : Silent e e' := by
  obtain ⟨disk, mounted, _, rfl⟩ := readExact_ok run
  exact silent_setDisk (data_of_read mounted)

theorem fsync_silent (run : fsync di e = .ok () e') : Silent e e' := by
  obtain ⟨disk, mounted, rfl⟩ := fsync_ok run
  exact silent_setDisk (data_of_read mounted)

theorem draw_silent {choice : Nat} (run : draw e = .ok choice e') : Silent e e' := by
  obtain ⟨_, rfl⟩ := modifyGet_eq_ok.mp run
  exact silent_of_bits e e.draft e.store e.choices.tail fun _ held => held

theorem metaCall_silent (run : metaCall e = .ok () e') : Silent e e' := by
  unfold metaCall at run
  cases fault : e.store.faults.headD none with
  | some reason => simp only [fault, reduceCtorEq] at run
  | none =>
    simp only [fault, EStateM.Result.ok.injEq, true_and] at run
    subst run
    exact silent_of_bits e e.draft _ e.choices fun _ held => held

theorem markSealed_silent (run : markSealed id e = .ok () e') : Silent e e' := by
  obtain rfl := modify_eq_ok.mp run
  exact silent_of_bits e e.draft e.store e.choices fun _ held => held

theorem markOpen_silent (run : markOpen id e = .ok () e') : Silent e e' := by
  obtain rfl := modify_eq_ok.mp run
  exact silent_of_bits e e.draft e.store e.choices fun _ held => held

theorem restoreOccupancy_silent {live refcount : Nat}
    (run : restoreOccupancy id live refcount e = .ok () e') : Silent e e' := by
  obtain rfl := modify_eq_ok.mp run
  exact silent_of_bits e e.draft e.store e.choices fun _ held => held

theorem liveExtentOccupancy_silent {occupancy : Nat × Nat × Nat}
    (run : liveExtentOccupancy id e = .ok occupancy e') : Silent e e' := by
  simp only [liveExtentOccupancy, bind_eq_ok, get_eq_ok, pure_eq_ok] at run
  obtain ⟨_, first, scanned, _, second, again, _, _, ⟨rfl, rfl⟩, _, rfl⟩ := run
  exact (metaCall_silent scanned).trans (metaCall_silent again)

theorem writeExtentHeader_silent {packed : Bool} {crcs : List UInt32} (uniform : e.Uniform)
    (short : crcs.length ≤ 256) (run : writeExtentHeader id packed crcs e = .ok () e') :
    Silent e e' := by
  simp only [writeExtentHeader, bind_eq_ok, get_eq_ok, Prod.exists] at run
  obtain ⟨_, _, ⟨rfl, rfl⟩, di, localExtent, _, located, off, _, offset, run⟩ := run
  obtain ⟨place, rfl⟩ := locateExtent_ok located
  obtain ⟨di', localExtent', slot, place', entry, rfl, rfl⟩ := extentHeaderOffset_ok offset
  obtain ⟨rfl, rfl⟩ : di = di' ∧ localExtent = localExtent' := by
    simpa using place.symm.trans place'
  obtain ⟨disk, mounted, rfl⟩ := writeAll_ok run
  apply silent_setDisk
  apply uniform.data_of_header entry mounted
  cases packed with
  | true => simp [ExtentHeader.encode, ExtentHeader.body, extentHeaderSize, sectorSize, extentMagic]
  | false =>
    simp only [ExtentHeader.encode, ExtentHeader.body, List.length_append, leBytes_length,
      zeroBytes_length, List.length_flatMap, List.map_const', List.sum_replicate, nsmul_eq_mul,
      Nat.cast_id, Bool.false_eq_true, if_false]
    simp only [extentHeaderSize, sectorSize, extentMagic, List.length_cons, List.length_nil]
    omega

theorem computeExtentCrcs_silent {crcs : List UInt32}
    (run : computeExtentCrcs id capacity e = .ok crcs e') :
    Silent e e' ∧ crcs.length = divCeil capacity segmentCrcGrid := by
  simp only [computeExtentCrcs, bind_eq_ok, Prod.exists] at run
  obtain ⟨di, localExtent, _, located, base, _, offset, run⟩ := run
  obtain ⟨place, rfl⟩ := locateExtent_ok located
  obtain ⟨_, _, _, _, _, _, rfl⟩ := extentDataOffset_ok offset
  have kept := foldlM_ok (fun done (crcs : List UInt32) s => Silent e s ∧ crcs.length = done.length)
    run ⟨Silent.refl e, rfl⟩
  rw [List.length_range] at kept
  apply kept
  intro done i crcs middle crcs' next holds round
  simp only [bind_eq_ok, pure_eq_ok] at round
  obtain ⟨buf, _, read, rfl, rfl⟩ := round
  exact ⟨holds.1.trans (readExact_silent read), by simp [holds.2]⟩

theorem setOpen_none_of_empty (empty : (e.openExtents[di]?).join = none) :
    e.setOpen di none = e := by
  have same : e.openExtents.set di none = e.openExtents := by
    apply List.ext_getElem?
    intro i
    rw [List.getElem?_set]
    split
    · next here =>
      subst here
      split
      · next inside =>
        rw [List.getElem?_eq_getElem inside, Option.join_some] at empty
        rw [List.getElem?_eq_getElem inside, empty]
      · next outside => rw [List.getElem?_eq_none (Nat.le_of_not_lt outside)]
    · rfl
  rw [setOpen, same]

theorem fixed_setOpen (e : EngineState) (di : Nat) (oe : Option OpenExtent) :
    Fixed e (e.setOpen di oe) :=
  ⟨rfl, rfl, rfl, rfl, by simp [setOpen]⟩

theorem setOpen_uniform {oe : Option OpenExtent} (uniform : e.Uniform) :
    (e.setOpen di oe).Uniform :=
  uniform.of_fixed (fixed_setOpen e di oe)

theorem divCeil_grid_le (small : capacity < 16777216) : divCeil capacity segmentCrcGrid ≤ 256 := by
  unfold divCeil segmentCrcGrid
  omega

theorem slot_capacity {slot : DeviceSlot} (uniform : e.Uniform)
    (entry : e.devices[di]? = some slot) : slot.extentCapacity = e.mainSb.extentCapacity := by
  unfold DeviceSlot.extentCapacity SuperBlock.extentCapacity
  rw [uniform.size slot (List.mem_of_getElem? entry)]

theorem sealOpenExtentAt_silent (uniform : e.Uniform) (run : sealOpenExtentAt di e = .ok () e') :
    Silent (e.setOpen di none) e' := by
  simp only [sealOpenExtentAt, bind_eq_ok, get_eq_ok] at run
  obtain ⟨_, _, ⟨rfl, rfl⟩, run⟩ := run
  cases opened : (e.openExtents[di]?).join with
  | none =>
    simp only [opened, pure_eq_ok, true_and] at run
    subst run
    rw [setOpen_none_of_empty opened]
    exact Silent.refl e
  | some oe =>
    have uniform' : (e.setOpen di none).Uniform := setOpen_uniform uniform
    simp only [opened, bind_eq_ok, set_eq_ok] at run
    obtain ⟨_, _, rfl, slot, _, found, run⟩ := run
    obtain ⟨entry, rfl⟩ := slotAt_ok found
    have size := slot_capacity uniform entry
    split at run
    · simp only [bind_eq_ok] at run
      obtain ⟨crcs, _, computed, _, _, written, sealed⟩ := run
      obtain ⟨first, count⟩ := computeExtentCrcs_silent computed
      have short : crcs.length ≤ 256 := by
        rw [count, size]
        exact divCeil_grid_le uniform.capacity.2.2.2
      have second := writeExtentHeader_silent (uniform'.of_fixed first.fixed) short written
      exact (first.trans second).trans (markSealed_silent sealed)
    · simp only [bind_eq_ok] at run
      obtain ⟨_, _, written, sealed⟩ := run
      exact (writeExtentHeader_silent uniform' (by simp) written).trans (markSealed_silent sealed)

theorem pickDevice_silent (run : pickDevice e = .ok di e') : Silent e e' := by
  simp only [pickDevice, bind_eq_ok, get_eq_ok, pure_eq_ok] at run
  obtain ⟨choice, _, drawn, _, _, ⟨rfl, rfl⟩, _, rfl⟩ := run
  exact draw_silent drawn

theorem curOpen_eq_some {oe : OpenExtent} :
    e.curOpen = some oe ↔ e.openExtents[e.curDevice]? = some (some oe) := by
  rw [curOpen, Option.join_eq_some_iff]

theorem rotateForNewObject_quiet (uniform : e.Uniform)
    (run : rotateForNewObject e = .ok () e') :
    Quiet e e' ∧ ∀ oe, e'.curOpen = some oe → oe.watermark < e.mainSb.extentCapacity := by
  simp only [rotateForNewObject, bind_eq_ok, get_eq_ok, modify_eq_ok] at run
  obtain ⟨di, picked, chosen, _, _, rfl, slot, _, found, _, _, ⟨rfl, rfl⟩, run⟩ := run
  obtain ⟨entry, rfl⟩ := slotAt_ok found
  have first := pickDevice_silent chosen
  have uniform' := uniform.of_fixed first.fixed
  have size := slot_capacity uniform' entry
  rw [first.fixed.mainSb] at size
  -- the table so far, seen from the chosen device
  have moved : Quiet e { picked with curDevice := di } := by
    refine ⟨first.fixed.trans ⟨rfl, rfl, rfl, rfl, rfl⟩, first.data, first.bits, ?_⟩
    intro di' oe opened
    rw [show ({ picked with curDevice := di } : EngineState).openExtents = e.openExtents
      from first.openExtents] at opened
    exact ⟨oe, opened, rfl, rfl⟩
  cases opened : (picked.openExtents[di]?).join with
  | none =>
    simp only [opened, pure_eq_ok, true_and] at run
    subst run
    refine ⟨moved, fun oe current => ?_⟩
    rw [curOpen, opened] at current
    cases current
  | some oe =>
    simp only [opened] at run
    split at run
    · have uniform'' : ({ picked with curDevice := di } : EngineState).Uniform :=
        uniform.of_fixed moved.fixed
      have sealed := sealOpenExtentAt_silent uniform'' run
      have removed : e'.openExtents = picked.openExtents.set di none := sealed.openExtents
      refine ⟨⟨moved.fixed.trans ((fixed_setOpen _ di none).trans sealed.fixed),
        sealed.data.trans moved.data, fun id held => sealed.bits id (moved.bits id held), ?_⟩, ?_⟩
      · intro di' oe' entry'
        rw [removed, List.getElem?_set] at entry'
        split at entry'
        · split at entry' <;> cases entry'
        · exact moved.opened di' oe' entry'
      · intro oe' current
        have here : e'.curDevice = di := sealed.curDevice
        rw [curOpen_eq_some, removed, here, List.getElem?_set_self'] at current
        cases held : picked.openExtents[di]? <;> rw [held] at current <;> cases current
    · next room =>
      obtain ⟨_, rfl⟩ := pure_eq_ok.mp run
      refine ⟨moved, fun oe' current => ?_⟩
      rw [curOpen, opened] at current
      cases current
      simp only [not_or, Nat.not_le, ge_iff_le] at room
      omega

theorem allocateInRange_silent {start count : Nat} {found : Option Nat}
    (run : allocateInRange start count e = .ok found e') :
    Silent e e' ∧ ∀ id, found = some id → e.bit id = false ∧ e'.bit id = true := by
  simp only [allocateInRange, bind_eq_ok, modifyGet_eq_ok] at run
  obtain ⟨hint, middle, drawn, answer, rfl⟩ := run
  have first := draw_silent drawn
  obtain ⟨after, taken, parked, _, took, result⟩ :=
    Allocator.allocateInRange_cases middle.alloc middle.draft hint start count
  rw [result] at answer ⊢
  subst answer
  have same : middle.alloc.bitmap = e.alloc.bitmap := by
    obtain ⟨_, rfl⟩ := modifyGet_eq_ok.mp drawn
    rfl
  refine ⟨first.trans (silent_of_bits middle _ middle.store middle.choices ?_), ?_⟩
  · intro id held
    rw [took.bits, show middle.alloc.bitmap.test id = true from held, Bool.true_or]
  · intro id answer
    subst answer
    have clear := took.wasClear id (by simp)
    rw [same] at clear
    exact ⟨clear, (took.bits id).trans (by simp)⟩

theorem deviceSpaceWeights_silent {weights : List Nat}
    (run : deviceSpaceWeights e = .ok weights e') : Silent e e' := by
  simp only [deviceSpaceWeights, bind_eq_ok, get_eq_ok] at run
  obtain ⟨_, _, ⟨rfl, rfl⟩, run⟩ := run
  apply foldlM_ok (fun _ _ s => Silent e s) run (Silent.refl e)
  intro done slot acc middle acc' next holds round
  simp only [bind_eq_ok, pure_eq_ok] at round
  obtain ⟨_, _, drawn, _, rfl⟩ := round
  exact holds.trans (draw_silent drawn)

theorem deviceRotationOrder_silent {prefer : Option Nat} {order : List Nat}
    (run : deviceRotationOrder prefer e = .ok order e') : Silent e e' := by
  simp only [deviceRotationOrder, bind_eq_ok, get_eq_ok, pure_eq_ok] at run
  obtain ⟨_, _, ⟨rfl, rfl⟩, weights, _, weighed, _, rfl⟩ := run
  exact deviceSpaceWeights_silent weighed

/-- The current entry is new: its extent was not allocated before. -/
structure Opens (e e' : EngineState) (oe : OpenExtent) : Prop where
  fixed : e.Fixed e'
  data : e'.data = e.data
  bits : ∀ id, e.bit id = true → e'.bit id = true
  current : e'.curOpen = some oe
  wasClear : e.bit oe.extentId = false
  taken : e'.bit oe.extentId = true
  aligned : sectorSize ∣ oe.watermark
  room : oe.watermark < e.mainSb.extentCapacity
  placed : ∃ localExtent, resolveExtent e.devices oe.extentId = some (e'.curDevice, localExtent)
  others : ∀ di, di ≠ e'.curDevice → e'.openExtents[di]? = e.openExtents[di]?

theorem Opens.after {middle : EngineState} {oe : OpenExtent} (first : Silent e middle)
    (second : Opens middle e' oe) : Opens e e' oe where
  fixed := first.fixed.trans second.fixed
  data := second.data.trans first.data
  bits := fun id held => second.bits id (first.bits id held)
  current := second.current
  wasClear := by
    cases held : e.bit oe.extentId with
    | false => rfl
    | true => exact (first.bits _ held).symm.trans second.wasClear
  taken := second.taken
  aligned := second.aligned
  room := first.fixed.mainSb ▸ second.room
  placed := first.fixed.devices ▸ second.placed
  others := fun di other => (second.others di other).trans (by rw [first.openExtents])

theorem openOpenExtent_opens {watermark committed participants : Nat} {start : EngineState}
    (uniform : e.Uniform) (before : Silent start e) (wasClear : start.bit id = false)
    (taken : e.bit id = true) (aligned : sectorSize ∣ watermark)
    (room : watermark < e.mainSb.extentCapacity)
    (run : openOpenExtent id watermark committed participants e = .ok () e') :
    Opens start e' ⟨id, watermark, committed, participants⟩ := by
  simp only [openOpenExtent, bind_eq_ok, get_eq_ok, Prod.exists, set_eq_ok] at run
  obtain ⟨_, _, ⟨rfl, rfl⟩, di, localExtent, _, located, rfl⟩ := run
  obtain ⟨place, rfl⟩ := expect_ok located
  obtain ⟨slot, entry⟩ := resolveExtent_slot place
  have inside : di < e.openExtents.length := by
    rw [uniform.table]
    exact (List.getElem?_eq_some_iff.mp entry).1
  refine ⟨before.fixed.trans ⟨rfl, rfl, rfl, rfl, by simp [setOpen]⟩, before.data, before.bits,
    ?_, wasClear, taken, aligned, before.fixed.mainSb ▸ room,
    ⟨localExtent, before.fixed.devices ▸ place⟩, ?_⟩
  · rw [curOpen_eq_some]
    exact List.getElem?_set_self inside
  · intro di' other
    rw [← before.openExtents]
    exact List.getElem?_set_ne fun same => other same.symm

theorem openExtentOn_opens {attempts : Nat} {slot : DeviceSlot} {opened : Bool}
    (uniform : e.Uniform) (whole : capacity = e.mainSb.extentCapacity)
    (run : openExtentOn capacity slot attempts e = .ok opened e') :
    if opened then ∃ oe, Opens e e' oe else Silent e e' := by
  induction attempts generalizing e with
  | zero =>
    obtain ⟨rfl, rfl⟩ := pure_eq_ok.mp run
    exact Silent.refl e
  | succ attempts ih =>
    have positive : 0 < e.mainSb.extentCapacity := by
      have := uniform.capacity.2.2.1
      omega
    simp only [openExtentOn, bind_eq_ok] at run
    obtain ⟨found, allocated, taking, run⟩ := run
    obtain ⟨first, fresh⟩ := allocateInRange_silent taking
    cases found with
    | none =>
      obtain ⟨rfl, rfl⟩ := pure_eq_ok.mp run
      exact first
    | some id =>
      obtain ⟨wasClear, taken⟩ := fresh id rfl
      simp only [bind_eq_ok, Prod.exists] at run
      obtain ⟨maxEnd, liveSum, holders, scanned, occupancy, run⟩ := run
      have second := first.trans (liveExtentOccupancy_silent occupancy)
      have held := (liveExtentOccupancy_silent occupancy).bits id taken
      split at run
      · simp only [bind_eq_ok, pure_eq_ok] at run
        obtain ⟨_, marked, marking, _, _, opening, rfl, rfl⟩ := run
        have third := second.trans (markOpen_silent marking)
        exact ⟨_, openOpenExtent_opens (uniform.of_fixed third.fixed) third wasClear
          ((markOpen_silent marking).bits id held) (Nat.dvd_zero _)
          (by rw [third.fixed.mainSb]; exact positive) opening⟩
      · simp only [bind_eq_ok] at run
        obtain ⟨_, restored, restoring, run⟩ := run
        have third := second.trans (restoreOccupancy_silent restoring)
        have held' := (restoreOccupancy_silent restoring).bits id held
        split at run
        · next fits =>
          simp only [bind_eq_ok, pure_eq_ok] at run
          obtain ⟨_, marked, marking, _, _, opening, rfl, rfl⟩ := run
          have fourth := third.trans (markOpen_silent marking)
          exact ⟨_, openOpenExtent_opens (uniform.of_fixed fourth.fixed) fourth wasClear
            ((markOpen_silent marking).bits id held') (dvd_alignUp _ _)
            (by rw [fourth.fixed.mainSb, ← whole]; exact fits) opening⟩
        · simp only [bind_eq_ok] at run
          obtain ⟨_, sealed, sealing, run⟩ := run
          have fourth := third.trans (markSealed_silent sealing)
          have later := ih (uniform.of_fixed fourth.fixed)
            (whole.trans (by rw [fourth.fixed.mainSb])) run
          cases opened with
          | true =>
            obtain ⟨oe, opens⟩ := later
            exact ⟨oe, opens.after fourth⟩
          | false => exact fourth.trans later

theorem openExtentAmong_opens {order : List Nat} (uniform : e.Uniform)
    (whole : capacity = e.mainSb.extentCapacity)
    (run : openExtentAmong capacity order e = .ok () e') : ∃ oe, Opens e e' oe := by
  induction order generalizing e with
  | nil => cases throw_eq_ok.mp run
  | cons di rest ih =>
    simp only [openExtentAmong, bind_eq_ok] at run
    obtain ⟨slot, _, found, opened, middle, attempt, run⟩ := run
    obtain ⟨_, rfl⟩ := slotAt_ok found
    have outcome := openExtentOn_opens uniform whole attempt
    cases opened with
    | true =>
      obtain ⟨_, rfl⟩ := pure_eq_ok.mp run
      exact outcome
    | false =>
      have passed : Silent e middle := outcome
      obtain ⟨oe, opens⟩ := ih (uniform.of_fixed passed.fixed)
        (whole.trans (by rw [passed.fixed.mainSb])) run
      exact ⟨oe, opens.after passed⟩

theorem openNewExtent_opens {prefer : Option Nat} (uniform : e.Uniform)
    (run : openNewExtent prefer e = .ok () e') : ∃ oe, Opens e e' oe := by
  simp only [openNewExtent, bind_eq_ok, get_eq_ok] at run
  obtain ⟨_, _, ⟨rfl, rfl⟩, order, ordered, ordering, run⟩ := run
  have first := deviceRotationOrder_silent ordering
  obtain ⟨oe, opens⟩ := openExtentAmong_opens (uniform.of_fixed first.fixed)
    (by rw [first.fixed.mainSb]) run
  exact ⟨oe, opens.after first⟩

end Steps

end FastS3.Engine
