import FastS3.Engine.OpenTable
import FastS3.Engine.Reader

namespace FastS3.Engine

open Alloc FastS3.Core Data Device EngineState

/-! The invariant of the extent writer, step by step.

The bytes fed so far are those of the closed segments, of the segment under way and of
the block buffer, in this order.  A segment that is closed is never written again: its
extent has left the table, and an extent that enters the table was not allocated.
-/

/-- Each open extent is allocated, lies on its device and has an aligned watermark. -/
structure EngineState.Tidy (e : EngineState) : Prop where
  uniform : e.Uniform
  opened : ∀ (di : Nat) (oe : OpenExtent), e.openExtents[di]? = some (some oe) →
    e.bit oe.extentId = true ∧ sectorSize ∣ oe.watermark ∧
      ∃ localExtent, resolveExtent e.devices oe.extentId = some (di, localExtent)

def EngineState.Above (e : EngineState) (id off : Nat) : Prop :=
  ∀ (di : Nat) (oe : OpenExtent), e.openExtents[di]? = some (some oe) → oe.extentId = id →
    oe.watermark ≤ off

structure Laid (e₀ e : EngineState) (segments : List Segment) (parts : List Bytes) : Prop where
  stored : List.Forall₂ (Stored e) segments parts
  extents : (segments.map Segment.extentId).Nodup
  aligned : ∀ seg ∈ segments, sectorSize ∣ seg.offset
  above : ∀ seg ∈ segments, e₀.Above seg.extentId seg.offset

/-- The segments that are finished; no other segment will use their extents. -/
structure Closed (e₀ e : EngineState) (segments : List Segment) (parts : List Bytes) : Prop
    extends Laid e₀ e segments parts where
  held : ∀ seg ∈ segments, e.bit seg.extentId = true
  retired : ∀ seg ∈ segments, ∀ (di : Nat) (oe : OpenExtent),
    e.openExtents[di]? = some (some oe) → oe.extentId ≠ seg.extentId

/-- The segment under way holds `cur`. -/
structure Current (e₀ e : EngineState) (w : ExtentWriter) (oe : OpenExtent) (cur : Bytes) :
    Prop where
  mark : oe.watermark = w.segOffset + alignUp cur.length sectorSize
  written : w.segWritten = cur.length
  crcs : w.closeGrid.segCrcs = gridCrcs cur
  full : segmentCrcGrid ∣ cur.length → w.segFill = 0 ∧ w.segPartial = 0
  aligned : sectorSize ∣ w.segOffset
  above : e₀.Above oe.extentId w.segOffset
  content : readArea e.data oe.extentId w.segOffset cur.length = cur

/-- The stages in front of the block buffer, with the counts of their input and output. -/
structure Front where
  sse : Option SseWriteState
  compression : Option ZstdEncoder
  size : Nat
  compressedOut : Nat
  hasherPlainFed : Bool

def ExtentWriter.front (w : ExtentWriter) : Front :=
  ⟨w.sse, w.compression, w.size, w.compressedOut, w.hasherPlainFed⟩

/-- The stages of the writer; the steps behind them leave them alone. -/
structure Fronted (w : ExtentWriter) (front : Front) : Prop where
  chunkSize : w.chunkSize = defaultChunkSize
  same : w.front = front

variable {front : Front} {w : ExtentWriter}

theorem Fronted.sse (fronted : Fronted w front) : w.sse = front.sse :=
  congrArg Front.sse fronted.same

theorem Fronted.compression (fronted : Fronted w front) : w.compression = front.compression :=
  congrArg Front.compression fronted.same

theorem Fronted.size (fronted : Fronted w front) : w.size = front.size :=
  congrArg Front.size fronted.same

theorem Fronted.of_front {w' : ExtentWriter} (fronted : Fronted w front)
    (chunkSize : w'.chunkSize = w.chunkSize) (same : w'.front = w.front) : Fronted w' front :=
  ⟨chunkSize.trans fronted.chunkSize, same.trans fronted.same⟩

/-- What every step of a writer keeps after the first byte. -/
structure Running (e₀ : EngineState) (front : Front) (w : ExtentWriter) (e : EngineState) :
    Prop where
  origin : e₀.Tidy
  fixed : e₀.Fixed e
  tidy : e.Tidy
  bits : ∀ id, e₀.bit id = true → e.bit id = true
  fronted : Fronted w front
  started : w.started = true
  capacity : w.capacity = e.mainSb.extentCapacity

/-- The writer between two rounds: `fed` has been taken. -/
structure Sound (e₀ : EngineState) (front : Front) (fed : Bytes) (w : ExtentWriter)
    (e : EngineState) : Prop extends Running e₀ front w e where
  block : w.acc.length ≤ defaultChunkSize
  content : ∃ parts cur, Closed e₀ e w.segments parts ∧ parts.flatten ++ cur ++ w.acc = fed ∧
    segmentCrcGrid ∣ cur.length ∧
    match e.curOpen with
    | none => cur = [] ∧ w.acc = []
    | some oe => Current e₀ e w oe cur ∧ oe.watermark + w.acc.length ≤ w.capacity ∧
        (w.acc = [] → oe.watermark < w.capacity)

/-- The writer behind a flush: the buffer is empty, and the last block may be short
unless `whole` says otherwise. -/
structure Pending (e₀ : EngineState) (front : Front) (fed : Bytes) (whole : Prop) (w : ExtentWriter)
    (e : EngineState) (oe : OpenExtent) : Prop extends Running e₀ front w e where
  opened : e.curOpen = some oe
  acc : w.acc = []
  content : ∃ parts cur, Closed e₀ e w.segments parts ∧ parts.flatten ++ cur = fed ∧
    Current e₀ e w oe cur ∧ oe.watermark ≤ w.capacity ∧ (whole → segmentCrcGrid ∣ cur.length)

structure Unstarted (w : ExtentWriter) (front : Front) : Prop where
  fronted : Fronted w front
  started : w.started = false
  acc : w.acc = []
  segments : w.segments = []
  segOffset : w.segOffset = 0
  segWritten : w.segWritten = 0
  segCrcs : w.segCrcs = []
  segFill : w.segFill = 0

section Steps

variable {e₀ e e' : EngineState}

theorem EngineState.Tidy.of_quiet (tidy : e.Tidy) (quiet : Quiet e e') : e'.Tidy where
  uniform := tidy.uniform.of_fixed quiet.fixed
  opened := by
    intro di oe opened
    obtain ⟨old, entry, extent, mark⟩ := quiet.opened di oe opened
    obtain ⟨held, aligned, placed⟩ := tidy.opened di old entry
    rw [← extent, ← mark, quiet.fixed.devices]
    exact ⟨quiet.bits _ held, aligned, placed⟩

theorem EngineState.Silent.quiet (silent : Silent e e') : Quiet e e' where
  fixed := silent.fixed
  data := silent.data
  bits := silent.bits
  opened := by
    intro di oe opened
    rw [silent.openExtents] at opened
    exact ⟨oe, opened, rfl, rfl⟩

theorem EngineState.Stored.of_kept {seg : Segment} {bytes : Bytes} (stored : Stored e seg bytes)
    (fixed : e.Fixed e')
    (data : readArea e'.data seg.extentId seg.offset seg.len =
      readArea e.data seg.extentId seg.offset seg.len) : Stored e' seg bytes where
  length := stored.length
  placed := by
    rw [fixed.devices]
    exact stored.placed
  inside := by
    rw [fixed.mainSb]
    exact stored.inside
  content := data.trans stored.content
  crcs := stored.crcs

variable {parts : List Bytes} {segments : List Segment} {w w' : ExtentWriter} {oe : OpenExtent}
  {front : Front} {fed : Bytes} {whole : Prop}

theorem Laid.of_kept (laid : Laid e₀ e segments parts) (fixed : e.Fixed e')
    (data : ∀ seg ∈ segments, readArea e'.data seg.extentId seg.offset seg.len =
      readArea e.data seg.extentId seg.offset seg.len) :
    Laid e₀ e' segments parts where
  stored := by
    apply List.forall₂_iff_zip.mpr
    obtain ⟨lengths, pairs⟩ := List.forall₂_iff_zip.mp laid.stored
    refine ⟨lengths, fun {seg bytes} member => ?_⟩
    exact (pairs member).of_kept fixed (data seg (List.of_mem_zip member).1)
  extents := laid.extents
  aligned := laid.aligned
  above := laid.above

/-- Closed segments stay: nothing is stored in their extents, and an entry that
comes into the table is one of an extent whose bit was clear. -/
theorem Closed.of_kept (closed : Closed e₀ e segments parts) (fixed : e.Fixed e')
    (data : ∀ seg ∈ segments, readArea e'.data seg.extentId seg.offset seg.len =
      readArea e.data seg.extentId seg.offset seg.len)
    (bits : ∀ id, e.bit id = true → e'.bit id = true)
    (opened : ∀ (di : Nat) (oe : OpenExtent), e'.openExtents[di]? = some (some oe) →
      e.bit oe.extentId = false ∨
        ∃ old, e.openExtents[di]? = some (some old) ∧ old.extentId = oe.extentId) :
    Closed e₀ e' segments parts where
  toLaid := closed.toLaid.of_kept fixed data
  held := fun seg member => bits _ (closed.held seg member)
  retired := by
    intro seg member di oe entry same
    rcases opened di oe entry with clear | kept
    · rw [same, closed.held seg member] at clear
      cases clear
    · obtain ⟨old, entry', extent⟩ := kept
      exact closed.retired seg member di old entry' (extent.trans same)

theorem Closed.of_quiet (closed : Closed e₀ e segments parts) (quiet : Quiet e e') :
    Closed e₀ e' segments parts := by
  apply closed.of_kept quiet.fixed (fun seg _ => by rw [quiet.data]) quiet.bits
  intro di oe entry
  obtain ⟨old, entry', extent, _⟩ := quiet.opened di oe entry
  exact .inr ⟨old, entry', extent⟩

theorem Current.begin (aligned : sectorSize ∣ oe.watermark)
    (above : e₀.Above oe.extentId oe.watermark) :
    Current e₀ e
      { w with
        segOffset := oe.watermark
        segPartial := 0
        segFill := 0
        segCrcs := []
        segWritten := 0 } oe [] where
  mark := rfl
  written := rfl
  crcs := rfl
  full := fun _ => ⟨rfl, rfl⟩
  aligned := aligned
  above := above
  content := rfl

theorem beginSegment_ok (run : w.beginSegment e = .ok w' e') :
    ∃ oe, e.curOpen = some oe ∧ e = e' ∧
      w' = { w with
        segOffset := oe.watermark
        segPartial := 0
        segFill := 0
        segCrcs := []
        segWritten := 0 } := by
  simp only [ExtentWriter.beginSegment, bind_eq_ok, get_eq_ok, pure_eq_ok] at run
  obtain ⟨_, _, ⟨rfl, rfl⟩, oe, _, found, rfl, rfl⟩ := run
  obtain ⟨opened, rfl⟩ := expect_ok found
  exact ⟨oe, opened, rfl, rfl⟩

theorem Closed.nil (e₀ e : EngineState) : Closed e₀ e [] [] :=
  ⟨⟨.nil, List.nodup_nil, by simp, by simp⟩, by simp, by simp⟩

theorem joinOpen_quiet (opened : e.curOpen = some oe) :
    Quiet e (e.setOpen e.curDevice (some { oe with participants := oe.participants + 1 })) := by
  have entry := curOpen_eq_some.mp opened
  refine ⟨fixed_setOpen _ _ _, rfl, fun _ held => held, ?_⟩
  intro di oe' entry'
  rw [setOpen, List.getElem?_set] at entry'
  split at entry'
  · next here =>
    subst here
    obtain ⟨_, rfl⟩ : _ ∧ { oe with participants := oe.participants + 1 } = oe' := by
      simpa using entry'
    exact ⟨oe, entry, rfl, rfl⟩
  · exact ⟨oe', entry', rfl, rfl⟩

theorem divides_capacity (uniform : e.Uniform) : sectorSize ∣ e.mainSb.extentCapacity :=
  uniform.capacity.2.1

theorem startObject_sound (tidy : e.Tidy) (unstarted : Unstarted w front)
    (capacity : w.capacity = e.mainSb.extentCapacity) (run : w.startObject e = .ok w' e') :
    Sound e front [] w' e' := by
  simp only [ExtentWriter.startObject, unstarted.started, Bool.false_eq_true, if_false, bind_eq_ok,
    get_eq_ok] at run
  obtain ⟨_, rotated, rotation, _, _, ⟨rfl, rfl⟩, run⟩ := run
  obtain ⟨quiet, room⟩ := rotateForNewObject_quiet tidy.uniform rotation
  have tidy' := tidy.of_quiet quiet
  have block : w.acc.length ≤ defaultChunkSize := by
    rw [unstarted.acc]
    exact Nat.zero_le _
  cases opened : rotated.curOpen with
  | none =>
    simp only [opened, pure_eq_ok] at run
    obtain ⟨rfl, rfl⟩ := run
    refine ⟨⟨tidy, quiet.fixed, tidy', quiet.bits, ⟨unstarted.fronted.1, unstarted.fronted.2⟩, rfl, ?_⟩, block, [], [], ?_, ?_, Nat.dvd_zero _, ?_⟩
    · rw [quiet.fixed.mainSb]
      exact capacity
    · rw [show ({ w with started := true } : ExtentWriter).segments = [] from unstarted.segments]
      exact Closed.nil e rotated
    · exact unstarted.acc
    · rw [opened]
      exact ⟨rfl, unstarted.acc⟩
  | some oe =>
    simp only [opened, bind_eq_ok, set_eq_ok] at run
    obtain ⟨_, joined, rfl, run⟩ := run
    have entry := curOpen_eq_some.mp opened
    have inside := (List.getElem?_eq_some_iff.mp entry).1
    have reopened : (rotated.setOpen rotated.curDevice
        (some { oe with participants := oe.participants + 1 })).curOpen =
          some { oe with participants := oe.participants + 1 } :=
      curOpen_eq_some.mpr (List.getElem?_set_self inside)
    have joining := joinOpen_quiet opened
    have tidy'' := tidy'.of_quiet joining
    obtain ⟨oe', current, rfl, rfl⟩ := beginSegment_ok run
    obtain rfl : { oe with participants := oe.participants + 1 } = oe' :=
      Option.some.inj (reopened.symm.trans current)
    have fits := room oe opened
    obtain ⟨old, entry', extent, mark⟩ := quiet.opened _ oe entry
    obtain ⟨_, aligned, localExtent, placed⟩ := tidy.opened _ old entry'
    refine ⟨⟨tidy, quiet.fixed.trans joining.fixed, tidy'', fun id held => joining.bits id
      (quiet.bits id held), ⟨unstarted.fronted.1, unstarted.fronted.2⟩, rfl, ?_⟩, block, [], [], ?_, ?_, Nat.dvd_zero _, ?_⟩
    · rw [(quiet.fixed.trans joining.fixed).mainSb]
      exact capacity
    · rw [show ({ w with
          started := true
          segOffset := oe.watermark
          segPartial := 0
          segFill := 0
          segCrcs := []
          segWritten := 0 } : ExtentWriter).segments = [] from unstarted.segments]
      exact Closed.nil e _
    · exact unstarted.acc
    · rw [current]
      refine ⟨Current.begin (mark ▸ aligned) ?_, ?_, fun _ => ?_⟩
      · -- the table has this extent on this device only
        intro di other entry'' same
        obtain ⟨_, _, localExtent', placed'⟩ := tidy.opened di other entry''
        rw [same, ← show old.extentId = oe.extentId from extent, placed] at placed'
        obtain ⟨rfl, _⟩ : rotated.curDevice = di ∧ localExtent = localExtent' := by
          simpa using placed'
        obtain rfl : old = other := by simpa using entry'.symm.trans entry''
        exact mark.le
      · rw [unstarted.acc]
        exact (capacity ▸ fits.le : oe.watermark ≤ w.capacity)
      · exact (capacity ▸ fits : oe.watermark < w.capacity)

theorem ensureOpen_sound (sound : Sound e₀ front fed w e) (run : w.ensureOpen e = .ok w' e') :
    Sound e₀ front fed w' e' ∧ w'.acc = w.acc ∧ ∃ oe, e'.curOpen = some oe := by
  simp only [ExtentWriter.ensureOpen, bind_eq_ok, get_eq_ok] at run
  obtain ⟨_, _, ⟨rfl, rfl⟩, run⟩ := run
  cases opened : e.curOpen with
  | some oe =>
    simp only [opened, pure_eq_ok] at run
    obtain ⟨rfl, rfl⟩ := run
    exact ⟨sound, rfl, oe, opened⟩
  | none =>
    simp only [opened, bind_eq_ok] at run
    obtain ⟨_, middle, opening, run⟩ := run
    obtain ⟨oe, opens⟩ := openNewExtent_opens sound.tidy.uniform opening
    obtain ⟨oe', current, rfl, rfl⟩ := beginSegment_ok run
    obtain rfl : oe = oe' := Option.some.inj (opens.current.symm.trans current)
    obtain ⟨parts, cur, closed, split, whole, position⟩ := sound.content
    rw [opened] at position
    obtain ⟨rfl, empty⟩ := position
    have entry := curOpen_eq_some.mp current
    have from₀ : ∀ di oe', middle.openExtents[di]? = some (some oe') →
        (di = middle.curDevice ∧ oe = oe') ∨ e.openExtents[di]? = some (some oe') := by
      intro di oe' entry'
      by_cases here : di = middle.curDevice
      · subst here
        exact .inl ⟨rfl, by simpa using entry.symm.trans entry'⟩
      · exact .inr ((opens.others di here) ▸ entry')
    refine ⟨⟨⟨sound.origin, sound.fixed.trans opens.fixed,
      ⟨sound.tidy.uniform.of_fixed opens.fixed, ?_⟩,
      fun id held => opens.bits id (sound.bits id held), ⟨sound.fronted.1, sound.fronted.2⟩, sound.started, ?_⟩, sound.block, parts, [], ?_, split,
      Nat.dvd_zero _, ?_⟩, rfl, oe, current⟩
    · intro di oe' entry'
      rcases from₀ di oe' entry' with new | old
      · obtain ⟨rfl, rfl⟩ := new
        rw [opens.fixed.devices]
        exact ⟨opens.taken, opens.aligned, opens.placed⟩
      · obtain ⟨held, aligned, placed⟩ := sound.tidy.opened di oe' old
        rw [opens.fixed.devices]
        exact ⟨opens.bits _ held, aligned, placed⟩
    · rw [opens.fixed.mainSb]
      exact sound.capacity
    · apply closed.of_kept opens.fixed (fun seg _ => by rw [opens.data]) opens.bits
      intro di oe' entry'
      rcases from₀ di oe' entry' with new | old
      · obtain ⟨rfl, rfl⟩ := new
        exact .inl opens.wasClear
      · exact .inr ⟨oe', old, rfl⟩
    · rw [current]
      have room : oe.watermark < w.capacity := by
        rw [sound.capacity]
        exact opens.room
      refine ⟨Current.begin opens.aligned ?_, ?_, fun _ => room⟩
      · -- an extent that was open at the start has its bit set ever since
        intro di other entry' same
        have held := sound.bits _ (sound.origin.opened di other entry').1
        rw [same, opens.wasClear] at held
        cases held
      · rw [empty]
        exact room.le

theorem flushAcc_ok (tidy : e.Tidy) (opened : e.curOpen = some oe) (nonempty : w.acc ≠ [])
    (fits : oe.watermark + w.acc.length ≤ e.mainSb.extentCapacity)
    (run : w.flushAcc e = .ok w' e') :
    e.Fixed e' ∧ e'.alloc = e.alloc ∧ e'.curDevice = e.curDevice ∧
      e'.openExtents = e.openExtents.set e.curDevice
        (some { oe with watermark := oe.watermark + alignUp w.acc.length sectorSize }) ∧
      e'.data = writeArea e.data oe.extentId oe.watermark
        (w.acc ++ zeroBytes (alignUp w.acc.length sectorSize - w.acc.length)) ∧
      w' = { w.addToGrid with
        crcAcc := crc32c w.acc w.crcAcc
        segWritten := w.segWritten + w.acc.length
        hasher := if w.hasherPlainFed then w.hasher else w.hasher.map (· ++ w.acc)
        acc := [] } := by
  simp only [ExtentWriter.flushAcc, if_neg nonempty, bind_eq_ok, get_eq_ok, modify_eq_ok, pure_eq_ok,
    Prod.exists] at run
  obtain ⟨_, _, ⟨rfl, rfl⟩, oe', _, found, dataOff, _, offset, di, localExtent, _, located, _, stored,
    written, _, _, rfl, rfl, rfl⟩ := run
  obtain ⟨current, rfl⟩ := expect_ok found
  obtain rfl : oe = oe' := Option.some.inj (opened.symm.trans current)
  obtain ⟨di', localExtent', slot, place, entry, rfl, rfl⟩ := extentDataOffset_ok offset
  obtain ⟨place', rfl⟩ := locateExtent_ok located
  obtain ⟨rfl, rfl⟩ : di' = di ∧ localExtent' = localExtent := by
    simpa using place.symm.trans place'
  obtain ⟨disk, mounted, rfl⟩ := writeAll_ok written
  obtain ⟨_, aligned, _⟩ := tidy.opened _ oe (curOpen_eq_some.mp opened)
  have padded : w.acc.length ≤ alignUp w.acc.length sectorSize := le_alignUp (by decide)
  have room : oe.watermark + alignUp w.acc.length sectorSize ≤ e.mainSb.extentCapacity := by
    rw [← alignUp_add _ aligned]
    exact alignUp_le (by decide) (divides_capacity tidy.uniform) fits
  have length : (w.acc ++ zeroBytes (alignUp w.acc.length sectorSize - w.acc.length)).length =
      alignUp w.acc.length sectorSize := by
    rw [List.length_append, zeroBytes_length]
    omega
  refine ⟨(fixed_setDisk _ _ _).trans (fixed_setOpen _ _ _), rfl, rfl, rfl, ?_, rfl⟩
  exact tidy.uniform.data_of_write place entry mounted (by rw [length]; exact room)

theorem Current.flush {cur : Bytes} (current : Current e₀ e w oe cur)
    (whole : segmentCrcGrid ∣ cur.length) (nonempty : w.acc ≠ [])
    (short : w.acc.length ≤ segmentCrcGrid)
    (data : e'.data = writeArea e.data oe.extentId oe.watermark
      (w.acc ++ zeroBytes (alignUp w.acc.length sectorSize - w.acc.length))) :
    Current e₀ e'
      { w.addToGrid with
        crcAcc := crc32c w.acc w.crcAcc
        segWritten := w.segWritten + w.acc.length
        hasher := if w.hasherPlainFed then w.hasher else w.hasher.map (· ++ w.acc)
        acc := [] }
      { oe with watermark := oe.watermark + alignUp w.acc.length sectorSize }
      (cur ++ w.acc) := by
  have sectors : sectorSize ∣ cur.length := Dvd.dvd.trans (by decide) whole
  have mark : oe.watermark = w.segOffset + cur.length := by
    rw [current.mark, alignUp_of_dvd sectors]
  obtain ⟨noFill, noPartial⟩ := current.full whole
  have positive := List.length_pos_iff.mpr nonempty
  have table : w.segCrcs = gridCrcs cur := by
    have crcs := current.crcs
    rwa [ExtentWriter.closeGrid, noFill, if_neg (by decide)] at crcs
  have offset : w.addToGrid.segOffset = w.segOffset := by
    unfold ExtentWriter.addToGrid
    dsimp only
    split <;> rfl
  have sum : crc32c w.acc w.segPartial = crc32c w.acc 0 := by rw [noPartial]
  refine ⟨?_, ?_, ?_, ?_, ?_, ?_, ?_⟩
  · change oe.watermark + alignUp w.acc.length sectorSize = w.addToGrid.segOffset + _
    rw [offset, List.length_append, alignUp_add _ sectors, mark, Nat.add_assoc]
  · change w.segWritten + w.acc.length = _
    rw [current.written, List.length_append]
  · rw [gridCrcs_append whole nonempty short, ← table, ← sum]
    simp only [ExtentWriter.closeGrid, ExtentWriter.addToGrid, noFill, Nat.zero_add]
    split
    · next full =>
      have exact' : w.acc.length - segmentCrcGrid = 0 := by omega
      simp only [exact', gt_iff_lt, Nat.lt_irrefl, if_false]
    · rfl
  · intro divides
    have full : w.acc.length ≥ segmentCrcGrid := by
      rw [List.length_append, Nat.dvd_add_right whole] at divides
      exact Nat.le_of_dvd positive divides
    simp only [ExtentWriter.addToGrid, noFill, Nat.zero_add, full, if_true, and_true]
    omega
  · exact offset ▸ current.aligned
  · intro di old entry same
    exact offset ▸ current.above di old entry same
  · change readArea e'.data oe.extentId w.addToGrid.segOffset (cur ++ w.acc).length = _
    have padded : w.acc.length ≤
        (w.acc ++ zeroBytes (alignUp w.acc.length sectorSize - w.acc.length)).length := by
      rw [List.length_append]
      omega
    have before : readArea e'.data oe.extentId w.segOffset cur.length = cur := by
      rw [data, readArea_writeArea_of_disjoint _ (.inr (.inl mark.ge)), current.content]
    have block : readArea e'.data oe.extentId (w.segOffset + cur.length) w.acc.length = w.acc := by
      have whole := readArea_drop_take e'.data oe.extentId oe.watermark
        (show 0 + w.acc.length ≤ _ from (Nat.zero_add _).trans_le padded)
      rw [List.drop_zero, Nat.add_zero] at whole
      rw [← mark, ← whole, data, readArea_writeArea, List.take_left' rfl]
    rw [offset, List.length_append, readArea_append, before, block]

theorem addToGrid_kept (w : ExtentWriter) :
    w.addToGrid.segments = w.segments ∧ w.addToGrid.started = w.started ∧
      w.addToGrid.capacity = w.capacity ∧ w.addToGrid.chunkSize = w.chunkSize ∧
      w.addToGrid.front = w.front := by
  unfold ExtentWriter.addToGrid
  dsimp only
  split <;> exact ⟨rfl, rfl, rfl, rfl, rfl⟩

theorem flushAcc_pending (sound : Sound e₀ front fed w e) (opened : e.curOpen = some oe)
    (nonempty : w.acc ≠ []) (run : w.flushAcc e = .ok w' e') :
    ∃ oe', Pending e₀ front fed (w.acc.length = w.chunkSize) w' e' oe' ∧
      oe.watermark + w.acc.length ≤ oe'.watermark ∧ w'.capacity = w.capacity := by
  obtain ⟨parts, cur, closed, split, whole, position⟩ := sound.content
  rw [opened] at position
  obtain ⟨current, fits, _⟩ := position
  have entry := curOpen_eq_some.mp opened
  have inside := (List.getElem?_eq_some_iff.mp entry).1
  obtain ⟨held, aligned, localExtent, placed⟩ := sound.tidy.opened _ oe entry
  obtain ⟨fixed, alloc, device, table, data, rfl⟩ :=
    flushAcc_ok sound.tidy opened nonempty (sound.capacity ▸ fits) run
  obtain ⟨segments, started, capacity, chunkSize, front'⟩ := addToGrid_kept w
  have bits : ∀ id, e.bit id = true → e'.bit id = true := by
    intro id set
    rw [bit, alloc]
    exact set
  have short : w.acc.length ≤ segmentCrcGrid := sound.block
  have sectors : sectorSize ∣ w.capacity := sound.capacity ▸ divides_capacity sound.tidy.uniform
  -- the table has the moved watermark and is otherwise as before
  have entries : ∀ (di : Nat) (oe' : OpenExtent), e'.openExtents[di]? = some (some oe') →
      (di = e.curDevice ∧
        { oe with watermark := oe.watermark + alignUp w.acc.length sectorSize } = oe') ∨
        e.openExtents[di]? = some (some oe') := by
    intro di oe' entry'
    rw [table, List.getElem?_set] at entry'
    split at entry'
    · next here => exact .inl ⟨here.symm, by simpa using entry'⟩
    · exact .inr entry'
  refine ⟨{ oe with watermark := oe.watermark + alignUp w.acc.length sectorSize },
    ⟨⟨sound.origin, sound.fixed.trans fixed, ⟨sound.tidy.uniform.of_fixed fixed, ?_⟩,
      fun id set => bits id (sound.bits id set), ⟨?_, ?_⟩, ?_, ?_⟩, ?_, rfl,
    parts, cur ++ w.acc, ?_, ?_, ?_, ?_, ?_⟩, Nat.add_le_add_left (le_alignUp (by decide)) _,
    capacity⟩
  · intro di oe' entry'
    rw [fixed.devices]
    rcases entries di oe' entry' with moved | kept
    · obtain ⟨rfl, rfl⟩ := moved
      exact ⟨bits _ held, Nat.dvd_add aligned (dvd_alignUp _ _), localExtent, placed⟩
    · obtain ⟨held', aligned', placed'⟩ := sound.tidy.opened di oe' kept
      exact ⟨bits _ held', aligned', placed'⟩
  · exact chunkSize.trans sound.fronted.chunkSize
  · exact front'.trans sound.fronted.same
  · exact started.trans sound.started
  · rw [fixed.mainSb]
    exact capacity.trans sound.capacity
  · rw [curOpen_eq_some, table, device]
    exact List.getElem?_set_self inside
  · rw [show ({ w.addToGrid with
      crcAcc := crc32c w.acc w.crcAcc
      segWritten := w.segWritten + w.acc.length
      hasher := if w.hasherPlainFed then w.hasher else w.hasher.map (· ++ w.acc)
      acc := [] } : ExtentWriter).segments = w.segments from segments]
    apply closed.of_kept fixed _ bits
    · intro di oe' entry'
      rcases entries di oe' entry' with moved | kept
      · obtain ⟨rfl, rfl⟩ := moved
        exact .inr ⟨oe, entry, rfl⟩
      · exact .inr ⟨oe', kept, rfl⟩
    · intro seg member
      have other := closed.retired seg member _ oe entry
      rw [data, readArea_writeArea_of_disjoint _ (.inl fun same => other same.symm)]
  · rw [← split, List.append_assoc]
  · exact current.flush whole nonempty short data
  · change oe.watermark + _ ≤ w.addToGrid.capacity
    rw [capacity, ← alignUp_add _ aligned]
    exact alignUp_le (by decide) sectors fits
  · intro full
    rw [List.length_append, full, sound.fronted.chunkSize]
    exact Nat.dvd_add whole (by decide)

theorem closeGrid_kept (w : ExtentWriter) :
    w.closeGrid.segments = w.segments ∧ w.closeGrid.started = w.started ∧
      w.closeGrid.capacity = w.capacity ∧ w.closeGrid.chunkSize = w.chunkSize ∧
      w.closeGrid.front = w.front ∧ w.closeGrid.acc = w.acc ∧
      w.closeGrid.segOffset = w.segOffset ∧ w.closeGrid.segWritten = w.segWritten := by
  unfold ExtentWriter.closeGrid
  split <;> exact ⟨rfl, rfl, rfl, rfl, rfl, rfl, rfl, rfl⟩

theorem closeGrid_segCrcs (w : ExtentWriter) :
    w.closeGrid.segCrcs = if w.segFill > 0 then w.segCrcs ++ [w.segPartial] else w.segCrcs := by
  unfold ExtentWriter.closeGrid
  split <;> rfl

def lastSegment (w : ExtentWriter) (oe : OpenExtent) : Segment :=
  ⟨oe.extentId, w.closeGrid.segOffset, w.closeGrid.segWritten, w.closeGrid.segCrcs⟩

theorem Current.stored {cur : Bytes} (current : Current e₀ e w oe cur)
    (placed : ∃ place, resolveExtent e.devices oe.extentId = some place)
    (fits : oe.watermark ≤ e.mainSb.extentCapacity) : Stored e (lastSegment w oe) cur := by
  obtain ⟨_, _, _, _, _, _, offset, written⟩ := closeGrid_kept w
  have length : (lastSegment w oe).len = cur.length := written.trans current.written
  have start : (lastSegment w oe).offset = w.segOffset := offset
  have mark := current.mark
  have padded : cur.length ≤ alignUp cur.length sectorSize := le_alignUp (by decide)
  refine ⟨length.symm, placed, ?_, ?_, current.crcs⟩
  · omega
  · rw [length, start]
    exact current.content

theorem Pending.laid (pending : Pending e₀ front fed whole w e oe) :
    ∃ parts, Laid e₀ e (w.segments ++ [lastSegment w oe]) parts ∧ parts.flatten = fed := by
  obtain ⟨parts, cur, closed, split, current, fits, _⟩ := pending.content
  have entry := curOpen_eq_some.mp pending.opened
  obtain ⟨_, _, localExtent, placed⟩ := pending.tidy.opened _ oe entry
  obtain ⟨_, _, _, _, _, _, offset, _⟩ := closeGrid_kept w
  have stored := current.stored ⟨_, placed⟩ (pending.capacity ▸ fits)
  refine ⟨parts ++ [cur], ⟨?_, ?_, ?_, ?_⟩, ?_⟩
  · exact List.rel_append closed.stored (.cons stored .nil)
  · rw [List.map_append, List.map_singleton, List.nodup_append]
    refine ⟨closed.extents, List.nodup_singleton _, ?_⟩
    intro id member other last same
    obtain ⟨seg, inList, rfl⟩ := List.mem_map.mp member
    obtain rfl := List.mem_singleton.mp last
    exact closed.retired seg inList _ oe entry same.symm
  · intro seg member
    rcases List.mem_append.mp member with old | new
    · exact closed.aligned seg old
    · obtain rfl := List.mem_singleton.mp new
      exact (show (lastSegment w oe).offset = w.segOffset from offset) ▸ current.aligned
  · intro seg member
    rcases List.mem_append.mp member with old | new
    · exact closed.above seg old
    · obtain rfl := List.mem_singleton.mp new
      exact (show (lastSegment w oe).offset = w.segOffset from offset) ▸ current.above
  · rw [List.flatten_append, List.flatten_singleton, split]

theorem curOpen_setOpen_none (e : EngineState) : (e.setOpen e.curDevice none).curOpen = none := by
  cases current : (e.setOpen e.curDevice none).curOpen with
  | none => rfl
  | some oe =>
    have entry := curOpen_eq_some.mp current
    rw [setOpen, List.getElem?_set] at entry
    split at entry
    · split at entry <;> cases entry
    · next other => exact absurd rfl other

theorem endSegment_ok (uniform : e.Uniform) (opened : e.curOpen = some oe)
    (short : w.closeGrid.segCrcs.length ≤ 256) (run : w.endSegment e = .ok w' e') :
    Silent (e.setOpen e.curDevice none) e' ∧
      w' = { w.closeGrid with
        segments := w.closeGrid.segments ++ [lastSegment w oe], segCrcs := [] } := by
  have uniform' : (e.setOpen e.curDevice none).Uniform := setOpen_uniform uniform
  simp only [ExtentWriter.endSegment, bind_eq_ok, get_eq_ok, set_eq_ok] at run
  obtain ⟨_, _, ⟨rfl, rfl⟩, oe', _, found, _, _, rfl, run⟩ := run
  obtain ⟨current, rfl⟩ := expect_ok found
  obtain rfl : oe = oe' := Option.some.inj (opened.symm.trans current)
  split at run
  · simp only [bind_eq_ok, pure_eq_ok] at run
    obtain ⟨_, _, header, _, _, sealed, rfl, rfl⟩ := run
    exact ⟨(writeExtentHeader_silent uniform' short header).trans (markSealed_silent sealed), rfl⟩
  · simp only [bind_eq_ok, pure_eq_ok] at run
    obtain ⟨_, _, header, _, _, sealed, rfl, rfl⟩ := run
    exact ⟨(writeExtentHeader_silent uniform' (by simp) header).trans (markSealed_silent sealed),
      rfl⟩

theorem Pending.short (pending : Pending e₀ front fed whole w e oe) :
    w.closeGrid.segCrcs.length ≤ 256 := by
  obtain ⟨parts, cur, _, _, current, fits, _⟩ := pending.content
  have mark := current.mark
  have padded : cur.length ≤ alignUp cur.length sectorSize := le_alignUp (by decide)
  have limit := pending.tidy.uniform.capacity.2.2.2
  have room := pending.capacity
  rw [current.crcs, gridCrcs, List.length_map, List.length_range]
  apply divCeil_grid_le
  omega

theorem endSegment_sound (pending : Pending e₀ front fed whole w e oe)
    (run : w.endSegment e = .ok w' e') :
    Sound e₀ front fed w' e' ∧ w'.acc = [] ∧ e'.curOpen = none := by
  have entry := curOpen_eq_some.mp pending.opened
  obtain ⟨held, _, localExtent, placed⟩ := pending.tidy.opened _ oe entry
  obtain ⟨segments, started, capacity, chunkSize, front', acc, offset, written⟩ :=
    closeGrid_kept w
  obtain ⟨silent, rfl⟩ := endSegment_ok pending.tidy.uniform pending.opened pending.short run
  have table : e'.openExtents = e.openExtents.set e.curDevice none := silent.openExtents
  have kept : ∀ (di : Nat) (oe' : OpenExtent), e'.openExtents[di]? = some (some oe') →
      e.openExtents[di]? = some (some oe') ∧ di ≠ e.curDevice := by
    intro di oe' entry'
    rw [table, List.getElem?_set] at entry'
    split at entry'
    · split at entry' <;> cases entry'
    · next other => exact ⟨entry', fun same => other same.symm⟩
  have quiet : Quiet e e' := by
    refine ⟨(fixed_setOpen _ _ _).trans silent.fixed, silent.data, silent.bits, ?_⟩
    intro di oe' entry'
    exact ⟨oe', (kept di oe' entry').1, rfl, rfl⟩
  have empty : e'.curOpen = none := silent.curOpen.trans (curOpen_setOpen_none e)
  obtain ⟨parts, laid, split⟩ := pending.laid
  obtain ⟨_, _, closed, _⟩ := pending.content
  refine ⟨⟨⟨pending.origin, pending.fixed.trans quiet.fixed, pending.tidy.of_quiet quiet,
    fun id set => quiet.bits id (pending.bits id set),
    ⟨chunkSize.trans pending.fronted.1, front'.trans pending.fronted.2⟩,
    started.trans pending.started, ?_⟩, ?_, parts, [], ?_, ?_,
    Nat.dvd_zero _, ?_⟩, acc.trans pending.acc, empty⟩
  · rw [quiet.fixed.mainSb]
    exact capacity.trans pending.capacity
  · rw [show ({ w.closeGrid with
      segments := w.closeGrid.segments ++ [lastSegment w oe], segCrcs := [] } :
        ExtentWriter).acc = [] from acc.trans pending.acc]
    exact Nat.zero_le _
  · rw [segments]
    refine ⟨laid.of_kept quiet.fixed fun seg _ => by rw [quiet.data], ?_, ?_⟩
    · intro seg member
      rcases List.mem_append.mp member with old | new
      · exact quiet.bits _ (closed.held seg old)
      · obtain rfl := List.mem_singleton.mp new
        exact quiet.bits _ held
    · intro seg member di oe' entry'
      obtain ⟨before, elsewhere⟩ := kept di oe' entry'
      rcases List.mem_append.mp member with old | new
      · exact closed.retired seg old di oe' before
      · obtain rfl := List.mem_singleton.mp new
        intro same
        obtain ⟨_, _, localExtent', placed'⟩ := pending.tidy.opened di oe' before
        rw [same, show (lastSegment w oe).extentId = oe.extentId from rfl, placed] at placed'
        apply elsewhere
        have device : e.curDevice = di ∧ localExtent = localExtent' := by simpa using placed'
        exact device.1.symm
  · rw [show ({ w.closeGrid with
      segments := w.closeGrid.segments ++ [lastSegment w oe], segCrcs := [] } :
        ExtentWriter).acc = [] from acc.trans pending.acc]
    simpa using split
  · rw [empty]
    exact ⟨rfl, acc.trans pending.acc⟩

theorem noteInflight_bitmap (segs : List Segment) (session : Allocator × Staged) :
    (segs.foldl (fun session seg => session.1.noteInflightSegment session.2 seg)
      session).1.bitmap = session.1.bitmap := by
  induction segs generalizing session with
  | nil => rfl
  | cons seg rest ih =>
    rw [List.foldl_cons, ih]
    rfl

theorem catchUpLive_silent (run : w.catchUpLive e = .ok w' e') :
    Silent e e' ∧ w' = { w with liveCounted := w.segments.length } := by
  simp only [ExtentWriter.catchUpLive, bind_eq_ok, modify_eq_ok, pure_eq_ok] at run
  obtain ⟨_, _, rfl, rfl, rfl⟩ := run
  refine ⟨silent_of_bits e _ e.store e.choices ?_, rfl⟩
  intro id held
  rw [noteInflight_bitmap]
  exact held

theorem Sound.of_silent {counted : Nat} (sound : Sound e₀ front fed w e) (silent : Silent e e') :
    Sound e₀ front fed { w with liveCounted := counted } e' := by
  obtain ⟨parts, cur, closed, split, whole, position⟩ := sound.content
  refine ⟨⟨sound.origin, sound.fixed.trans silent.fixed, sound.tidy.of_quiet silent.quiet,
    fun id held => silent.bits id (sound.bits id held), ⟨sound.fronted.1, sound.fronted.2⟩, sound.started, ?_⟩, sound.block, parts, cur,
    closed.of_quiet silent.quiet, split, whole, ?_⟩
  · rw [silent.fixed.mainSb]
    exact sound.capacity
  · rw [silent.curOpen]
    cases opened : e.curOpen with
    | none =>
      rw [opened] at position
      exact position
    | some oe =>
      rw [opened] at position
      obtain ⟨current, fits, room⟩ := position
      refine ⟨⟨current.mark, current.written, ?_, current.full, current.aligned,
        current.above, ?_⟩, fits, room⟩
      · rw [← current.crcs, closeGrid_segCrcs, closeGrid_segCrcs]
      · rw [silent.data]
        exact current.content

/-- Behind a flush the extent is full and its segment ends, or the block was full and
the segment goes on. -/
theorem endIfFull_sound (pending : Pending e₀ front fed whole w e oe)
    (reason : whole ∨ w.capacity ≤ oe.watermark) (run : w.endIfFull e = .ok w' e') :
    Sound e₀ front fed w' e' ∧ w'.acc = [] := by
  simp only [ExtentWriter.endIfFull, bind_eq_ok, get_eq_ok] at run
  obtain ⟨_, _, ⟨rfl, rfl⟩, oe', _, found, run⟩ := run
  obtain ⟨current, rfl⟩ := expect_ok found
  obtain rfl : oe = oe' := Option.some.inj (pending.opened.symm.trans current)
  split at run
  · simp only [bind_eq_ok] at run
    obtain ⟨closedWriter, sealed, ending, run⟩ := run
    obtain ⟨sound, acc, _⟩ := endSegment_sound pending ending
    obtain ⟨silent, rfl⟩ := catchUpLive_silent run
    exact ⟨sound.of_silent silent, acc⟩
  · next room =>
    obtain ⟨rfl, rfl⟩ := pure_eq_ok.mp run
    obtain ⟨parts, cur, closed, split, current', fits, cells⟩ := pending.content
    have full : whole := reason.resolve_right room
    refine ⟨⟨pending.toRunning, ?_, parts, cur, closed, ?_, cells full, ?_⟩, pending.acc⟩
    · rw [pending.acc]
      exact Nat.zero_le _
    · rw [pending.acc, List.append_nil, split]
    · rw [pending.opened]
      refine ⟨current', ?_, fun _ => Nat.lt_of_not_le room⟩
      rw [pending.acc]
      exact fits

def Ready (e₀ : EngineState) (front : Front) (fed : Bytes) (w : ExtentWriter) (e : EngineState) :
    Prop :=
  (fed = [] ∧ e₀ = e ∧ e.Tidy ∧ Unstarted w front ∧ w.capacity = e.mainSb.extentCapacity) ∨
    Sound e₀ front fed w e

theorem startObject_ready (ready : Ready e₀ front fed w e) (run : w.startObject e = .ok w' e') :
    Sound e₀ front fed w' e' ∧ w'.acc = w.acc := by
  rcases ready with first | sound
  · obtain ⟨rfl, rfl, tidy, unstarted, capacity⟩ := first
    have sound := startObject_sound tidy unstarted capacity run
    refine ⟨sound, ?_⟩
    obtain ⟨parts, cur, _, split, _⟩ := sound.content
    rw [unstarted.acc]
    exact (List.append_eq_nil_iff.mp split).2
  · simp only [ExtentWriter.startObject, sound.started, if_true, pure_eq_ok] at run
    obtain ⟨rfl, rfl⟩ := run
    exact ⟨sound, rfl⟩

theorem feedRound_sound {data rest : Bytes} (ready : Ready e₀ front fed w e) (nonempty : data ≠ [])
    (run : w.feedRound data e = .ok (w', rest) e') :
    ∃ taken, data = taken ++ rest ∧ Sound e₀ front (fed ++ taken) w' e' ∧
      (taken ≠ [] ∨ (w.acc ≠ [] ∧ w'.acc = [])) := by
  simp only [ExtentWriter.feedRound, bind_eq_ok, get_eq_ok] at run
  obtain ⟨w₁, started, starting, w₂, middle, ensuring, _, _, ⟨rfl, rfl⟩, oe, _, found, run⟩ := run
  obtain ⟨sound₁, acc₁⟩ := startObject_ready ready starting
  obtain ⟨sound, acc₂, oe', opened⟩ := ensureOpen_sound sound₁ ensuring
  obtain ⟨opened', rfl⟩ := expect_ok found
  obtain rfl : oe' = oe := Option.some.inj (opened.symm.trans opened')
  obtain ⟨parts, cur, closed, split, whole, position⟩ := sound.content
  rw [opened] at position
  obtain ⟨current, fits, room⟩ := position
  have acc : w₂.acc = w.acc := acc₂.trans acc₁
  split at run
  · next full =>
    simp only [bind_eq_ok, pure_eq_ok, Prod.mk.injEq] at run
    obtain ⟨w₃, flushed, flushing, w₄, _, ending, ⟨rfl, rfl⟩, rfl⟩ := run
    have some : w₂.acc ≠ [] := by
      intro empty
      have below := room empty
      rw [empty, sound.fronted.chunkSize] at full
      have size : defaultChunkSize = 65536 := rfl
      simp only [List.length_nil] at full
      omega
    obtain ⟨oe', pending, moved, capacity⟩ := flushAcc_pending sound opened some flushing
    have reason : w₂.acc.length = w₂.chunkSize ∨ w₃.capacity ≤ oe'.watermark := by
      rcases full with block | extent
      · exact .inl block
      · exact .inr (capacity ▸ extent.trans moved)
    obtain ⟨sound', empty⟩ := endIfFull_sound pending reason ending
    refine ⟨[], rfl, ?_, .inr ⟨acc ▸ some, empty⟩⟩
    rw [List.append_nil]
    exact sound'
  · next space =>
    simp only [pure_eq_ok, Prod.mk.injEq] at run
    obtain ⟨⟨rfl, rfl⟩, rfl⟩ := run
    have positive := List.length_pos_iff.mpr nonempty
    have block := sound.block
    have chunk := sound.fronted.chunkSize
    generalize size : min (min data.length (w₂.capacity - oe'.watermark - w₂.acc.length))
      (w₂.chunkSize - w₂.acc.length) = take
    have length : (data.take take).length = take := by
      rw [List.length_take]
      omega
    have some : data.take take ≠ [] := by
      apply List.length_pos_iff.mp
      omega
    refine ⟨data.take take, (List.take_append_drop _ _).symm, ⟨⟨sound.origin, sound.fixed,
      sound.tidy, sound.bits, ⟨sound.fronted.1, sound.fronted.2⟩,
      sound.started, sound.capacity⟩, ?_, parts, cur, closed, ?_, whole, ?_⟩, .inl some⟩
    · rw [List.length_append, length]
      omega
    · simp only [← split, List.append_assoc]
    · rw [opened]
      refine ⟨⟨current.mark, current.written, ?_, current.full, current.aligned, current.above,
        current.content⟩, ?_, ?_⟩
      · rw [← current.crcs, closeGrid_segCrcs, closeGrid_segCrcs]
      · change oe'.watermark + (w₂.acc ++ data.take take).length ≤ w₂.capacity
        rw [List.length_append, length]
        omega
      · intro empty
        exact absurd (List.append_eq_nil_iff.mp empty).2 some

end Steps

end FastS3.Engine
