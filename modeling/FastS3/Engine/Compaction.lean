import FastS3.Engine.Reader
import FastS3.Meta.Applied

namespace FastS3.Engine

open FastS3.Core Data Device

/-! Compaction: the live segments of a record are copied into a new extent.

A copy reads and writes blocks of 64 KiB and computes the checksums of the new segment from
what it read; those of the old segment are not looked at.  The bytes that are read and the
checksums of the record are together the evidence that a read with `verify_reads` has.
-/

def resolveExtentOrLastFrom : Nat → Nat → List DeviceSlot → Nat → Nat × Nat
  | di, base, [], extentId => (di - 1, extentId - base)
  | di, base, slot :: rest, extentId =>
    if extentId < base + slot.extentCount then (di, extentId - base)
    else resolveExtentOrLastFrom (di + 1) (base + slot.extentCount) rest extentId

def resolveExtentOrLast (devices : List DeviceSlot) (extentId : Nat) : Nat × Nat :=
  resolveExtentOrLastFrom 0 0 devices extentId

def packedSpan (len : Nat) : Nat :=
  alignUp len sectorSize

/-- The transfer of one round of `copy_segment`, padded to a sector. -/
def copyBlock (srcDi srcBase eid wm done chunkLen : Nat) : EngineM Bytes := do
  let readLen := alignUp chunkLen sectorSize
  let buf ← readExact srcDi (srcBase + done) readLen
  let data := buf.take chunkLen
  let e ← get
  let (dstDi, dstLocal) := resolveExtentOrLast e.devices eid
  let dstSlot ← slotAt dstDi
  writeAll dstDi (data ++ zeroBytes (readLen - chunkLen)) (dstSlot.dataOffset dstLocal + wm + done)
  return data

/-- The loop of `copy_segment`: the checksum and the length of the open block, and the checksums
of the blocks before it.  Every round takes a byte. -/
def copyLoop (srcDi srcBase eid wm total : Nat) :
    Nat → Nat → UInt32 → Nat → List UInt32 → EngineM (UInt32 × Nat × List UInt32)
  | 0, _, part, partLen, crcs => return (part, partLen, crcs)
  | fuel + 1, done, part, partLen, crcs =>
    if done < total then do
      let chunkLen := min (total - done) segmentCrcGrid
      let data ← copyBlock srcDi srcBase eid wm done chunkLen
      let part := crc32c data part
      let partLen := partLen + chunkLen
      if partLen ≥ segmentCrcGrid then
        copyLoop srcDi srcBase eid wm total fuel (done + chunkLen) 0 0 (crcs ++ [part])
      else
        copyLoop srcDi srcBase eid wm total fuel (done + chunkLen) part partLen crcs
    else return (part, partLen, crcs)

def closeCrcs (part : UInt32) (partLen : Nat) (crcs : List UInt32) : List UInt32 :=
  if partLen > 0 then crcs ++ [part] else crcs

def copySegment (eid wm : Nat) (old : Segment) : EngineM (Segment × Nat) := do
  let e ← get
  let (srcDi, _) := resolveExtentOrLast e.devices old.extentId
  let srcSlot ← slotAt srcDi
  let srcBase := srcSlot.dataOffset (old.extentId - srcSlot.base) + old.offset
  let (part, partLen, crcs) ← copyLoop srcDi srcBase eid wm old.len old.len 0 0 0 []
  return (⟨eid, wm, old.len, closeCrcs part partLen crcs⟩, wm + packedSpan old.len)

def copySegments (eid : Nat) : Nat → List Segment → EngineM (List Segment × Nat)
  | wm, [] => return ([], wm)
  | wm, old :: rest => do
      let (new, next) ← copySegment eid wm old
      let (news, last) ← copySegments eid next rest
      return (new :: news, last)

def planned (candidates : List Nat) (m : ObjectMeta) : List Segment :=
  m.extents.filter (fun s => s.extentId ∈ candidates) ++
    m.restoredExtents.filter fun s => s.extentId ∈ candidates

namespace EngineState

def faults (e : EngineState) : List (List (Option Nat)) :=
  e.disks.map BlockDevice.faults

def verifying (e : EngineState) : EngineState :=
  { e with
    disks := e.disks.map fun disk => { disk with faults := [] }
    verifyReads := true }

end EngineState

def spend (faults : List (List (Option Nat))) (di : Nat) : List (List (Option Nat)) :=
  faults.set di (faults.getD di []).tail

def Answers : List (List (Option Nat)) → List Nat → Prop
  | _, [] => True
  | faults, di :: rest => (faults.getD di []).headD none = none ∧ Answers (spend faults di) rest

def segmentCalls (devices : List DeviceSlot) (eid : Nat) (old : Segment) : List Nat :=
  (List.replicate (divCeil old.len segmentCrcGrid)
    [(resolveExtentOrLast devices old.extentId).1, (resolveExtentOrLast devices eid).1]).flatten

def copyCalls (devices : List DeviceSlot) (eid : Nat) (olds : List Segment) : List Nat :=
  olds.flatMap (segmentCalls devices eid)

def Mismatch (reason : Error) : Prop :=
  (∃ chunk extent : Nat, reason = .corrupt s!"chunk {chunk} crc mismatch in extent {extent}") ∨
    ∃ extent offset : Nat,
      reason = .corrupt s!"segment crc mismatch in extent {extent} offset {offset}"

/-- A read of the range with `verify_reads` reports a mismatch. -/
structure Reports (e : EngineState) (m : ObjectMeta) (start stop : Nat) : Prop where
  refused : ∃ reason s, getRawToMeta m start stop e.verifying = .error reason s ∧ Mismatch reason

def readRecord (m : Meta.ObjectMeta) (restored : Bool) : ObjectMeta :=
  if restored then
    { m.toObjectMeta with
      extents := m.restoredExtents
      inline := m.restoreState.bind RestoreState.restoredInline
      compressed := none
      sse := none
      size := (m.restoreState.map RestoreState.restoredSize).getD 0 }
  else m.toObjectMeta

/-- The range of one 64 KiB block of a segment that is moved. -/
structure MovedBlock (olds : List Segment) (m : ObjectMeta) (start stop : Nat) : Prop where
  inside : ∃ before old after block, m.extents = before ++ old :: after ∧ old ∈ olds ∧
    block * segmentCrcGrid < old.len ∧
    start = (before.map Segment.len).sum + block * segmentCrcGrid ∧
    stop = (before.map Segment.len).sum + min ((block + 1) * segmentCrcGrid) old.len

/-- What the batch has seen to before it copies an item: no disk of the pool is missing, and the
target extent is another one and has room. -/
structure Copyable (e : EngineState) (eid wm : Nat) (olds : List Segment) : Prop where
  uniform : e.Uniform
  whole : ∀ di slot, e.devices[di]? = some slot →
    slot.base = ((e.devices.take di).map DeviceSlot.extentCount).sum
  target : ∃ place, resolveExtent e.devices eid = some place
  room : wm + (olds.map fun old => packedSpan old.len).sum ≤ e.mainSb.extentCapacity
  sources : ∀ old ∈ olds, (∃ place, resolveExtent e.devices old.extentId = some place) ∧
    old.offset + old.len ≤ e.mainSb.extentCapacity ∧ old.extentId ≠ eid

/-- An item of the plan, for a record in the metadata store. -/
structure CopyAdmitted (e : EngineState) (eid wm : Nat) (olds : List Segment) (rows : Meta.Store)
    (bucket key : String) (vk : Option Vk) (m : Meta.ObjectMeta) : Prop
    extends Copyable e eid wm olds where
  plan : ∃ candidates, olds = planned candidates m.toObjectMeta
  listed : rows (.object bucket key vk) = some m

/-- The copies hold the bytes of their sources, and what a verified read of the record reported
it still reports once `ObjectMigrate` has put the copies in their place. -/
structure Preserves (e : EngineState) (eid wm : Nat) (olds : List Segment) (rows : Meta.Store)
    (bucket key : String) (vk : Option Vk) (m : Meta.ObjectMeta) : Prop where
  content : ∀ news last s, copySegments eid wm olds e = .ok (news, last) s →
    List.Forall₂ (fun old new => readArea s.data new.extentId new.offset new.len =
      readArea e.data old.extentId old.offset old.len) olds news
  evidence : ∀ news last s rows', copySegments eid wm olds e = .ok (news, last) s →
    Meta.objectMigrate false bucket key vk olds news rows = .ok ((), rows') →
      ∃ moved, rows' (.object bucket key vk) = some moved ∧
        ∀ restored start stop, MovedBlock olds (readRecord m restored) start stop →
          Reports e (readRecord m restored) start stop →
            Reports s (readRecord moved restored) start stop

section Calls

variable {e s : EngineState} {di : Nat} {disk : BlockDevice}

theorem resolveExtentOrLastFrom_of_found {base di extentId : Nat} {devices : List DeviceSlot}
    {place : Nat × Nat} (found : resolveExtentFrom di base devices extentId = some place) :
    resolveExtentOrLastFrom di base devices extentId = place := by
  induction devices generalizing di base with
  | nil => cases found
  | cons slot rest ih =>
    rw [resolveExtentFrom] at found
    rw [resolveExtentOrLastFrom]
    split
    · next inside =>
      rw [if_pos inside] at found
      exact Option.some.inj found
    · next outside =>
      rw [if_neg outside] at found
      exact ih found

theorem resolveExtentOrLast_of_found {devices : List DeviceSlot} {extentId : Nat} {place : Nat × Nat}
    (found : resolveExtent devices extentId = some place) :
    resolveExtentOrLast devices extentId = place :=
  resolveExtentOrLastFrom_of_found found

theorem EngineState.faults_getD (mounted : e.disks[di]? = some disk) :
    e.faults.getD di [] = disk.faults := by
  rw [faults, List.getD_eq_getElem?_getD, List.getElem?_map, mounted]
  rfl

theorem EngineState.faults_setDisk (mounted : e.disks[di]? = some disk) {next : BlockDevice}
    (called : next.faults = disk.faults.tail) : (e.setDisk di next).faults = spend e.faults di := by
  rw [spend, faults_getD mounted, faults, setDisk, List.map_set, called]
  rfl

theorem readExact_outcome (mounted : e.disks[di]? = some disk) (off len : Nat) :
    (e.faults.getD di []).headD none = none ∧
        readExact di off len e = .ok (disk.read off len) (e.setDisk di disk.nextFault.2) ∨
      (e.faults.getD di []).headD none ≠ none ∧ ∃ s, readExact di off len e = .error .io s := by
  rw [EngineState.faults_getD mounted]
  unfold readExact
  simp only [mounted]
  cases fault : disk.faults.headD none with
  | none =>
    have next : disk.nextFault = (none, disk.nextFault.2) := by
      rw [BlockDevice.nextFault, fault]
    rw [next]
    exact .inl ⟨rfl, rfl⟩
  | some stored =>
    have next : disk.nextFault = (some stored, disk.nextFault.2) := by
      rw [BlockDevice.nextFault, fault]
    rw [next]
    exact .inr ⟨Option.some_ne_none stored, _, rfl⟩

theorem writeAll_outcome (mounted : e.disks[di]? = some disk) (data : Bytes) (off : Nat) :
    (e.faults.getD di []).headD none = none ∧
        writeAll di data off e = .ok () (e.setDisk di (disk.nextFault.2.store data off)) ∨
      (e.faults.getD di []).headD none ≠ none ∧ ∃ s, writeAll di data off e = .error .io s := by
  rw [EngineState.faults_getD mounted]
  unfold writeAll
  simp only [mounted]
  cases fault : disk.faults.headD none with
  | none =>
    have next : disk.nextFault = (none, disk.nextFault.2) := by
      rw [BlockDevice.nextFault, fault]
    rw [next]
    exact .inl ⟨rfl, rfl⟩
  | some stored =>
    have next : disk.nextFault = (some stored, disk.nextFault.2) := by
      rw [BlockDevice.nextFault, fault]
    rw [next]
    exact .inr ⟨Option.some_ne_none stored, _, rfl⟩

theorem bind_of_ok {α β : Type} {program : EngineM α} {next : α → EngineM β} {value : α}
    (ran : program e = .ok value s) : (program >>= next) e = next value s := by
  change EStateM.bind program next e = _
  rw [EStateM.bind, ran]

theorem bind_of_error {α β : Type} {program : EngineM α} {next : α → EngineM β} {reason : Error}
    (ran : program e = .error reason s) : (program >>= next) e = .error reason s := by
  change EStateM.bind program next e = _
  rw [EStateM.bind, ran]

theorem answers_append {faults : List (List (Option Nat))} {left right : List Nat} :
    Answers faults (left ++ right) ↔
      Answers faults left ∧ Answers (left.foldl spend faults) right := by
  induction left generalizing faults with
  | nil => simp [Answers]
  | cons di rest ih =>
    rw [List.cons_append, Answers, Answers, ih, and_assoc]
    rfl

end Calls

section Blocks

variable {e s : EngineState} {eid wm done chunkLen : Nat} {old : Segment}

theorem EngineState.Uniform.mounted (uniform : s.Uniform) {id di localExtent : Nat}
    (placed : resolveExtent s.devices id = some (di, localExtent)) :
    ∃ slot disk, s.devices[di]? = some slot ∧ s.disks[di]? = some disk := by
  obtain ⟨slot, entry⟩ := resolveExtent_slot placed
  have inTable : di < s.disks.length := by
    rw [uniform.disks]
    exact (List.getElem?_eq_some_iff.mp entry).1
  exact ⟨slot, s.disks[di], entry, List.getElem?_eq_getElem inTable⟩

def paddedBlock (s : EngineState) (old : Segment) (done chunkLen : Nat) : Bytes :=
  readArea s.data old.extentId (old.offset + done) chunkLen ++
    zeroBytes (alignUp chunkLen sectorSize - chunkLen)

structure BlockCopied (s s' : EngineState) (eid wm : Nat) (old : Segment) (done chunkLen : Nat)
    (calls : List Nat) : Prop where
  fixed : EngineState.Fixed s s'
  faults : s'.faults = calls.foldl spend s.faults
  data : s'.data = writeArea s.data eid (wm + done) (paddedBlock s old done chunkLen)

theorem copyBlock_outcome {srcDi srcLocal dstDi dstLocal : Nat} {srcSlot : DeviceSlot}
    (uniform : s.Uniform) (source : resolveExtent s.devices old.extentId = some (srcDi, srcLocal))
    (srcEntry : s.devices[srcDi]? = some srcSlot)
    (inside : old.offset + old.len ≤ s.mainSb.extentCapacity)
    (target : resolveExtent s.devices eid = some (dstDi, dstLocal)) (within : done + chunkLen ≤ old.len)
    (room : wm + done + alignUp chunkLen sectorSize ≤ s.mainSb.extentCapacity) :
    (Answers s.faults [srcDi, dstDi] ∧ ∃ s',
        copyBlock srcDi (srcSlot.dataOffset srcLocal + old.offset) eid wm done chunkLen s =
          .ok (readArea s.data old.extentId (old.offset + done) chunkLen) s' ∧
        BlockCopied s s' eid wm old done chunkLen [srcDi, dstDi]) ∨
      (¬Answers s.faults [srcDi, dstDi] ∧ ∃ reason s',
        copyBlock srcDi (srcSlot.dataOffset srcLocal + old.offset) eid wm done chunkLen s =
          .error reason s') := by
  obtain ⟨_, srcDisk, srcEntry', srcMounted⟩ := uniform.mounted source
  obtain rfl : srcSlot = _ := Option.some.inj (srcEntry.symm.trans srcEntry')
  have whole : chunkLen ≤ alignUp chunkLen sectorSize := le_alignUp (by decide)
  have data : (srcDisk.read (srcSlot.dataOffset srcLocal + old.offset + done)
      (alignUp chunkLen sectorSize)).take chunkLen =
        readArea s.data old.extentId (old.offset + done) chunkLen := by
    rw [read_take whole, Nat.add_assoc]
    exact EngineState.read_of_place source srcEntry srcMounted (by omega)
  have spent : (s.setDisk srcDi srcDisk.nextFault.2).faults = spend s.faults srcDi :=
    EngineState.faults_setDisk srcMounted rfl
  have answered : Answers s.faults [srcDi, dstDi] ↔
      (s.faults.getD srcDi []).headD none = none ∧
        ((s.setDisk srcDi srcDisk.nextFault.2).faults.getD dstDi []).headD none = none := by
    rw [spent]
    simp only [Answers, and_true]
  rw [answered]
  have outcome := readExact_outcome srcMounted (srcSlot.dataOffset srcLocal + old.offset + done)
    (alignUp chunkLen sectorSize)
  obtain ⟨calm, ran⟩ | ⟨faulty, failed, ran⟩ := outcome
  · generalize second : s.setDisk srcDi srcDisk.nextFault.2 = middle at spent ran ⊢
    have kept : EngineState.Fixed s middle := second ▸ EngineState.fixed_setDisk s srcDi _
    have same : middle.data = s.data := second ▸ EngineState.data_of_read srcMounted
    have still := uniform.of_fixed kept
    have place : resolveExtent middle.devices eid = some (dstDi, dstLocal) := by
      rw [kept.devices]
      exact target
    obtain ⟨dstSlot, dstDisk, dstEntry, dstMounted⟩ := still.mounted place
    have located : resolveExtentOrLast middle.devices eid = (dstDi, dstLocal) :=
      resolveExtentOrLast_of_found place
    have slot : slotAt dstDi middle = .ok dstSlot middle := by
      apply bind_eq_ok.mpr
      refine ⟨middle, middle, rfl, ?_⟩
      rw [dstEntry]
      rfl
    have length : (paddedBlock s old done chunkLen).length = alignUp chunkLen sectorSize := by
      rw [paddedBlock, List.length_append, readArea_length, zeroBytes_length]
      omega
    have ready : copyBlock srcDi (srcSlot.dataOffset srcLocal + old.offset) eid wm done chunkLen s =
        (do
          writeAll dstDi (paddedBlock s old done chunkLen) (dstSlot.dataOffset dstLocal + wm + done)
          return readArea s.data old.extentId (old.offset + done) chunkLen : EngineM Bytes) middle := by
      unfold copyBlock
      rw [bind_of_ok ran, bind_of_ok (get_eq_ok.mpr ⟨rfl, rfl⟩), located]
      dsimp only
      rw [bind_of_ok slot, data]
      rfl
    rw [ready]
    have written := writeAll_outcome dstMounted (paddedBlock s old done chunkLen)
      (dstSlot.dataOffset dstLocal + wm + done)
    obtain ⟨calm', wrote⟩ | ⟨faulty, failed, wrote⟩ := written
    · refine .inl ⟨⟨calm, calm'⟩, _, (bind_of_ok wrote).trans rfl, ?_⟩
      constructor
      · exact kept.trans (EngineState.fixed_setDisk middle dstDi _)
      · rw [EngineState.faults_setDisk dstMounted rfl, spent]
        rfl
      · rw [Nat.add_assoc (dstSlot.dataOffset dstLocal), still.data_of_write place dstEntry dstMounted, same]
        rw [length, kept.mainSb]
        omega
    · exact .inr ⟨fun calls => faulty calls.2, .io, failed, bind_of_error wrote⟩
  · refine .inr ⟨fun calls => faulty calls.1, .io, failed, ?_⟩
    unfold copyBlock
    exact bind_of_error ran

def EngineState.segmentBytes (e : EngineState) (seg : Segment) : Bytes :=
  readArea e.data seg.extentId seg.offset seg.len

/-- A segment is copied up to some byte; what stands before the watermark and in other extents
is as it was. -/
structure Copying (e s : EngineState) (eid wm : Nat) (old : Segment) (done : Nat) : Prop where
  fixed : EngineState.Fixed e s
  written : readArea s.data eid wm done = (e.segmentBytes old).take done
  others : ∀ id position, id ≠ eid ∨ position < wm → s.data id position = e.data id position

theorem Copying.start (e : EngineState) (eid wm : Nat) (old : Segment) :
    Copying e e eid wm old 0 :=
  ⟨.refl e, rfl, fun _ _ _ => rfl⟩

theorem Copying.source (copying : Copying e s eid wm old done) (apart : old.extentId ≠ eid)
    (within : done + chunkLen ≤ old.len) :
    readArea s.data old.extentId (old.offset + done) chunkLen =
      slice (e.segmentBytes old) done chunkLen := by
  rw [EngineState.segmentBytes, slice, readArea_drop_take _ _ _ within]
  apply List.map_congr_left
  intro i _
  exact copying.others _ _ (.inl apart)

theorem Copying.block {s' : EngineState} {calls : List Nat} (copying : Copying e s eid wm old done)
    (block : BlockCopied s s' eid wm old done chunkLen calls) (apart : old.extentId ≠ eid)
    (within : done + chunkLen ≤ old.len) : Copying e s' eid wm old (done + chunkLen) := by
  have source := copying.source apart within
  have length : (slice (e.segmentBytes old) done chunkLen).length = chunkLen := by
    rw [← source, readArea_length]
  have before : readArea s'.data eid wm done = (e.segmentBytes old).take done := by
    rw [block.data, ← copying.written]
    exact readArea_writeArea_of_disjoint _ (.inr (.inl (Nat.le_refl _)))
  have here : readArea s'.data eid (wm + done) chunkLen = slice (e.segmentBytes old) done chunkLen := by
    have whole := readArea_writeArea s.data eid (wm + done) (paddedBlock s old done chunkLen)
    rw [← block.data, paddedBlock, source, List.length_append, length, readArea_append] at whole
    exact (List.append_inj whole (by rw [readArea_length, length])).1
  constructor
  · exact copying.fixed.trans block.fixed
  · rw [readArea_append, before, here, slice, ← List.take_add]
  · intro id position elsewhere
    rw [← copying.others id position elsewhere, block.data, writeArea, if_neg]
    omega

theorem divCeil_step {rest grid : Nat} (positive : 0 < grid) (more : 0 < rest) :
    divCeil rest grid = divCeil (rest - min rest grid) grid + 1 := by
  rw [divCeil, divCeil, ← Nat.add_div_right _ positive]
  rcases Nat.le_total rest grid with last | full
  · rw [Nat.min_eq_left last, Nat.sub_self, Nat.zero_add]
    have one : (rest + grid - 1) / grid = 1 :=
      Nat.div_eq_of_lt_le (by omega) (by omega)
    have other : (grid - 1 + grid) / grid = 1 :=
      Nat.div_eq_of_lt_le (by omega) (by omega)
    omega
  · rw [Nat.min_eq_right full]
    congr 1
    omega

theorem copyLoop_finished {srcDi srcBase total fuel partLen : Nat} {part : UInt32}
    {crcs : List UInt32} (finished : total ≤ done) :
    copyLoop srcDi srcBase eid wm total fuel done part partLen crcs s =
      .ok (part, partLen, crcs) s := by
  cases fuel with
  | zero => rfl
  | succ fuel =>
    rw [copyLoop, if_neg (by omega)]
    rfl

def blockCalls (srcDi dstDi rest : Nat) : List Nat :=
  (List.replicate (divCeil rest segmentCrcGrid) [srcDi, dstDi]).flatten

theorem blockCalls_step {srcDi dstDi rest : Nat} (more : 0 < rest) :
    blockCalls srcDi dstDi rest =
      [srcDi, dstDi] ++ blockCalls srcDi dstDi (rest - min rest segmentCrcGrid) := by
  rw [blockCalls, divCeil_step (by decide) more, List.replicate_succ, List.flatten_cons]
  rfl

structure LoopCopied (e s s' : EngineState) (eid wm : Nat) (old : Segment) (calls : List Nat)
    (part : UInt32) (partLen : Nat) (crcs : List UInt32) : Prop where
  copying : Copying e s' eid wm old old.len
  faults : s'.faults = calls.foldl spend s.faults
  crcs : closeCrcs part partLen crcs = gridCrcs (e.segmentBytes old)

theorem copied_gridCrcs {bytes : Bytes} {total : Nat} (length : bytes.length = total)
    (full : segmentCrcGrid ∣ done) (some : 0 < chunkLen) (short : chunkLen ≤ segmentCrcGrid)
    (within : done + chunkLen ≤ total) :
    gridCrcs (bytes.take (done + chunkLen)) =
      gridCrcs (bytes.take done) ++ [crc32c (slice bytes done chunkLen) 0] := by
  have before : (bytes.take done).length = done := by
    rw [List.length_take, length]
    omega
  have block : (slice bytes done chunkLen).length = chunkLen := by
    rw [slice_length, length]
    omega
  rw [List.take_add]
  apply gridCrcs_append
  · rw [before]
    exact full
  · intro empty
    change slice bytes done chunkLen = [] at empty
    rw [empty, List.length_nil] at block
    omega
  · exact block.le.trans short

theorem copyLoop_ended {srcDi srcBase dstDi fuel : Nat} (copying : Copying e s eid wm old old.len) :
    Answers s.faults (blockCalls srcDi dstDi (old.len - old.len)) ∧ ∃ part partLen crcs s',
      copyLoop srcDi srcBase eid wm old.len fuel old.len 0 0
        (gridCrcs ((e.segmentBytes old).take old.len)) s = .ok (part, partLen, crcs) s' ∧
      LoopCopied e s s' eid wm old (blockCalls srcDi dstDi (old.len - old.len)) part partLen crcs := by
  have none : blockCalls srcDi dstDi (old.len - old.len) = [] := by
    rw [Nat.sub_self]
    rfl
  have length : (e.segmentBytes old).length = old.len := readArea_length ..
  rw [none]
  refine ⟨trivial, 0, 0, _, s, copyLoop_finished (Nat.le_refl _), copying, rfl, ?_⟩
  rw [closeCrcs, if_neg (Nat.lt_irrefl 0), ← length, List.take_length]

theorem copyLoop_outcome {srcDi srcLocal dstDi dstLocal : Nat} {srcSlot : DeviceSlot}
    (uniform : e.Uniform) (source : resolveExtent e.devices old.extentId = some (srcDi, srcLocal))
    (srcEntry : e.devices[srcDi]? = some srcSlot)
    (inside : old.offset + old.len ≤ e.mainSb.extentCapacity)
    (target : resolveExtent e.devices eid = some (dstDi, dstLocal)) (apart : old.extentId ≠ eid)
    (room : wm + packedSpan old.len ≤ e.mainSb.extentCapacity) {fuel : Nat}
    (enough : old.len - done ≤ fuel) (below : done ≤ old.len) (full : segmentCrcGrid ∣ done)
    (copying : Copying e s eid wm old done) :
    (Answers s.faults (blockCalls srcDi dstDi (old.len - done)) ∧ ∃ part partLen crcs s',
        copyLoop srcDi (srcSlot.dataOffset srcLocal + old.offset) eid wm old.len fuel done 0 0
          (gridCrcs ((e.segmentBytes old).take done)) s = .ok (part, partLen, crcs) s' ∧
        LoopCopied e s s' eid wm old (blockCalls srcDi dstDi (old.len - done)) part partLen crcs) ∨
      (¬Answers s.faults (blockCalls srcDi dstDi (old.len - done)) ∧ ∃ reason s',
        copyLoop srcDi (srcSlot.dataOffset srcLocal + old.offset) eid wm old.len fuel done 0 0
          (gridCrcs ((e.segmentBytes old).take done)) s = .error reason s') := by
  have length : (e.segmentBytes old).length = old.len := readArea_length ..
  induction fuel generalizing done s with
  | zero =>
    obtain rfl : done = old.len := by omega
    exact .inl (copyLoop_ended copying)
  | succ fuel ih =>
    rcases below.eq_or_lt with rfl | more
    · exact .inl (copyLoop_ended copying)
    · have sector : sectorSize ∣ done := Nat.dvd_trans (by decide) full
      have rest : alignUp (min (old.len - done) segmentCrcGrid) sectorSize ≤
          alignUp (old.len - done) sectorSize :=
        alignUp_le (by decide) (dvd_alignUp _ _)
          ((Nat.min_le_left _ _).trans (le_alignUp (by decide)))
      have span : packedSpan old.len = done + alignUp (old.len - done) sectorSize := by
        rw [packedSpan, ← alignUp_add _ sector, Nat.add_sub_of_le below]
      have cell : segmentCrcGrid = 65536 := rfl
      rw [blockCalls_step (by omega : 0 < old.len - done), answers_append, Nat.sub_sub]
      generalize chunk : min (old.len - done) segmentCrcGrid = chunkLen at rest ⊢
      have fixed := copying.fixed
      have fits : wm + done + alignUp chunkLen sectorSize ≤ s.mainSb.extentCapacity := by
        rw [fixed.mainSb]
        omega
      have transfer := copyBlock_outcome (uniform.of_fixed fixed)
        (by rw [fixed.devices]; exact source) (by rw [fixed.devices]; exact srcEntry)
        (by rw [fixed.mainSb]; exact inside) (by rw [fixed.devices]; exact target)
        (by omega : done + chunkLen ≤ old.len) fits
      obtain ⟨answered, middle, ran, block⟩ | ⟨refused, reason, failed, ran⟩ := transfer
      · have next := copying.block block apart (by omega)
        have grown := copied_gridCrcs length full (by omega : 0 < chunkLen)
          (by omega : chunkLen ≤ segmentCrcGrid) (by omega : done + chunkLen ≤ old.len)
        rw [copying.source apart (by omega)] at ran
        have round : copyLoop srcDi (srcSlot.dataOffset srcLocal + old.offset) eid wm old.len
            (fuel + 1) done 0 0 (gridCrcs ((e.segmentBytes old).take done)) s =
              (if 0 + chunkLen ≥ segmentCrcGrid then
                copyLoop srcDi (srcSlot.dataOffset srcLocal + old.offset) eid wm old.len fuel
                  (done + chunkLen) 0 0 (gridCrcs ((e.segmentBytes old).take done) ++
                    [crc32c (slice (e.segmentBytes old) done chunkLen) 0])
              else
                copyLoop srcDi (srcSlot.dataOffset srcLocal + old.offset) eid wm old.len fuel
                  (done + chunkLen) (crc32c (slice (e.segmentBytes old) done chunkLen) 0)
                  (0 + chunkLen) (gridCrcs ((e.segmentBytes old).take done))) middle := by
          rw [copyLoop, if_pos more, chunk]
          exact bind_of_ok ran
        rw [round, ← block.faults]
        by_cases whole : segmentCrcGrid ≤ chunkLen
        · rw [if_pos (by omega), ← grown]
          have aligned : segmentCrcGrid ∣ done + chunkLen := by
            have cellLong : chunkLen = segmentCrcGrid := by omega
            rw [cellLong]
            exact Nat.dvd_add full (Nat.dvd_refl _)
          have later := ih (by omega) (by omega) aligned next
          obtain ⟨rest, part, partLen, crcs, s', ended, copied⟩ | ⟨refused, outcome⟩ := later
          · refine .inl ⟨⟨answered, rest⟩, part, partLen, crcs, s', ended, ?_⟩
            refine ⟨copied.copying, ?_, copied.crcs⟩
            rw [copied.faults, block.faults, List.foldl_append]
          · exact .inr ⟨fun calls => refused calls.2, outcome⟩
        · -- a short block is the last one
          have last : done + chunkLen = old.len := by omega
          have none : blockCalls srcDi dstDi (old.len - (done + chunkLen)) = [] := by
            rw [last, Nat.sub_self]
            rfl
          rw [if_neg (by omega), copyLoop_finished (by omega), none]
          refine .inl ⟨⟨answered, trivial⟩, _, _, _, middle, rfl, ?_⟩
          refine ⟨last ▸ next, ?_, ?_⟩
          · rw [block.faults, List.append_nil]
          · rw [closeCrcs, if_pos (by omega), ← grown, last, ← length, List.take_length]
      · refine .inr ⟨fun calls => refused calls.1, reason, failed, ?_⟩
        rw [copyLoop, if_pos more, chunk]
        exact bind_of_error ran

end Blocks

section Segments

variable {e s : EngineState} {eid wm : Nat} {old : Segment} {olds : List Segment}

theorem resolveExtent_local {devices : List DeviceSlot} {id di localExtent : Nat} {slot : DeviceSlot}
    (whole : slot.base = ((devices.take di).map DeviceSlot.extentCount).sum)
    (placed : resolveExtent devices id = some (di, localExtent)) : id - slot.base = localExtent := by
  rw [resolveExtent_eq_locate] at placed
  obtain ⟨width, _, _, sum⟩ := locate_eq_some_iff.mp placed
  rw [← List.map_take, ← whole] at sum
  omega

/-- A segment was copied; what stands before the watermark and in other extents is as it was. -/
structure SegmentCopied (e s : EngineState) (eid wm : Nat) (old new : Segment) : Prop where
  fixed : EngineState.Fixed e s
  faults : s.faults = (segmentCalls e.devices eid old).foldl spend e.faults
  others : ∀ id position, id ≠ eid ∨ position < wm → s.data id position = e.data id position
  place : new.extentId = eid ∧ new.offset = wm
  stored : EngineState.Stored s new (e.segmentBytes old)

theorem copySegment_outcome (copyable : Copyable e eid wm (old :: olds)) :
    (Answers e.faults (segmentCalls e.devices eid old) ∧ ∃ new s,
        copySegment eid wm old e = .ok (new, wm + packedSpan old.len) s ∧
        SegmentCopied e s eid wm old new) ∨
      (¬Answers e.faults (segmentCalls e.devices eid old) ∧ ∃ reason s,
        copySegment eid wm old e = .error reason s) := by
  obtain ⟨⟨⟨srcDi, srcLocal⟩, source⟩, inside, apart⟩ := copyable.sources old (List.mem_cons_self ..)
  obtain ⟨⟨dstDi, dstLocal⟩, target⟩ := copyable.target
  obtain ⟨srcSlot, srcEntry⟩ := resolveExtent_slot source
  have room := copyable.room
  rw [List.map_cons, List.sum_cons] at room
  have calls : segmentCalls e.devices eid old = blockCalls srcDi dstDi (old.len - 0) := by
    rw [segmentCalls, resolveExtentOrLast_of_found source, resolveExtentOrLast_of_found target]
    rfl
  have localId := resolveExtent_local (copyable.whole srcDi srcSlot srcEntry) source
  have ready : copySegment eid wm old e = (do
      let (part, partLen, crcs) ← copyLoop srcDi (srcSlot.dataOffset srcLocal + old.offset) eid wm
        old.len old.len 0 0 0 []
      return (⟨eid, wm, old.len, closeCrcs part partLen crcs⟩, wm + packedSpan old.len) :
        EngineM (Segment × Nat)) e := by
    have slot : slotAt srcDi e = .ok srcSlot e := by
      apply bind_eq_ok.mpr
      refine ⟨e, e, rfl, ?_⟩
      rw [srcEntry]
      rfl
    unfold copySegment
    rw [bind_of_ok (get_eq_ok.mpr ⟨rfl, rfl⟩), resolveExtentOrLast_of_found source]
    dsimp only
    rw [bind_of_ok slot, localId]
  have outcome := copyLoop_outcome copyable.uniform source srcEntry inside target apart
    (by omega) (Nat.sub_le old.len 0) (Nat.zero_le _) (Nat.dvd_zero _) (Copying.start e eid wm old)
  have none : gridCrcs ((e.segmentBytes old).take 0) = [] := by
    rw [List.take_zero, gridCrcs_eq, blocks_nil, List.map_nil]
  rw [← calls, none] at outcome
  rw [ready]
  obtain ⟨answered, part, partLen, crcs, s, ran, copied⟩ | ⟨refused, reason, s, ran⟩ := outcome
  · refine .inl ⟨answered, _, s, (bind_of_ok ran).trans rfl, ?_⟩
    have fixed := copied.copying.fixed
    refine ⟨fixed, copied.faults, copied.copying.others, ⟨rfl, rfl⟩, ?_⟩
    constructor
    · exact readArea_length ..
    · rw [fixed.devices]
      exact copyable.target
    · have span : old.len ≤ packedSpan old.len := le_alignUp (by decide)
      rw [fixed.mainSb]
      dsimp only
      omega
    · have written := copied.copying.written
      have length : (e.segmentBytes old).length = old.len := readArea_length ..
      rw [← length, List.take_length, length] at written
      exact written
    · exact copied.crcs
  · exact .inr ⟨refused, reason, s, bind_of_error ran⟩

structure ItemCopied (e s : EngineState) (eid wm : Nat) (olds news : List Segment) : Prop where
  fixed : EngineState.Fixed e s
  others : ∀ id position, id ≠ eid ∨ position < wm → s.data id position = e.data id position
  stored : List.Forall₂ (fun old new => EngineState.Stored s new (e.segmentBytes old)) olds news

theorem Copyable.next (copyable : Copyable e eid wm (old :: olds)) (fixed : EngineState.Fixed e s) :
    Copyable s eid (wm + packedSpan old.len) olds := by
  have room := copyable.room
  rw [List.map_cons, List.sum_cons] at room
  constructor
  · exact copyable.uniform.of_fixed fixed
  · rw [fixed.devices]
    exact copyable.whole
  · rw [fixed.devices]
    exact copyable.target
  · rw [fixed.mainSb]
    omega
  · rw [fixed.devices, fixed.mainSb]
    intro other member
    exact copyable.sources other (List.mem_cons_of_mem _ member)

theorem Stored.kept {seg : Segment} {bytes : Bytes} (stored : EngineState.Stored e seg bytes)
    (fixed : EngineState.Fixed e s)
    (others : ∀ id position, id ≠ eid ∨ position < wm → s.data id position = e.data id position)
    (before : seg.offset + seg.len ≤ wm) : EngineState.Stored s seg bytes := by
  constructor
  · exact stored.length
  · rw [fixed.devices]
    exact stored.placed
  · rw [fixed.mainSb]
    exact stored.inside
  · rw [← stored.content]
    apply List.map_congr_left
    intro i inside
    have below := List.mem_range.mp inside
    exact others _ _ (.inr (by omega))
  · exact stored.crcs

theorem copySegments_outcome (copyable : Copyable e eid wm olds) :
    (Answers e.faults (copyCalls e.devices eid olds) ∧ ∃ news last s,
        copySegments eid wm olds e = .ok (news, last) s ∧ ItemCopied e s eid wm olds news) ∨
      (¬Answers e.faults (copyCalls e.devices eid olds) ∧ ∃ reason s,
        copySegments eid wm olds e = .error reason s) := by
  induction olds generalizing e wm with
  | nil => exact .inl ⟨trivial, [], wm, e, rfl, .refl e, fun _ _ _ => rfl, .nil⟩
  | cons old rest ih =>
    have calls : copyCalls e.devices eid (old :: rest) =
        segmentCalls e.devices eid old ++ copyCalls e.devices eid rest := List.flatMap_cons
    rw [calls, answers_append]
    obtain ⟨answered, new, middle, ran, copied⟩ | ⟨refused, reason, s, ran⟩ :=
      copySegment_outcome copyable
    · have later := ih (copyable.next copied.fixed)
      rw [copied.fixed.devices, copied.faults] at later
      obtain ⟨others, news, last, s, ended, item⟩ | ⟨refused, reason, s, ended⟩ := later
      · refine .inl ⟨⟨answered, others⟩, new :: news, last, s, ?_, ?_⟩
        · rw [copySegments, bind_of_ok ran]
          exact (bind_of_ok ended).trans rfl
        · have length : new.len = old.len := by
            rw [← copied.stored.length]
            exact readArea_length ..
          have behind : new.offset + new.len ≤ wm + packedSpan old.len := by
            have span : old.len ≤ packedSpan old.len := le_alignUp (by decide)
            rw [copied.place.2, length]
            omega
          constructor
          · exact copied.fixed.trans item.fixed
          · intro id position elsewhere
            rw [item.others id position (by omega), copied.others id position elsewhere]
          · refine .cons (Stored.kept copied.stored item.fixed item.others behind) ?_
            -- the other sources were not touched by the first copy
            apply List.forall₂_iff_zip.mpr
            refine ⟨item.stored.length_eq, ?_⟩
            intro other moved paired
            have member := (List.of_mem_zip paired).1
            have apart := (copyable.sources other (List.mem_cons_of_mem _ member)).2.2
            have untouched : middle.segmentBytes other = e.segmentBytes other := by
              apply List.map_congr_left
              intro i _
              exact copied.others _ _ (.inl apart)
            have stored := List.forall₂_zip item.stored paired
            rwa [untouched] at stored
      · refine .inr ⟨fun calls => refused calls.2, reason, s, ?_⟩
        rw [copySegments, bind_of_ok ran]
        exact bind_of_error ended
    · refine .inr ⟨fun calls => refused calls.1, reason, s, ?_⟩
      rw [copySegments]
      exact bind_of_error ran

end Segments

section Migrated

variable {olds news : List Segment} {m : Meta.ObjectMeta}

def movedTo (olds news : List Segment) (s : Segment) : Segment :=
  match olds.idxOf? s with
  | some i => news.getD i s
  | none => s

theorem movedTo_of_mem {R : Segment → Segment → Prop} (paired : List.Forall₂ R olds news)
    {s : Segment} (listed : s ∈ olds) : R s (movedTo olds news s) := by
  obtain ⟨i, found⟩ := Option.isSome_iff_exists.mp (List.isSome_idxOf?.mpr listed)
  obtain ⟨inside, here, _⟩ := List.idxOf?_eq_some_iff.mp found
  have within : i < news.length := by
    rw [← paired.length_eq]
    exact inside
  have pair := paired.get inside within
  rw [List.get_eq_getElem, List.get_eq_getElem] at pair
  simp only [here] at pair
  rw [movedTo, found]
  dsimp only
  rw [List.getD_eq_getElem?_getD, List.getElem?_eq_getElem within, Option.getD_some]
  exact pair

theorem movedTo_len (same : List.Forall₂ (fun old new => new.len = old.len) olds news) (s : Segment) :
    (movedTo olds news s).len = s.len := by
  by_cases listed : s ∈ olds
  · exact movedTo_of_mem same listed
  · rw [movedTo, List.idxOf?_eq_none_iff.mpr listed]

theorem readRecord_migrated (m : Meta.ObjectMeta) (olds news : List Segment) (restored : Bool) :
    readRecord (m.migrated olds news) restored = { readRecord m restored with
      extents := (readRecord m restored).extents.map (movedTo olds news)
      restoreState := (m.migrated olds news).restoreState } := by
  cases restored with
  | false => rfl
  | true =>
    unfold readRecord Meta.ObjectMeta.migrated Core.ObjectMeta.restoredExtents
    cases m.restoreState with
    | none => rfl
    | some st => rfl

theorem countP_planned (candidates : List Nat) (list olds : List Segment)
    (kept : ∀ s ∈ list.filter fun s => s.extentId ∈ candidates, s ∈ olds)
    (only : ∀ s ∈ olds, s.extentId ∈ candidates) :
    list.countP (fun s => olds.contains s) =
      (list.filter fun s => s.extentId ∈ candidates).length := by
  rw [← List.countP_eq_length_filter]
  apply List.countP_congr
  intro s member
  rw [List.contains_iff_mem]
  constructor
  · intro listed
    exact decide_eq_true (only s listed)
  · intro candidate
    exact kept s (List.mem_filter.mpr ⟨member, candidate⟩)

/-- The mapping replaces as many references as the item has segments, so that the transaction
accepts it. -/
theorem planned_replaced (candidates : List Nat) (m : Meta.ObjectMeta) (news : List Segment) :
    m.replaced (planned candidates m.toObjectMeta) news =
      (planned candidates m.toObjectMeta).length := by
  have only : ∀ s ∈ planned candidates m.toObjectMeta, s.extentId ∈ candidates := by
    intro s member
    rcases List.mem_append.mp member with listed | listed
    · exact of_decide_eq_true (List.mem_filter.mp listed).2
    · exact of_decide_eq_true (List.mem_filter.mp listed).2
  have first := countP_planned candidates m.extents (planned candidates m.toObjectMeta)
    (fun s member => List.mem_append_left _ member) only
  have second := countP_planned candidates m.restoredExtents (planned candidates m.toObjectMeta)
    (fun s member => List.mem_append_right _ member) only
  have counted : m.replaced (planned candidates m.toObjectMeta) news =
      m.extents.countP (fun s => (planned candidates m.toObjectMeta).contains s) +
        m.restoredExtents.countP fun s => (planned candidates m.toObjectMeta).contains s := by
    unfold Meta.ObjectMeta.replaced Meta.remap
    cases state : m.restoreState with
    | none =>
      have empty : m.restoredExtents = [] := by
        rw [Core.ObjectMeta.restoredExtents, state]
      rw [empty]
      rfl
    | some st =>
      have same : m.restoredExtents = st.restoredExtents := by
        rw [Core.ObjectMeta.restoredExtents, state]
      rw [same]
  rw [counted, first, second, ← List.length_append]
  rfl

theorem objectMigrate_planned {rows : Meta.Store} {bucket key : String} {vk : Option Vk}
    (candidates : List Nat) (listed : rows (.object bucket key vk) = some m)
    (lengths : (planned candidates m.toObjectMeta).length = news.length) :
    Meta.objectMigrate false bucket key vk (planned candidates m.toObjectMeta) news rows =
      .ok ((), Function.update rows (.object bucket key vk)
        (some (m.migrated (planned candidates m.toObjectMeta) news))) := by
  unfold Meta.objectMigrate
  apply Tx.bind_eq_ok.mpr
  refine ⟨some m, rows, ?_, ?_⟩
  · rw [Meta.tget_eq_ok, listed]
  · simp only [lengths, ne_eq, not_true_eq_false, if_false]
    rw [if_neg]
    · exact Meta.tinsert_eq_ok.mpr rfl
    · rw [planned_replaced, lengths]
      exact fun refused => refused.1 rfl

end Migrated

section Verified

variable {e : EngineState}

theorem verifying_calm (e : EngineState) : ¬e.verifying.Faulty := by
  intro faulty
  obtain ⟨disk, member, some⟩ := faulty
  obtain ⟨_, _, rfl⟩ := List.mem_map.mp member
  exact some rfl

theorem verifying_uniform (uniform : e.Uniform) : e.verifying.Uniform :=
  ⟨uniform.main, uniform.size, (List.length_map _).trans uniform.disks, uniform.table,
    uniform.chunkSize⟩

theorem verifying_data (e : EngineState) : e.verifying.data = e.data := by
  funext id position
  unfold EngineState.data EngineState.verifying
  cases resolveExtent e.devices id with
  | none => rfl
  | some place =>
    simp only [List.getElem?_map]
    cases e.disks[place.1]? with
    | none => rfl
    | some disk => rfl

theorem verifying_stored {seg : Segment} {bytes : Bytes} (stored : EngineState.Stored e seg bytes) :
    EngineState.Stored e.verifying seg bytes where
  length := stored.length
  placed := stored.placed
  inside := stored.inside
  content := by
    rw [verifying_data]
    exact stored.content
  crcs := stored.crcs

theorem split_cases {α : Type} {done rest before after : List α} {item found : α}
    (same : done ++ item :: rest = before ++ found :: after) :
    (∃ between, before = done ++ item :: between) ∨ (done = before ∧ item = found) ∨
      ∃ between, done = before ++ found :: between := by
  rcases List.append_eq_append_iff.mp same with ⟨part, left, right⟩ | ⟨part, left, right⟩
  · cases part with
    | nil =>
      rw [List.append_nil] at left
      exact .inr (.inl ⟨left.symm, (List.cons.inj right).1⟩)
    | cons head tail =>
      obtain ⟨rfl, _⟩ := List.cons.inj right
      exact .inl ⟨tail, left⟩
  · cases part with
    | nil =>
      rw [List.append_nil] at left
      exact .inr (.inl ⟨left, (List.cons.inj right).1.symm⟩)
    | cons head tail =>
      obtain ⟨rfl, _⟩ := List.cons.inj right
      exact .inr (.inr ⟨tail, left⟩)

theorem getRawToMeta_within {record : ObjectMeta} {before after : List Segment} {seg : Segment}
    {bytes : Bytes} {start stop : Nat} (uniform : e.Uniform) (verifies : e.verifyReads = true)
    (listed : record.extents = before ++ seg :: after) (stored : EngineState.Stored e seg bytes)
    (first : (before.map Segment.len).sum ≤ start)
    (last : stop ≤ (before.map Segment.len).sum + seg.len) :
    Ensures (EngineState.Untouched e) (getRawToMeta record start stop) (fun _ _ => True)
      fun _ => e.Faulty := by
  unfold getRawToMeta
  apply Ensures.ite
  · intro _
    exact Ensures.pure fun _ _ => trivial
  · intro some
    have begin : min start record.size = start := by omega
    rw [begin] at some ⊢
    have finish : min stop record.size ≤ stop := Nat.min_le_left _ _
    generalize min stop record.size = finish' at some finish ⊢
    cases record.inline with
    | some inline => exact Ensures.pure fun _ _ => trivial
    | none =>
      simp only
      let inv := fun (done : List Segment) (progress : Nat × Bytes) (s : EngineState) =>
        progress.1 = (done.map Segment.len).sum ∧ EngineState.Untouched e s
      have loop : Ensures (inv [] (0, []))
          (record.extents.foldlM (readSegment start finish') (0, [])) (inv record.extents)
          fun _ => e.Faulty := by
        apply Ensures.foldlM inv
        intro done item rest progress split
        apply Ensures.assuming
        intro reached
        obtain ⟨objPos, out⟩ := progress
        dsimp only at reached
        have total : ((done ++ [item]).map Segment.len).sum = objPos + item.len := by
          rw [List.map_append, List.sum_append, ← reached]
          rfl
        unfold readSegment
        dsimp only
        apply Ensures.ite
        · intro _
          exact Ensures.pure fun s same => ⟨total.symm, same⟩
        · intro hit
          obtain ⟨between, earlier⟩ | ⟨here, rfl⟩ | ⟨between, later⟩ :=
            split_cases (split.symm.trans listed)
          · -- this segment ends before the range
            rw [earlier, List.map_append, List.sum_append, List.map_cons, List.sum_cons] at first
            omega
          · apply Ensures.bindGetHeld
            intro state seen
            have setting : state.verifyReads = true := by
              rw [seen.rest]
              exact verifies
            rw [if_pos setting]
            rw [here] at reached
            have some' : 0 < min (objPos + item.len) finish' - max objPos start := by omega
            have inside : max objPos start - objPos +
                (min (objPos + item.len) finish' - max objPos start) ≤ item.len := by omega
            have read := readVerifiedSegment_reads uniform
              (⟨stored.located, fun _ => .inl stored.crcs⟩ : EngineState.Legible e item bytes)
              verifies (fun faulty => faulty) some' inside
            apply Ensures.bindFact read
            intro result _
            exact Ensures.pure fun s same => ⟨total.symm, same⟩
          · -- this segment starts behind it
            rw [later, List.map_append, List.sum_append, List.map_cons, List.sum_cons] at reached
            omega
      apply Ensures.bind (loop.strengthen fun s same => ⟨rfl, same⟩)
      intro progress
      exact Ensures.pure fun _ _ => trivial

theorem ItemCopied.unreported {s : EngineState} {eid wm : Nat} {olds news : List Segment}
    {m : Meta.ObjectMeta} (item : ItemCopied e s eid wm olds news) (uniform : e.Uniform)
    {restored : Bool} {start stop : Nat} (moved : MovedBlock olds (readRecord m restored) start stop) :
    ¬Reports s (readRecord (m.migrated olds news) restored) start stop := by
  intro reports
  obtain ⟨reason, after, refused, _⟩ := reports.refused
  obtain ⟨before, old, behind, block, listed, member, inBlock, first, last⟩ := moved.inside
  have stored := movedTo_of_mem item.stored member
  have lengths : List.Forall₂ (fun old new => new.len = old.len) olds news := by
    apply item.stored.imp
    intro old new copied
    rw [← copied.length]
    exact readArea_length ..
  have same : ((before.map (movedTo olds news)).map Segment.len) = before.map Segment.len := by
    rw [List.map_map]
    apply List.map_congr_left
    intro other _
    exact movedTo_len lengths other
  have extents : (readRecord (m.migrated olds news) restored).extents =
      before.map (movedTo olds news) ++ movedTo olds news old :: behind.map (movedTo olds news) := by
    rw [readRecord_migrated, listed, List.map_append, List.map_cons]
  have from' : ((before.map (movedTo olds news)).map Segment.len).sum ≤ start := by
    rw [same]
    omega
  have upto : stop ≤ ((before.map (movedTo olds news)).map Segment.len).sum +
      (movedTo olds news old).len := by
    rw [same, movedTo_len lengths]
    omega
  have reads := getRawToMeta_within (verifying_uniform (uniform.of_fixed item.fixed)) rfl extents
    (verifying_stored stored) from' upto
  exact verifying_calm s (reads.error (.refl _) refused)

variable {eid wm : Nat} {olds : List Segment} {rows : Meta.Store} {bucket key : String}
  {vk : Option Vk} {m : Meta.ObjectMeta}

theorem CopyAdmitted.migrated (admitted : CopyAdmitted e eid wm olds rows bucket key vk m)
    {news : List Segment} (lengths : olds.length = news.length) :
    Meta.objectMigrate false bucket key vk olds news rows =
      .ok ((), Function.update rows (.object bucket key vk) (some (m.migrated olds news))) := by
  obtain ⟨candidates, rfl⟩ := admitted.plan
  exact objectMigrate_planned candidates admitted.listed lengths

theorem Preserves.unreported (preserves : Preserves e eid wm olds rows bucket key vk m)
    (admitted : CopyAdmitted e eid wm olds rows bucket key vk m)
    (answers : Answers e.faults (copyCalls e.devices eid olds)) {restored : Bool} {start stop : Nat}
    (moved : MovedBlock olds (readRecord m restored) start stop) :
    ¬Reports e (readRecord m restored) start stop := by
  intro reports
  obtain ⟨_, news, last, s, ran, item⟩ | ⟨refused, _⟩ := copySegments_outcome admitted.toCopyable
  · have migrated := admitted.migrated item.stored.length_eq
    obtain ⟨record, held, evidence⟩ := preserves.evidence news last s _ ran migrated
    rw [Function.update_self] at held
    cases held
    exact item.unreported admitted.uniform moved (evidence restored start stop moved reports)
  · exact refused answers

/-- Evidence is kept just where there is none, or where the copy fails. -/
theorem copySegments_preserves_iff (admitted : CopyAdmitted e eid wm olds rows bucket key vk m) :
    Preserves e eid wm olds rows bucket key vk m ↔
      ¬Answers e.faults (copyCalls e.devices eid olds) ∨
        ∀ restored start stop, MovedBlock olds (readRecord m restored) start stop →
          ¬Reports e (readRecord m restored) start stop := by
  constructor
  · intro preserves
    by_cases answers : Answers e.faults (copyCalls e.devices eid olds)
    · right
      intro restored start stop moved
      exact preserves.unreported admitted answers moved
    · exact .inl answers
  · intro either
    obtain ⟨answers, news, last, s, ran, item⟩ | ⟨_, reason, s, ran⟩ :=
      copySegments_outcome admitted.toCopyable
    · have clean := either.resolve_left (not_not_intro answers)
      constructor
      · intro news' last' s' ran'
        rw [ran] at ran'
        cases ran'
        apply item.stored.imp
        intro old new stored
        exact stored.content
      · intro news' last' s' rows' ran' migrated
        rw [ran] at ran'
        cases ran'
        rw [admitted.migrated item.stored.length_eq] at migrated
        cases migrated
        refine ⟨_, Function.update_self .., ?_⟩
        intro restored start stop moved reports
        exact absurd reports (clean restored start stop moved)
    · constructor
      · intro news last s' ended
        rw [ran] at ended
        cases ended
      · intro news last s' rows' ended
        rw [ran] at ended
        cases ended

end Verified

def flippedSegment : Segment :=
  ⟨0, 0, 1, [0]⟩

def flippedRecord : Meta.ObjectMeta where
  size := 1
  mtime := 0
  extents := [flippedSegment]
  inline := none
  parts := []
  versionId := none
  isDeleteMarker := false
  sse := none
  compressed := none
  storageClass := none
  restoreState := none
  tags := []
  retention := none
  legalHold := false

def flippedRows : Meta.Store :=
  Function.update Meta.Store.empty (.object "photos" "cat" none) (some flippedRecord)

theorem flipped_admitted :
    CopyAdmitted (smallEngine none) 1 0 [flippedSegment] flippedRows "photos" "cat" none
      flippedRecord where
  uniform := {
    main := by decide
    size := by
      intro slot member
      obtain rfl := List.mem_singleton.mp member
      rfl
    disks := rfl
    table := rfl
    chunkSize := rfl }
  whole := by
    intro di slot entry
    cases di with
    | zero =>
      cases entry
      rfl
    | succ di => cases entry
  target := ⟨(0, 1), by decide⟩
  room := by decide
  sources := by
    intro old member
    obtain rfl := List.mem_singleton.mp member
    exact ⟨⟨(0, 0), by decide⟩, by decide, by decide⟩
  plan := ⟨[0], by decide⟩
  listed := Function.update_self ..

theorem copySegments_preserves_flipped :
    Preserves (smallEngine none) 1 0 [flippedSegment] flippedRows "photos" "cat" none flippedRecord ↔
      ¬Answers (smallEngine none).faults (copyCalls (smallEngine none).devices 1 [flippedSegment]) ∨
        ∀ restored start stop, MovedBlock [flippedSegment] (readRecord flippedRecord restored) start stop →
          ¬Reports (smallEngine none) (readRecord flippedRecord restored) start stop :=
  copySegments_preserves_iff flipped_admitted

theorem flipped_refused :
    errorWith (fun reason _ => decide
        (reason = .corrupt "segment crc mismatch in extent 0 offset 0"))
      (getRawToMeta (readRecord flippedRecord false) 0 1 (smallEngine none).verifying) = true := by
  decide +kernel

/-- A read reports the byte before the copy, and afterwards it is as good as any. -/
theorem flipped_laundered :
    CopyAdmitted (smallEngine none) 1 0 [flippedSegment] flippedRows "photos" "cat" none
        flippedRecord ∧
      Reports (smallEngine none) (readRecord flippedRecord false) 0 1 ∧
      ¬Preserves (smallEngine none) 1 0 [flippedSegment] flippedRows "photos" "cat" none
        flippedRecord := by
  obtain ⟨reason, s, refused, text⟩ := exists_error _ _ _ flipped_refused
  have reports : Reports (smallEngine none) (readRecord flippedRecord false) 0 1 :=
    ⟨reason, s, refused, .inr ⟨0, 0, of_decide_eq_true text⟩⟩
  have block : MovedBlock [flippedSegment] (readRecord flippedRecord false) 0 1 :=
    ⟨[], flippedSegment, [], 0, rfl, List.mem_singleton_self _, by decide, by decide, by decide⟩
  have answers : Answers (smallEngine none).faults
      (copyCalls (smallEngine none).devices 1 [flippedSegment]) := ⟨rfl, rfl, trivial⟩
  exact ⟨flipped_admitted, reports,
    fun preserves => preserves.unreported flipped_admitted answers block reports⟩

end FastS3.Engine
