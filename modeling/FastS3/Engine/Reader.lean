import FastS3.Engine.Placement

namespace FastS3.Engine

open FastS3.Core Data Device

/-! The read path below decompression and decryption.

A plain read takes blocks of 64 KiB in batches; a verified read takes one block at a
time and compares its checksum.  The source also returns the number of bytes written
to its output, which is their length here.
-/

def readExtentHeader (extentId : Nat) : EngineM (Option ExtentHeader) := do
  let (di, _) ← locateExtent extentId (.corrupt "extent out of pool range")
  let off ← extentHeaderOffset extentId
  let buf ← readExact di off sectorSize
  match ExtentHeader.decode buf with
  | .ok header => return some header
  | .error _ => return none

def readExactBatch (di : Nat) (blocks : List (Nat × Nat)) : EngineM (List Bytes) :=
  blocks.foldlM (fun bufs block => do return bufs ++ [← readExact di block.1 block.2]) []

def maxBlocks : Nat := 16

/-- The part of block `i` that belongs to the requested range. -/
def emitBlock (chunk blockOff stop skip len : Nat) (bufs : List Bytes) (out : Bytes) (i : Nat) :
    Bytes :=
  let off := blockOff + i * chunk
  let blkLen := min (stop - off) chunk
  let usableStart := if i = 0 then skip else 0
  let usableLen := min (blkLen - usableStart) (len - out.length)
  out ++ slice (bufs.getD i []) usableStart usableLen

/-- Every round passes `cur`, so `len` rounds are enough. -/
def readBatches (di chunk stop len : Nat) : Nat → Nat → Bytes → EngineM Bytes
  | 0, _, out => return out
  | fuel + 1, cur, out =>
    if cur < stop then do
      let blockOff := cur - cur % sectorSize
      let nBlocks := min (divCeil (stop - blockOff) chunk) maxBlocks
      let bufs ← readExactBatch di ((List.range nBlocks).map fun i =>
        (blockOff + i * chunk, alignUp (min (stop - (blockOff + i * chunk)) chunk) sectorSize))
      readBatches di chunk stop len fuel (blockOff + nBlocks * chunk)
        ((List.range nBlocks).foldl
          (emitBlock chunk blockOff stop (cur - blockOff) len bufs) out)
    else return out

def readBatchedBlocks (di devOff len : Nat) : EngineM Bytes := do
  let e ← get
  readBatches di e.chunkSize (devOff + len) len len devOff []

/-- The loop of `read_verified_segment`, over cells of `grid` bytes that start at
`base` in the extent.  Every round takes a byte. -/
def verifiedLoop (seg : Segment) (grid base : Nat) (check : Nat → Bytes → EngineM Unit)
    (stop : Nat) : Nat → Nat → Bytes → EngineM Bytes
  | 0, _, out => return out
  | fuel + 1, pos, out =>
    if pos < stop then do
      let chunkIdx := pos / grid
      let chunkStart := chunkIdx * grid
      let chunkLen := min (chunkStart + grid) seg.len - chunkStart
      let dataOff ← extentDataOffset seg.extentId
      let (di, _) ← locateExtent seg.extentId (missingExtent seg.extentId)
      let buf ← readExact di (dataOff + base + chunkStart) (alignUp chunkLen sectorSize)
      let data := buf.take chunkLen
      check chunkIdx data
      let skip := pos - chunkStart
      let usable := slice data skip (min (stop - chunkStart) chunkLen - skip)
      verifiedLoop seg grid base check stop fuel (pos + usable.length) (out ++ usable)
    else return out

def checkHeaderCrc (seg : Segment) (header : ExtentHeader) (chunkIdx : Nat) (data : Bytes) :
    EngineM Unit :=
  if header.verifyChunk chunkIdx data then return ()
  else throw (.corrupt s!"chunk {chunkIdx} crc mismatch in extent {seg.extentId}")

def checkSegmentCrc (seg : Segment) (chunkIdx : Nat) (data : Bytes) : EngineM Unit :=
  match seg.crcs[chunkIdx]? with
  | none =>
    throw (.corrupt (s!"segment crc table too short ({seg.crcs.length} entries, " ++
      s!"need {chunkIdx})"))
  | some expected =>
    if crc32c data 0 ≠ expected then
      throw (.corrupt s!"segment crc mismatch in extent {seg.extentId} offset {seg.offset}")
    else return ()

def readVerifiedSegment (seg : Segment) (payloadOff len : Nat) : EngineM Bytes :=
  if seg.crcs = [] then do
    match ← readExtentHeader seg.extentId with
    | none =>
      throw (.corrupt
        s!"extent header missing for exclusive segment in extent {seg.extentId}")
    | some header =>
      if header.isPacked then
        throw (.corrupt (s!"exclusive segment {seg.extentId} references packed extent " ++
          s!"{seg.extentId}"))
      else if header.chunkSize = 0 then
        -- the chunk index divides by it
        expect "attempt to divide by zero" none
      else
        verifiedLoop seg header.chunkSize 0 (checkHeaderCrc seg header) (payloadOff + len) len
          payloadOff []
  else
    verifiedLoop seg segmentCrcGrid seg.offset (checkSegmentCrc seg) (payloadOff + len) len
      payloadOff []

/-- The part of a segment that lies in the range; `objPos` is where it starts. -/
def readSegment (start stop : Nat) (progress : Nat × Bytes) (seg : Segment) :
    EngineM (Nat × Bytes) := do
  let (objPos, out) := progress
  let segEnd := objPos + seg.len
  let s := max objPos start
  let t := min segEnd stop
  if s ≥ t then return (segEnd, out)
  else
    let payloadOff := s - objPos
    let e ← get
    if e.verifyReads then
      return (segEnd, out ++ (← readVerifiedSegment seg payloadOff (t - s)))
    else
      let dataOff ← extentDataOffset seg.extentId
      let (di, _) ← locateExtent seg.extentId (missingExtent seg.extentId)
      return (segEnd, out ++ (← readBatchedBlocks di (dataOff + seg.offset + payloadOff) (t - s)))

def getRawToMeta (m : ObjectMeta) (rangeStart rangeEnd : Nat) : EngineM Bytes := do
  let start := min rangeStart m.size
  let stop := min rangeEnd m.size
  if start ≥ stop then return []
  else
    match m.inline with
    | some inline => return slice inline start (stop - start)
    | none =>
      let (_, out) ← m.extents.foldlM (readSegment start stop) (0, [])
      return out

/-! ### Reading leaves the state alone

A read takes faults from the devices and nothing else, and it fails only where a
device has one.
-/

namespace EngineState

def Faulty (e : EngineState) : Prop :=
  ∃ disk ∈ e.disks, disk.faults ≠ []

structure Untouched (e s : EngineState) : Prop where
  rest : s = { e with disks := s.disks }
  contents : s.disks.map BlockDevice.content = e.disks.map BlockDevice.content
  calm : ¬e.Faulty → s = e

theorem Untouched.refl (e : EngineState) : Untouched e e :=
  ⟨rfl, rfl, fun _ => rfl⟩

theorem Untouched.devices {e s : EngineState} (same : Untouched e s) : s.devices = e.devices := by
  rw [same.rest]

theorem Untouched.disk {e s : EngineState} (same : Untouched e s) {di : Nat} {disk : BlockDevice}
    (mounted : e.disks[di]? = some disk) :
    ∃ now, s.disks[di]? = some now ∧ now.content = disk.content := by
  have pointwise := congrArg (fun contents => contents[di]?) same.contents
  simp only [List.getElem?_map, mounted, Option.map_some, Option.map_eq_some_iff] at pointwise
  exact pointwise

structure Located (e : EngineState) (seg : Segment) (bytes : Bytes) : Prop where
  length : bytes.length = seg.len
  placed : ∃ place, resolveExtent e.devices seg.extentId = some place
  inside : seg.offset + seg.len ≤ e.mainSb.extentCapacity
  content : readArea e.data seg.extentId seg.offset seg.len = bytes

/-- The bytes of a segment are on disk and its checksums are theirs. -/
structure Stored (e : EngineState) (seg : Segment) (bytes : Bytes) : Prop where
  length : bytes.length = seg.len
  placed : ∃ place, resolveExtent e.devices seg.extentId = some place
  inside : seg.offset + seg.len ≤ e.mainSb.extentCapacity
  content : readArea e.data seg.extentId seg.offset seg.len = bytes
  crcs : seg.crcs = gridCrcs bytes

theorem Stored.located {e : EngineState} {seg : Segment} {bytes : Bytes}
    (stored : Stored e seg bytes) : Located e seg bytes :=
  ⟨stored.length, stored.placed, stored.inside, stored.content⟩

def HeaderRead (e : EngineState) (id : Nat) (header : ExtentHeader) : Prop :=
  ∃ di localExtent slot disk, resolveExtent e.devices id = some (di, localExtent) ∧
    e.devices[di]? = some slot ∧ e.disks[di]? = some disk ∧
    ExtentHeader.decode (disk.read (slot.headerOffset localExtent) sectorSize) = .ok header

/-- The checksums of the bytes are in the header of their extent. -/
structure HeaderChecks (seg : Segment) (bytes : Bytes) (header : ExtentHeader) : Prop where
  first : seg.offset = 0
  exclusive : header.isPacked = false
  positive : header.chunkSize ≠ 0
  passes : ∀ idx, idx * header.chunkSize < seg.len →
    header.verifyChunk idx (slice bytes (idx * header.chunkSize) header.chunkSize) = true

/-- The bytes of a segment are on disk, and pass the checks of a read that makes them. -/
structure Legible (e : EngineState) (seg : Segment) (bytes : Bytes) : Prop where
  located : Located e seg bytes
  checked : e.verifyReads = true → seg.crcs = gridCrcs bytes ∨
    seg.crcs = [] ∧ ∃ header, HeaderRead e seg.extentId header ∧ HeaderChecks seg bytes header

end EngineState

open EngineState

section Reads

variable {e : EngineState}

variable {di len off id start chunk devOff stop : Nat} {disk : BlockDevice} {bytes : Bytes}
  {seg : Segment} {fail : Prop}

theorem readExact_reads (mounted : e.disks[di]? = some disk) :
    Ensures (Untouched e) (readExact di off len)
      (fun bytes s => bytes = disk.read off len ∧ Untouched e s) fun _ => e.Faulty := by
  refine ⟨fun s same => ?_⟩
  obtain ⟨now, found, content⟩ := same.disk mounted
  have inTable := (List.getElem?_eq_some_iff.mp found).1
  have kept : (s.setDisk di now.nextFault.2).disks.map BlockDevice.content =
      e.disks.map BlockDevice.content := by
    rw [← same.contents, setDisk, List.map_set, BlockDevice.nextFault_content]
    apply List.ext_getElem?
    intro i
    rw [List.getElem?_set]
    split
    · next here =>
      subst here
      rw [if_pos (by simpa using inTable), List.getElem?_map, found, Option.map_some]
    · rfl
  have calm : ¬e.Faulty → s.setDisk di now.nextFault.2 = e ∧ now.faults = [] := by
    intro quiet
    obtain rfl := same.calm quiet
    obtain rfl : now = disk := Option.some.inj (found.symm.trans mounted)
    have empty : now.faults = [] := by
      by_contra some
      exact quiet ⟨now, List.mem_of_getElem? mounted, some⟩
    refine ⟨?_, empty⟩
    have next : now.nextFault.2 = now := by
      unfold BlockDevice.nextFault
      rw [empty, List.tail_nil, ← empty]
    have unchanged : s.disks.set di now = s.disks := by
      apply List.ext_getElem?
      intro i
      rw [List.getElem?_set]
      split
      · next here =>
        subst here
        rw [mounted]
      · rfl
    rw [next, setDisk, unchanged]
  unfold readExact
  simp only [found]
  cases fault : now.nextFault with
  | mk outcome next =>
    cases outcome with
    | none =>
      have same' : next = now.nextFault.2 := by rw [fault]
      subst same'
      refine ⟨?_, ⟨?_, kept, fun quiet => (calm quiet).1⟩⟩
      · simp only [BlockDevice.read, BlockDevice.nextFault_content, content]
      · rw [setDisk, same.rest]
    | some stored =>
      by_contra quiet
      have empty := (calm quiet).2
      simp [BlockDevice.nextFault, empty] at fault

theorem locateExtent_reads {place : Nat × Nat} {fail : EngineState → Prop} (missing : Error)
    (placed : resolveExtent e.devices id = some place) :
    Ensures (Untouched e) (locateExtent id missing)
      (fun found s => found = place ∧ Untouched e s) fail := by
  refine ⟨fun s same => ?_⟩
  simp only [locateExtent, same.devices, placed, true_and]
  exact same

theorem extentDataOffset_reads {localExtent : Nat} {slot : DeviceSlot} {fail : EngineState → Prop}
    (placed : resolveExtent e.devices id = some (di, localExtent))
    (entry : e.devices[di]? = some slot) :
    Ensures (Untouched e) (extentDataOffset id)
      (fun off s => off = slot.dataOffset localExtent ∧ Untouched e s) fail := by
  refine ⟨fun s same => ?_⟩
  have outcome : extentDataOffset id s = .ok (slot.dataOffset localExtent) s := by
    simp only [extentDataOffset, bind_eq_ok, Prod.exists, pure_eq_ok]
    refine ⟨di, localExtent, s, ?_, slot, s, ?_, rfl, rfl⟩
    · simp only [locateExtent, same.devices, placed]
    · simp only [slotAt, bind_eq_ok]
      refine ⟨s, s, rfl, ?_⟩
      rw [same.devices, entry]
      rfl
  rw [outcome]
  exact ⟨rfl, same⟩

theorem read_take {count : Nat} (fits : count ≤ len) :
    (disk.read off len).take count = disk.read off count := by
  obtain ⟨rest, rfl⟩ := Nat.exists_eq_add_of_le fits
  rw [BlockDevice.read, BlockDevice.read, List.range_add, List.map_append,
    List.take_left' (by simp)]

theorem read_append (disk : BlockDevice) (off left right : Nat) :
    disk.read off left ++ disk.read (off + left) right = disk.read off (left + right) := by
  rw [BlockDevice.read, BlockDevice.read, BlockDevice.read, List.range_add, List.map_append,
    List.map_map]
  congr 1
  apply List.map_congr_left
  intro i _
  simp only [Function.comp_apply, Nat.add_assoc]

theorem read_append_at {left right next : Nat} (at' : off + left = next) :
    disk.read off (left + right) = disk.read off left ++ disk.read next right := by
  rw [← at', read_append]

theorem read_slice {count : Nat} (fits : start + count ≤ len) :
    slice (disk.read off len) start count = disk.read (off + start) count := by
  obtain ⟨rest, rfl⟩ := Nat.exists_eq_add_of_le fits
  rw [slice, Nat.add_assoc, ← read_append, List.drop_left' (by simp), ← read_append,
    List.take_left' (by simp)]

theorem readExactBatch_reads (mounted : e.disks[di]? = some disk) (blocks : List (Nat × Nat)) :
    Ensures (Untouched e) (readExactBatch di blocks)
      (fun bufs s => bufs = blocks.map (fun block => disk.read block.1 block.2) ∧ Untouched e s)
      fun _ => e.Faulty := by
  have loop : Ensures
      (fun s => ([] : List Bytes) = [].map (fun block : Nat × Nat => disk.read block.1 block.2) ∧
        Untouched e s)
      (readExactBatch di blocks)
      (fun bufs s => bufs = blocks.map (fun block => disk.read block.1 block.2) ∧ Untouched e s)
      fun _ => e.Faulty := by
    apply Ensures.foldlM fun (done : List (Nat × Nat)) (bufs : List Bytes) s =>
      bufs = done.map (fun block => disk.read block.1 block.2) ∧ Untouched e s
    intro done block rest bufs _
    apply Ensures.assuming
    intro known
    apply Ensures.bindFact (readExact_reads mounted)
    intro bytes read
    apply Ensures.pure
    intro s same
    exact ⟨by rw [known, read, List.map_append, List.map_singleton], same⟩
  exact loop.strengthen fun s same => ⟨rfl, same⟩

theorem emitted_end {base skip : Nat} (whole : devOff + len = stop) (starts : devOff ≤ base + skip)
    (started : base < stop) (ends : base + skip ≤ min stop (base + chunk)) :
    base + skip - devOff + min (min (stop - base) chunk - skip) (len - (base + skip - devOff)) =
      min stop (base + chunk) - devOff := by
  rcases Nat.le_total stop (base + chunk) with last | more
  · have block : min (stop - base) chunk = stop - base := min_eq_left (by omega)
    rw [min_eq_left last] at ends ⊢
    rw [block]
    omega
  · have block : min (stop - base) chunk = chunk := min_eq_right (by omega)
    rw [min_eq_right more] at ends ⊢
    rw [block]
    omega

theorem foldl_emitBlock {blockOff cur : Nat} {out : Bytes} (positive : 0 < chunk)
    (whole : devOff + len = stop) (reached : devOff ≤ cur) (before : cur < stop)
    (below : blockOff ≤ cur) (inFirst : cur < blockOff + chunk)
    (sofar : out = disk.read devOff (cur - devOff)) (count : Nat)
    (needed : count ≤ divCeil (stop - blockOff) chunk) (some : 0 < count) {bufs : List Bytes}
    (read : bufs = (List.range count).map fun i => disk.read (blockOff + i * chunk)
      (alignUp (min (stop - (blockOff + i * chunk)) chunk) sectorSize)) :
    (List.range count).foldl (emitBlock chunk blockOff stop (cur - blockOff) len bufs) out =
      disk.read devOff (min stop (blockOff + count * chunk) - devOff) := by
  have loop : ∀ done, done ≤ count → (List.range done).foldl
      (emitBlock chunk blockOff stop (cur - blockOff) len bufs) out =
        disk.read devOff (max cur (min stop (blockOff + done * chunk)) - devOff) := by
    intro done
    induction done with
    | zero =>
      intro _
      rw [List.range_zero, List.foldl_nil, sofar]
      congr 1
      omega
    | succ done ih =>
      intro fits
      have started : blockOff + done * chunk < stop := by
        have rounds : done * chunk < stop - blockOff := by
          have reached := Nat.mul_le_mul_right chunk (show done + 1 ≤ _ from fits.trans needed)
          have rounded := Nat.div_mul_le_self (stop - blockOff + chunk - 1) chunk
          unfold divCeil at reached
          rw [Nat.succ_mul] at reached
          omega
        omega
      have buffer : bufs.getD done [] = disk.read (blockOff + done * chunk)
          (alignUp (min (stop - (blockOff + done * chunk)) chunk) sectorSize) := by
        rw [read, List.getD_eq_getElem?_getD, List.getElem?_map,
          List.getElem?_range (by omega : done < count), Option.map_some, Option.getD_some]
      have padded : min (stop - (blockOff + done * chunk)) chunk ≤
          alignUp (min (stop - (blockOff + done * chunk)) chunk) sectorSize :=
        le_alignUp (by decide)
      -- only the first block may start before the range
      have first : blockOff + done * chunk + (if done = 0 then cur - blockOff else 0) =
          max cur (min stop (blockOff + done * chunk)) := by
        split
        · next zero =>
          subst zero
          omega
        · next later =>
          have cells := Nat.le_mul_of_pos_left chunk (Nat.pos_of_ne_zero later)
          omega
      rw [List.range_succ, List.foldl_append, List.foldl_cons, List.foldl_nil, ih (by omega),
        emitBlock, buffer, Nat.succ_mul]
      generalize (if done = 0 then cur - blockOff else 0) = skip at first ⊢
      generalize done * chunk = reach at started padded first ⊢
      rw [read_slice (by simp only [BlockDevice.read_length]; omega), first,
        BlockDevice.read_length]
      have position : devOff + (max cur (min stop (blockOff + reach)) - devOff) =
          max cur (min stop (blockOff + reach)) := by omega
      rw [← read_append_at position]
      have behind : cur ≤ min stop (blockOff + (reach + chunk)) := le_min before.le (by omega)
      have starts : devOff ≤ blockOff + reach + skip := by
        rw [first]
        exact reached.trans (le_max_left _ _)
      have ends : blockOff + reach + skip ≤ min stop (blockOff + (reach + chunk)) := by
        rw [first]
        exact max_le behind (min_le_min_left stop (by omega))
      rw [max_eq_right behind, ← first, ← Nat.add_assoc]
      rw [← Nat.add_assoc] at ends
      congr 1
      exact emitted_end whole starts started ends
  rw [loop count le_rfl]
  congr 1
  have cells := Nat.le_mul_of_pos_left chunk some
  omega

theorem readBatches_reads (mounted : e.disks[di]? = some disk) (sector : sectorSize ≤ chunk)
    (whole : devOff + len = stop) (fuel cur : Nat) (out : Bytes) (reached : devOff ≤ cur)
    (enough : stop - cur ≤ fuel) (sofar : out = disk.read devOff (min stop cur - devOff)) :
    Ensures (Untouched e) (readBatches di chunk stop len fuel cur out)
      (fun bytes s => bytes = disk.read devOff len ∧ Untouched e s) fun _ => e.Faulty := by
  induction fuel generalizing cur out with
  | zero =>
    apply Ensures.pure
    intro s same
    refine ⟨?_, same⟩
    rw [sofar]
    congr 1
    omega
  | succ fuel ih =>
    unfold readBatches
    apply Ensures.ite
    · intro before
      have skip : cur % sectorSize < sectorSize := Nat.mod_lt _ (by decide)
      have below : cur % sectorSize ≤ cur := Nat.mod_le _ _
      have positive : 0 < chunk := Nat.lt_of_lt_of_le (by decide) sector
      simp only
      generalize start : cur - cur % sectorSize = blockOff
      have some : 0 < divCeil (stop - blockOff) chunk := by
        unfold divCeil
        apply Nat.div_pos _ positive
        omega
      generalize size : min (divCeil (stop - blockOff) chunk) maxBlocks = nBlocks
      have count : 0 < nBlocks := by
        have limit : maxBlocks = 16 := rfl
        omega
      have cells := Nat.le_mul_of_pos_left chunk count
      apply Ensures.bindFact (readExactBatch_reads mounted _)
      intro bufs read
      simp only [List.map_map, Function.comp_def] at read
      apply ih
      · omega
      · omega
      · exact foldl_emitBlock positive whole reached before (by omega) (by omega)
          (by rw [sofar, Nat.min_eq_right (by omega)]) nBlocks (by omega) count read
    · intro finished
      apply Ensures.pure
      intro s same
      refine ⟨?_, same⟩
      rw [sofar]
      congr 1
      omega

theorem readBatchedBlocks_reads (mounted : e.disks[di]? = some disk)
    (sector : sectorSize ≤ e.chunkSize) (devOff len : Nat) :
    Ensures (Untouched e) (readBatchedBlocks di devOff len)
      (fun bytes s => bytes = disk.read devOff len ∧ Untouched e s) fun _ => e.Faulty := by
  refine ⟨fun s same => ?_⟩
  have chunk : s.chunkSize = e.chunkSize := by rw [same.rest]
  have start : ([] : Bytes) = disk.read devOff (min (devOff + len) devOff - devOff) := by
    simp [BlockDevice.read]
  have loop := readBatches_reads mounted sector (rfl : devOff + len = _) len devOff []
    le_rfl (by rw [Nat.add_sub_cancel_left]) start
  have outcome := loop.run s same
  rw [← chunk] at outcome
  exact outcome

theorem EngineState.Located.read (located : Located e seg bytes) (uniform : e.Uniform) :
    ∃ di localExtent slot disk, resolveExtent e.devices seg.extentId = some (di, localExtent) ∧
      e.devices[di]? = some slot ∧ e.disks[di]? = some disk ∧
      ∀ start count, start + count ≤ seg.len →
        disk.read (slot.dataOffset localExtent + seg.offset + start) count =
          slice bytes start count := by
  obtain ⟨⟨di, localExtent⟩, placed⟩ := located.placed
  obtain ⟨slot, entry⟩ := resolveExtent_slot placed
  have mounted : di < e.disks.length := by
    rw [uniform.disks]
    exact (List.getElem?_eq_some_iff.mp entry).1
  refine ⟨di, localExtent, slot, e.disks[di], placed, entry, List.getElem?_eq_getElem mounted, ?_⟩
  intro start count inside
  have room := located.inside
  rw [Nat.add_assoc, read_of_place placed entry (List.getElem?_eq_getElem mounted) (by omega),
    ← located.content, slice, readArea_drop_take _ _ _ inside]

theorem wanted_count {grid pos : Nat} (below : start ≤ pos) (above : pos < start + grid)
    (more : pos < stop) (inside : stop ≤ len) :
    min (stop - start) (min (start + grid) len - start) - (pos - start) =
      min stop (start + grid) - pos := by
  rcases Nat.le_total (start + grid) len with short | long
  · rw [min_eq_left short]
    omega
  · rw [min_eq_right long]
    omega

theorem verifiedLoop_reads (uniform : e.Uniform) (located : Located e seg bytes)
    (faulty : e.Faulty → fail) {grid : Nat} (positive : 0 < grid)
    {check : Nat → Bytes → EngineM Unit}
    (passes : ∀ idx, idx * grid < seg.len →
      Ensures (Untouched e) (check idx (slice bytes (idx * grid) grid))
        (fun _ s => Untouched e s) fun _ => fail) {payload : Nat} (inside : stop ≤ seg.len)
    (fuel pos : Nat) (out : Bytes) (reached : payload ≤ pos) (before : pos ≤ stop)
    (enough : stop - pos ≤ fuel) (sofar : out = slice bytes payload (pos - payload)) :
    Ensures (Untouched e) (verifiedLoop seg grid seg.offset check stop fuel pos out)
      (fun result s => result = slice bytes payload (stop - payload) ∧ Untouched e s)
      fun _ => fail := by
  obtain ⟨di, localExtent, slot, disk, placed, entry, mounted, content⟩ := located.read uniform
  induction fuel generalizing pos out with
  | zero =>
    obtain rfl : pos = stop := by omega
    exact Ensures.pure fun s same => ⟨sofar, same⟩
  | succ fuel ih =>
    unfold verifiedLoop
    apply Ensures.ite
    · intro more
      have length := located.length
      have below : pos / grid * grid ≤ pos := Nat.div_mul_le_self pos grid
      have above : pos < pos / grid * grid + grid := by
        have := Nat.lt_div_mul_add positive (a := pos)
        omega
      simp only
      generalize pos / grid = chunkIdx at below above ⊢
      apply Ensures.bindFact (extentDataOffset_reads placed entry)
      intro dataOff base
      subst base
      apply Ensures.bindFact (locateExtent_reads _ placed)
      intro place located
      subst located
      simp only
      apply Ensures.bindFact ((readExact_reads mounted).weakenFail fun _ => faulty)
      intro buf read
      have cell : (disk.read (slot.dataOffset localExtent + seg.offset + chunkIdx * grid)
          (alignUp (min (chunkIdx * grid + grid) seg.len - chunkIdx * grid) sectorSize)).take
            (min (chunkIdx * grid + grid) seg.len - chunkIdx * grid) =
          slice bytes (chunkIdx * grid) grid := by
        rw [read_take (le_alignUp (by decide)), content _ _ (by omega)]
        apply slice_min
        omega
      rw [read, cell]
      apply Ensures.bind (passes chunkIdx (by omega))
      intro _
      rw [slice_slice bytes (by omega)]
      have place : chunkIdx * grid + (pos - chunkIdx * grid) = pos := Nat.add_sub_of_le below
      rw [place]
      generalize wanted : min (stop - chunkIdx * grid)
        (min (chunkIdx * grid + grid) seg.len - chunkIdx * grid) - (pos - chunkIdx * grid) = count
      have taken : count = min stop (chunkIdx * grid + grid) - pos :=
        wanted.symm.trans (wanted_count below above more inside)
      have whole : (slice bytes pos count).length = count := by
        rw [slice_length, length]
        omega
      have positive : 0 < count := by omega
      have last : pos + count ≤ stop := by omega
      rw [whole]
      clear wanted taken
      apply ih
      · omega
      · exact last
      · omega
      · have next : pos + count - payload = pos - payload + count := by omega
        have here : payload + (pos - payload) = pos := Nat.add_sub_of_le reached
        rw [sofar, next, slice_add, here]
    · intro finished
      obtain rfl : pos = stop := by omega
      exact Ensures.pure fun s same => ⟨sofar, same⟩

theorem checkSegmentCrc_passes (length : bytes.length = seg.len) (crcs : seg.crcs = gridCrcs bytes)
    {idx : Nat} (inside : idx * segmentCrcGrid < seg.len) :
    Ensures (Untouched e)
      (checkSegmentCrc seg idx (slice bytes (idx * segmentCrcGrid) segmentCrcGrid))
      (fun _ s => Untouched e s) fun _ => fail := by
  unfold checkSegmentCrc
  have found := gridCrcs_getElem? (by rw [length]; exact inside)
  rw [crcs, found]
  simp only [ne_eq, not_true_eq_false, if_false]
  exact Ensures.pure fun s same => same

theorem readExtentHeader_reads {header : ExtentHeader} (onDisk : HeaderRead e id header)
    (faulty : e.Faulty → fail) :
    Ensures (Untouched e) (readExtentHeader id)
      (fun found s => found = some header ∧ Untouched e s) fun _ => fail := by
  obtain ⟨di, localExtent, slot, disk, placed, entry, mounted, decoded⟩ := onDisk
  unfold readExtentHeader
  apply Ensures.bindFact (locateExtent_reads _ placed)
  intro found here
  subst here
  have offset : Ensures (Untouched e) (extentHeaderOffset id)
      (fun off s => off = slot.headerOffset localExtent ∧ Untouched e s) fun _ => fail := by
    unfold extentHeaderOffset
    apply Ensures.bindFact (locateExtent_reads _ placed)
    intro found here
    subst here
    refine ⟨fun s same => ?_⟩
    have outcome : (do return (← slotAt di).headerOffset localExtent : EngineM Nat) s =
        .ok (slot.headerOffset localExtent) s := by
      simp only [bind_eq_ok, pure_eq_ok, slotAt]
      refine ⟨slot, s, ⟨s, s, rfl, ?_⟩, rfl, rfl⟩
      rw [same.devices, entry]
      rfl
    dsimp only
    rw [outcome]
    exact ⟨rfl, same⟩
  apply Ensures.bindFact offset
  intro off place
  subst place
  apply Ensures.bindFact ((readExact_reads mounted).weakenFail fun _ => faulty)
  intro buf read
  rw [read, decoded]
  exact Ensures.pure fun s same => ⟨rfl, same⟩

theorem checkHeaderCrc_passes {header : ExtentHeader} (checks : HeaderChecks seg bytes header)
    {idx : Nat} (inside : idx * header.chunkSize < seg.len) :
    Ensures (Untouched e)
      (checkHeaderCrc seg header idx (slice bytes (idx * header.chunkSize) header.chunkSize))
      (fun _ s => Untouched e s) fun _ => fail := by
  unfold checkHeaderCrc
  apply Ensures.ite
  · intro _
    exact Ensures.pure fun s same => same
  · intro refused
    exact absurd (checks.passes idx inside) refused

theorem readVerifiedSegment_reads (uniform : e.Uniform) (legible : Legible e seg bytes)
    (verifies : e.verifyReads = true) (faulty : e.Faulty → fail) {payload : Nat} (some : 0 < len)
    (inside : payload + len ≤ seg.len) :
    Ensures (Untouched e) (readVerifiedSegment seg payload len)
      (fun result s => result = slice bytes payload len ∧ Untouched e s) fun _ => fail := by
  have length := legible.located.length
  have start : ([] : Bytes) = slice bytes payload (payload - payload) := by
    rw [Nat.sub_self, slice, List.take_zero]
  unfold readVerifiedSegment
  rcases legible.checked verifies with crcs | ⟨empty, header, onDisk, checks⟩
  · have filled : seg.crcs ≠ [] := by
      -- a segment with bytes has a checksum
      intro empty
      have first := gridCrcs_getElem? (show 0 * segmentCrcGrid < bytes.length by omega)
      rw [← crcs, empty] at first
      cases first
    rw [if_neg filled]
    have loop := verifiedLoop_reads uniform legible.located faulty
      (show 0 < segmentCrcGrid by decide) (fun idx below => checkSegmentCrc_passes length crcs below)
      inside len payload [] le_rfl (by omega) (by omega) start
    rwa [Nat.add_sub_cancel_left] at loop
  · rw [if_pos empty]
    apply Ensures.bindFact (readExtentHeader_reads onDisk faulty)
    intro found here
    subst here
    simp only [checks.exclusive, checks.positive, Bool.false_eq_true, if_false]
    have loop := verifiedLoop_reads uniform legible.located faulty
      (Nat.pos_of_ne_zero checks.positive) (fun idx below => checkHeaderCrc_passes checks below)
      inside len payload [] le_rfl (by omega) (by omega) start
    rwa [checks.first, Nat.add_sub_cancel_left] at loop

theorem forall₂_next {α β : Type} {R : α → β → Prop} {left : List α} {right : List β}
    (related : List.Forall₂ R left right) {done rest : List α} {item : α}
    (split : left = done ++ item :: rest) :
    ∃ partner, right[done.length]? = some partner ∧ R item partner := by
  subst split
  have within : done.length < right.length := by
    rw [← related.length_eq]
    simp
  refine ⟨right[done.length], List.getElem?_eq_getElem within, ?_⟩
  have pair := related.get (by simp : done.length < (done ++ item :: rest).length) within
  simpa using pair

theorem take_drop_append (done bytes : Bytes) (start stop : Nat) :
    ((done ++ bytes).take stop).drop start = (done.take stop).drop start ++
      slice bytes (max done.length start - done.length)
        (min (done.length + bytes.length) stop - max done.length start) := by
  rw [List.take_append, List.drop_append, List.length_take, slice]
  congr 1
  by_cases past : done.length ≤ stop
  · rw [Nat.min_eq_right past, List.drop_take]
    have skipped : start - done.length = max done.length start - done.length := by omega
    rw [skipped, List.take_eq_take_iff, List.length_drop]
    omega
  · have none : stop - done.length = 0 := by omega
    have nothing : min (done.length + bytes.length) stop - max done.length start = 0 := by omega
    rw [none, nothing, List.take_zero, List.take_zero, List.drop_nil]

theorem readSegment_reads {done : Bytes} (uniform : e.Uniform) (legible : Legible e seg bytes)
    (faulty : e.Faulty → fail) :
    Ensures (Untouched e) (readSegment start stop (done.length, (done.take stop).drop start) seg)
      (fun progress s =>
        progress = ((done ++ bytes).length, ((done ++ bytes).take stop).drop start) ∧
          Untouched e s)
      fun _ => fail := by
  have length := legible.located.length
  unfold readSegment
  rw [take_drop_append, List.length_append, length]
  apply Ensures.ite
  · intro outside
    apply Ensures.pure
    intro s same
    refine ⟨?_, same⟩
    have nothing : min (done.length + seg.len) stop - max done.length start = 0 := by omega
    rw [nothing, slice, List.take_zero, List.append_nil]
  · intro hit
    obtain ⟨di, localExtent, slot, disk, placed, entry, mounted, content⟩ :=
      legible.located.read uniform
    apply Ensures.bindGetHeld
    intro state seen
    have setting : state.verifyReads = e.verifyReads := by
      rw [seen.rest]
    apply Ensures.ite
    · intro verifies
      rw [setting] at verifies
      apply Ensures.bindFact
        (readVerifiedSegment_reads uniform legible verifies faulty (by omega) (by omega))
      intro result read
      apply Ensures.pure
      intro s same
      exact ⟨by rw [read], same⟩
    · intro _
      apply Ensures.bindFact (extentDataOffset_reads placed entry)
      intro dataOff base
      subst base
      apply Ensures.bindFact (locateExtent_reads _ placed)
      intro place located
      subst located
      simp only
      have sector : sectorSize ≤ e.chunkSize := by
        rw [uniform.chunkSize]
        decide
      apply Ensures.bindFact
        ((readBatchedBlocks_reads mounted sector _ _).weakenFail fun _ => faulty)
      intro result read
      apply Ensures.pure
      intro s same
      refine ⟨?_, same⟩
      rw [read, content _ _ (by omega)]

theorem take_drop_clip {content : Bytes} {size : Nat} (whole : size = content.length)
    (rangeStart rangeEnd : Nat) :
    (content.take (min rangeEnd size)).drop (min rangeStart size) =
      (content.take rangeEnd).drop rangeStart := by
  rw [whole, ← List.take_eq_take_min]
  by_cases past : rangeStart ≤ content.length
  · rw [Nat.min_eq_left past]
  · rw [List.drop_eq_nil_of_le (by rw [List.length_take]; omega),
      List.drop_eq_nil_of_le (by rw [List.length_take]; omega)]

theorem getRawToMeta_legible {m : ObjectMeta} {parts : List Bytes} (uniform : e.Uniform)
    (legible : List.Forall₂ (Legible e) m.extents parts) (faulty : e.Faulty → fail)
    (inline : m.inline = none) (rangeStart rangeEnd : Nat) :
    Ensures (Untouched e) (getRawToMeta m rangeStart rangeEnd)
      (fun bytes s =>
        bytes = (parts.flatten.take (min rangeEnd m.size)).drop (min rangeStart m.size) ∧
          Untouched e s)
      fun _ => fail := by
  unfold getRawToMeta
  apply Ensures.ite
  · intro empty
    apply Ensures.pure
    intro s same
    refine ⟨?_, same⟩
    rw [List.drop_eq_nil_of_le (by rw [List.length_take]; omega)]
  · intro _
    rw [inline]
    simp only
    generalize min rangeStart m.size = start
    generalize min rangeEnd m.size = stop
    -- after some segments the output is the range of their bytes
    let inv := fun (done : List Segment) (progress : Nat × Bytes) (s : EngineState) =>
      progress = ((parts.take done.length).flatten.length,
        ((parts.take done.length).flatten.take stop).drop start) ∧ Untouched e s
    have loop : Ensures (inv [] (0, [])) (m.extents.foldlM (readSegment start stop) (0, []))
        (inv m.extents) fun _ => fail := by
      apply Ensures.foldlM inv
      intro done seg rest progress split
      apply Ensures.assuming
      intro known
      obtain ⟨bytes, here, segLegible⟩ := forall₂_next legible split
      have grown : (parts.take (done ++ [seg]).length).flatten =
          (parts.take done.length).flatten ++ bytes := by
        rw [List.length_append, List.length_singleton, List.take_add_one, here, Option.toList_some,
          List.flatten_append, List.flatten_singleton]
      rw [known]
      apply (readSegment_reads uniform segLegible faulty).weaken
      intro progress' s reached
      exact ⟨by rw [grown]; exact reached.1, reached.2⟩
    apply Ensures.bind (loop.strengthen fun s same => ⟨by simp, same⟩)
    intro progress
    apply Ensures.pure
    intro s reached
    obtain ⟨known, same⟩ := reached
    refine ⟨?_, same⟩
    rw [known, legible.length_eq, List.take_length]

theorem getRawToMeta_reads {m : ObjectMeta} {parts : List Bytes} (uniform : e.Uniform)
    (stored : List.Forall₂ (Stored e) m.extents parts) (inline : m.inline = none)
    (size : m.size = parts.flatten.length) (rangeStart rangeEnd : Nat) :
    Ensures (Untouched e) (getRawToMeta m rangeStart rangeEnd)
      (fun bytes s => bytes = (parts.flatten.take rangeEnd).drop rangeStart ∧ Untouched e s)
      fun _ => e.Faulty := by
  have legible := stored.imp fun seg bytes stored =>
    (⟨stored.located, fun _ => .inl stored.crcs⟩ : Legible e seg bytes)
  have reads := getRawToMeta_legible uniform legible (fun faulty => faulty) inline rangeStart
    rangeEnd
  rwa [take_drop_clip size] at reads

end Reads

end FastS3.Engine
