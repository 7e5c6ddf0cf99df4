import FastS3.Engine.Reader

namespace FastS3.Engine

open FastS3.Core Data Device

/-! The batched reads with what they submit and what they pass on.

`read_batched_blocks` is written here for any way to submit blocks and for any taker of the slices.  The
read of the engine is one case of it; a device that keeps a list of what is submitted is another.
-/

section Program

variable {m : Type → Type} [Monad m] (submit : List (Nat × Nat) → m (List Bytes))
  (emit : Bytes → m Unit)

/-- Passes on what is wanted of block `i`, and counts it. -/
def emitSlice (chunk blockOff stop skip len : Nat) (bufs : List Bytes) (written i : Nat) : m Nat := do
  let off := blockOff + i * chunk
  let blkLen := min (stop - off) chunk
  let usableStart := if i = 0 then skip else 0
  let usableLen := min (blkLen - usableStart) (len - written)
  if usableLen > 0 then
    emit (slice (bufs.getD i []) usableStart usableLen)
    return written + usableLen
  else return written

def batchBlocks (chunk blockOff stop nBlocks : Nat) : List (Nat × Nat) :=
  (List.range nBlocks).map fun i =>
    (blockOff + i * chunk, alignUp (min (stop - (blockOff + i * chunk)) chunk) sectorSize)

def submitBatches (chunk stop len : Nat) : Nat → Nat → Nat → m (Option Nat)
  | 0, cur, written => return if cur < stop then none else some written
  | rounds + 1, cur, written =>
    if cur < stop then do
      let blockOff := cur - cur % sectorSize
      let nBlocks := min (divCeil (stop - blockOff) chunk) maxBlocks
      let bufs ← submit (batchBlocks chunk blockOff stop nBlocks)
      let written ← (List.range nBlocks).foldlM
        (emitSlice emit chunk blockOff stop (cur - blockOff) len bufs) written
      submitBatches chunk stop len rounds (blockOff + nBlocks * chunk) written
    else return some written

/-- `read_batched_blocks`, in so many rounds. -/
def batchedBlocks (chunk devOff len rounds : Nat) : m (Option Nat) :=
  submitBatches submit emit chunk (devOff + len) len rounds devOff 0

end Program

/-! ### Takers

The state of a taker is what it has been given, beside the state of the device.
-/

section Takers

variable {ε κ : Type} (source : List (Nat × Nat) → EStateM ε κ (List Bytes))

def takerSubmit (blocks : List (Nat × Nat)) : EStateM ε (κ × Bytes) (List Bytes) := fun s =>
  match source blocks s.1 with
  | .ok bufs k => .ok bufs (k, s.2)
  | .error reason k => .error reason (k, s.2)

def takerEmit (data : Bytes) : EStateM ε (κ × Bytes) Unit := fun s =>
  .ok () (s.1, s.2 ++ data)

def Filled (blocks : List (Nat × Nat)) (bufs : List Bytes) : Prop :=
  bufs.map List.length = blocks.map Prod.snd

variable {nBlocks blockOff : Nat} {bufs : List Bytes}

theorem Filled.buffer {chunk stop i : Nat}
    (filled : Filled (batchBlocks chunk blockOff stop nBlocks) bufs) (inBatch : i < nBlocks) :
    (bufs.getD i []).length = alignUp (min (stop - (blockOff + i * chunk)) chunk) sectorSize := by
  have pointwise := congrArg (fun lengths => lengths[i]?) filled
  simp only [batchBlocks, List.map_map, List.getElem?_map, List.getElem?_range inBatch,
    Option.map_some, Function.comp_apply, Option.map_eq_some_iff] at pointwise
  obtain ⟨buf, found, length⟩ := pointwise
  rw [List.getD_eq_getElem?_getD, found, Option.getD_some, length]

theorem emitSlice_run {chunk stop i : Nat} (skip len : Nat) (k : κ) (out : Bytes)
    (filled : Filled (batchBlocks chunk blockOff stop nBlocks) bufs) (inBatch : i < nBlocks) :
    emitSlice (takerEmit (ε := ε)) chunk blockOff stop skip len bufs out.length i (k, out) =
      .ok (emitBlock chunk blockOff stop skip len bufs out i).length
        (k, emitBlock chunk blockOff stop skip len bufs out i) := by
  have buffer := filled.buffer inBatch
  have padded : min (stop - (blockOff + i * chunk)) chunk ≤
      alignUp (min (stop - (blockOff + i * chunk)) chunk) sectorSize := le_alignUp (by decide)
  rw [emitSlice, emitBlock]
  generalize (if i = 0 then skip else 0) = usableStart
  generalize count : min (min (stop - (blockOff + i * chunk)) chunk - usableStart) (len - out.length) =
    usableLen
  have taken : (slice (bufs.getD i []) usableStart usableLen).length = usableLen := by
    rw [slice_length, buffer]
    omega
  split
  · change EStateM.Result.ok (out.length + usableLen) (k, out ++ slice (bufs.getD i []) usableStart usableLen) = _
    rw [List.length_append, taken]
  · next none =>
      have nothing : usableLen = 0 := by omega
      rw [nothing, slice, List.take_zero, List.append_nil]
      rfl

theorem foldlM_emitSlice {chunk stop : Nat} (skip len : Nat) (k : κ)
    (filled : Filled (batchBlocks chunk blockOff stop nBlocks) bufs) (places : List Nat)
    (inBatch : ∀ i ∈ places, i < nBlocks) (out : Bytes) :
    places.foldlM (emitSlice (takerEmit (ε := ε)) chunk blockOff stop skip len bufs) out.length (k, out) =
      .ok (places.foldl (emitBlock chunk blockOff stop skip len bufs) out).length
        (k, places.foldl (emitBlock chunk blockOff stop skip len bufs) out) := by
  induction places generalizing out with
  | nil => rfl
  | cons i places ih =>
    have first := emitSlice_run (ε := ε) skip len k out filled
      (inBatch i List.mem_cons_self)
    have rest := ih (fun i inside => inBatch i (List.mem_cons_of_mem _ inside))
      (emitBlock chunk blockOff stop skip len bufs out i)
    rw [List.foldlM_cons, List.foldl_cons]
    change EStateM.bind _ _ _ = _
    rw [EStateM.bind, first]
    exact rest

theorem submitBatches_round {chunk stop len rounds cur : Nat} {k k' : κ} {out : Bytes}
    (before : cur < stop)
    (read : source (batchBlocks chunk (cur - cur % sectorSize) stop
      (min (divCeil (stop - (cur - cur % sectorSize)) chunk) maxBlocks)) k = .ok bufs k')
    (filled : Filled (batchBlocks chunk (cur - cur % sectorSize) stop
      (min (divCeil (stop - (cur - cur % sectorSize)) chunk) maxBlocks)) bufs) :
    let blockOff := cur - cur % sectorSize
    let nBlocks := min (divCeil (stop - blockOff) chunk) maxBlocks
    let out' := (List.range nBlocks).foldl (emitBlock chunk blockOff stop (cur - blockOff) len bufs) out
    submitBatches (takerSubmit source) takerEmit chunk stop len (rounds + 1) cur out.length (k, out) =
      submitBatches (takerSubmit source) takerEmit chunk stop len rounds (blockOff + nBlocks * chunk)
        out'.length (k', out') := by
  intro blockOff nBlocks out'
  have emitted := foldlM_emitSlice (ε := ε) (cur - blockOff) len k' filled
    (List.range nBlocks) (fun i inside => List.mem_range.mp inside) out
  have submitted : takerSubmit source (batchBlocks chunk blockOff stop nBlocks) (k, out) =
      .ok bufs (k', out) := by
    rw [takerSubmit, read]
  rw [submitBatches, if_pos before]
  change EStateM.bind _ _ _ = _
  rw [EStateM.bind, submitted]
  change EStateM.bind _ _ _ = _
  rw [EStateM.bind, emitted]

theorem submitBatches_done {chunk stop len rounds cur : Nat} {k : κ} {out : Bytes}
    (reached : ¬cur < stop) :
    submitBatches (takerSubmit source) takerEmit chunk stop len rounds cur out.length (k, out) =
      .ok (some out.length) (k, out) := by
  cases rounds with
  | zero =>
    rw [submitBatches, if_neg reached]
    rfl
  | succ rounds =>
    rw [submitBatches, if_neg reached]
    rfl

end Takers

section Rounds

variable {chunk stop : Nat}

theorem round_passes {cur : Nat} (sector : sectorSize ≤ chunk) (before : cur < stop) :
    0 < min (divCeil (stop - (cur - cur % sectorSize)) chunk) maxBlocks ∧
      cur < cur - cur % sectorSize + chunk ∧
      cur < cur - cur % sectorSize +
        min (divCeil (stop - (cur - cur % sectorSize)) chunk) maxBlocks * chunk := by
  have skip : cur % sectorSize < sectorSize := Nat.mod_lt _ (by decide)
  have below : cur % sectorSize ≤ cur := Nat.mod_le _ _
  have positive : 0 < chunk := Nat.lt_of_lt_of_le (by decide) sector
  have some : 0 < divCeil (stop - (cur - cur % sectorSize)) chunk := by
    rw [divCeil]
    apply Nat.div_pos _ positive
    omega
  have count : 0 < min (divCeil (stop - (cur - cur % sectorSize)) chunk) maxBlocks :=
    lt_min some (by decide)
  have cells := Nat.le_mul_of_pos_left chunk count
  refine ⟨count, by omega, by omega⟩

end Rounds

/-- Reads the blocks of a device and keeps a list of them; a block beyond the device is an error. -/
def recordBatch (device : Bytes) (blocks : List (Nat × Nat)) :
    EStateM Unit (List (Nat × Nat)) (List Bytes) := fun submitted =>
  if ∀ block ∈ blocks, block.1 + block.2 ≤ device.length then
    .ok (blocks.map fun block => slice device block.1 block.2) (submitted ++ blocks)
  else .error () (submitted ++ blocks)

def SectorBlock (block : Nat × Nat) : Prop :=
  sectorSize ∣ block.1 ∧ sectorSize ∣ block.2

section Run

variable {device : Bytes} {chunk stop devOff len : Nat}

def diskOf (device : Bytes) : BlockDevice :=
  ⟨fun place => device.getD place 0, []⟩

theorem diskOf_read {off count : Nat} (inside : off + count ≤ device.length) :
    (diskOf device).read off count = slice device off count := by
  apply List.ext_getElem
  · rw [BlockDevice.read_length, slice_length]
    omega
  · intro i below _
    rw [BlockDevice.read_length] at below
    have within : off + i < device.length := by omega
    simp [BlockDevice.read, diskOf, slice, List.getElem?_eq_getElem within]

theorem block_starts {blockOff nBlocks i : Nat} (before : blockOff < stop)
    (needed : nBlocks ≤ divCeil (stop - blockOff) chunk) (inBatch : i < nBlocks) :
    blockOff + i * chunk < stop := by
  have reached := Nat.mul_le_mul_right chunk (Nat.le_trans (Nat.succ_le_of_lt inBatch) needed)
  have rounded := Nat.div_mul_le_self (stop - blockOff + chunk - 1) chunk
  rw [divCeil, Nat.succ_mul] at reached
  omega

theorem batchBlocks_inside {blockOff nBlocks : Nat} (sectors : sectorSize ∣ chunk)
    (start : sectorSize ∣ blockOff) (before : blockOff < stop)
    (needed : nBlocks ≤ divCeil (stop - blockOff) chunk)
    (inside : alignUp stop sectorSize ≤ device.length) :
    ∀ block ∈ batchBlocks chunk blockOff stop nBlocks,
      SectorBlock block ∧ block.1 + block.2 ≤ device.length := by
  intro block member
  obtain ⟨i, inBatch, rfl⟩ := List.mem_map.mp member
  have placed : sectorSize ∣ blockOff + i * chunk := Nat.dvd_add start (sectors.mul_left i)
  have started := block_starts before needed (List.mem_range.mp inBatch)
  have rounded : stop ≤ alignUp stop sectorSize := le_alignUp (by decide)
  refine ⟨⟨placed, dvd_alignUp _ _⟩, ?_⟩
  rw [← alignUp_add _ placed]
  exact Nat.le_trans (alignUp_le (by decide) (dvd_alignUp _ _) (by omega)) inside

theorem batchBlocks_map {α : Type} {blockOff nBlocks : Nat} (f : Nat × Nat → α) :
    (batchBlocks chunk blockOff stop nBlocks).map f = (List.range nBlocks).map fun i =>
      f (blockOff + i * chunk, alignUp (min (stop - (blockOff + i * chunk)) chunk) sectorSize) := by
  rw [batchBlocks, List.map_map]
  rfl

theorem recordBatch_inside {blocks : List (Nat × Nat)} (submitted : List (Nat × Nat))
    (inside : ∀ block ∈ blocks, block.1 + block.2 ≤ device.length) :
    recordBatch device blocks submitted =
      .ok (blocks.map fun block => (diskOf device).read block.1 block.2) (submitted ++ blocks) := by
  rw [recordBatch, if_pos inside]
  congr 1
  apply List.map_congr_left
  intro block member
  exact (diskOf_read (inside block member)).symm

theorem filled_read (disk : BlockDevice) (blocks : List (Nat × Nat)) :
    Filled blocks (blocks.map fun block => disk.read block.1 block.2) := by
  rw [Filled, List.map_map]
  apply List.map_congr_left
  intro block _
  exact BlockDevice.read_length _ _ _

theorem submitBatches_device (sectors : sectorSize ∣ chunk) (positive : 0 < chunk)
    (whole : devOff + len = stop) (inside : alignUp stop sectorSize ≤ device.length)
    (rounds cur : Nat) (out : Bytes) (submitted : List (Nat × Nat)) (reached : devOff ≤ cur)
    (enough : stop - cur ≤ rounds) (sofar : out = slice device devOff (min stop cur - devOff))
    (aligned : ∀ block ∈ submitted, SectorBlock block) :
    ∃ submitted', submitBatches (takerSubmit (recordBatch device)) takerEmit chunk stop len rounds cur
        out.length (submitted, out) = .ok (some len) (submitted', slice device devOff len) ∧
      ∀ block ∈ submitted', SectorBlock block := by
  have rounded : stop ≤ alignUp stop sectorSize := le_alignUp (by decide)
  have ends : ∀ cur out submitted, ¬cur < stop → out = slice device devOff (min stop cur - devOff) →
      ∀ rounds, submitBatches (takerSubmit (recordBatch device)) takerEmit chunk stop len rounds cur
        out.length (submitted, out) = .ok (some len) (submitted, slice device devOff len) := by
    intro cur out submitted done sofar rounds
    have all : out = slice device devOff len := by
      rw [sofar]
      congr 1
      omega
    have length : out.length = len := by
      rw [all, slice_length]
      omega
    rw [submitBatches_done _ done, length, all]
  induction rounds generalizing cur out submitted with
  | zero => exact ⟨submitted, ends cur out submitted (by omega) sofar 0, aligned⟩
  | succ rounds ih =>
    by_cases before : cur < stop
    · obtain ⟨count, inFirst, passes⟩ :=
        round_passes (Nat.le_of_dvd positive sectors) before
      have below : cur % sectorSize ≤ cur := Nat.mod_le _ _
      have blocks := batchBlocks_inside sectors (Nat.dvd_sub_mod cur)
        (show cur - cur % sectorSize < stop by omega)
        (min_le_left (divCeil (stop - (cur - cur % sectorSize)) chunk) maxBlocks) inside
      have read := recordBatch_inside submitted fun block member => (blocks block member).2
      have sofar' : out = (diskOf device).read devOff (cur - devOff) := by
        rw [sofar, Nat.min_eq_right before.le, diskOf_read (by omega)]
      have buffers : ((batchBlocks chunk (cur - cur % sectorSize) stop
            (min (divCeil (stop - (cur - cur % sectorSize)) chunk) maxBlocks)).map fun block =>
          (diskOf device).read block.1 block.2) = (List.range
            (min (divCeil (stop - (cur - cur % sectorSize)) chunk) maxBlocks)).map fun i =>
          (diskOf device).read (cur - cur % sectorSize + i * chunk)
            (alignUp (min (stop - (cur - cur % sectorSize + i * chunk)) chunk) sectorSize) := by
        exact batchBlocks_map _
      have continued := foldl_emitBlock positive whole reached before (Nat.sub_le _ _)
        inFirst sofar' _ (min_le_left _ maxBlocks) count buffers
      rw [submitBatches_round _ before read (filled_read _ _)]
      apply ih
      · omega
      · omega
      · rw [continued, diskOf_read (by omega)]
      · intro block member
        rcases List.mem_append.mp member with old | new
        · exact aligned block old
        · exact (blocks block new).1
    · exact ⟨submitted, ends cur out submitted before sofar _, aligned⟩

end Run

/-- A batched read ends, submits whole sectors only, and passes on the bytes of its range. -/
theorem batchedBlocks_slice (device : Bytes) {chunk devOff len rounds : Nat} (sectors : sectorSize ∣ chunk)
    (positive : 0 < chunk) (inside : alignUp (devOff + len) sectorSize ≤ device.length)
    (enough : len ≤ rounds) :
    ∃ submitted, batchedBlocks (takerSubmit (recordBatch device)) takerEmit chunk devOff len rounds
        ([], []) = .ok (some len) (submitted, slice device devOff len) ∧
      ∀ block ∈ submitted, SectorBlock block := by
  apply submitBatches_device sectors positive rfl inside rounds devOff [] [] le_rfl
  · omega
  · rw [Nat.min_eq_right (Nat.le_add_right devOff len), Nat.sub_self, slice, List.take_zero]
  · exact fun _ inside => absurd inside List.not_mem_nil

theorem batchedBlocks_slice_crossing :
    ∃ submitted, batchedBlocks (takerSubmit (recordBatch (List.replicate 12288 7))) takerEmit 4096 4000
        5000 5000 ([], []) = .ok (some 5000) (submitted, slice (List.replicate 12288 7) 4000 5000) ∧
      ∀ block ∈ submitted, SectorBlock block :=
  batchedBlocks_slice _ (by decide) (by decide) (by rw [List.length_replicate]; decide) le_rfl

end FastS3.Engine
