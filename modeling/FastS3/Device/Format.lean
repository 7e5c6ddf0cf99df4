import FastS3.Core.Checkpoint
import FastS3.Core.Layout
import FastS3.Core.SuperBlock

namespace FastS3.Device

open FastS3.Core

/-! Formatting a device and the two size checks that depend on it: the slot
must hold the encoded bitmap, and the bitmap must match the extent count that
the engine later reads from the superblock. -/

def featureIoUring : Nat := 1

def featurePackedExtents : Nat := 2

def featureMultiDevice : Nat := 4

def formatSuperBlock (uuid : Bytes) (extentSize features : Nat) (layout : SuperBlockLayout) :
    SuperBlock where
  uuid := uuid
  layoutVersion := layoutVersion
  deviceGeneration := 1
  extentSize := extentSize
  checkpointOffset := layout.checkpointOffset
  checkpointLen := layout.checkpointLen
  dataStart := layout.dataStart
  dataEnd := layout.dataEnd
  features := features ||| featureIoUring ||| featurePackedExtents ||| featureMultiDevice
  metadataOffset := 0
  metadataLen := 0

def initialCheckpoint (layout : SuperBlockLayout) : CheckpointData where
  generation := 1
  seq := 0
  totalAlloc := 0
  totalFree := 0
  bitmap := zeroBytes layout.bitmapBytes

/-- The bitmap-length check `Engine::open` applies to the checkpoint of device `di`. -/
def checkBitmapLength (di extentCount : Nat) (cp : CheckpointData) : Except Error Unit :=
  let expectBytes := divCeil extentCount 8
  if cp.bitmap.length ≠ expectBytes then
    .error (.corrupt
      s!"device {di} checkpoint bitmap {cp.bitmap.length} bytes, expected {expectBytes}")
  else .ok ()

theorem checkBitmapLength_ok_iff (di extentCount : Nat) (cp : CheckpointData) :
    checkBitmapLength di extentCount cp = .ok () ↔
      cp.bitmap.length = divCeil extentCount 8 := by
  simp [checkBitmapLength]

/-- Some `k` sectors a slot leave a number of extents whose bitmap ends within
the last twelve bytes that the slot reserves but the encoder needs itself. -/
def SlotTooShort (capacity extentSize : Nat) : Prop :=
  ∃ k, 1 ≤ k ∧
    32768 * k ≤ (capacity - reservedRegionEnd - 8192 * k) / extentSize + 415 ∧
    (capacity - reservedRegionEnd - 8192 * k) / extentSize + 320 ≤ 32768 * k

/-- With `k` sectors a slot one extent more fits than the slot can describe, and
with `k + 1` sectors that extent no longer fits. -/
def LayoutAlternates (capacity extentSize : Nat) : Prop :=
  ∃ k, 1 ≤ k ∧
    (32768 * k - 319) * extentSize + 8192 * k ≤ capacity - reservedRegionEnd ∧
    capacity - reservedRegionEnd < (32768 * k - 319) * extentSize + 8192 * k + 8192

private theorem need_gt_checkpointSlot_iff (n : Nat) :
    checkpointSlot n < 52 + divCeil n 8 ↔
      ∃ k, 1 ≤ k ∧ checkpointSlot n = 4096 * k ∧ 32768 * k ≤ n + 415 ∧ n + 320 ≤ 32768 * k := by
  constructor
  · intro short
    refine ⟨checkpointSlot n / 4096, ?_⟩
    unfold checkpointSlot alignUp divCeil sectorSize at *
    omega
  · rintro ⟨k, positive, slot, low, high⟩
    rw [slot]
    unfold divCeil
    omega

private theorem checkpointSlot_of_range {n k : Nat} (low : 32768 * k ≤ n + 415)
    (high : n + 320 ≤ 32768 * k) : checkpointSlot n = 4096 * k := by
  unfold checkpointSlot alignUp divCeil sectorSize
  omega

theorem layoutFit_of_slot (capacity extentSize : Nat) {n k : Nat} (slot : checkpointSlot n = 4096 * k) :
    layoutFit capacity extentSize n = (capacity - reservedRegionEnd - 8192 * k) / extentSize := by
  have start : capacity - layoutDataStart n = capacity - reservedRegionEnd - 8192 * k := by
    rw [layoutDataStart_eq, slot, Nat.sub_sub]
    unfold reservedRegionEnd
    omega
  rw [layoutFit, start]

theorem exchanges_boundary {capacity extentSize low : Nat}
    (exchanges : Data.Exchanges (layoutFit capacity extentSize) low) :
    ∃ k, 1 ≤ k ∧ low + 320 = 32768 * k ∧ checkpointSlot low = 4096 * k ∧
      checkpointSlot (low + 1) = 4096 * (k + 1) := by
  have differ : checkpointSlot (low + 1) ≠ checkpointSlot low := by
    intro same
    have equal : layoutFit capacity extentSize (low + 1) = layoutFit capacity extentSize low := by
      simp only [layoutFit, layoutDataStart_eq, same]
    rw [exchanges.1, exchanges.2] at equal
    omega
  have grows : checkpointSlot (low + 1) = checkpointSlot low + 4096 := by
    rcases checkpointSlot_step (Nat.le_succ low) (by omega) with same | grows
    · exact absurd same differ
    · exact grows
  obtain ⟨k, positive, boundary, slot⟩ := checkpointSlot_boundary grows
  exact ⟨k, positive, boundary, slot, by omega⟩

theorem layoutAlternates_iff {capacity extentSize : Nat} (large : 1048576 ≤ extentSize) :
    LayoutAlternates capacity extentSize ↔
      ∃ low, Data.Exchanges (layoutFit capacity extentSize) low := by
  have positive : 0 < extentSize := by omega
  constructor
  · rintro ⟨k, atLeast, fits, tight⟩
    obtain ⟨low, boundary⟩ : ∃ low, low + 320 = 32768 * k := ⟨32768 * k - 320, by omega⟩
    have upper : 32768 * k - 319 = low + 1 := by omega
    obtain ⟨slot, slotNext⟩ := checkpointSlot_at_boundary boundary
    rw [upper, Nat.succ_mul] at fits tight
    refine ⟨low, ?_, ?_⟩
    · rw [layoutFit_of_slot _ _ slot, Nat.div_eq_iff positive, Nat.succ_mul]
      omega
    · rw [layoutFit_of_slot _ _ slotNext, Nat.div_eq_iff positive]
      omega
  · rintro ⟨low, exchanges⟩
    obtain ⟨k, atLeast, boundary, slot, slotNext⟩ := exchanges_boundary exchanges
    have upper : 32768 * k - 319 = low + 1 := by omega
    have first := exchanges.1
    have second := exchanges.2
    rw [layoutFit_of_slot _ _ slot, Nat.div_eq_iff positive, Nat.succ_mul] at first
    rw [layoutFit_of_slot _ _ slotNext, Nat.div_eq_iff positive] at second
    refine ⟨k, atLeast, ?_, ?_⟩
    · rw [upper, Nat.succ_mul]
      omega
    · rw [upper, Nat.succ_mul]
      omega

/-- The slot holds the encoded bitmap for every device size except those of
`SlotTooShort`: the layout rounds up a 40 byte header where the encoder writes
48 bytes and a checksum. -/
theorem computeLayout_checkpoint_encodes_iff {capacity extentSize : Nat} {layout : SuperBlockLayout}
    (computed : computeLayout capacity extentSize = .ok layout) :
    (∀ cp : CheckpointData, cp.bitmap.length = layout.bitmapBytes →
        ∃ bytes, cp.encode layout.checkpointLen = .ok bytes) ↔
      ¬SlotTooShort capacity extentSize := by
  obtain ⟨large, _, _, slotLen, _, _, bitmapBytes, _, _, shape⟩ := computeLayout_ok computed
  have encodes : (∀ cp : CheckpointData, cp.bitmap.length = layout.bitmapBytes →
        ∃ bytes, cp.encode layout.checkpointLen = .ok bytes) ↔
      ¬checkpointSlot layout.extentCount < 52 + divCeil layout.extentCount 8 := by
    simp only [CheckpointData.encode_isOk_iff, CheckpointData.need, cpHeader, slotLen, bitmapBytes]
    constructor
    · intro all
      have := all ⟨0, 0, 0, 0, zeroBytes (divCeil layout.extentCount 8)⟩ (by simp)
      simp only [zeroBytes_length] at this
      omega
    · intro fits cp sized
      omega
  rw [encodes, not_iff_not, need_gt_checkpointSlot_iff]
  have reversing := layoutFit_antitone capacity extentSize
  constructor
  · rintro ⟨k, atLeast, slot, low, high⟩
    rcases shape with fixed | ⟨lower, isUpper, exchanges⟩
    · rw [layoutFit_of_slot _ _ slot] at fixed
      exact ⟨k, atLeast, by omega, by omega⟩
    · obtain ⟨j, _, boundary, _, slotNext⟩ := exchanges_boundary exchanges
      rw [isUpper] at slot low high
      omega
  · rintro ⟨k, atLeast, low, high⟩
    have slot := checkpointSlot_of_range low high
    have fixed := layoutFit_of_slot capacity extentSize slot
    have same : layout.extentCount = (capacity - reservedRegionEnd - 8192 * k) / extentSize := by
      rcases shape with settled | ⟨lower, _, exchanges⟩
      · exact Data.fixedPoint_unique reversing settled fixed
      · exact absurd fixed (exchanges.no_fixedPoint reversing _)
    rw [same]
    exact ⟨k, atLeast, slot, low, high⟩

theorem computeLayout_checkpoint_encodes_64MiB :
    ∃ layout, computeLayout 67108864 4194304 = .ok layout ∧
      ∃ bytes, (initialCheckpoint layout).encode layout.checkpointLen = .ok bytes := by
  have computed : computeLayout 67108864 4194304 = .ok ⟨1048576, 4096, 1056768, 67108864, 15, 2⟩ := by
    rfl
  refine ⟨_, computed, ?_⟩
  apply (computeLayout_checkpoint_encodes_iff computed).mpr
  · rintro ⟨k, atLeast, low, high⟩
    unfold reservedRegionEnd at low
    omega
  · rfl

theorem computeLayout_checkpoint_short_32400 :
    ∃ layout, computeLayout 33974919168 1048576 = .ok layout ∧
      (initialCheckpoint layout).bitmap.length = layout.bitmapBytes ∧
      (initialCheckpoint layout).encode layout.checkpointLen =
        .error (.invalidArgument "checkpoint slot too small: 4096 < 4102") := by
  have computed : computeLayout 33974919168 1048576 =
      .ok ⟨1048576, 4096, 1056768, 33974919168, 32400, 4050⟩ := by
    rfl
  refine ⟨_, computed, ?_, ?_⟩
  · simp [initialCheckpoint]
  · simp [CheckpointData.encode, CheckpointData.need, initialCheckpoint, cpHeader]
    rfl

/-- The counted extents are the extents the superblock describes, all of them
lie inside the device, and the first checkpoint passes the check at open. -/
structure LayoutConsistent (extentSize : Nat) (layout : SuperBlockLayout) : Prop where
  count : layout.extentCount = (layout.dataEnd - layout.dataStart) / extentSize
  superBlock : ∀ uuid features,
    (formatSuperBlock uuid extentSize features layout).extentCount = layout.extentCount
  inside : ∀ i, i < layout.extentCount →
    layout.dataStart + (i + 1) * extentSize ≤ layout.dataEnd
  bitmap : layout.bitmapBytes = divCeil layout.extentCount 8
  opens : ∀ uuid features di,
    checkBitmapLength di (formatSuperBlock uuid extentSize features layout).extentCount
      (initialCheckpoint layout) = .ok ()

theorem layoutConsistent_of_count {extentSize : Nat} {layout : SuperBlockLayout}
    (count : layout.extentCount = (layout.dataEnd - layout.dataStart) / extentSize)
    (nonempty : 0 < layout.extentCount)
    (bitmap : layout.bitmapBytes = divCeil layout.extentCount 8) :
    LayoutConsistent extentSize layout := by
  have described : ∀ uuid features,
      (formatSuperBlock uuid extentSize features layout).extentCount = layout.extentCount := by
    intro uuid features
    exact count.symm
  refine ⟨count, described, ?_, bitmap, ?_⟩
  · intro i below
    have product : (i + 1) * extentSize ≤ layout.dataEnd - layout.dataStart :=
      calc
        (i + 1) * extentSize ≤ layout.extentCount * extentSize := Nat.mul_le_mul_right _ below
        _ = (layout.dataEnd - layout.dataStart) / extentSize * extentSize := by rw [count]
        _ ≤ layout.dataEnd - layout.dataStart := Nat.div_mul_le_self _ _
    have room : layout.dataStart < layout.dataEnd := by
      by_contra reversed
      rw [Nat.sub_eq_zero_of_le (by omega), Nat.zero_div] at count
      omega
    omega
  · intro uuid features di
    rw [checkBitmapLength_ok_iff, described, ← bitmap]
    simp [initialCheckpoint]

/-- The four rounds reach a consistent layout for every device size except those
of `LayoutAlternates`, where they stop on a count one too large. -/
theorem computeLayout_consistent_iff {capacity extentSize : Nat} {layout : SuperBlockLayout}
    (computed : computeLayout capacity extentSize = .ok layout) :
    LayoutConsistent extentSize layout ↔ ¬LayoutAlternates capacity extentSize := by
  obtain ⟨large, _, _, _, dataStart, dataEnd, bitmapBytes, nonempty, _, shape⟩ :=
    computeLayout_ok computed
  have counted : (layout.dataEnd - layout.dataStart) / extentSize =
      layoutFit capacity extentSize layout.extentCount := by
    rw [dataEnd, dataStart, layoutFit]
  rw [layoutAlternates_iff large]
  constructor
  · rintro consistent ⟨low, exchanges⟩
    have fixed := consistent.count
    rw [counted] at fixed
    exact exchanges.no_fixedPoint (layoutFit_antitone capacity extentSize) _ fixed.symm
  · intro settles
    rcases shape with fixed | ⟨low, _, exchanges⟩
    · exact layoutConsistent_of_count (by rw [counted, fixed]) nonempty bitmapBytes
    · exact absurd ⟨low, exchanges⟩ settles

theorem computeLayout_consistent_64MiB :
    ∃ layout, computeLayout 67108864 4194304 = .ok layout ∧ LayoutConsistent 4194304 layout := by
  have computed : computeLayout 67108864 4194304 = .ok ⟨1048576, 4096, 1056768, 67108864, 15, 2⟩ := by
    rfl
  refine ⟨_, computed, (computeLayout_consistent_iff computed).mpr ?_⟩
  rintro ⟨k, atLeast, low, high⟩
  unfold reservedRegionEnd at low
  omega

theorem computeLayout_counts_missing_extent :
    ∃ layout, computeLayout 34026299392 1048576 = .ok layout ∧
      layout.extentCount = 32449 ∧ (layout.dataEnd - layout.dataStart) / 1048576 = 32448 ∧
      checkBitmapLength 0 (formatSuperBlock (zeroBytes 16) 1048576 0 layout).extentCount
        (initialCheckpoint layout) =
        .error (.corrupt "device 0 checkpoint bitmap 4057 bytes, expected 4056") := by
  have computed : computeLayout 34026299392 1048576 =
      .ok ⟨1048576, 8192, 1064960, 34026299392, 32449, 4057⟩ := by
    rfl
  refine ⟨_, computed, rfl, rfl, ?_⟩
  simp [checkBitmapLength, formatSuperBlock, SuperBlock.extentCount, initialCheckpoint, divCeil]
  rfl

end FastS3.Device
