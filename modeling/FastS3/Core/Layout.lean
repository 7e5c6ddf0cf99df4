import FastS3.Core.Basic
import FastS3.Data.Alternation

namespace FastS3.Core

/-! Sizing of a freshly formatted device.

The number of extents decides the size of the two checkpoint slots, and the
slots decide how many extents are left.  `computeLayout` settles this by at
most four rounds from above; the lemmas below follow those rounds.
-/

structure SuperBlockLayout where
  checkpointOffset : Nat
  checkpointLen : Nat
  dataStart : Nat
  dataEnd : Nat
  extentCount : Nat
  bitmapBytes : Nat
deriving Repr, DecidableEq

/-- The slot length `compute_layout` reserves for the bitmap of `extents` bits. -/
def checkpointSlot (extents : Nat) : Nat :=
  alignUp (40 + divCeil extents 8) sectorSize

def layoutDataStart (extents : Nat) : Nat :=
  reservedRegionEnd + 2 * checkpointSlot extents

/-- The extents that fit behind the checkpoint slots sized for `extents`. -/
def layoutFit (capacity extentSize extents : Nat) : Nat :=
  (capacity - layoutDataStart extents) / extentSize

/-- The `for _ in 0..4` loop of `compute_layout`, one round for each unit of `rounds`. -/
def computeLayoutLoop (capacity extentSize : Nat) : Nat → Nat → Except Error Nat
  | 0, n => .ok n
  | rounds + 1, n =>
    if layoutDataStart n ≥ capacity then
      .error (.invalidArgument s!"device too small for any extent: {capacity}")
    else
      let n2 := layoutFit capacity extentSize n
      if n2 = n then .ok n else computeLayoutLoop capacity extentSize rounds n2

def computeLayout (capacity extentSize : Nat) : Except Error SuperBlockLayout :=
  if ¬(1024 * 1024 ≤ extentSize ∧ extentSize ≤ 16 * 1024 * 1024) then
    .error (.invalidArgument s!"extent_size {extentSize} out of range 1MiB..16MiB")
  else if extentSize % sectorSize ≠ 0 then
    .error (.invalidArgument "extent_size must be a multiple of 4KiB")
  else if capacity ≤ reservedRegionEnd then
    .error (.invalidArgument s!"device too small: {capacity} < 1MiB")
  else
    match computeLayoutLoop capacity extentSize 4
        ((capacity - reservedRegionEnd) / extentSize) with
    | .error e => .error e
    | .ok n =>
      if n = 0 ∨ n > maxExtents then
        .error (.invalidArgument s!"extent count {n} out of range 1..{maxExtents}")
      else
        .ok {
          checkpointOffset := reservedRegionEnd
          checkpointLen := checkpointSlot n
          dataStart := layoutDataStart n
          dataEnd := capacity
          extentCount := n
          bitmapBytes := divCeil n 8
        }

/-! The slot length grows by one sector at every 32768th extent. -/

variable {few many n extentSize capacity : Nat}

theorem checkpointSlot_mono (ordered : few ≤ many) : checkpointSlot few ≤ checkpointSlot many := by
  unfold checkpointSlot alignUp divCeil sectorSize
  omega

theorem checkpointSlot_step (ordered : few ≤ many) (near : many ≤ few + 32768) :
    checkpointSlot many = checkpointSlot few ∨
      checkpointSlot many = checkpointSlot few + 4096 := by
  unfold checkpointSlot alignUp divCeil sectorSize
  omega

theorem checkpointSlot_boundary (grows : checkpointSlot (n + 1) = checkpointSlot n + 4096) :
    ∃ k, 1 ≤ k ∧ n + 320 = 32768 * k ∧ checkpointSlot n = 4096 * k := by
  refine ⟨checkpointSlot n / 4096, ?_⟩
  unfold checkpointSlot alignUp divCeil sectorSize at *
  omega

theorem checkpointSlot_at_boundary {k : Nat} (boundary : n + 320 = 32768 * k) :
    checkpointSlot n = 4096 * k ∧ checkpointSlot (n + 1) = 4096 * (k + 1) := by
  unfold checkpointSlot alignUp divCeil sectorSize
  omega

theorem checkpointSlot_bound (n : Nat) :
    2 * checkpointSlot n ≤ (n / 4194304 + 2) * 1048576 := by
  unfold checkpointSlot alignUp divCeil sectorSize
  omega

theorem layoutDataStart_eq (n : Nat) :
    layoutDataStart n = 1048576 + 2 * checkpointSlot n := by
  rfl

theorem layoutFit_antitone (capacity extentSize : Nat) :
    Antitone (layoutFit capacity extentSize) := by
  intro few many ordered
  apply Nat.div_le_div_right
  have := checkpointSlot_mono ordered
  simp only [layoutDataStart_eq]
  omega

theorem layoutFit_near (large : 1048576 ≤ extentSize) (ordered : few ≤ many)
    (near : many ≤ few + 32768) :
    layoutFit capacity extentSize few ≤ layoutFit capacity extentSize many + 1 := by
  have step := checkpointSlot_step ordered near
  unfold layoutFit
  rw [← Nat.add_div_right _ (by omega : 0 < extentSize)]
  apply Nat.div_le_div_right
  simp only [layoutDataStart_eq]
  omega

theorem layoutFit_first (capacity : Nat) (large : 1048576 ≤ extentSize) :
    let n := (capacity - reservedRegionEnd) / extentSize
    n ≤ layoutFit capacity extentSize n + (n / 4194304 + 2) := by
  intro n
  have lengths : 2 * checkpointSlot n ≤ (n / 4194304 + 2) * extentSize :=
    Nat.le_trans (checkpointSlot_bound n) (Nat.mul_le_mul_left _ large)
  have split : capacity - reservedRegionEnd - extentSize * (n / 4194304 + 2) ≤
      capacity - layoutDataStart n := by
    rw [Nat.mul_comm, layoutDataStart_eq]
    unfold reservedRegionEnd
    omega
  have divided := @Nat.div_le_div_right _ _ extentSize split
  rw [Nat.sub_mul_div] at divided
  change n - (n / 4194304 + 2) ≤ layoutFit capacity extentSize n at divided
  omega

theorem layoutFit_le_first (capacity extentSize n : Nat) :
    layoutFit capacity extentSize n ≤ (capacity - reservedRegionEnd) / extentSize := by
  apply Nat.div_le_div_right
  rw [layoutDataStart_eq]
  unfold reservedRegionEnd
  omega

theorem computeLayoutLoop_ok {rounds result : Nat}
    (settled : computeLayoutLoop capacity extentSize rounds n = .ok result) :
    layoutFit capacity extentSize result = result ∨
      result = (layoutFit capacity extentSize)^[rounds] n := by
  induction rounds generalizing n with
  | zero =>
    right
    simpa [computeLayoutLoop] using settled.symm
  | succ rounds ih =>
    simp only [computeLayoutLoop] at settled
    split at settled
    · cases settled
    · split at settled
      · next fixed =>
        cases settled
        exact .inl fixed
      · simpa only [Function.iterate_succ_apply] using ih settled

theorem computeLayoutLoop_lower {rounds result : Nat}
    (settled : computeLayoutLoop capacity extentSize rounds n = .ok result)
    (first : n ≤ (capacity - reservedRegionEnd) / extentSize)
    (above : layoutFit capacity extentSize ((capacity - reservedRegionEnd) / extentSize) ≤ n) :
    layoutFit capacity extentSize ((capacity - reservedRegionEnd) / extentSize) ≤ result := by
  induction rounds generalizing n with
  | zero =>
    cases settled
    exact above
  | succ rounds ih =>
    simp only [computeLayoutLoop] at settled
    split at settled
    · cases settled
    · split at settled
      · cases settled
        exact above
      · exact ih settled (layoutFit_le_first _ _ _)
          (layoutFit_antitone capacity extentSize first)

/-- What `compute_layout` returns: the data region either holds exactly the
counted extents, or the rounds ended on the upper value of a two-cycle. -/
theorem computeLayout_ok {layout : SuperBlockLayout}
    (computed : computeLayout capacity extentSize = .ok layout) :
    1048576 ≤ extentSize ∧ 1048576 < capacity ∧
      layout.checkpointOffset = reservedRegionEnd ∧
      layout.checkpointLen = checkpointSlot layout.extentCount ∧
      layout.dataStart = layoutDataStart layout.extentCount ∧
      layout.dataEnd = capacity ∧
      layout.bitmapBytes = divCeil layout.extentCount 8 ∧
      0 < layout.extentCount ∧ layout.extentCount ≤ maxExtents ∧
      (layoutFit capacity extentSize layout.extentCount = layout.extentCount ∨
        ∃ low, layout.extentCount = low + 1 ∧
          Data.Exchanges (layoutFit capacity extentSize) low) := by
  unfold computeLayout at computed
  split at computed
  · cases computed
  next sized =>
  split at computed
  · cases computed
  split at computed
  · cases computed
  next room =>
  have large : 1048576 ≤ extentSize := by omega
  have device : 1048576 < capacity := by
    unfold reservedRegionEnd at room
    omega
  split at computed
  · cases computed
  next n settled =>
  split at computed
  · cases computed
  next bounded =>
  cases computed
  have nonempty : 0 < n := by omega
  have few : n ≤ maxExtents := by omega
  refine ⟨large, device, rfl, rfl, rfl, rfl, rfl, nonempty, few, ?_⟩
  rcases computeLayoutLoop_ok settled with fixed | iterated
  · exact .inl fixed
  · have lower := computeLayoutLoop_lower settled (Nat.le_refl _) (layoutFit_le_first _ _ _)
    have drop := layoutFit_first capacity large
    have below := layoutFit_le_first capacity extentSize
      ((capacity - reservedRegionEnd) / extentSize)
    have near : layoutFit capacity extentSize
        (layoutFit capacity extentSize ((capacity - reservedRegionEnd) / extentSize)) ≤
        layoutFit capacity extentSize ((capacity - reservedRegionEnd) / extentSize) + 1 := by
      apply layoutFit_near large below
      unfold maxExtents at few
      simp only at drop
      omega
    rw [iterated]
    exact Data.iterate_four_settles (layoutFit_antitone capacity extentSize)
      (layoutFit_le_first capacity extentSize) near

end FastS3.Core
