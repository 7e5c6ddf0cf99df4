import FastS3.Core.Bytes
import FastS3.Data.Blocks

namespace FastS3.Core

open Data

/-! References from records to the data region. -/

/-- A byte range of one extent with the checksums of its 64 KiB blocks. -/
structure Segment where
  extentId : Nat
  offset : Nat
  len : Nat
  crcs : List UInt32
deriving Repr, DecidableEq

/-- The triple under which the allocator counts the holders of a segment. -/
structure SegKey where
  extent : Nat
  offset : Nat
  len : Nat
deriving Repr, DecidableEq

def Segment.key (segment : Segment) : SegKey :=
  ⟨segment.extentId, segment.offset, segment.len⟩

def SegKey.Disjoint (left right : SegKey) : Prop :=
  left.extent ≠ right.extent ∨ left.offset + left.len ≤ right.offset ∨
    right.offset + right.len ≤ left.offset

instance (left right : SegKey) : Decidable (left.Disjoint right) := by
  unfold SegKey.Disjoint
  infer_instance

theorem SegKey.Disjoint.symm {left right : SegKey} (apart : left.Disjoint right) :
    right.Disjoint left := by
  rcases apart with extents | before | after
  · exact .inl fun same => extents same.symm
  · exact .inr (.inr before)
  · exact .inr (.inl after)

def gridCrcs (bytes : Bytes) : List UInt32 :=
  (List.range (divCeil bytes.length segmentCrcGrid)).map fun i =>
    crc32c (slice bytes (i * segmentCrcGrid) segmentCrcGrid) 0

theorem gridCrcs_eq (bytes : Bytes) :
    gridCrcs bytes = (blocks segmentCrcGrid bytes).map fun block => crc32c block 0 := by
  rw [gridCrcs, blocks, List.map_map]
  rfl

theorem gridCrcs_append {bytes block : Bytes} (full : segmentCrcGrid ∣ bytes.length)
    (nonempty : block ≠ []) (short : block.length ≤ segmentCrcGrid) :
    gridCrcs (bytes ++ block) = gridCrcs bytes ++ [crc32c block 0] := by
  rw [gridCrcs_eq, gridCrcs_eq, blocks_append full nonempty short, List.map_append,
    List.map_singleton]

theorem gridCrcs_getElem? {bytes : Bytes} {i : Nat} (inside : i * segmentCrcGrid < bytes.length) :
    (gridCrcs bytes)[i]? = some (crc32c (slice bytes (i * segmentCrcGrid) segmentCrcGrid) 0) := by
  rw [gridCrcs_eq, List.getElem?_map, blocks_getElem? (by decide) inside, Option.map_some]
  rfl

/-- `fs3_core::AllocDraft`: what a transaction records about the bitmap. -/
structure AllocDraft where
  alloc : List (Nat × Nat)
  refInc : List Nat
  refDec : List Nat
deriving Repr, DecidableEq

/-- A stored allocation record: the draft of a committed transaction under its
sequence number. -/
structure AllocRecord where
  seq : Nat
  txn : Nat
  alloc : List (Nat × Nat)
  refInc : List Nat
  refDec : List Nat
deriving Repr, DecidableEq

end FastS3.Core
