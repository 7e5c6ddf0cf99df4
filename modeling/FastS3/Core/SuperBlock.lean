import FastS3.Core.Bytes

namespace FastS3.Core

/-! The device header. -/

structure SuperBlock where
  uuid : Bytes
  layoutVersion : Nat
  deviceGeneration : Nat
  extentSize : Nat
  checkpointOffset : Nat
  checkpointLen : Nat
  dataStart : Nat
  dataEnd : Nat
  features : Nat
  metadataOffset : Nat
  metadataLen : Nat
deriving Repr, DecidableEq

def layoutVersion : Nat := 3

namespace SuperBlock

def extentCount (sb : SuperBlock) : Nat :=
  (sb.dataEnd - sb.dataStart) / sb.extentSize

def extentCapacity (sb : SuperBlock) : Nat :=
  sb.extentSize - extentHeaderSize

def validate (sb : SuperBlock) : Except Error Unit :=
  if sb.extentSize < 1024 * 1024 ∨ sb.extentSize > 16 * 1024 * 1024 then
    .error (.invalidLayout s!"extent_size {sb.extentSize} out of range 1MiB..16MiB")
  else if sb.extentSize % sectorSize ≠ 0 then
    .error (.invalidLayout "extent_size must be a multiple of 4KiB")
  else if sb.checkpointOffset < reservedRegionEnd then
    .error (.invalidLayout "checkpoint region overlaps reserved")
  else if sb.dataStart < sb.checkpointOffset + 2 * sb.checkpointLen then
    .error (.invalidLayout "data region overlaps checkpoint region")
  else if sb.dataEnd ≤ sb.dataStart then
    .error (.invalidLayout "empty data region")
  else if sb.extentCount = 0 then
    .error (.invalidLayout "no extents")
  else .ok ()

end SuperBlock

end FastS3.Core
