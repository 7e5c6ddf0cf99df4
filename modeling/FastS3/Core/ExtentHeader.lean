import FastS3.Core.Bytes

namespace FastS3.Core

/-! The header sector of an extent, written when the extent is sealed. -/

def extentMagic : Bytes := [0x46, 0x53, 0x33, 0x45]

def extentFlagPacked : Nat := 1

def defaultChunkSize : Nat := 64 * 1024

structure ExtentHeader where
  generation : Nat
  flags : Nat
  chunkSize : Nat
  chunkCrcs : List UInt32
deriving Repr, DecidableEq

/-- The test `flags & EXTENT_FLAG_PACKED != 0`. -/
def packedFlag (flags : Nat) : Bool :=
  flags % 2 = 1

namespace ExtentHeader

def isPacked (header : ExtentHeader) : Bool :=
  packedFlag header.flags

def body (header : ExtentHeader) : Bytes :=
  extentMagic ++ leBytes 8 header.generation ++ leBytes 4 header.flags ++ zeroBytes 20 ++
    leBytes 4 header.chunkSize ++ leBytes 2 header.chunkCrcs.length ++ zeroBytes 6 ++
    header.chunkCrcs.flatMap fun crc => leBytes 4 crc.toNat

def encode (header : ExtentHeader) : Bytes :=
  header.body ++ leBytes 4 (crc32c header.body 0).toNat ++
    zeroBytes (extentHeaderSize - (header.body.length + 4))

def decode (buf : Bytes) : Except Error ExtentHeader := do
  if buf.length < extentHeaderSize then
    throw (.corrupt "extent header buffer too short")
  if slice buf 0 4 ≠ extentMagic then
    throw (.corrupt "extent header magic mismatch")
  let flags := leNat (slice buf 12 4)
  let n := leNat (slice buf 40 2)
  if packedFlag flags ∧ n ≠ 0 then
    throw (.corrupt "packed extent header must not carry a crc table")
  let crcEnd := 48 + 4 * n
  if crcEnd + 4 > buf.length then
    throw (.corrupt "extent header crc table out of bounds")
  if leNat (slice buf crcEnd 4) ≠ (crc32c (slice buf 0 crcEnd) 0).toNat then
    throw (.corrupt "extent header crc mismatch")
  return {
    generation := leNat (slice buf 4 8)
    flags := flags
    chunkSize := leNat (slice buf 36 4)
    chunkCrcs := (List.range n).map fun i => UInt32.ofNat (leNat (slice buf (48 + 4 * i) 4)) }

def verifyChunk (header : ExtentHeader) (idx : Nat) (data : Bytes) : Bool :=
  match header.chunkCrcs[idx]? with
  | some expected => crc32c data 0 == expected
  | none => false

end ExtentHeader

end FastS3.Core
