import FastS3.Core.Bytes

namespace FastS3.Core

/-! The contents of a checkpoint slot. -/

structure CheckpointData where
  generation : Nat
  seq : Nat
  totalAlloc : Nat
  totalFree : Nat
  bitmap : Bytes
deriving Repr, DecidableEq

def checkpointMagic : Nat := 0x4653335F43484B50

def cpHeader : Nat := 48

namespace CheckpointData

def body (cp : CheckpointData) : Bytes :=
  leBytes 8 checkpointMagic ++ leBytes 8 cp.generation ++ leBytes 8 cp.seq ++
    leBytes 4 cp.bitmap.length ++ leBytes 8 cp.totalAlloc ++ leBytes 8 cp.totalFree ++
    zeroBytes 4 ++ cp.bitmap

def need (cp : CheckpointData) : Nat :=
  cpHeader + cp.bitmap.length + 4

def encode (cp : CheckpointData) (slotLen : Nat) : Except Error Bytes :=
  if slotLen < cp.need then
    .error (.invalidArgument s!"checkpoint slot too small: {slotLen} < {cp.need}")
  else
    .ok (cp.body ++ leBytes 4 (crc32c cp.body 0).toNat ++ zeroBytes (slotLen - cp.need))

def decode (buf : Bytes) : Except Error CheckpointData :=
  let bitmapBytes := leNat (slice buf 24 4)
  if buf.length < cpHeader + 4 then
    .error (.corrupt "checkpoint slot too short")
  else if leNat (slice buf 0 8) ≠ checkpointMagic then
    .error (.corrupt "checkpoint magic mismatch")
  else if buf.length < cpHeader + bitmapBytes + 4 then
    .error (.corrupt "checkpoint bitmap out of bounds")
  else if leNat (slice buf (cpHeader + bitmapBytes) 4) ≠
      (crc32c (slice buf 0 (cpHeader + bitmapBytes)) 0).toNat then
    .error (.corrupt "checkpoint crc mismatch")
  else .ok {
    generation := leNat (slice buf 8 8)
    seq := leNat (slice buf 16 8)
    totalAlloc := leNat (slice buf 28 8)
    totalFree := leNat (slice buf 36 8)
    bitmap := slice buf cpHeader bitmapBytes }

/-- The numbers are 64-bit, and the length of the bitmap fits its 32-bit field. -/
structure Encodable (cp : CheckpointData) : Prop where
  generation : cp.generation < 2 ^ 64
  seq : cp.seq < 2 ^ 64
  totalAlloc : cp.totalAlloc < 2 ^ 64
  totalFree : cp.totalFree < 2 ^ 64
  bitmap : cp.bitmap.length < 2 ^ 32

@[simp] theorem body_length (cp : CheckpointData) :
    cp.body.length = cpHeader + cp.bitmap.length := by
  simp [body, cpHeader]
  omega

theorem encode_isOk_iff (cp : CheckpointData) (slotLen : Nat) :
    (∃ bytes, cp.encode slotLen = .ok bytes) ↔ cp.need ≤ slotLen := by
  unfold encode
  split
  · next short => simp; omega
  · next fits => simp; omega

variable {cp : CheckpointData} {bytes : Bytes}

theorem encode_length {slotLen : Nat} (encoded : cp.encode slotLen = .ok bytes) :
    bytes.length = slotLen := by
  unfold encode at encoded
  split at encoded
  · cases encoded
  · cases encoded
    simp [need] at *
    omega

theorem slice_body (cp : CheckpointData) (rest : Bytes) :
    slice (cp.body ++ rest) 0 8 = leBytes 8 checkpointMagic ∧
      slice (cp.body ++ rest) 8 8 = leBytes 8 cp.generation ∧
      slice (cp.body ++ rest) 16 8 = leBytes 8 cp.seq ∧
      slice (cp.body ++ rest) 24 4 = leBytes 4 cp.bitmap.length ∧
      slice (cp.body ++ rest) 28 8 = leBytes 8 cp.totalAlloc ∧
      slice (cp.body ++ rest) 36 8 = leBytes 8 cp.totalFree ∧
      slice (cp.body ++ rest) 48 cp.bitmap.length = cp.bitmap := by
  simp [body, slice, List.drop_append, List.drop_eq_nil_of_le, zeroBytes]

theorem decode_encode {slotLen : Nat} (encodable : cp.Encodable)
    (encoded : cp.encode slotLen = .ok bytes) : decode bytes = .ok cp := by
  have length := encode_length encoded
  unfold encode at encoded
  split at encoded
  · cases encoded
  · next fits =>
      simp only [List.append_assoc, Except.ok.injEq] at encoded
      obtain ⟨magic, generation, seq, bitmapLen, totalAlloc, totalFree, bitmap⟩ :=
        cp.slice_body (leBytes 4 (crc32c cp.body 0).toNat ++ zeroBytes (slotLen - cp.need))
      have whole : slice bytes 0 (cpHeader + cp.bitmap.length) = cp.body := by
        rw [← encoded, slice_append_left]
        · exact slice_self (by simp)
        · simp
      have stored : slice bytes (cpHeader + cp.bitmap.length) 4 =
          leBytes 4 (crc32c cp.body 0).toNat := by
        rw [← encoded, slice_append_right, body_length, Nat.sub_self, slice_append_left]
        · exact slice_self (by simp)
        · simp
        · simp
      rw [encoded] at magic generation seq bitmapLen totalAlloc totalFree bitmap
      have long : cp.need ≤ bytes.length := by omega
      unfold need at long
      have readMagic : leNat (leBytes 8 checkpointMagic) = checkpointMagic :=
        leNat_leBytes (by decide)
      simp only [decode]
      rw [magic, generation, seq, bitmapLen, totalAlloc, totalFree, readMagic,
        leNat_leBytes encodable.bitmap, leNat_leBytes encodable.generation,
        leNat_leBytes encodable.seq, leNat_leBytes encodable.totalAlloc,
        leNat_leBytes encodable.totalFree, whole, stored,
        leNat_leBytes (crc32c cp.body 0).toNat_lt]
      rw [if_neg (by omega), if_neg (by simp), if_neg (by omega), if_neg (by simp)]
      rw [cpHeader, bitmap]

theorem decode_bitmap_length (decoded : decode bytes = .ok cp) : cp.bitmap.length < 2 ^ 32 := by
  have narrow := leNat_lt (slice bytes 24 4)
  simp only [decode] at decoded
  split at decoded
  · cases decoded
  split at decoded
  · cases decoded
  split at decoded
  · cases decoded
  split at decoded
  · cases decoded
  · cases decoded
    have bound : 256 ^ (slice bytes 24 4).length ≤ 256 ^ 4 :=
      Nat.pow_le_pow_right (by decide) (by rw [slice_length]; exact Nat.min_le_left _ _)
    rw [slice_length]
    omega

end CheckpointData

end FastS3.Core
