import FastS3.Alloc.Allocator
import FastS3.Core.Checkpoint
import FastS3.Data.SetBits

namespace FastS3.Alloc

open FastS3.Core Data

/-! The bytes of a bitmap and of its ranges, as they stand in the checkpoints.

Bit `i` of a range is bit `i % 8` of byte `i / 8`.  The loops go through words and bytes; what is proved
of them is which bits they read and set.
-/

/-- The bit `i` of a byte string; there is none beyond its end. -/
def bitAt (bytes : Bytes) (i : Nat) : Bool :=
  (bytes.getD (i / 8) 0).toBitVec.getLsbD (i % 8)

/-- `out[k / 8] |= 1 << (k % 8)`. -/
def orBit (out : Bytes) (k : Nat) : Bytes :=
  out.modify (k / 8) fun byte => UInt8.ofBitVec (byte.toBitVec ||| 1#8 <<< (k % 8))

/-- `b & (1 << j) != 0`. -/
def hasBit (byte : UInt8) (j : Nat) : Bool :=
  byte.toBitVec &&& 1#8 <<< j != 0#8

theorem and_shift_bne_zero {width : Nat} (word : BitVec width) {j : Nat} (inside : j < width) :
    (word &&& 1#(width) <<< j != 0#(width)) = word.getLsbD j := by
  rw [← BitVec.twoPow_eq, BitVec.and_twoPow]
  cases set : word.getLsbD j with
  | false => rw [if_neg (by decide), bne_self_eq_false]
  | true =>
    rw [if_pos rfl, bne_iff_ne]
    intro zero
    have bit := congrArg (fun w => w.getLsbD j) zero
    simp only [BitVec.getLsbD_twoPow, BitVec.getLsbD_zero, inside, decide_true, Bool.and_self,
      Bool.true_eq_false] at bit

theorem hasBit_eq (byte : UInt8) {j : Nat} (inside : j < 8) :
    hasBit byte j = byte.toBitVec.getLsbD j :=
  and_shift_bne_zero _ inside

@[simp] theorem orBit_length (out : Bytes) (k : Nat) : (orBit out k).length = out.length := by
  rw [orBit, List.length_modify]

theorem bitAt_beyond {bytes : Bytes} {i : Nat} (beyond : 8 * bytes.length ≤ i) :
    bitAt bytes i = false := by
  rw [bitAt, List.getD_eq_getElem?_getD, List.getElem?_eq_none (by omega)]
  exact BitVec.getLsbD_zero

@[simp] theorem bitAt_zeroBytes (count i : Nat) : bitAt (zeroBytes count) i = false := by
  rw [bitAt, zeroBytes, List.getD_eq_getElem?_getD, List.getElem?_replicate]
  split
  · exact BitVec.getLsbD_zero
  · exact BitVec.getLsbD_zero

theorem bitAt_orBit {out : Bytes} {k : Nat} (inside : k < 8 * out.length) (i : Nat) :
    bitAt (orBit out k) i = (decide (i = k) || bitAt out i) := by
  have small : i % 8 < 8 := Nat.mod_lt _ (by decide)
  rw [bitAt, orBit, List.getD_eq_getElem?_getD, List.getElem?_modify, bitAt,
    List.getD_eq_getElem?_getD]
  by_cases byte : k / 8 = i / 8
  · have held : i / 8 < out.length := by omega
    simp only [byte, if_true, List.getElem?_eq_getElem held, Option.map_eq_map, Option.map_some,
      Option.getD_some]
    rw [UInt8.toBitVec_ofBitVec, BitVec.getLsbD_or, ← BitVec.twoPow_eq, BitVec.getLsbD_twoPow,
      Bool.or_comm]
    congr 1
    have shift : k % 8 < 8 := Nat.mod_lt _ (by decide)
    rw [decide_eq_true shift, Bool.true_and, decide_eq_decide]
    omega
  · have other : i ≠ k := fun same => byte (by rw [same])
    simp only [byte, if_false, decide_eq_false other, Bool.false_or, Option.map_eq_map, Option.map_id']

theorem orBit_sets : SetsBits bitAt orBit fun out => 8 * out.length := by
  intro out k inside
  exact ⟨congrArg (8 * ·) (orBit_length out k), bitAt_orBit inside⟩

namespace Bitmap

/-- The byte `j` of `to_le_bytes`. -/
def wordByte (word : BitVec 64) (j : Nat) : UInt8 :=
  UInt8.ofBitVec ((word >>> (8 * j)).setWidth 8)

def serialize (b : Bitmap) : Bytes :=
  let nbytes := divCeil b.n 8
  (List.range b.nwords).foldl (fun out i =>
    (List.range 8).foldl (fun out j =>
      -- all later bytes of the word are beyond the end with this one
      if i * 8 + j ≥ nbytes then out else out.set (i * 8 + j) (wordByte (b.words i) j)) out)
    (zeroBytes nbytes)

def serializeLoop (b : Bitmap) (start count done : Nat) (out : Bytes) : Bytes :=
  if done < count then
    let id := start + done
    let fromBit := id % 64
    let take := min (64 - fromBit) (count - done)
    let maskLo := if take = 64 then BitVec.allOnes 64 else (1#64 <<< take) - 1#64
    let bits := b.words (id / 64) >>> fromBit &&& maskLo
    b.serializeLoop start count (done + take) ((List.range take).foldl
      (fun out j => if bits &&& 1#64 <<< j != 0#64 then orBit out (done + j) else out) out)
  else out
termination_by count - done
decreasing_by omega

def serializeRange (b : Bitmap) (start count : Nat) : Bytes :=
  b.serializeLoop start count 0 (zeroBytes (divCeil count 8))

def loadByte (b : Bitmap) (byte : UInt8) (baseBit : Nat) : Bitmap :=
  if byte = 0 then b
  else (List.range 8).foldl (fun b j => if hasBit byte j then b.setBit (baseBit + j) else b) b

def loadRange (b : Bitmap) (bytes : Bytes) (start : Nat) : Bitmap :=
  bytes.zipIdx.foldl (fun b entry => b.loadByte entry.1 (start + entry.2 * 8)) b

/-- The word that `load` puts together. -/
def loadedWord (expect : Nat) (bytes : Bytes) (i : Nat) : BitVec 64 :=
  (List.range 8).foldl (fun v j =>
    let src := i * 8 + j
    if src < expect ∧ src < bytes.length then
      v ||| (bytes.getD src 0).toBitVec.setWidth 64 <<< (j * 8)
    else v) 0#64

/-- `load`; bytes that are too short for the bitmap stop the program. -/
def load (b : Bitmap) (bytes : Bytes) : Option Bitmap :=
  let expect := divCeil b.n 8
  if bytes.length < expect then none
  else some { b with
    words := fun i => if i < b.nwords then loadedWord expect bytes i else b.words i }

end Bitmap

end FastS3.Alloc
