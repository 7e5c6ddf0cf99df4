import FastS3.Core.Basic

namespace FastS3.Core

/-! Byte strings of the on-disk formats and their checksum. -/

abbrev Bytes := List UInt8

def utf8 (text : String) : Bytes :=
  text.toUTF8.toList

/-- `to_le_bytes` of an integer type of `width` bytes. -/
def leBytes (width value : Nat) : Bytes :=
  (List.range width).map fun i => UInt8.ofNat (value / 256 ^ i % 256)

/-- `to_be_bytes`. -/
def beBytes (width value : Nat) : Bytes :=
  (leBytes width value).reverse

/-- `from_le_bytes`. -/
def leNat (bytes : Bytes) : Nat :=
  bytes.foldr (fun byte rest => byte.toNat + 256 * rest) 0

/-- The slice `buf[start..start + len]`. -/
def slice (buf : Bytes) (start len : Nat) : Bytes :=
  (buf.drop start).take len

def zeroBytes (count : Nat) : Bytes :=
  List.replicate count 0

@[simp] theorem leBytes_length (width value : Nat) : (leBytes width value).length = width := by
  simp [leBytes]

@[simp] theorem beBytes_length (width value : Nat) : (beBytes width value).length = width := by
  rw [beBytes, List.length_reverse, leBytes_length]

@[simp] theorem zeroBytes_length (count : Nat) : (zeroBytes count).length = count := by
  simp [zeroBytes]

theorem leBytes_succ (width value : Nat) :
    leBytes (width + 1) value = UInt8.ofNat (value % 256) :: leBytes width (value / 256) := by
  simp only [leBytes, List.range_succ_eq_map, List.map_cons, List.map_map, Nat.pow_zero, Nat.div_one]
  congr 1
  apply List.map_congr_left
  intro i _
  simp only [Function.comp_apply, Nat.pow_succ', Nat.div_div_eq_div_mul]

theorem leNat_leBytes {width value : Nat} (fits : value < 256 ^ width) :
    leNat (leBytes width value) = value := by
  induction width generalizing value with
  | zero =>
    have zero : value = 0 := by simpa using fits
    subst zero
    rfl
  | succ width ih =>
    have smaller : value / 256 < 256 ^ width := by
      rw [Nat.div_lt_iff_lt_mul (by decide)]
      rwa [← Nat.pow_succ]
    rw [leBytes_succ, leNat, List.foldr_cons, ← leNat, ih smaller]
    simp only [UInt8.toNat_ofNat']
    omega

theorem leNat_lt (bytes : Bytes) : leNat bytes < 256 ^ bytes.length := by
  induction bytes with
  | nil => decide
  | cons byte bytes ih =>
    have small := byte.toNat_lt
    rw [leNat, List.foldr_cons, ← leNat, List.length_cons, Nat.pow_succ]
    omega

variable {start len : Nat} (buf : Bytes)

theorem slice_append_left {left : Bytes} (right : Bytes) (inside : start + len ≤ left.length) :
    slice (left ++ right) start len = slice left start len := by
  rw [slice, slice, List.drop_append_of_le_length (by omega), List.take_append_of_le_length]
  rw [List.length_drop]
  omega

theorem slice_append_right (left : Bytes) {right : Bytes} (behind : left.length ≤ start) :
    slice (left ++ right) start len = slice right (start - left.length) len := by
  rw [slice, slice, List.drop_append, List.drop_eq_nil_of_le behind, List.nil_append]

theorem slice_self {buf : Bytes} (whole : len = buf.length) : slice buf 0 len = buf := by
  rw [slice, List.drop_zero, whole, List.take_length]

@[simp] theorem slice_length (start len : Nat) :
    (slice buf start len).length = min len (buf.length - start) := by
  simp [slice]

theorem slice_slice {inner count : Nat} (inside : inner + count ≤ len) :
    slice (slice buf start len) inner count = slice buf (start + inner) count := by
  rw [slice, slice, slice, List.drop_take, List.take_take, List.drop_drop, Nat.min_eq_left (by omega)]

theorem slice_add (start left right : Nat) :
    slice buf start (left + right) = slice buf start left ++ slice buf (start + left) right := by
  rw [slice, slice, slice, List.take_add, List.drop_drop]

theorem slice_joined {middle more : Nat} (first : start ≤ middle) :
    slice buf start (middle - start) ++ slice buf middle more =
      slice buf start (middle + more - start) := by
  have whole : middle + more - start = middle - start + more := by omega
  rw [whole, slice_add, Nat.add_sub_of_le first]

theorem slice_min {count : Nat}
    (rest : min len (buf.length - start) = min count (buf.length - start)) :
    slice buf start len = slice buf start count := by
  rw [slice, slice, List.take_eq_take_iff, List.length_drop, rest]

def polyReflected : UInt32 := 0x82F63B78

/-- One entry of `build_table`: eight shifts of the reflected polynomial. -/
def tableShift : Nat → UInt32 → UInt32
  | 0, crc => crc
  | shifts + 1, crc =>
    tableShift shifts (if crc &&& 1 ≠ 0 then (crc >>> 1) ^^^ polyReflected else crc >>> 1)

def crc32cSw (data : Bytes) (seed : UInt32) : UInt32 :=
  data.foldl
    (fun crc byte => tableShift 8 ((crc ^^^ byte.toUInt32) &&& 0xFF) ^^^ (crc >>> 8)) seed

def crc32c (data : Bytes) (seed : UInt32) : UInt32 :=
  crc32cSw data (seed ^^^ 0xFFFFFFFF) ^^^ 0xFFFFFFFF

end FastS3.Core
