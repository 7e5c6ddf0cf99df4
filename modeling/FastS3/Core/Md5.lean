import FastS3.Data.FullBlocks

namespace FastS3.Core.Md5

/-! The message digest of RFC 1321, over words of 32 bits and streams of bytes. -/

abbrev Word := BitVec 32

structure Registers where
  a : Word
  b : Word
  c : Word
  d : Word
  deriving DecidableEq

def Registers.initial : Registers :=
  ⟨0x67452301, 0xefcdab89, 0x98badcfe, 0x10325476⟩

def F (x y z : Word) : Word := x &&& y ||| ~~~x &&& z
def G (x y z : Word) : Word := x &&& z ||| y &&& ~~~z
def H (x y z : Word) : Word := x ^^^ y ^^^ z
def I (x y z : Word) : Word := y ^^^ (x ||| ~~~z)

/-- `[abcd k s i]`: the word `X[k]`, the rotation `s` and the table entry `T[i]`. -/
structure Operation where
  k : Nat
  s : Nat
  t : Word
  deriving DecidableEq

def Operation.apply (op : Operation) (f : Word → Word → Word → Word) (x : Nat → Word)
    (a b c d : Word) : Word :=
  b + (a + f b c d + x op.k + op.t).rotateLeft op.s

/-- A line of a round: `[ABCD …] [DABC …] [CDAB …] [BCDA …]`. -/
structure Line where
  first : Operation
  second : Operation
  third : Operation
  fourth : Operation
  deriving DecidableEq

def Line.apply (line : Line) (f : Word → Word → Word → Word) (x : Nat → Word) (v : Registers) :
    Registers :=
  let a := line.first.apply f x v.a v.b v.c v.d
  let d := line.second.apply f x v.d a v.b v.c
  let c := line.third.apply f x v.c d a v.b
  let b := line.fourth.apply f x v.b c d a
  ⟨a, b, c, d⟩

def round1 : List Line := [
  ⟨⟨0, 7, 0xd76aa478⟩, ⟨1, 12, 0xe8c7b756⟩, ⟨2, 17, 0x242070db⟩, ⟨3, 22, 0xc1bdceee⟩⟩,
  ⟨⟨4, 7, 0xf57c0faf⟩, ⟨5, 12, 0x4787c62a⟩, ⟨6, 17, 0xa8304613⟩, ⟨7, 22, 0xfd469501⟩⟩,
  ⟨⟨8, 7, 0x698098d8⟩, ⟨9, 12, 0x8b44f7af⟩, ⟨10, 17, 0xffff5bb1⟩, ⟨11, 22, 0x895cd7be⟩⟩,
  ⟨⟨12, 7, 0x6b901122⟩, ⟨13, 12, 0xfd987193⟩, ⟨14, 17, 0xa679438e⟩, ⟨15, 22, 0x49b40821⟩⟩]

def round2 : List Line := [
  ⟨⟨1, 5, 0xf61e2562⟩, ⟨6, 9, 0xc040b340⟩, ⟨11, 14, 0x265e5a51⟩, ⟨0, 20, 0xe9b6c7aa⟩⟩,
  ⟨⟨5, 5, 0xd62f105d⟩, ⟨10, 9, 0x02441453⟩, ⟨15, 14, 0xd8a1e681⟩, ⟨4, 20, 0xe7d3fbc8⟩⟩,
  ⟨⟨9, 5, 0x21e1cde6⟩, ⟨14, 9, 0xc33707d6⟩, ⟨3, 14, 0xf4d50d87⟩, ⟨8, 20, 0x455a14ed⟩⟩,
  ⟨⟨13, 5, 0xa9e3e905⟩, ⟨2, 9, 0xfcefa3f8⟩, ⟨7, 14, 0x676f02d9⟩, ⟨12, 20, 0x8d2a4c8a⟩⟩]

def round3 : List Line := [
  ⟨⟨5, 4, 0xfffa3942⟩, ⟨8, 11, 0x8771f681⟩, ⟨11, 16, 0x6d9d6122⟩, ⟨14, 23, 0xfde5380c⟩⟩,
  ⟨⟨1, 4, 0xa4beea44⟩, ⟨4, 11, 0x4bdecfa9⟩, ⟨7, 16, 0xf6bb4b60⟩, ⟨10, 23, 0xbebfbc70⟩⟩,
  ⟨⟨13, 4, 0x289b7ec6⟩, ⟨0, 11, 0xeaa127fa⟩, ⟨3, 16, 0xd4ef3085⟩, ⟨6, 23, 0x04881d05⟩⟩,
  ⟨⟨9, 4, 0xd9d4d039⟩, ⟨12, 11, 0xe6db99e5⟩, ⟨15, 16, 0x1fa27cf8⟩, ⟨2, 23, 0xc4ac5665⟩⟩]

def round4 : List Line := [
  ⟨⟨0, 6, 0xf4292244⟩, ⟨7, 10, 0x432aff97⟩, ⟨14, 15, 0xab9423a7⟩, ⟨5, 21, 0xfc93a039⟩⟩,
  ⟨⟨12, 6, 0x655b59c3⟩, ⟨3, 10, 0x8f0ccc92⟩, ⟨10, 15, 0xffeff47d⟩, ⟨1, 21, 0x85845dd1⟩⟩,
  ⟨⟨8, 6, 0x6fa87e4f⟩, ⟨15, 10, 0xfe2ce6e0⟩, ⟨6, 15, 0xa3014314⟩, ⟨13, 21, 0x4e0811a1⟩⟩,
  ⟨⟨4, 6, 0xf7537e82⟩, ⟨11, 10, 0xbd3af235⟩, ⟨2, 15, 0x2ad7d2bb⟩, ⟨9, 21, 0xeb86d391⟩⟩]

def lines : List ((Word → Word → Word → Word) × Line) :=
  round1.map (Prod.mk F) ++ round2.map (Prod.mk G) ++ round3.map (Prod.mk H) ++
    round4.map (Prod.mk I)

/-- Word `k` of a block, low-order byte first. -/
def word (block : List UInt8) (k : Nat) : Word :=
  (block.getD (4 * k + 3) 0).toBitVec ++ (block.getD (4 * k + 2) 0).toBitVec ++
    (block.getD (4 * k + 1) 0).toBitVec ++ (block.getD (4 * k) 0).toBitVec

def compress (v : Registers) (block : List UInt8) : Registers :=
  let w := lines.foldl (fun w line => line.2.apply line.1 (word block) w) v
  ⟨w.a + v.a, w.b + v.b, w.c + v.c, w.d + v.d⟩

/-- The bytes of a word of `8 * count` bits, low-order byte first. -/
def littleEndian {width : Nat} (value : BitVec width) (count : Nat) : List UInt8 :=
  (List.range count).map fun i => ⟨value.extractLsb' (8 * i) 8⟩

/-- A single 1 bit, 0 bits up to 448 modulo 512, and the length in bits modulo `2 ^ 64`. -/
def padding (length : Nat) : List UInt8 :=
  0x80 :: List.replicate ((119 - length % 64) % 64) 0 ++
    littleEndian (BitVec.ofNat 64 (8 * length)) 8

def Registers.output (v : Registers) : List UInt8 :=
  littleEndian v.a 4 ++ littleEndian v.b 4 ++ littleEndian v.c 4 ++ littleEndian v.d 4

def digest (message : List UInt8) : List UInt8 :=
  let blocks := Data.fullBlocks 64 (message ++ padding message.length)
  (blocks.foldl compress Registers.initial).output

example : digest [0x61, 0x62, 0x63] =
    [0x90, 0x01, 0x50, 0x98, 0x3c, 0xd2, 0x4f, 0xb0, 0xd6, 0x96, 0x3f, 0x7d, 0x28, 0xe1, 0x7f,
      0x72] := by
  decide +kernel

end FastS3.Core.Md5
