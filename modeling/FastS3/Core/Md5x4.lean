import FastS3.Core.Md5
import Mathlib.Data.List.FinRange

namespace FastS3.Core.Md5x4

open Md5 (Word Registers word littleEndian)

/-! The four-lane MD5 of `md5x4.rs`. -/

def K : List Word := [
  0xd76aa478, 0xe8c7b756, 0x242070db, 0xc1bdceee, 0xf57c0faf, 0x4787c62a, 0xa8304613, 0xfd469501,
  0x698098d8, 0x8b44f7af, 0xffff5bb1, 0x895cd7be, 0x6b901122, 0xfd987193, 0xa679438e, 0x49b40821,
  0xf61e2562, 0xc040b340, 0x265e5a51, 0xe9b6c7aa, 0xd62f105d, 0x02441453, 0xd8a1e681, 0xe7d3fbc8,
  0x21e1cde6, 0xc33707d6, 0xf4d50d87, 0x455a14ed, 0xa9e3e905, 0xfcefa3f8, 0x676f02d9, 0x8d2a4c8a,
  0xfffa3942, 0x8771f681, 0x6d9d6122, 0xfde5380c, 0xa4beea44, 0x4bdecfa9, 0xf6bb4b60, 0xbebfbc70,
  0x289b7ec6, 0xeaa127fa, 0xd4ef3085, 0x04881d05, 0xd9d4d039, 0xe6db99e5, 0x1fa27cf8, 0xc4ac5665,
  0xf4292244, 0x432aff97, 0xab9423a7, 0xfc93a039, 0x655b59c3, 0x8f0ccc92, 0xffeff47d, 0x85845dd1,
  0x6fa87e4f, 0xfe2ce6e0, 0xa3014314, 0x4e0811a1, 0xf7537e82, 0xbd3af235, 0x2ad7d2bb, 0xeb86d391]

def S : List Nat := [
  7, 12, 17, 22, 7, 12, 17, 22, 7, 12, 17, 22, 7, 12, 17, 22,
  5, 9, 14, 20, 5, 9, 14, 20, 5, 9, 14, 20, 5, 9, 14, 20,
  4, 11, 16, 23, 4, 11, 16, 23, 4, 11, 16, 23, 4, 11, 16, 23,
  6, 10, 15, 21, 6, 10, 15, 21, 6, 10, 15, 21, 6, 10, 15, 21]

def gIndex (i : Nat) : Nat :=
  if i ≤ 15 then i
  else if i ≤ 31 then (5 * i + 1) % 16
  else if i ≤ 47 then (3 * i + 5) % 16
  else 7 * i % 16

abbrev Lane := Fin 4
abbrev Lanes (α : Type) := Vector α 4
abbrev State := Vector Word 4
abbrev Block := List UInt8

/-- The macro `step_lane!`, with the registers renamed at its end. -/
def stepLane (v : Registers) (w : Nat → Word) (round g : Nat) (k : Word) (s : Nat) : Registers :=
  let f := match round with
    | 0 => (v.b &&& v.c) ||| (~~~v.b &&& v.d)
    | 1 => (v.b &&& v.d) ||| (~~~v.d &&& v.c)
    | 2 => v.b ^^^ v.c ^^^ v.d
    | _ => v.c ^^^ (v.b ||| ~~~v.d)
  let na := v.b + (v.a + f + k + w g).rotateLeft s
  ⟨v.d, na, v.b, v.c⟩

def bulkStep (w : Nat → Word) (v : Registers) (i : Nat) : Registers :=
  stepLane v w (i / 16) (gIndex i) (K.getD i 0) (S.getD i 0)

def bulkBlock (regs : Lanes Registers) (block : Lanes Block) : Lanes Registers :=
  let m := block.map word
  let after := (List.range 64).foldl
    (fun regs i => .ofFn fun l : Lane => bulkStep m[l] regs[l] i) regs
  .ofFn fun l : Lane => ⟨after[l].a + regs[l].a, after[l].b + regs[l].b, after[l].c + regs[l].c,
    after[l].d + regs[l].d⟩

def transform4Bulk (states : Lanes State) (blocks : Lanes (List Block)) (count : Nat) :
    Lanes State :=
  let regs := states.map fun st : State => Registers.mk st[0] st[1] st[2] st[3]
  let regs := (List.range count).foldl
    (fun regs bi => bulkBlock regs (blocks.map fun list => list.getD bi [])) regs
  regs.map fun v => #v[v.a, v.b, v.c, v.d]

def CYC : Vector (Fin 4) 4 := #v[0, 3, 2, 1]

def scalarStep (w : Nat → Word) (widx : Fin 4) (st : State) (i : Nat) : State :=
  let a := st[widx]
  let b := st[widx + 1]
  let c := st[widx + 2]
  let d := st[widx + 3]
  let f := match i / 16 with
    | 0 => (b &&& c) ||| (~~~b &&& d)
    | 1 => (b &&& d) ||| (~~~d &&& c)
    | 2 => b ^^^ c ^^^ d
    | _ => c ^^^ (b ||| ~~~d)
  let newA := b + (a + f + K.getD i 0 + w (gIndex i)).rotateLeft (S.getD i 0)
  st.set widx newA

def transform4Scalar (states : Lanes State) (blocks : Lanes Block) (active : Lanes Bool) :
    Lanes State :=
  let w := blocks.map word
  let after := (List.range 64).foldl (fun states i =>
    let widx := CYC[Fin.ofNat 4 i]
    (List.finRange 4).foldl (fun (states : Lanes State) l =>
      if active[l] then states.set l (scalarStep w[l] widx states[l] i) else states) states) states
  (List.finRange 4).foldl (fun (after : Lanes State) l =>
    if active[l] then after.set l (.ofFn fun j : Fin 4 => after[l][j] + states[l][j]) else after)
    after

/-- The blocks that all lanes have go through the bulk path, each later round through the other
with a mask of the lanes that still have a block. -/
def compressRounds (states : Lanes State) (blocks : Lanes (List Block)) : Lanes State :=
  let lens := blocks.toList.map List.length
  let common := lens.min?.getD 0
  let states := if 0 < common then transform4Bulk states blocks common else states
  let maxlen := lens.max?.getD 0
  (List.range' common (maxlen - common)).foldl (fun states pos =>
    let round := blocks.map fun list => list.getD pos (List.replicate 64 0)
    let active := blocks.map fun list => list[pos]?.isSome
    if active.any id then transform4Scalar states round active else states) states

structure Md5Multi4 where
  states : Lanes State
  bufs : Lanes (List UInt8)
  fill : Lanes Nat
  lengths : Lanes (BitVec 64)

def Md5Multi4.new : Md5Multi4 where
  states := .replicate 4 #v[0x67452301, 0xefcdab89, 0x98badcfe, 0x10325476]
  bufs := .replicate 4 (List.replicate 128 0)
  fill := .replicate 4 0
  lengths := .replicate 4 0

/-- `copy_from_slice` into a buffer from `off` on. -/
def splice (buf : List UInt8) (off : Nat) (data : List UInt8) : List UInt8 :=
  buf.take off ++ data ++ buf.drop (off + data.length)

structure Cell where
  buf : List UInt8
  fill : Nat
  length : BitVec 64
  blocks : List Block

def pushFull (src : List UInt8) (pos : Nat) (blocks : List Block) : Nat × List Block :=
  if 64 ≤ src.length - pos then
    pushFull src (pos + 64) (blocks ++ [(src.drop pos).take 64])
  else (pos, blocks)
termination_by src.length - pos

def Cell.complete (cell : Cell) (src : List UInt8) : Cell × Nat :=
  if 0 < cell.fill then
    let need := 64 - cell.fill
    let take := min need src.length
    let buf := splice cell.buf cell.fill (src.take take)
    if cell.fill + take = 64 then
      (⟨buf, 0, cell.length, cell.blocks ++ [buf.take 64]⟩, take)
    else (⟨buf, cell.fill + take, cell.length, cell.blocks⟩, take)
  else (cell, 0)

def Cell.update (cell : Cell) (src : List UInt8) : Cell :=
  let cell := { cell with length := cell.length + BitVec.ofNat 64 src.length }
  let (cell, pos) := cell.complete src
  let (pos, blocks) := pushFull src pos cell.blocks
  if cell.fill = 0 then
    let tail := src.drop pos
    ⟨splice cell.buf 0 tail, tail.length, cell.length, blocks⟩
  else { cell with blocks := blocks }

def zeroFill (buf : List UInt8) (fill : Nat) : List UInt8 × Nat :=
  if fill % 64 ≠ 56 then zeroFill (splice buf fill [0]) (fill + 1) else (buf, fill)
termination_by (120 - fill % 64) % 64

/-- The blocks of a buffer up to `fill`. -/
def pushBuffer (buf : List UInt8) (fill off : Nat) (blocks : List Block) : List Block :=
  if off + 64 ≤ fill then
    pushBuffer buf fill (off + 64) (blocks ++ [(buf.drop off).take 64])
  else blocks
termination_by fill - off

def Cell.pad (cell : Cell) : Cell :=
  let buf := splice cell.buf cell.fill [0x80]
  let (buf, fill) := zeroFill buf (cell.fill + 1)
  let bits := cell.length * 8
  let buf := splice buf fill (littleEndian bits 8)
  { cell with buf := buf, blocks := pushBuffer buf (fill + 8) 0 cell.blocks }

def Md5Multi4.cell (h : Md5Multi4) (blocks : Lanes (List Block)) (l : Lane) : Cell :=
  ⟨h.bufs[l], h.fill[l], h.lengths[l], blocks[l]⟩

def Md5Multi4.setCell (h : Md5Multi4) (l : Lane) (cell : Cell) : Md5Multi4 :=
  { h with
    bufs := h.bufs.set l cell.buf
    fill := h.fill.set l cell.fill
    lengths := h.lengths.set l cell.length }

/-- `for l in 0..4`: a loop whose body works at its own index. -/
def forLanes (body : Lane → Cell → Cell) (h : Md5Multi4) : Md5Multi4 × Lanes (List Block) :=
  (List.finRange 4).foldl (fun (h, blocks) l =>
    let cell := body l (h.cell blocks l)
    (h.setCell l cell, blocks.set l cell.blocks)) (h, .replicate 4 [])

def Md5Multi4.update (h : Md5Multi4) (streams : Lanes (List UInt8)) : Md5Multi4 :=
  let (h, blocks) := forLanes (fun l cell => cell.update streams[l]) h
  { h with states := compressRounds h.states blocks }

def Md5Multi4.finalize (h : Md5Multi4) : Lanes (List UInt8) :=
  let (h, blocks) := forLanes (fun _ cell => cell.pad) h
  (compressRounds h.states blocks).map fun st =>
    (List.finRange 4).flatMap fun w => littleEndian st[w] 4

end FastS3.Core.Md5x4

namespace FastS3.Core.Md5x4

open Md5 (F G H I Line Operation Registers Word compress lines word)

/-! Both compressions of `md5x4.rs` are the one of the standard, for every lane that has a block. -/

def registers (st : State) : Registers :=
  ⟨st[0], st[1], st[2], st[3]⟩

def roundFunction : Nat → Word → Word → Word → Word
  | 0 => F
  | 1 => G
  | 2 => H
  | _ => I

def operation (i : Nat) : Operation :=
  ⟨gIndex i, S.getD i 0, K.getD i 0⟩

def line (q : Nat) : Line :=
  ⟨operation (4 * q), operation (4 * q + 1), operation (4 * q + 2), operation (4 * q + 3)⟩

theorem lines_eq : lines = (List.range 16).map fun q => (roundFunction (q / 4), line q) := by
  rfl

theorem stepLane_eq (v : Registers) (w : Nat → Word) (round g : Nat) (k : Word) (s : Nat) :
    stepLane v w round g k s =
      ⟨v.d, Operation.apply ⟨g, s, k⟩ (roundFunction round) w v.a v.b v.c v.d, v.b, v.c⟩ := by
  have order : ∀ f : Word, v.a + f + k + w g = v.a + f + w g + k := by
    intro f
    rw [BitVec.add_assoc, BitVec.add_comm k, ← BitVec.add_assoc]
  have swapped : (v.b &&& v.d) ||| (~~~v.d &&& v.c) = G v.b v.c v.d := by
    rw [G, BitVec.and_comm v.c]
  match round with
  | 0 | 2 | _ + 3 => simp only [stepLane, order]; rfl
  | 1 => simp only [stepLane, order, swapped]; rfl

variable (w : Nat → Word) (states : Lanes State)

theorem bulkStep_eq (v : Registers) (i : Nat) :
    bulkStep w v i =
      ⟨v.d, (operation i).apply (roundFunction (i / 16)) w v.a v.b v.c v.d, v.b, v.c⟩ :=
  stepLane_eq v w (i / 16) (gIndex i) (K.getD i 0) (S.getD i 0)

theorem bulkStep_line (v : Registers) (q : Nat) :
    bulkStep w (bulkStep w (bulkStep w (bulkStep w v (4 * q)) (4 * q + 1)) (4 * q + 2)) (4 * q + 3) =
      (line q).apply (roundFunction (q / 4)) w v := by
  have first : 4 * q / 16 = q / 4 := by omega
  have second : (4 * q + 1) / 16 = q / 4 := by omega
  have third : (4 * q + 2) / 16 = q / 4 := by omega
  have fourth : (4 * q + 3) / 16 = q / 4 := by omega
  simp only [bulkStep_eq, first, second, third, fourth]
  rfl

theorem foldl_range_four {σ : Type} (step : σ → Nat → σ) (s : σ) (count : Nat) :
    (List.range (4 * count)).foldl step s =
      (List.range count).foldl (fun s q =>
        step (step (step (step s (4 * q)) (4 * q + 1)) (4 * q + 2)) (4 * q + 3)) s := by
  induction count with
  | zero => rfl
  | succ count ih =>
    rw [List.range_succ, List.foldl_append, ← ih, Nat.mul_succ, List.range_succ, List.range_succ,
      List.range_succ, List.range_succ]
    simp only [List.foldl_append, List.foldl_cons, List.foldl_nil]

theorem bulkSteps (v : Registers) :
    (List.range 64).foldl (bulkStep w) v =
      lines.foldl (fun v line => line.2.apply line.1 w v) v := by
  rw [lines_eq, List.foldl_map, ← Nat.mul_div_cancel' (show 4 ∣ 64 by decide), foldl_range_four]
  simp only [bulkStep_line]

theorem foldl_ofFn {α β : Type} (step : Lane → α → β → α) (items : List β) (v : Lanes α) (l : Lane) :
    (items.foldl (fun v i => .ofFn fun l : Lane => step l v[l] i) v)[l] =
      items.foldl (step l) v[l] := by
  induction items generalizing v with
  | nil => rfl
  | cons i items ih =>
    rw [List.foldl_cons, ih, List.foldl_cons]
    simp

theorem bulkBlock_lane (regs : Lanes Registers) (block : Lanes Block) (l : Lane) :
    (bulkBlock regs block)[l] = compress regs[l] block[l] := by
  have after := foldl_ofFn (fun l => bulkStep (block.map word)[l]) (List.range 64) regs l
  rw [bulkSteps] at after
  simp only [bulkBlock, compress, Fin.getElem_fin, Vector.getElem_ofFn, Vector.getElem_map] at after ⊢
  rw [after]

theorem foldl_range_getD {σ β : Type} (step : σ → β → σ) (s : σ) (list : List β) (default : β)
    {count : Nat} (there : count ≤ list.length) :
    (List.range count).foldl (fun s i => step s (list.getD i default)) s =
      (list.take count).foldl step s := by
  induction count with
  | zero => rfl
  | succ count ih =>
    have next : list[count]? = some list[count] := List.getElem?_eq_getElem there
    rw [List.range_succ, List.foldl_append, ih (by omega), List.take_add_one, next,
      List.foldl_append]
    simp only [List.foldl_cons, List.foldl_nil, List.getD_eq_getElem?_getD, next]
    rfl

theorem foldl_bulkBlock (regs : Lanes Registers) (blocks : Lanes (List Block)) (items : List Nat)
    (l : Lane) :
    (items.foldl (fun regs bi => bulkBlock regs (blocks.map fun list => list.getD bi [])) regs)[l] =
      items.foldl (fun v bi => compress v (blocks[l].getD bi [])) regs[l] := by
  induction items generalizing regs with
  | nil => rfl
  | cons bi items ih =>
    rw [List.foldl_cons, ih, bulkBlock_lane, List.foldl_cons]
    simp

theorem transform4Bulk_lane (blocks : Lanes (List Block)) (count : Nat) (l : Lane) :
    registers (transform4Bulk states blocks count)[l] =
      (List.range count).foldl (fun v bi => compress v (blocks[l].getD bi []))
        (registers states[l]) := by
  have bulk := foldl_bulkBlock (states.map registers) blocks (List.range count) l
  have start : (states.map registers)[l] = registers states[l] := by simp
  rw [start] at bulk
  rw [← bulk]
  simp only [transform4Bulk, Fin.getElem_fin, Vector.getElem_map]
  rfl

/-- The registers, where `widx` has the place of register A. -/
def rotated (st : State) (widx : Fin 4) : Registers :=
  ⟨st[widx], st[widx + 1], st[widx + 2], st[widx + 3]⟩

theorem CYC_succ : ∀ place : Fin 4, CYC[place + 1] = CYC[place] + 3 := by
  decide

theorem scalarStep_rotated (widx : Fin 4) (st : State) (i : Nat) :
    rotated (scalarStep w widx st i) (widx + 3) = bulkStep w (rotated st widx) i := by
  match widx with
  | 0 | 1 | 2 | 3 =>
    simp only [rotated, scalarStep, bulkStep, stepLane, Fin.getElem_fin, Vector.getElem_set]
    rfl

theorem scalarSteps_rotated (st : State) (count : Nat) :
    rotated ((List.range count).foldl (fun st i => scalarStep w CYC[Fin.ofNat 4 i] st i) st)
        CYC[Fin.ofNat 4 count] =
      (List.range count).foldl (bulkStep w) (registers st) := by
  induction count with
  | zero => rfl
  | succ count ih =>
    have next : Fin.ofNat 4 (count + 1) = Fin.ofNat 4 count + 1 := by
      apply Fin.ext
      simp [Fin.ofNat, Fin.val_add]
    simp only [List.range_succ, List.foldl_append, List.foldl_cons, List.foldl_nil, next, CYC_succ,
      scalarStep_rotated, ih]

theorem foldl_own {σ α : Type} {view : σ → Lane → α} {body : σ → Lane → σ} {own : Lane → α → α}
    (here : ∀ s l, view (body s l) l = own l (view s l))
    (there : ∀ s l other, other ≠ l → view (body s l) other = view s other)
    (s : σ) (l : Lane) :
    view ((List.finRange 4).foldl body s) l = own l (view s l) := by
  have run : ∀ (lanes : List Lane) (s : σ), lanes.Nodup →
      view (lanes.foldl body s) l = if l ∈ lanes then own l (view s l) else view s l := by
    intro lanes
    induction lanes with
    | nil => intro s _; rfl
    | cons first lanes ih =>
      intro s nodup
      obtain ⟨new, rest⟩ := List.nodup_cons.mp nodup
      rw [List.foldl_cons, ih _ rest]
      by_cases same : l = first
      · subst same
        rw [if_neg new, if_pos List.mem_cons_self, here]
      · rw [there s first l same]
        simp only [List.mem_cons, same, false_or]
  rw [run _ s (List.nodup_finRange 4), if_pos (List.mem_finRange l)]

theorem foldl_masked (active : Lanes Bool) (step : Lane → State → State) (states : Lanes State)
    (l : Lane) :
    ((List.finRange 4).foldl (fun (states : Lanes State) l =>
        if active[l] then states.set l (step l states[l]) else states) states)[l] =
      if active[l] then step l states[l] else states[l] := by
  apply @foldl_own _ _ (fun (states : Lanes State) l => states[l]) _
    fun l st => if active[l] then step l st else st
  · intro states l
    by_cases masked : active[l] = true
    · simp [masked]
    · simp [masked]
  · intro states l other apart
    have apart' : (l : Nat) ≠ other := fun same => apart (Fin.ext same.symm)
    by_cases masked : active[l] = true
    · simp [masked, Vector.getElem_set_ne, apart']
    · simp [masked]

theorem transform4Scalar_lane (blocks : Lanes Block) (active : Lanes Bool) (l : Lane) :
    registers (transform4Scalar states blocks active)[l] =
      if active[l] then compress (registers states[l]) blocks[l] else registers states[l] := by
  have steps : ∀ (items : List Nat) (states : Lanes State),
      (items.foldl (fun (states : Lanes State) i =>
          (List.finRange 4).foldl (fun (states : Lanes State) l =>
            if active[l] then
              states.set l (scalarStep (blocks.map word)[l] CYC[Fin.ofNat 4 i] states[l] i)
            else states) states) states)[l] =
        if active[l] then
          items.foldl (fun st i => scalarStep (word blocks[l]) CYC[Fin.ofNat 4 i] st i) states[l]
        else states[l] := by
    intro items
    induction items with
    | nil => simp
    | cons i items ih =>
      intro states
      rw [List.foldl_cons, ih, foldl_masked active
        (fun l st => scalarStep (blocks.map word)[l] CYC[Fin.ofNat 4 i] st i)]
      by_cases masked : active[l] = true
      · simp [masked]
      · simp [masked]
  unfold transform4Scalar
  rw [foldl_masked active (fun l st => .ofFn fun j : Fin 4 => st[j] + states[l][j]), steps]
  by_cases masked : active[l] = true
  · have whole := scalarSteps_rotated (word blocks[l]) states[l] 64
    rw [bulkSteps] at whole
    simp only [if_pos masked, compress, ← whole]
    simp only [registers, rotated, Fin.getElem_fin, Vector.getElem_ofFn]
    rfl
  · simp [masked]

theorem min?_le_length {blocks : Lanes (List Block)} (l : Lane) :
    (blocks.toList.map List.length).min?.getD 0 ≤ blocks[l].length ∧
      blocks[l].length ≤ (blocks.toList.map List.length).max?.getD 0 := by
  have listed : blocks[l].length ∈ blocks.toList.map List.length :=
    List.mem_map_of_mem (Vector.mem_toList_iff.mpr (Vector.getElem_mem l.isLt))
  constructor
  · cases low : (blocks.toList.map List.length).min? with
    | none => exact Nat.zero_le _
    | some common => exact (List.min?_eq_some_iff.mp low).2 _ listed
  · cases high : (blocks.toList.map List.length).max? with
    | none => rw [List.max?_eq_none_iff.mp high] at listed; cases listed
    | some longest => exact (List.max?_eq_some_iff.mp high).2 _ listed

theorem scalarRound_lane (blocks : Lanes (List Block)) (pos : Nat) (l : Lane) :
    registers (if (blocks.map fun list => list[pos]?.isSome).any id then
        transform4Scalar states (blocks.map fun list => list.getD pos (List.replicate 64 0))
          (blocks.map fun list => list[pos]?.isSome)
      else states)[l] = blocks[l][pos]?.toList.foldl compress (registers states[l]) := by
  by_cases some : (blocks.map fun list => list[pos]?.isSome).any id = true
  · rw [if_pos some, transform4Scalar_lane]
    simp only [Fin.getElem_fin, Vector.getElem_map, List.getD_eq_getElem?_getD]
    cases there : blocks[l.val][pos]? with
    | none => rfl
    | some block => rfl
  · rw [if_neg some]
    have none : blocks[l][pos]? = none := by
      have off : ¬ blocks[l][pos]?.isSome = true := by
        intro on
        apply some
        rw [Vector.any_eq_true]
        exact ⟨l, l.isLt, by simpa using on⟩
      simpa using off
    rw [none]
    rfl

theorem scalarRounds_lane (blocks : Lanes (List Block)) (l : Lane) (start count : Nat) :
    ∀ states : Lanes State,
      registers ((List.range' start count).foldl (fun states pos =>
          if (blocks.map fun list => list[pos]?.isSome).any id then
            transform4Scalar states (blocks.map fun list => list.getD pos (List.replicate 64 0))
              (blocks.map fun list => list[pos]?.isSome)
          else states) states)[l] =
        ((blocks[l].drop start).take count).foldl compress (registers states[l]) := by
  induction count generalizing start with
  | zero => intro states; rfl
  | succ count ih =>
    intro states
    rw [List.range'_succ, List.foldl_cons, ih, scalarRound_lane]
    cases there : blocks[l][start]? with
    | none =>
      have past := List.getElem?_eq_none_iff.mp there
      rw [List.drop_eq_nil_of_le past, List.drop_eq_nil_of_le (Nat.le_succ_of_le past),
        List.take_nil, List.take_nil]
      rfl
    | some block =>
      obtain ⟨inside, here⟩ := List.getElem?_eq_some_iff.mp there
      rw [List.drop_eq_getElem_cons inside, here]
      rfl

theorem compressRounds_lane (blocks : Lanes (List Block)) (l : Lane) :
    registers (compressRounds states blocks)[l] =
      blocks[l].foldl compress (registers states[l]) := by
  obtain ⟨common, longest⟩ := @min?_le_length blocks l
  unfold compressRounds
  rw [scalarRounds_lane]
  generalize (blocks.toList.map List.length).min?.getD 0 = low at common ⊢
  generalize (blocks.toList.map List.length).max?.getD 0 = high at longest ⊢
  have bulk : registers (if 0 < low then transform4Bulk states blocks low else states)[l] =
      (blocks[l].take low).foldl compress (registers states[l]) := by
    by_cases some : 0 < low
    · rw [if_pos some, transform4Bulk_lane, foldl_range_getD compress _ _ _ common]
    · rw [if_neg some, Nat.eq_zero_of_not_pos some]
      rfl
  have rest : (blocks[l].drop low).take (high - low) = blocks[l].drop low := by
    apply List.take_of_length_le
    rw [List.length_drop]
    omega
  rw [bulk, rest, ← List.foldl_append, List.take_append_drop]

theorem registers_inj {st other : State} (same : registers st = registers other) : st = other := by
  obtain ⟨a, b, c, d⟩ := Registers.mk.inj same
  apply Vector.ext
  intro j inside
  match j, inside with
  | 0, _ => exact a
  | 1, _ => exact b
  | 2, _ => exact c
  | 3, _ => exact d

theorem transform4Bulk_eq_scalar (blocks : Lanes (List Block)) (count : Nat) :
    transform4Bulk states blocks count =
      (List.range count).foldl (fun states pos =>
        transform4Scalar states (blocks.map fun list => list.getD pos []) (.replicate 4 true))
        states := by
  have scalar : ∀ (items : List Nat) (states : Lanes State) (l : Lane),
      registers (items.foldl (fun states pos =>
          transform4Scalar states (blocks.map fun list => list.getD pos []) (.replicate 4 true))
          states)[l] =
        items.foldl (fun v bi => compress v (blocks[l].getD bi [])) (registers states[l]) := by
    intro items
    induction items with
    | nil => intro states l; rfl
    | cons pos items ih =>
      intro states l
      rw [List.foldl_cons, ih, transform4Scalar_lane]
      simp
  apply Vector.ext
  intro l inside
  apply registers_inj
  exact (transform4Bulk_lane states blocks count ⟨l, inside⟩).trans
    (scalar (List.range count) states ⟨l, inside⟩).symm

end FastS3.Core.Md5x4

namespace FastS3.Core.Md5x4

open Data
open Md5 (Registers compress digest littleEndian padding)

/-! Every lane of `Md5Multi4` has the digest of its own stream. -/

theorem splice_length {buf data : List UInt8} {off : Nat} (fits : off + data.length ≤ buf.length) :
    (splice buf off data).length = buf.length := by
  simp only [splice, List.length_append, List.length_take, List.length_drop]
  omega

theorem splice_take {buf data : List UInt8} {off : Nat} (inside : off ≤ buf.length) :
    (splice buf off data).take (off + data.length) = buf.take off ++ data := by
  have front : (buf.take off ++ data).length = off + data.length := by
    rw [List.length_append, List.length_take, Nat.min_eq_left inside]
  rw [splice, ← front, List.take_left]

theorem pushFull_eq (src : List UInt8) (pos : Nat) (blocks : List Block) (inside : pos ≤ src.length) :
    (pushFull src pos blocks).2 = blocks ++ fullBlocks 64 (src.drop pos) ∧
      src.drop (pushFull src pos blocks).1 = remainder 64 (src.drop pos) := by
  fun_induction pushFull src pos blocks with
  | case1 pos blocks more ih =>
    have block : ((src.drop pos).take 64).length = 64 := by
      rw [List.length_take, List.length_drop]
      omega
    have split : src.drop pos = (src.drop pos).take 64 ++ src.drop (pos + 64) := by
      rw [← List.drop_drop, List.take_append_drop]
    obtain ⟨pushed, rest⟩ := ih (by omega)
    rw [pushed, rest, split, fullBlocks_cons (by decide) block, remainder_cons (by decide) block,
      List.take_left' block]
    simp
  | case2 pos blocks done =>
    have short : (src.drop pos).length < 64 := by
      rw [List.length_drop]
      omega
    rw [fullBlocks_short short, remainder_short short, List.append_nil]
    exact ⟨rfl, rfl⟩

/-- The bytes behind the last full block of a message wait in the buffer. -/
structure Cell.Buffers (cell : Cell) (message : List UInt8) : Prop where
  capacity : cell.buf.length = 128
  fill : cell.fill = message.length % 64
  waiting : cell.buf.take cell.fill = remainder 64 message

structure Cell.Holds (cell : Cell) (message : List UInt8) : Prop extends cell.Buffers message where
  length : cell.length = BitVec.ofNat 64 message.length

variable {cell : Cell} {message : List UInt8}

theorem Cell.complete_cases (holds : cell.Buffers message) {src : List UInt8} {cell' : Cell}
    {pos : Nat} (run : cell.complete src = (cell', pos)) :
    pos ≤ src.length ∧ cell'.buf.length = 128 ∧ cell'.length = cell.length ∧
      (cell'.fill = 0 ∧ cell'.blocks ++ fullBlocks 64 (src.drop pos) =
          cell.blocks ++ fullBlocks 64 (remainder 64 message ++ src) ∧
          remainder 64 (src.drop pos) = remainder 64 (remainder 64 message ++ src) ∨
        0 < cell'.fill ∧ cell'.fill = (remainder 64 message ++ src).length ∧ cell'.fill < 64 ∧
          pos = src.length ∧ cell'.blocks = cell.blocks ∧
          cell'.buf.take cell'.fill = remainder 64 message ++ src) := by
  have waits : (remainder 64 message).length = cell.fill := by
    rw [remainder_length, holds.fill]
  have below : cell.fill < 64 := by
    rw [holds.fill]
    exact Nat.mod_lt _ (by decide)
  have capacity := holds.capacity
  have waiting := holds.waiting
  unfold Cell.complete at run
  by_cases started : 0 < cell.fill
  · rw [if_pos started] at run
    have taken : (src.take (min (64 - cell.fill) src.length)).length =
        min (64 - cell.fill) src.length := by
      rw [List.length_take]
      omega
    have kept : (splice cell.buf cell.fill
        (src.take (min (64 - cell.fill) src.length))).length = 128 := by
      rw [splice_length (by omega), capacity]
    have front := @splice_take cell.buf (src.take (min (64 - cell.fill) src.length)) cell.fill
      (by omega)
    rw [waiting, taken] at front
    by_cases full : cell.fill + min (64 - cell.fill) src.length = 64
    · rw [if_pos full] at run
      cases run
      rw [full] at front
      have block : (remainder 64 message ++ src.take (min (64 - cell.fill) src.length)).length =
          64 := by
        rw [List.length_append, waits, taken, full]
      have split : remainder 64 message ++ src =
          (remainder 64 message ++ src.take (min (64 - cell.fill) src.length)) ++
            src.drop (min (64 - cell.fill) src.length) := by
        rw [List.append_assoc, List.take_append_drop]
      refine ⟨by omega, kept, rfl, .inl ⟨rfl, ?_, ?_⟩⟩
      · rw [split, fullBlocks_cons (by decide) block, front]
        simp
      · rw [split, remainder_cons (by decide) block]
    · rw [if_neg full] at run
      cases run
      have all : min (64 - cell.fill) src.length = src.length := by omega
      have short : cell.fill + min (64 - cell.fill) src.length < 64 := by omega
      rw [all, List.take_length] at front
      refine ⟨by omega, kept, rfl, .inr ⟨Nat.add_pos_left started _, ?_, short, all, rfl, ?_⟩⟩
      · rw [List.length_append, waits, all]
      · rw [all, List.take_length]
        exact front
  · rw [if_neg started] at run
    cases run
    have none : remainder 64 message = [] := List.eq_nil_of_length_eq_zero (by omega)
    refine ⟨Nat.zero_le _, capacity, rfl, .inl ⟨by omega, ?_, ?_⟩⟩
    · rw [none, List.nil_append, List.drop_zero]
    · rw [none, List.nil_append, List.drop_zero]

theorem Cell.update_holds (holds : cell.Holds message) (src : List UInt8) :
    (cell.update src).Holds (message ++ src) ∧
      (cell.update src).blocks = cell.blocks ++ fullBlocks 64 (remainder 64 message ++ src) := by
  have rest := (fullBlocks_append (show 0 < 64 by decide) message src).2
  have counted : cell.length + BitVec.ofNat 64 src.length =
      BitVec.ofNat 64 (message ++ src).length := by
    rw [holds.length, List.length_append, BitVec.ofNat_add]
  have left : (remainder 64 (message ++ src)).length = (message ++ src).length % 64 :=
    remainder_length _
  unfold Cell.update
  generalize grown : ({ cell with length := cell.length + BitVec.ofNat 64 src.length } : Cell) = next
  have buffers : next.Buffers message := by
    subst grown
    exact ⟨holds.capacity, holds.fill, holds.waiting⟩
  have long : next.length = BitVec.ofNat 64 (message ++ src).length := by
    subst grown
    exact counted
  have old : next.blocks = cell.blocks := by
    subst grown
    rfl
  rcases run : next.complete src with ⟨done, pos⟩
  obtain ⟨inside, capacity, same, ended | waits⟩ := Cell.complete_cases buffers run
  · obtain ⟨empty, blocks, tail⟩ := ended
    obtain ⟨pushed, behind⟩ := pushFull_eq src pos done.blocks inside
    rcases full : pushFull src pos done.blocks with ⟨pos', pushedBlocks⟩
    rw [full] at pushed behind
    simp only at pushed behind
    simp only [run, full, if_pos empty]
    have short : (src.drop pos').length < 64 := by
      rw [behind, tail, ← rest, left]
      exact Nat.mod_lt _ (by decide)
    have front := @splice_take done.buf (src.drop pos') 0 (Nat.zero_le _)
    rw [Nat.zero_add, List.take_zero, List.nil_append] at front
    refine ⟨⟨⟨?_, ?_, ?_⟩, ?_⟩, ?_⟩
    · rw [splice_length (by omega), capacity]
    · rw [← left, rest, ← tail, behind]
    · rw [front, behind, tail, rest]
    · rw [same, long]
    · rw [pushed, blocks, old]
  · obtain ⟨some, size, short, all, blocks, waiting⟩ := waits
    have stop : pushFull src pos done.blocks = (pos, done.blocks) := by
      rw [pushFull, if_neg (by omega)]
    simp only [run, stop, if_neg some.ne']
    have whole : remainder 64 (remainder 64 message ++ src) = remainder 64 message ++ src :=
      remainder_short (by omega)
    refine ⟨⟨⟨capacity, ?_, ?_⟩, ?_⟩, ?_⟩
    · rw [← left, rest, whole, size]
    · rw [waiting, rest, whole]
    · rw [same, long]
    · rw [fullBlocks_short (by omega), List.append_nil, blocks, old]

theorem zeroFill_eq (buf : List UInt8) (fill : Nat) (room : fill + (120 - fill % 64) % 64 ≤ buf.length) :
    (zeroFill buf fill).2 = fill + (120 - fill % 64) % 64 ∧
      (zeroFill buf fill).1.length = buf.length ∧
      (zeroFill buf fill).1.take (zeroFill buf fill).2 =
        buf.take fill ++ List.replicate ((120 - fill % 64) % 64) 0 := by
  fun_induction zeroFill buf fill with
  | case1 buf fill more ih =>
    have count : (120 - fill % 64) % 64 = (120 - (fill + 1) % 64) % 64 + 1 := by omega
    have kept : (splice buf fill [0]).length = buf.length :=
      splice_length (by rw [List.length_singleton]; omega)
    have front : (splice buf fill [0]).take (fill + 1) = buf.take fill ++ [0] :=
      @splice_take buf [0] fill (by omega)
    obtain ⟨stop, size, zeros⟩ := ih (by rw [kept]; omega)
    refine ⟨by omega, by rw [size, kept], ?_⟩
    rw [zeros, front, count, List.replicate_succ, List.append_assoc]
    rfl
  | case2 buf fill done =>
    have none : (120 - fill % 64) % 64 = 0 := by omega
    rw [none, Nat.add_zero, List.replicate_zero, List.append_nil]
    exact ⟨rfl, rfl, rfl⟩

theorem pushBuffer_eq (buf : List UInt8) (fill off : Nat) (blocks : List Block)
    (inside : fill ≤ buf.length) :
    pushBuffer buf fill off blocks = blocks ++ fullBlocks 64 ((buf.take fill).drop off) := by
  fun_induction pushBuffer buf fill off blocks with
  | case1 off blocks more ih =>
    have cut : (buf.drop off).take 64 = ((buf.take fill).drop off).take 64 := by
      rw [List.drop_take, List.take_take, Nat.min_eq_left (by omega)]
    have block : (((buf.take fill).drop off).take 64).length = 64 := by
      rw [List.length_take, List.length_drop, List.length_take]
      omega
    have split : (buf.take fill).drop off =
        ((buf.take fill).drop off).take 64 ++ (buf.take fill).drop (off + 64) := by
      rw [← List.drop_drop, List.take_append_drop]
    rw [ih, cut, List.append_assoc]
    conv_rhs => rw [split, fullBlocks_cons (by decide) block]
    rfl
  | case2 off blocks done =>
    rw [fullBlocks_short, List.append_nil]
    rw [List.length_drop, List.length_take]
    omega

theorem Cell.pad_blocks (holds : cell.Holds message) :
    cell.pad.blocks =
      cell.blocks ++ fullBlocks 64 (remainder 64 message ++ padding message.length) := by
  have below : cell.fill < 64 := by
    rw [holds.fill]
    exact Nat.mod_lt _ (by decide)
  have capacity := holds.capacity
  have bits : cell.length * 8 = BitVec.ofNat 64 (8 * message.length) := by
    rw [holds.length, Nat.mul_comm, BitVec.ofNat_mul]
    rfl
  have marked : (splice cell.buf cell.fill [0x80]).length = 128 := by
    rw [splice_length (by rw [List.length_singleton]; omega), capacity]
  have front : (splice cell.buf cell.fill [0x80]).take (cell.fill + 1) =
      remainder 64 message ++ [0x80] := by
    rw [← holds.waiting]
    exact @splice_take cell.buf [0x80] cell.fill (by omega)
  have zeros : (120 - (cell.fill + 1) % 64) % 64 = (119 - message.length % 64) % 64 := by
    rw [← holds.fill]
    omega
  obtain ⟨stop, size, filled⟩ := zeroFill_eq (splice cell.buf cell.fill [0x80]) (cell.fill + 1)
    (by rw [marked]; omega)
  unfold Cell.pad
  rcases done : zeroFill (splice cell.buf cell.fill [0x80]) (cell.fill + 1) with ⟨buf, fill⟩
  rw [done] at stop size filled
  simp only at stop size filled
  have room : fill + 8 ≤ 128 := by omega
  have counted : (littleEndian (cell.length * 8) 8).length = 8 := by
    rw [littleEndian, List.length_map, List.length_range]
  have last := @splice_take buf (littleEndian (cell.length * 8) 8) fill (by omega)
  rw [counted, filled, front, zeros, bits] at last
  have inside : fill + 8 ≤ (splice buf fill (littleEndian (cell.length * 8) 8)).length := by
    rw [splice_length (by omega), size, marked]
    exact room
  simp only [done]
  rw [pushBuffer_eq _ _ _ _ inside, List.drop_zero, bits, last, padding, List.append_assoc,
    List.append_assoc]
  rfl

theorem forLanes_cell (body : Lane → Cell → Cell) (h : Md5Multi4) (l : Lane) :
    (forLanes body h).1.cell (forLanes body h).2 l = body l (h.cell (.replicate 4 []) l) := by
  unfold forLanes
  apply @foldl_own _ _ (fun (s : Md5Multi4 × Lanes (List Block)) l => s.1.cell s.2 l) _ body
  · intro s l
    simp [Md5Multi4.cell, Md5Multi4.setCell]
  · intro s l other apart
    have apart' : (l : Nat) ≠ other := fun same => apart (Fin.ext same.symm)
    simp [Md5Multi4.cell, Md5Multi4.setCell, Vector.getElem_set_ne, apart']

theorem forLanes_states (body : Lane → Cell → Cell) (h : Md5Multi4) :
    (forLanes body h).1.states = h.states := by
  unfold forLanes
  refine List.foldlRecOn (motive := fun s : Md5Multi4 × Lanes (List Block) =>
    s.1.states = h.states) _ _ rfl ?_
  intro s same l _
  exact same

structure Md5Multi4.Tracks (h : Md5Multi4) (l : Lane) (message : List UInt8) : Prop where
  holds : (h.cell (.replicate 4 []) l).Holds message
  state : registers h.states[l] = (fullBlocks 64 message).foldl compress Registers.initial

theorem Md5Multi4.new_tracks (l : Lane) : Md5Multi4.new.Tracks l [] := by
  have empty : remainder 64 ([] : List UInt8) = [] := List.drop_nil
  constructor
  · simp only [Md5Multi4.cell, Md5Multi4.new, Fin.getElem_fin, Vector.getElem_replicate]
    exact ⟨⟨List.length_replicate, rfl, by rw [empty]; rfl⟩, rfl⟩
  · rw [fullBlocks_short (by decide)]
    simp only [Md5Multi4.new, Fin.getElem_fin, Vector.getElem_replicate]
    rfl

theorem Md5Multi4.update_tracks {h : Md5Multi4} {l : Lane} (tracks : h.Tracks l message)
    (streams : Lanes (List UInt8)) : (h.update streams).Tracks l (message ++ streams[l]) := by
  have cell := forLanes_cell (fun l cell => cell.update streams[l]) h l
  have states := forLanes_states (fun l cell => cell.update streams[l]) h
  obtain ⟨holds, pushed⟩ := Cell.update_holds tracks.holds streams[l]
  have whole := (fullBlocks_append (show 0 < 64 by decide) message streams[l]).1
  unfold Md5Multi4.update
  generalize forLanes (fun l cell => cell.update streams[l]) h = after at cell states ⊢
  obtain ⟨h', blocks⟩ := after
  simp only at cell states ⊢
  rw [← cell] at holds pushed
  have own : blocks[l] = fullBlocks 64 (remainder 64 message ++ streams[l]) := by
    simpa [Md5Multi4.cell] using pushed
  constructor
  · exact ⟨⟨holds.capacity, holds.fill, holds.waiting⟩, holds.length⟩
  · rw [compressRounds_lane, own, states, tracks.state, ← List.foldl_append, ← whole]

theorem Md5Multi4.updates_track (calls : List (Lanes (List UInt8))) (l : Lane) :
    ∀ {h : Md5Multi4} {message : List UInt8}, h.Tracks l message →
      (calls.foldl Md5Multi4.update h).Tracks l
        (message ++ calls.flatMap fun streams => streams[l]) := by
  induction calls with
  | nil =>
    intro h message tracks
    rw [List.flatMap_nil, List.append_nil]
    exact tracks
  | cons streams calls ih =>
    intro h message tracks
    have updated := Md5Multi4.update_tracks tracks streams
    rw [List.flatMap_cons, ← List.append_assoc, List.foldl_cons]
    exact ih updated

theorem Md5Multi4.finalize_tracked {h : Md5Multi4} {l : Lane} (tracks : h.Tracks l message) :
    h.finalize[l] = digest message := by
  have cell := forLanes_cell (fun _ cell => cell.pad) h l
  have states := forLanes_states (fun _ cell => cell.pad) h
  have pushed := Cell.pad_blocks tracks.holds
  have whole := (fullBlocks_append (show 0 < 64 by decide) message (padding message.length)).1
  unfold Md5Multi4.finalize
  generalize forLanes (fun _ cell => cell.pad) h = after at cell states ⊢
  obtain ⟨h', blocks⟩ := after
  simp only at cell states ⊢
  rw [← cell] at pushed
  have own : blocks[l] = fullBlocks 64 (remainder 64 message ++ padding message.length) := by
    simpa [Md5Multi4.cell] using pushed
  have ended : registers (compressRounds h'.states blocks)[l] =
      (fullBlocks 64 (message ++ padding message.length)).foldl compress Registers.initial := by
    rw [compressRounds_lane, own, states, tracks.state, ← List.foldl_append, ← whole]
  rw [digest, ← ended]
  simp only [Fin.getElem_fin, Vector.getElem_map]
  rfl

/-- Whatever the pieces of the lanes are, every lane ends with the digest of its own stream, and
both compressions agree with the standard for all numbers of blocks. -/
theorem finalize_digest :
    (∀ (calls : List (Lanes (List UInt8))) (l : Lane),
      (calls.foldl Md5Multi4.update .new).finalize[l] =
        digest (calls.flatMap fun streams => streams[l])) ∧
    (∀ (states : Lanes State) (blocks : Lanes (List Block)) (l : Lane),
      registers (compressRounds states blocks)[l] =
        blocks[l].foldl compress (registers states[l])) ∧
    ∀ (states : Lanes State) (blocks : Lanes (List Block)) (count : Nat),
      transform4Bulk states blocks count =
        (List.range count).foldl (fun states pos =>
          transform4Scalar states (blocks.map fun list => list.getD pos []) (.replicate 4 true))
          states := by
  refine ⟨?_, compressRounds_lane, transform4Bulk_eq_scalar⟩
  intro calls l
  exact Md5Multi4.finalize_tracked (Md5Multi4.updates_track calls l (Md5Multi4.new_tracks l))

end FastS3.Core.Md5x4
