import FastS3.Alloc.Serialize

namespace FastS3.Alloc

open FastS3.Core Data

/-! The bitmap of the pool comes back from the checkpoints of its devices. -/

namespace Bitmap

theorem ext_test {b c : Bitmap} (sized : b.n = c.n) (bits : ∀ id, b.test id = c.test id) : b = c := by
  obtain ⟨bWords, n⟩ := b
  obtain ⟨cWords, n'⟩ := c
  cases sized
  congr
  funext wi
  apply BitVec.eq_of_getLsbD_eq
  intro bit inWord
  have same := bits (wi * 64 + bit)
  have word : (wi * 64 + bit) / 64 = wi := by omega
  have position : (wi * 64 + bit) % 64 = bit := by omega
  rw [test_eq_getLsbD, test_eq_getLsbD, word, position] at same
  exact same

section Range

variable (b : Bitmap) {start count : Nat}

theorem getLsbD_shifted (id : Nat) {take j : Nat} (inWord : take ≤ 64 - id % 64) (inside : j < take) :
    (b.words (id / 64) >>> (id % 64) &&&
      if take = 64 then BitVec.allOnes 64 else (1#64 <<< take) - 1#64).getLsbD j =
        b.test (id + j) := by
  have mask : (if take = 64 then BitVec.allOnes 64 else (1#64 <<< take) - 1#64).getLsbD j = true := by
    split
    · rw [BitVec.getLsbD_allOnes, decide_eq_true (by omega)]
    · rw [getLsbD_lowMask (by omega) (by omega), decide_eq_true inside]
  have word : (id + j) / 64 = id / 64 := by omega
  have position : (id + j) % 64 = id % 64 + j := by omega
  rw [BitVec.getLsbD_and, mask, Bool.and_true, BitVec.getLsbD_ushiftRight, test_eq_getLsbD, word,
    position]

theorem serializeLoop_spec (start count done : Nat) (out : Bytes) (before : done ≤ count)
    (roomy : count ≤ 8 * out.length) :
    (b.serializeLoop start count done out).length = out.length ∧
      ∀ i, bitAt (b.serializeLoop start count done out) i =
        (bitAt out i || (decide (done ≤ i ∧ i < count) && b.test (start + i))) := by
  induction left : count - done using Nat.strongRecOn generalizing done out with
  | ind left ih =>
    by_cases more : done < count
    · rw [serializeLoop, if_pos more]
      dsimp only
      obtain ⟨take, written⟩ : ∃ take, take = min (64 - (start + done) % 64) (count - done) :=
        ⟨_, rfl⟩
      have inWord : take ≤ 64 - (start + done) % 64 := by omega
      rw [← written]
      have shifted : ∀ {j}, j < take → _ := fun inside =>
        b.getLsbD_shifted (start + done) inWord inside
      generalize b.words ((start + done) / 64) >>> ((start + done) % 64) &&&
        (if take = 64 then BitVec.allOnes 64 else (1#64 <<< take) - 1#64) = bits at shifted ⊢
      obtain ⟨sized, loop⟩ := orBit_sets.loop (fun j => bits &&& 1#64 <<< j != 0#64) out
        done take (by omega)
      generalize (List.range take).foldl (fun out j =>
        if bits &&& 1#64 <<< j != 0#64 then orBit out (done + j) else out) out = filled at sized loop ⊢
      obtain ⟨rest, read⟩ := ih (count - (done + take)) (by omega) (done + take) filled (by omega)
        (by omega) rfl
      refine ⟨by omega, ?_⟩
      intro i
      rw [read i, loop i, Bool.or_assoc]
      congr 1
      by_cases now : done ≤ i ∧ i < done + take
      · have later : ¬(done + take ≤ i ∧ i < count) := by omega
        have within : done ≤ i ∧ i < count := by omega
        have here : start + done + (i - done) = start + i := by omega
        rw [decide_eq_true now, decide_eq_false later, decide_eq_true within, Bool.true_and,
          Bool.true_and, Bool.false_and, Bool.or_false, and_shift_bne_zero _ (by omega),
          shifted (by omega), here]
      · have same : (done + take ≤ i ∧ i < count) ↔ (done ≤ i ∧ i < count) := by omega
        rw [decide_eq_false now, decide_eq_decide.mpr same, Bool.false_and, Bool.false_or]
    · rw [serializeLoop, if_neg more]
      refine ⟨rfl, ?_⟩
      intro i
      have none : ¬(done ≤ i ∧ i < count) := by omega
      rw [decide_eq_false none, Bool.false_and, Bool.or_false]

theorem serializeRange_length (start count : Nat) :
    (b.serializeRange start count).length = divCeil count 8 := by
  have roomy : count ≤ 8 * (zeroBytes (divCeil count 8)).length := by
    rw [zeroBytes_length, divCeil]
    omega
  rw [serializeRange, (b.serializeLoop_spec start count 0 _ (Nat.zero_le _) roomy).1, zeroBytes_length]

theorem bitAt_serializeRange (start count i : Nat) :
    bitAt (b.serializeRange start count) i = (decide (i < count) && b.test (start + i)) := by
  have roomy : count ≤ 8 * (zeroBytes (divCeil count 8)).length := by
    rw [zeroBytes_length, divCeil]
    omega
  rw [serializeRange, (b.serializeLoop_spec start count 0 _ (Nat.zero_le _) roomy).2 i,
    bitAt_zeroBytes, Bool.false_or]
  congr 1
  rw [decide_eq_decide]
  omega

end Range

section Load

theorem setBit_sets (size : Nat) : SetsBits test setBit fun _ => size := by
  intro b id _
  exact ⟨rfl, b.test_setBit id⟩

theorem foldl_setBit_n (p : Nat → Bool) (base : Nat) (js : List Nat) (b : Bitmap) :
    (js.foldl (fun b j => if p j then b.setBit (base + j) else b) b).n = b.n := by
  induction js generalizing b with
  | nil => rfl
  | cons j js ih =>
    rw [List.foldl_cons, ih]
    split
    · rfl
    · rfl

theorem loadByte_spec (b : Bitmap) (byte : UInt8) (base : Nat) :
    (b.loadByte byte base).n = b.n ∧ ∀ id, (b.loadByte byte base).test id =
      (b.test id || (decide (base ≤ id ∧ id < base + 8) && byte.toBitVec.getLsbD (id - base))) := by
  rw [loadByte]
  split
  · next zero =>
    refine ⟨rfl, ?_⟩
    intro id
    rw [zero, UInt8.toBitVec_zero, BitVec.getLsbD_zero, Bool.and_false, Bool.or_false]
  · refine ⟨foldl_setBit_n _ _ _ _, ?_⟩
    intro id
    rw [((setBit_sets (base + 8)).loop (hasBit byte) _ _ _ (le_refl (base + 8))).2 id]
    congr 1
    by_cases here : base ≤ id ∧ id < base + 8
    · rw [decide_eq_true here, Bool.true_and, Bool.true_and, hasBit_eq byte (by omega)]
    · rw [decide_eq_false here, Bool.false_and, Bool.false_and]

theorem bitAt_cons (byte : UInt8) (bytes : Bytes) (i : Nat) :
    bitAt (byte :: bytes) i = if i < 8 then byte.toBitVec.getLsbD i else bitAt bytes (i - 8) := by
  split
  · next first =>
    have head : i / 8 = 0 := by omega
    have position : i % 8 = i := by omega
    rw [bitAt, head, position]
    rfl
  · next later =>
    have tail : i / 8 = (i - 8) / 8 + 1 := by omega
    have position : i % 8 = (i - 8) % 8 := by omega
    rw [bitAt, bitAt, tail, position]
    rfl

theorem loadBytes_spec (b : Bitmap) (bytes : Bytes) (start k : Nat) :
    ((bytes.zipIdx k).foldl (fun b entry => b.loadByte entry.1 (start + entry.2 * 8)) b).n = b.n ∧
      ∀ id, ((bytes.zipIdx k).foldl
          (fun b entry => b.loadByte entry.1 (start + entry.2 * 8)) b).test id =
        (b.test id || (decide (start + k * 8 ≤ id) && bitAt bytes (id - (start + k * 8)))) := by
  induction bytes generalizing b k with
  | nil =>
    refine ⟨rfl, ?_⟩
    intro id
    rw [bitAt_beyond (Nat.zero_le _), Bool.and_false, Bool.or_false]
    rfl
  | cons byte bytes ih =>
    obtain ⟨sized, bits⟩ := b.loadByte_spec byte (start + k * 8)
    obtain ⟨sizedRest, bitsRest⟩ := ih (b.loadByte byte (start + k * 8)) (k + 1)
    rw [List.zipIdx_cons, List.foldl_cons]
    refine ⟨sizedRest.trans sized, ?_⟩
    intro id
    rw [bitsRest id, bits id, bitAt_cons, Bool.or_assoc]
    congr 1
    have next : start + (k + 1) * 8 = start + k * 8 + 8 := by omega
    rw [next]
    by_cases reached : start + k * 8 ≤ id
    · by_cases first : id - (start + k * 8) < 8
      · have here : start + k * 8 ≤ id ∧ id < start + k * 8 + 8 := by omega
        have notLater : ¬start + k * 8 + 8 ≤ id := by omega
        rw [if_pos first, decide_eq_true here, decide_eq_true reached, decide_eq_false notLater,
          Bool.false_and, Bool.or_false]
      · have notHere : ¬(start + k * 8 ≤ id ∧ id < start + k * 8 + 8) := by omega
        have later : start + k * 8 + 8 ≤ id := by omega
        rw [if_neg first, decide_eq_false notHere, decide_eq_true reached, decide_eq_true later,
          Bool.false_and, Bool.false_or, Nat.sub_add_eq]
    · have notHere : ¬(start + k * 8 ≤ id ∧ id < start + k * 8 + 8) := by omega
      have notLater : ¬start + k * 8 + 8 ≤ id := by omega
      rw [decide_eq_false notHere, decide_eq_false reached, decide_eq_false notLater,
        Bool.false_and, Bool.false_and, Bool.false_and]
      rfl

@[simp] theorem loadRange_n (b : Bitmap) (bytes : Bytes) (start : Nat) :
    (b.loadRange bytes start).n = b.n :=
  (b.loadBytes_spec bytes start 0).1

theorem test_loadRange (b : Bitmap) (bytes : Bytes) (start id : Nat) :
    (b.loadRange bytes start).test id =
      (b.test id || (decide (start ≤ id) && bitAt bytes (id - start))) := by
  have bits := (b.loadBytes_spec bytes start 0).2 id
  rw [Nat.zero_mul, Nat.add_zero] at bits
  exact bits

theorem test_loadRange_serializeRange (b c : Bitmap) (start count id : Nat) :
    (c.loadRange (b.serializeRange start count) start).test id =
      (c.test id || (decide (start ≤ id ∧ id < start + count) && b.test id)) := by
  rw [test_loadRange, bitAt_serializeRange]
  congr 1
  by_cases reached : start ≤ id
  · rw [Nat.add_sub_cancel' reached, decide_eq_true reached, Bool.true_and]
    congr 1
    rw [decide_eq_decide]
    omega
  · have outside : ¬(start ≤ id ∧ id < start + count) := by omega
    rw [decide_eq_false reached, decide_eq_false outside, Bool.false_and, Bool.false_and]

end Load

section Whole

variable (b : Bitmap)

theorem getLsbD_wordByte (word : BitVec 64) {j bit : Nat} (inByte : bit < 8) :
    (wordByte word j).toBitVec.getLsbD bit = word.getLsbD (8 * j + bit) := by
  rw [wordByte, UInt8.toBitVec_ofBitVec, BitVec.getLsbD_setWidth, decide_eq_true inByte, Bool.true_and,
    BitVec.getLsbD_ushiftRight]

theorem getElem?_setBytes (f : Nat → UInt8) (base take : Nat) (out : Bytes) :
    ((List.range take).foldl
        (fun out' j => if base + j ≥ out.length then out' else out'.set (base + j) (f j)) out).length =
      out.length ∧
    ∀ k, ((List.range take).foldl
        (fun out' j => if base + j ≥ out.length then out' else out'.set (base + j) (f j)) out)[k]? =
      if base ≤ k ∧ k < base + take ∧ k < out.length then some (f (k - base)) else out[k]? := by
  induction take with
  | zero =>
    refine ⟨rfl, ?_⟩
    intro k
    rw [if_neg (by omega)]
    rfl
  | succ take ih =>
    obtain ⟨sized, read⟩ := ih
    rw [List.range_succ, List.foldl_append, List.foldl_cons, List.foldl_nil]
    generalize (List.range take).foldl
      (fun out' j => if base + j ≥ out.length then out' else out'.set (base + j) (f j)) out = before
      at sized read ⊢
    constructor
    · split
      · exact sized
      · rw [List.length_set, sized]
    · intro k
      by_cases here : k = base + take
      · rw [here]
        split
        · next beyond => rw [read, if_neg (by omega), if_neg (by omega)]
        · next within =>
          rw [List.getElem?_set_self (by omega), if_pos (by omega), Nat.add_sub_cancel_left]
      · have same : (base ≤ k ∧ k < base + (take + 1) ∧ k < out.length) ↔
            (base ≤ k ∧ k < base + take ∧ k < out.length) := by omega
        rw [if_congr same rfl rfl, ← read k]
        split
        · rfl
        · rw [List.getElem?_set_ne (by omega)]

theorem serialize_spec :
    b.serialize.length = divCeil b.n 8 ∧
      ∀ k < divCeil b.n 8, b.serialize[k]? = some (wordByte (b.words (k / 8)) (k % 8)) := by
  have words : ∀ m,
      ((List.range m).foldl (fun out i => (List.range 8).foldl (fun out j =>
          if i * 8 + j ≥ divCeil b.n 8 then out else out.set (i * 8 + j) (wordByte (b.words i) j)) out)
        (zeroBytes (divCeil b.n 8))).length = divCeil b.n 8 ∧
      ∀ k < divCeil b.n 8, k < 8 * m →
        ((List.range m).foldl (fun out i => (List.range 8).foldl (fun out j =>
            if i * 8 + j ≥ divCeil b.n 8 then out else out.set (i * 8 + j) (wordByte (b.words i) j)) out)
          (zeroBytes (divCeil b.n 8)))[k]? = some (wordByte (b.words (k / 8)) (k % 8)) := by
    intro m
    induction m with
    | zero =>
      refine ⟨zeroBytes_length _, ?_⟩
      intro k _ before
      omega
    | succ m ih =>
      obtain ⟨sized, read⟩ := ih
      rw [@List.range_succ m, List.foldl_append, List.foldl_cons, List.foldl_nil]
      generalize (List.range m).foldl (fun out i => (List.range 8).foldl (fun out j =>
          if i * 8 + j ≥ divCeil b.n 8 then out else out.set (i * 8 + j) (wordByte (b.words i) j)) out)
        (zeroBytes (divCeil b.n 8)) = before at sized read ⊢
      have stored := getElem?_setBytes (wordByte (b.words m)) (m * 8) 8 before
      rw [sized] at stored
      refine ⟨stored.1, ?_⟩
      intro k inside upTo
      rw [stored.2 k]
      split
      · next here =>
        have word : k / 8 = m := by omega
        have position : k - m * 8 = k % 8 := by omega
        rw [word, position]
      · exact read k inside (by omega)
  obtain ⟨sized, read⟩ := words b.nwords
  refine ⟨sized, ?_⟩
  intro k inside
  apply read k inside
  rw [nwords, divCeil]
  rw [divCeil] at inside
  omega

theorem bitAt_serialize {i : Nat} (inside : i / 8 < divCeil b.n 8) :
    bitAt b.serialize i = b.test i := by
  have word : i / 8 / 8 = i / 64 := by omega
  have position : 8 * (i / 8 % 8) + i % 8 = i % 64 := by omega
  rw [bitAt, List.getD_eq_getElem?_getD, b.serialize_spec.2 _ inside, Option.getD_some,
    getLsbD_wordByte _ (Nat.mod_lt _ (by decide)), test_eq_getLsbD, word, position]

theorem getLsbD_loadedWord (expect : Nat) (bytes : Bytes) (i : Nat) {bit : Nat} (inWord : bit < 64) :
    (loadedWord expect bytes i).getLsbD bit =
      (decide (i * 8 + bit / 8 < expect) && bitAt bytes (i * 64 + bit)) := by
  have upTo : ∀ m, ((List.range m).foldl (fun v j =>
      let src := i * 8 + j
      if src < expect ∧ src < bytes.length then
        v ||| (bytes.getD src 0).toBitVec.setWidth 64 <<< (j * 8)
      else v) 0#64).getLsbD bit =
        (decide (bit < 8 * m) && (decide (i * 8 + bit / 8 < expect) && bitAt bytes (i * 64 + bit))) := by
    intro m
    induction m with
    | zero =>
      rw [decide_eq_false (by omega), Bool.false_and]
      exact BitVec.getLsbD_zero
    | succ m ih =>
      rw [List.range_succ, List.foldl_append, List.foldl_cons, List.foldl_nil]
      generalize (List.range m).foldl (fun v j =>
        let src := i * 8 + j
        if src < expect ∧ src < bytes.length then
          v ||| (bytes.getD src 0).toBitVec.setWidth 64 <<< (j * 8)
        else v) 0#64 = before at ih ⊢
      by_cases here : bit / 8 = m
      · have notBefore : ¬bit < 8 * m := by omega
        have now : bit < 8 * (m + 1) := by omega
        have byte : (i * 64 + bit) / 8 = i * 8 + m := by omega
        have position : (i * 64 + bit) % 8 = bit - m * 8 := by omega
        rw [decide_eq_false notBefore, Bool.false_and] at ih
        rw [decide_eq_true now, Bool.true_and, here]
        dsimp only
        split
        · next inside =>
          rw [BitVec.getLsbD_or, ih, Bool.false_or, BitVec.getLsbD_shiftLeft, decide_eq_true inWord,
            decide_eq_false (by omega), BitVec.getLsbD_setWidth, decide_eq_true (by omega),
            decide_eq_true inside.1, bitAt, byte, position]
          rfl
        · next outside =>
          rw [ih]
          by_cases expected : i * 8 + m < expect
          · rw [bitAt_beyond (by omega), Bool.and_false]
          · rw [decide_eq_false expected, Bool.false_and]
      · have same : bit < 8 * (m + 1) ↔ bit < 8 * m := by omega
        rw [decide_eq_decide.mpr same, ← ih]
        dsimp only
        split
        · rw [BitVec.getLsbD_or, BitVec.getLsbD_shiftLeft]
          by_cases below : bit < m * 8
          · rw [decide_eq_true below]
            simp
          · have none : (bytes.getD (i * 8 + m) 0).toBitVec.getLsbD (bit - m * 8) = false :=
              BitVec.getLsbD_of_ge _ _ (by omega)
            rw [BitVec.getLsbD_setWidth, none]
            simp
        · rfl
  have whole := upTo 8
  rw [decide_eq_true (show bit < 8 * 8 by omega), Bool.true_and] at whole
  exact whole

def Clean : Prop :=
  ∀ id, b.n ≤ id → b.test id = false

theorem load_serialize {c : Bitmap} (clean : b.Clean) (sized : c.n = b.n)
    (noMore : ∀ wi, c.nwords ≤ wi → c.words wi = 0#64) : c.load b.serialize = some b := by
  have whole : ¬b.serialize.length < divCeil c.n 8 := by
    rw [b.serialize_spec.1, sized]
    exact lt_irrefl _
  have words : c.nwords = b.nwords := by
    rw [nwords, nwords, sized]
  rw [load, if_neg whole]
  apply congrArg some
  refine ext_test (c := b) sized ?_
  intro id
  have inWord : id % 64 < 64 := Nat.mod_lt _ (by decide)
  have byte : id / 64 * 8 + id % 64 / 8 = id / 8 := by omega
  have position : id / 64 * 64 + id % 64 = id := by omega
  rw [test_eq_getLsbD]
  dsimp only
  split
  · rw [getLsbD_loadedWord _ _ _ inWord, byte, position, sized]
    by_cases inside : id / 8 < divCeil b.n 8
    · rw [decide_eq_true inside, Bool.true_and, b.bitAt_serialize inside]
    · rw [decide_eq_false inside, Bool.false_and, clean id]
      rw [divCeil] at inside
      omega
  · next beyond =>
    rw [noMore _ (Nat.le_of_not_lt beyond), BitVec.getLsbD_zero, clean id]
    rw [words, nwords, divCeil] at beyond
    omega

end Whole

section Devices

/-- Ranges `(start, count)` that follow each other from one position up to another. -/
def Partition : Nat → List (Nat × Nat) → Nat → Prop
  | position, [], stop => position = stop
  | position, (start, count) :: rest, stop => start = position ∧ Partition (position + count) rest stop

variable {position stop : Nat} {ranges : List (Nat × Nat)}

theorem Partition.le (parted : Partition position ranges stop) : position ≤ stop := by
  induction ranges generalizing position with
  | nil => exact Nat.le_of_eq parted
  | cons range ranges ih =>
    have rest := ih parted.2
    omega

theorem Partition.covers_iff (parted : Partition position ranges stop) (id : Nat) :
    (∃ range ∈ ranges, range.1 ≤ id ∧ id < range.1 + range.2) ↔ position ≤ id ∧ id < stop := by
  induction ranges generalizing position with
  | nil =>
    have same : position = stop := parted
    apply iff_of_false
    · intro covered
      obtain ⟨range, member, _⟩ := covered
      cases member
    · omega
  | cons range ranges ih =>
    obtain ⟨start, count⟩ := range
    obtain ⟨rfl, rest⟩ := parted
    have further := rest.le
    rw [List.exists_mem_cons_iff, ih rest]
    omega

theorem test_absorbed (b : Bitmap) (ranges : List (Nat × Nat)) (c : Bitmap) :
    (ranges.foldl (fun c range => c.loadRange (b.serializeRange range.1 range.2) range.1) c).n = c.n ∧
      ∀ id, (ranges.foldl
          (fun c range => c.loadRange (b.serializeRange range.1 range.2) range.1) c).test id = true ↔
        c.test id = true ∨
          ((∃ range ∈ ranges, range.1 ≤ id ∧ id < range.1 + range.2) ∧ b.test id = true) := by
  induction ranges generalizing c with
  | nil =>
    refine ⟨rfl, ?_⟩
    intro id
    simp
  | cons range ranges ih =>
    obtain ⟨sized, bits⟩ := ih (c.loadRange (b.serializeRange range.1 range.2) range.1)
    rw [List.foldl_cons]
    refine ⟨sized.trans (loadRange_n _ _ _), ?_⟩
    intro id
    rw [bits id, test_loadRange_serializeRange, List.exists_mem_cons_iff, Bool.or_eq_true,
      Bool.and_eq_true, decide_eq_true_eq, or_assoc, or_and_right]

theorem absorbed_eq (b : Bitmap) (clean : b.Clean) {order : List (Nat × Nat)}
    (parted : Partition 0 ranges b.n) (permuted : order.Perm ranges) :
    order.foldl (fun c range => c.loadRange (b.serializeRange range.1 range.2) range.1)
      (Bitmap.new b.n) = b := by
  obtain ⟨sized, bits⟩ := test_absorbed b order (Bitmap.new b.n)
  refine ext_test (c := b) sized ?_
  intro id
  rw [Bool.eq_iff_iff, bits id, test_new]
  have covered : (∃ range ∈ order, range.1 ≤ id ∧ id < range.1 + range.2) ↔ id < b.n := by
    rw [← and_iff_right (b := id < b.n) (Nat.zero_le id), ← parted.covers_iff id]
    constructor
    · intro found
      obtain ⟨range, member, inside⟩ := found
      exact ⟨range, permuted.mem_iff.mp member, inside⟩
    · intro found
      obtain ⟨range, member, inside⟩ := found
      exact ⟨range, permuted.mem_iff.mpr member, inside⟩
  rw [covered]
  constructor
  · intro set
    cases set with
    | inl never => cases never
    | inr held => exact held.2
  · intro set
    refine .inr ⟨?_, set⟩
    by_contra beyond
    rw [clean id (Nat.le_of_not_lt beyond)] at set
    cases set

end Devices

end Bitmap

/-- What is written of a bitmap, range by range or as a whole, gives the bitmap again. -/
theorem bitmap_reassembled (b : Bitmap) (clean : b.Clean) :
    (∀ ranges order : List (Nat × Nat), Bitmap.Partition 0 ranges b.n → order.Perm ranges →
      order.foldl (fun c range => c.loadRange (b.serializeRange range.1 range.2) range.1)
        (Bitmap.new b.n) = b) ∧
    (∀ start count, start + count ≤ b.n →
      (b.serializeRange start count).length = divCeil count 8 ∧
      (∀ i < count, bitAt (b.serializeRange start count) i = b.test (start + i)) ∧
      ∀ i, count ≤ i → bitAt (b.serializeRange start count) i = false) ∧
    ∀ c : Bitmap, c.n = b.n → (∀ wi, c.nwords ≤ wi → c.words wi = 0#64) →
      c.load b.serialize = some b := by
  refine ⟨?_, ?_, ?_⟩
  · intro ranges order parted permuted
    exact b.absorbed_eq clean parted permuted
  · intro start count _
    refine ⟨b.serializeRange_length start count, ?_, ?_⟩
    · intro i inside
      rw [b.bitAt_serializeRange, decide_eq_true inside, Bool.true_and]
    · intro i beyond
      rw [b.bitAt_serializeRange, decide_eq_false (Nat.not_lt.mpr beyond), Bool.false_and]
  · intro c sized noMore
    exact b.load_serialize clean sized noMore

/-- Two devices with a border inside of a byte, the second one first. -/
theorem bitmap_reassembled_devices :
    [(7, 3), (0, 7)].foldl
        (fun c range => c.loadRange (((Bitmap.new 10).setBit 8).serializeRange range.1 range.2) range.1)
        (Bitmap.new 10) = (Bitmap.new 10).setBit 8 := by
  have clean : ((Bitmap.new 10).setBit 8).Clean := by
    intro id beyond
    have other : id ≠ 8 := Nat.ne_of_gt (Nat.lt_of_lt_of_le (by decide) beyond)
    rw [Bitmap.test_setBit, Bitmap.test_new, decide_eq_false other, Bool.or_false]
  exact (bitmap_reassembled _ clean).1 [(0, 7), (7, 3)] _ ⟨rfl, rfl, rfl⟩ (List.Perm.swap _ _ _)

end FastS3.Alloc
