import FastS3.S3.Signature

namespace FastS3.S3

open Data
open FastS3.Core (Bytes utf8)

/-! The order of the parameters in a canonical query.

A client signs the parameters in the order of their encodings.  `canonicalQuery` sorts the texts, and the
two orders differ where a byte that is encoded stands against one that is not.
-/

def encodedLe (left right : List Char × List Char) : Bool :=
  left.1 < right.1 || (left.1 = right.1 && left.2 ≤ right.2)

def encodePair (pair : String × String) : List Char × List Char :=
  (uriEncode pair.1, uriEncode pair.2)

def sigV4Query (query : List (String × String)) (exclude : List String) : List Char :=
  let items := (query.filter fun pair => !exclude.contains pair.1).map encodePair
  ['&'].intercalate ((items.insertionSort fun left right => encodedLe left right).map fun pair =>
    pair.1 ++ '=' :: pair.2)

/-- The query is that of a client, and it does not depend on the order of the parameters. -/
structure SignedAlike (query : List (String × String)) (exclude : List String) : Prop where
  canonical : canonicalQuery query exclude = sigV4Query query exclude
  permuted : ∀ other : List (String × String), other.Perm query →
    canonicalQuery other exclude = canonicalQuery query exclude

def Unreserved (byte : UInt8) : Prop :=
  isUnreserved (Char.ofNat byte.toNat) = true

/-- Where the texts differ first, the smaller byte is kept and the larger one is encoded. -/
def Misplaced (left right : String) : Prop :=
  ∃ (common : Bytes) (x y : UInt8) (rest rest' : Bytes), asBytes left.toList = common ++ x :: rest ∧
    asBytes right.toList = common ++ y :: rest' ∧ x < y ∧ Unreserved x ∧ ¬ Unreserved y

def MisplacedPair (left right : String × String) : Prop :=
  Misplaced left.1 right.1 ∨ left.1 = right.1 ∧ Misplaced left.2 right.2

section Texts

theorem lt_cases {α : Type} [LinearOrder α] {left right : List α} (less : left < right) :
    (∃ y rest, right = left ++ y :: rest) ∨
      ∃ common x y rest rest', left = common ++ x :: rest ∧ right = common ++ y :: rest' ∧ x < y := by
  induction left generalizing right with
  | nil =>
    cases right with
    | nil => exact absurd less (lt_irrefl _)
    | cons y rest => exact .inl ⟨y, rest, rfl⟩
  | cons x left ih =>
    cases right with
    | nil => exact absurd less (List.not_lt_nil _)
    | cons y right =>
      rcases List.cons_lt_cons_iff.mp less with first | ⟨rfl, later⟩
      · exact .inr ⟨[], x, y, left, right, rfl, rfl, first⟩
      · rcases ih later with ⟨z, rest, rfl⟩ | ⟨common, z, w, rest, rest', rfl, rfl, first⟩
        · exact .inl ⟨z, rest, rfl⟩
        · exact .inr ⟨x :: common, z, w, rest, rest', rfl, rfl, first⟩

theorem utf8EncodeChar_lt {c d : Char} (less : c < d) (rest rest' : Bytes) :
    String.utf8EncodeChar c ++ rest < String.utf8EncodeChar d ++ rest' := by
  have codes : c.val.toNat < d.val.toNat := less
  have bound : d.val.toNat < 1114112 := by
    have valid := d.valid
    simp only [UInt32.isValidChar, Nat.isValidChar] at valid
    omega
  rw [String.utf8EncodeChar, String.utf8EncodeChar]
  generalize c.val.toNat = v at *
  generalize d.val.toNat = w at *
  have digits : v / 262144 < w / 262144 ∨ v / 262144 = w / 262144 ∧ (v / 4096 % 64 < w / 4096 % 64 ∨
      v / 4096 % 64 = w / 4096 % 64 ∧ (v / 64 % 64 < w / 64 % 64 ∨
        v / 64 % 64 = w / 64 % 64 ∧ v % 64 < w % 64)) := by
    omega
  split_ifs <;>
    simp (disch := omega) only [List.cons_append, List.nil_append, List.cons_lt_cons_iff,
      UInt8.lt_iff_toNat_lt, ← UInt8.toNat_inj, UInt8.toNat_ofNat', Nat.mod_eq_of_lt] <;>
    omega

theorem asBytes_lt {left right : String} (less : left < right) :
    asBytes left.toList < asBytes right.toList := by
  rw [asBytes_eq, asBytes_eq]
  rcases lt_cases (String.lt_iff_toList_lt.mp less) with ⟨y, rest, split⟩ |
    ⟨common, x, y, rest, rest', split, split', first⟩
  · rw [split, List.flatMap_append, List.flatMap_cons]
    cases bytes : String.utf8EncodeChar y with
    | nil => exact absurd bytes String.utf8EncodeChar_ne_nil
    | cons byte others =>
      simpa using List.append_left_lt (List.nil_lt_cons byte _)
  · rw [split, split', List.flatMap_append, List.flatMap_append, List.flatMap_cons, List.flatMap_cons]
    exact List.append_left_lt (utf8EncodeChar_lt first _ _)

theorem hexLetter_lt : ∀ value < 16, ∀ other < 16, value < other →
    hexLetter 'A' value < hexLetter 'A' other := by
  decide +kernel

theorem plain_above : ∀ byte : UInt8, Unreserved byte → '%' < Char.ofNat byte.toNat := by
  unfold Unreserved
  decide +kernel

theorem uriByte_plain {byte : UInt8} (plain : Unreserved byte) :
    uriByte byte = [Char.ofNat byte.toNat] :=
  if_pos plain

theorem uriByte_encoded {byte : UInt8} (encoded : ¬ Unreserved byte) :
    uriByte byte = ['%', hexLetter 'A' (byte.toNat / 16), hexLetter 'A' (byte.toNat % 16)] :=
  if_neg encoded

/-- Encoded bytes are in the order of the bytes, but for one that is kept below one that is not. -/
theorem uriByte_lt {x y : UInt8} (less : x < y) (rest rest' : List Char) :
    (Unreserved x ∧ ¬ Unreserved y → uriByte y ++ rest' < uriByte x ++ rest) ∧
      (¬ (Unreserved x ∧ ¬ Unreserved y) → uriByte x ++ rest < uriByte y ++ rest') := by
  have below : x.toNat < y.toNat := less
  have bound := y.toNat_lt
  constructor
  · rintro ⟨kept, encoded⟩
    rw [uriByte_plain kept, uriByte_encoded encoded]
    exact List.cons_lt_cons_iff.mpr (.inl (plain_above x kept))
  · intro placed
    by_cases kept : Unreserved x
    · have kept' : Unreserved y := by_contra fun encoded => placed ⟨kept, encoded⟩
      have codes : (Char.ofNat x.toNat).toNat < (Char.ofNat y.toNat).toNat := by
        rw [toNat_ofNat_byte _ x.toNat_lt, toNat_ofNat_byte _ bound]
        exact below
      rw [uriByte_plain kept, uriByte_plain kept']
      exact List.cons_lt_cons_iff.mpr (.inl codes)
    · by_cases kept' : Unreserved y
      · rw [uriByte_encoded kept, uriByte_plain kept']
        exact List.cons_lt_cons_iff.mpr (.inl (plain_above y kept'))
      · rw [uriByte_encoded kept, uriByte_encoded kept']
        refine List.cons_lt_cons_iff.mpr (.inr ⟨rfl, List.cons_lt_cons_iff.mpr ?_⟩)
        by_cases high : x.toNat / 16 = y.toNat / 16
        · refine .inr ⟨by rw [high], List.cons_lt_cons_iff.mpr (.inl ?_)⟩
          exact hexLetter_lt _ (by omega) _ (by omega) (by omega)
        · exact .inl (hexLetter_lt _ (by omega) _ (by omega) (by omega))

theorem uriEncode_lt {left right : String} (less : left < right) :
    (Misplaced left right → uriEncode right < uriEncode left) ∧
      (¬ Misplaced left right → uriEncode left < uriEncode right) := by
  constructor
  · rintro ⟨common, x, y, rest, rest', split, split', first, kinds⟩
    rw [uriEncode, uriEncode, split, split']
    simp only [List.flatMap_append, List.flatMap_cons]
    exact List.append_left_lt ((uriByte_lt first _ _).1 kinds)
  · intro placed
    rcases lt_cases (asBytes_lt less) with ⟨y, rest, split⟩ | ⟨common, x, y, rest, rest', split, split', first⟩
    · rw [uriEncode, uriEncode, split, List.flatMap_append, List.flatMap_cons]
      cases letters : uriByte y with
      | nil =>
        rw [uriByte] at letters
        split at letters <;> cases letters
      | cons letter others =>
        simpa using List.append_left_lt (List.nil_lt_cons letter _)
    · rw [uriEncode, uriEncode, split, split']
      simp only [List.flatMap_append, List.flatMap_cons]
      refine List.append_left_lt ((uriByte_lt first _ _).2 fun kinds => placed ?_)
      exact ⟨common, x, y, rest, rest', split, split', first, kinds⟩

theorem Misplaced.less {left right : String} (misplaced : Misplaced left right) : left < right := by
  obtain ⟨common, x, y, rest, rest', split, split', first, -⟩ := misplaced
  have bytes : asBytes left.toList < asBytes right.toList := by
    rw [split, split']
    exact List.append_left_lt (List.cons_lt_cons_iff.mpr (.inl first))
  rcases lt_trichotomy left right with less | rfl | more
  · exact less
  · exact absurd bytes (lt_irrefl _)
  · exact absurd (asBytes_lt more) (lt_asymm bytes)

end Texts

section Pairs

variable {right left : String × String}

theorem pairLe_iff : pairLe left right = true ↔ toLex left ≤ toLex right := by
  simp [pairLe, Prod.Lex.le_iff]

theorem encodedLe_iff {left right : List Char × List Char} :
    encodedLe left right = true ↔ toLex left ≤ toLex right := by
  simp [encodedLe, Prod.Lex.le_iff]

theorem MisplacedPair.less (misplaced : MisplacedPair left right) : toLex left < toLex right := by
  rcases misplaced with names | ⟨same, values⟩
  · exact Prod.Lex.lt_iff.mpr (.inl names.less)
  · exact Prod.Lex.lt_iff.mpr (.inr ⟨same, values.less⟩)

theorem encodePair_lt (less : toLex left < toLex right) :
    (MisplacedPair left right → toLex (encodePair right) < toLex (encodePair left)) ∧
      (¬ MisplacedPair left right → toLex (encodePair left) < toLex (encodePair right)) := by
  rcases Prod.Lex.lt_iff.mp less with names | ⟨names, values⟩
  · have order := uriEncode_lt names
    constructor
    · rintro (misplaced | ⟨same, -⟩)
      · exact Prod.Lex.lt_iff.mpr (.inl (order.1 misplaced))
      · exact absurd same names.ne
    · intro placed
      exact Prod.Lex.lt_iff.mpr (.inl (order.2 fun misplaced => placed (.inl misplaced)))
  · have order := uriEncode_lt values
    have same : uriEncode left.1 = uriEncode right.1 := congrArg uriEncode names
    constructor
    · rintro (misplaced | ⟨-, misplaced⟩)
      · exact absurd names misplaced.less.ne
      · exact Prod.Lex.lt_iff.mpr (.inr ⟨same.symm, order.1 misplaced⟩)
    · intro placed
      exact Prod.Lex.lt_iff.mpr (.inr ⟨same, order.2 fun misplaced => placed (.inr ⟨names, misplaced⟩)⟩)

theorem encodePair_inj (same : toLex (encodePair left) = toLex (encodePair right)) : left = right :=
  Prod.ext (uriEncode_inj (congrArg (fun pair => (ofLex pair).1) same))
    (uriEncode_inj (congrArg (fun pair => (ofLex pair).2) same))

theorem insertionSort_keys {α β : Type} [LinearOrder β] {key : α → β} {le : α → α → Bool}
    (agrees : ∀ a b, le a b = true ↔ key a ≤ key b) (items : List α) :
    (items.insertionSort fun a b => le a b).Pairwise fun a b => key a ≤ key b := by
  have : Std.Total fun a b => le a b = true := ⟨fun a b => by
    simpa only [agrees] using le_total (key a) (key b)⟩
  have : IsTrans α fun a b => le a b = true := ⟨fun a b c => by
    simpa only [agrees] using le_trans⟩
  exact (List.pairwise_insertionSort _ items).imp fun ordered => (agrees _ _).mp ordered

variable {kept : List (String × String)}

theorem insertionSort_encoded_iff :
    kept.insertionSort (fun left right => pairLe left right) =
        kept.insertionSort (fun left right => encodedLe (encodePair left) (encodePair right)) ↔
      ∀ left ∈ kept, ∀ right ∈ kept, ¬ MisplacedPair left right := by
  have raw := @insertionSort_keys _ _ _ toLex _ (fun _ _ => pairLe_iff) kept
  have encoded := @insertionSort_keys _ _ _ (fun pair => toLex (encodePair pair)) _
    (fun _ _ => encodedLe_iff) kept
  have rawPerm := List.perm_insertionSort (fun left right => pairLe left right = true) kept
  have encodedPerm := List.perm_insertionSort
    (fun left right => encodedLe (encodePair left) (encodePair right) = true) kept
  constructor
  · intro same left member right member'
    -- what stands in front is smaller in either order
    have both := raw.and (same ▸ encoded)
    have placed := List.Pairwise.forall_of_forall_of_flip
      (R := fun first second => ¬ MisplacedPair first second)
      (fun pair _ misplaced => absurd misplaced.less (lt_irrefl _))
      (both.imp fun order misplaced =>
        absurd ((encodePair_lt misplaced.less).1 misplaced) order.2.not_gt)
      (both.imp fun order misplaced => absurd misplaced.less order.1.not_gt)
    exact placed (rawPerm.mem_iff.mpr member) (rawPerm.mem_iff.mpr member')
  · intro placed
    apply List.Perm.eq_of_pairwise _ _ encoded (rawPerm.trans encodedPerm.symm)
    · intro first second _ _ le ge
      exact encodePair_inj (le_antisymm le ge)
    · apply raw.imp_of_mem
      intro first second member member' le
      rcases le.lt_or_eq with less | same
      · exact ((encodePair_lt less).2 (placed first (rawPerm.mem_iff.mp member) second
          (rawPerm.mem_iff.mp member'))).le
      · rw [show first = second from same]

end Pairs

variable {query : List (String × String)} {exclude : List String}

theorem sigV4Query_eq : sigV4Query query exclude =
    ['&'].intercalate (((query.filter fun pair => !exclude.contains pair.1).insertionSort fun left right =>
      encodedLe (encodePair left) (encodePair right)).map fun pair =>
        uriEncode pair.1 ++ '=' :: uriEncode pair.2) := by
  rw [sigV4Query, ← List.map_insertionSort (fun left right => encodedLe (encodePair left) (encodePair right) = true)
    (fun left right => encodedLe left right = true) encodePair _ fun _ _ _ _ => Iff.rfl, List.map_map]
  rfl

theorem canonicalQuery_of_perm {other : List (String × String)} (perm : other.Perm query) :
    canonicalQuery other exclude = canonicalQuery query exclude := by
  have sorted := @insertionSort_keys _ _ _ toLex _ fun _ _ => pairLe_iff
  have same : (other.filter fun pair => !exclude.contains pair.1).insertionSort
        (fun left right => pairLe left right) =
      (query.filter fun pair => !exclude.contains pair.1).insertionSort
        (fun left right => pairLe left right) := by
    apply List.Perm.eq_of_pairwise _ (sorted _) (sorted _)
    · exact ((List.perm_insertionSort _ _).trans (perm.filter _)).trans (List.perm_insertionSort _ _).symm
    · intro first second _ _ le ge
      exact toLex.injective (le_antisymm le ge)
  simp only [canonicalQuery, same]

/-- The query is canonical exactly if encoding puts no two of its parameters the other way around. -/
theorem canonicalQuery_alike_iff :
    SignedAlike query exclude ↔
      ∀ left ∈ query, ∀ right ∈ query, left.1 ∉ exclude → right.1 ∉ exclude → ¬ MisplacedPair left right := by
  have sorts : canonicalQuery query exclude = sigV4Query query exclude ↔
      ∀ left ∈ query.filter fun pair => !exclude.contains pair.1,
        ∀ right ∈ query.filter fun pair => !exclude.contains pair.1, ¬ MisplacedPair left right := by
    rw [← insertionSort_encoded_iff, sigV4Query_eq, canonicalQuery]
    constructor
    · intro same
      have pieces := Separated.intercalate_inj (encoded_pieces _) (encoded_pieces _) same
      exact List.map_injective_iff.mpr (fun _ _ => canonicalQuery_piece) pieces
    · intro same
      simp only [same]
  simp only [List.mem_filter, List.contains_eq_mem, Bool.not_eq_true', decide_eq_false_iff_not] at sorts
  constructor
  · intro alike left member right member' kept kept'
    exact sorts.mp alike.canonical left ⟨member, kept⟩ right ⟨member', kept'⟩
  · intro placed
    constructor
    · exact sorts.mpr fun left member right member' =>
        placed left member.1 right member'.1 member.2 member'.2
    · intro other perm
      exact canonicalQuery_of_perm perm

/-- Of the names `a-` and `a:` a client signs the second first. -/
theorem colon_misplaced : ¬ ∀ query exclude, SignedAlike query exclude := by
  intro alike
  have canonical := (alike [("a-", ""), ("a:", "")] []).canonical
  revert canonical
  decide +kernel

end FastS3.S3
