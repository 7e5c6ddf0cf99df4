import FastS3.Data.Lexicographic
import FastS3.Meta.Rows

namespace FastS3.Meta

open FastS3.Core Data

/-! The raw keys of object rows, as `keys.rs` writes and parses them.

A key is escaped so that a NUL byte appears only behind `0xFF`; a NUL byte elsewhere ends
the bucket name or begins the version.
-/

def fromUtf8 (bytes : Bytes) : Option String :=
  String.fromUTF8? bytes.toByteArray

def orCorrupt {α : Type} (message : String) : Option α → Except Error α
  | some value => .ok value
  | none => .error (.corrupt message)

/-- `{:02x}`. -/
def hexByte (b : UInt8) : String :=
  String.ofList [Nat.digitChar (b.toNat / 16), Nat.digitChar (b.toNat % 16)]

/-- `unescape`: a lone `0xFF` is corrupt. -/
def unescape : Bytes → Except Error Bytes
  | [] => .ok []
  | [b] => if b = 0xFF then .error (.corrupt "lone 0xFF escape at end of key") else .ok [b]
  | b :: next :: rest =>
    if b = 0xFF then
      if next = 0x00 ∨ next = 0xFF then do return next :: (← unescape rest)
      else
        let shown := hexByte next
        .error (.corrupt s!"invalid escape sequence 0xFF 0x{shown}")
    else do return b :: (← unescape (next :: rest))

def versionSep : Bytes → Option Nat
  | [] => none
  | [b] => if b = 0x00 then some 0 else none
  | b :: next :: rest =>
    if b = 0xFF then (versionSep rest).map (· + 2)
    else if b = 0x00 then some 0
    else (versionSep (next :: rest)).map (· + 1)

def prefixObject : Bytes := utf8 "o:"

/-- `object_prefix`: what every row of a bucket begins with. -/
def objectPrefix (bucket : String) : Bytes :=
  prefixObject ++ utf8 bucket ++ [0]

/-- `object_key_prefix`: what every version row of a key begins with. -/
def objectKeyPrefix (bucket key : String) : Bytes :=
  objectRawKey bucket key none ++ [0]

/-- `parse_object_version_key`: both forms of an object key. -/
def parseObjectVersionKey (raw : Bytes) : Except Error (String × String × Option Vk) := do
  let body ← orCorrupt "object key missing prefix" (raw.dropPrefix? prefixObject)
  let sep ← orCorrupt "object key missing separator" (body.idxOf? 0)
  let bucket ← orCorrupt "bucket name not utf8" (fromUtf8 (body.take sep))
  let rest := body.drop (sep + 1)
  match versionSep rest with
  | none =>
    let key ← orCorrupt "object key not utf8" (fromUtf8 (← unescape rest))
    return (bucket, key, none)
  | some i =>
    let key ← orCorrupt "object key not utf8" (fromUtf8 (← unescape (rest.take i)))
    let vk := rest.drop (i + 1)
    if vk.length = 16 then return (bucket, key, some vk)
    else .error (.corrupt "object version key malformed")

/-- `parse_object_key`: the single form only. -/
def parseObjectKey (raw : Bytes) : Except Error (String × String) := do
  let (bucket, key, vk) ← parseObjectVersionKey raw
  if vk.isSome then .error (.corrupt "versioned object key; use parse_object_version_key")
  else return (bucket, key)

def asciiDigit (b : UInt8) : Bool :=
  0x30 ≤ b && b ≤ 0x39

def ipv4Name (name : Bytes) : Bool :=
  let parts := name.splitOn 0x2E
  parts.length = 4 && parts.all fun part =>
    part ≠ [] && part.length ≤ 3 && part.all asciiDigit &&
      part.foldl (fun value b => 10 * value + (b.toNat - 0x30)) 0 ≤ 255

/-- `validate_bucket_name`, which every new bucket passes. -/
def validBucketName (name : String) : Bool :=
  let bytes := utf8 name
  !ipv4Name bytes && 3 ≤ bytes.length && bytes.length ≤ 63 &&
    bytes.all (fun b => (0x61 ≤ b && b ≤ 0x7A) || asciiDigit b || b = 0x2D || b = 0x2E) &&
    bytes.head? ≠ some 0x2D && bytes.getLast? ≠ some 0x2D &&
    bytes.head? ≠ some 0x2E && bytes.getLast? ≠ some 0x2E &&
    !decide ([0x2E, 0x2E] <:+: bytes) && !decide ([0x2E, 0x2D] <:+: bytes) &&
    !decide ([0x2D, 0x2E] <:+: bytes)

theorem validBucketName_noNul {name : String} (valid : validBucketName name = true) :
    0 ∉ utf8 name := by
  simp only [validBucketName, Bool.and_eq_true, List.all_eq_true] at valid
  intro inside
  have refused := valid.1.1.1.1.1.1.1.2 0 inside
  exact absurd refused (by decide)

theorem toList_loop (bytes : ByteArray) (i : Nat) (done : Bytes) :
    ByteArray.toList.loop bytes i done = done.reverse ++ bytes.data.toList.drop i := by
  fun_induction ByteArray.toList.loop bytes i done with
  | case1 i done inside ih =>
    have byte : bytes.get! i = bytes.data.toList[i] := by
      rw [show bytes.get! i = bytes.data[i]! from rfl, getElem!_pos bytes.data i inside,
        Array.getElem_toList]
    rw [ih, List.reverse_cons, List.append_assoc, List.singleton_append, byte,
      ← List.drop_eq_getElem_cons]
  | case2 i done outside =>
    rw [List.drop_eq_nil_of_le (by simpa using outside), List.append_nil]

theorem utf8_eq (text : String) : utf8 text = text.toByteArray.data.toList := by
  rw [utf8, String.toUTF8_eq_toByteArray, ByteArray.toList, toList_loop]
  rfl

theorem fromUtf8_utf8 (text : String) : fromUtf8 (utf8 text) = some text := by
  have same : (utf8 text).toByteArray = text.toByteArray := by
    rw [utf8_eq]
    apply ByteArray.ext
    apply Array.toList_inj.mp
    exact List.toList_data_toByteArray
  rw [fromUtf8, String.fromUTF8?, dif_pos (same ▸ text.isValidUTF8)]
  simp only [same]
  rfl

theorem utf8_injective {left right : String} (same : utf8 left = utf8 right) : left = right := by
  have decoded := congrArg fromUtf8 same
  rw [fromUtf8_utf8, fromUtf8_utf8] at decoded
  exact Option.some.inj decoded

@[simp] theorem escape_nil : escape [] = [] :=
  rfl

theorem escape_cons (b : UInt8) (raw : Bytes) :
    escape (b :: raw) = escape [b] ++ escape raw := by
  simp only [escape, List.flatMap_cons, List.flatMap_nil, List.append_nil]

theorem escape_byte (b : UInt8) :
    (b = 0x00 ∨ b = 0xFF) ∧ escape [b] = [0xFF, b] ∨
      b ≠ 0x00 ∧ b ≠ 0xFF ∧ escape [b] = [b] := by
  by_cases zero : b = 0x00
  · subst zero
    exact .inl ⟨.inl rfl, rfl⟩
  · by_cases full : b = 0xFF
    · subst full
      exact .inl ⟨.inr rfl, rfl⟩
    · exact .inr ⟨zero, full, by simp [escape, zero, full]⟩

variable {b : UInt8} {right left : Bytes} (place : ObjectAddress)

theorem unescape_pair (special : b = 0x00 ∨ b = 0xFF) (rest : Bytes) :
    unescape (0xFF :: b :: rest) = (do return b :: (← unescape rest)) := by
  rw [unescape, if_pos rfl, if_pos special]

theorem unescape_plain (plain : b ≠ 0xFF) (rest : Bytes) :
    unescape (b :: rest) = (do return b :: (← unescape rest)) := by
  cases rest with
  | nil =>
    simp only [unescape, if_neg plain]
    rfl
  | cons next rest => rw [unescape, if_neg plain]

theorem unescape_escape (raw : Bytes) : unescape (escape raw) = .ok raw := by
  induction raw with
  | nil => rfl
  | cons b raw ih =>
    rw [escape_cons]
    rcases escape_byte b with ⟨special, written⟩ | ⟨_, plain, written⟩
    · rw [written, List.cons_append, List.singleton_append, unescape_pair special, ih]
      rfl
    · rw [written, List.singleton_append, unescape_plain plain, ih]
      rfl

theorem escape_injective (same : escape left = escape right) : left = right := by
  have read := congrArg unescape same
  rw [unescape_escape, unescape_escape] at read
  exact Except.ok.inj read

theorem escape_append (left right : Bytes) : escape (left ++ right) = escape left ++ escape right :=
  List.flatMap_append

theorem escape_apart {c : UInt8} (differ : b ≠ c) : ¬ escape [b] <+: escape [c] := by
  rcases escape_byte b with ⟨special, written⟩ | ⟨_, plain, written⟩
  · rcases escape_byte c with ⟨special', written'⟩ | ⟨_, plain', written'⟩
    · rw [written, written', List.cons_prefix_cons, List.cons_prefix_cons]
      rintro ⟨_, same, _⟩
      exact differ same
    · rw [written, written', List.cons_prefix_cons]
      rintro ⟨same, _⟩
      exact plain' same.symm
  · rcases escape_byte c with ⟨special', written'⟩ | ⟨_, _, written'⟩
    · rw [written, written', List.cons_prefix_cons]
      rintro ⟨same, _⟩
      exact plain same
    · rw [written, written', List.cons_prefix_cons]
      rintro ⟨same, _⟩
      exact differ same

theorem escape_cons_head (b : UInt8) (raw : Bytes) :
    ∃ first rest, 0 < first ∧ escape (b :: raw) = first :: rest := by
  rw [escape_cons]
  rcases escape_byte b with ⟨_, written⟩ | ⟨notZero, _, written⟩
  · exact ⟨0xFF, b :: escape raw, by decide, by rw [written]; rfl⟩
  · exact ⟨b, escape raw, UInt8.pos_iff_ne_zero.mpr notZero, by rw [written]; rfl⟩

def EndsKey (tail : Bytes) : Prop :=
  ∀ first ∈ tail.head?, first = 0

theorem escape_rows_lt_iff {tail tail' : Bytes} (differ : left ≠ right) (ends : EndsKey tail)
    (ends' : EndsKey tail') :
    escape left ++ tail < escape right ++ tail' ↔ escape left < escape right := by
  induction left generalizing right with
  | nil =>
    cases right with
    | nil => exact absurd rfl differ
    | cons c right =>
      obtain ⟨first, rest, positive, written⟩ := escape_cons_head c right
      rw [written, escape_nil, List.nil_append, List.cons_append]
      refine iff_of_true ?_ (List.nil_lt_cons _ _)
      cases tail with
      | nil => exact List.nil_lt_cons _ _
      | cons b tail =>
        rw [ends b rfl]
        exact List.cons_lt_cons_iff.mpr (.inl positive)
  | cons b left ih =>
    cases right with
    | nil =>
      obtain ⟨first, rest, positive, written⟩ := escape_cons_head b left
      rw [written, escape_nil, List.nil_append, List.cons_append]
      refine iff_of_false ?_ (List.not_lt_nil _)
      cases tail' with
      | nil => exact List.not_lt_nil _
      | cons c tail' =>
        rw [ends' c rfl, List.cons_lt_cons_iff]
        rintro (less | ⟨same, _⟩)
        · exact absurd less (not_lt_of_gt positive)
        · exact absurd same positive.ne'
    | cons c right =>
      by_cases same : b = c
      · subst same
        have rest : left ≠ right := fun equal => differ (congrArg (b :: ·) equal)
        rw [escape_cons b left, escape_cons b right, List.append_assoc, List.append_assoc,
          append_lt_append_iff, append_lt_append_iff, ih rest]
      · rw [escape_cons b left, escape_cons c right, List.append_assoc, List.append_assoc,
          append_lt_append_of_apart (escape_apart same) (escape_apart (Ne.symm same)),
          append_lt_append_of_apart (escape_apart same) (escape_apart (Ne.symm same))]

theorem escape_prefix_iff (left right : Bytes) : escape left <+: escape right ↔ left <+: right := by
  constructor
  · intro begins
    induction left generalizing right with
    | nil => exact List.nil_prefix
    | cons b left ih =>
      cases right with
      | nil =>
        obtain ⟨first, rest, _, written⟩ := escape_cons_head b left
        rw [written, escape_nil] at begins
        exact absurd (List.prefix_nil.mp begins) (List.cons_ne_nil _ _)
      | cons c right =>
        rw [escape_cons b left, escape_cons c right] at begins
        by_cases same : b = c
        · subst same
          rw [List.prefix_append_right_inj] at begins
          exact List.cons_prefix_cons.mpr ⟨rfl, ih right begins⟩
        · rcases List.prefix_or_prefix_of_prefix ((List.prefix_append _ _).trans begins)
            (List.prefix_append _ _) with part | part
          · exact absurd part (escape_apart same)
          · exact absurd part (escape_apart (Ne.symm same))
  · rintro ⟨rest, rfl⟩
    rw [escape_append]
    exact List.prefix_append _ _

def SplitsAtNul (left right : Bytes) : Prop :=
  ∃ common rest c rest', c ≠ 0x00 ∧ c ≠ 0xFF ∧
    left = common ++ 0x00 :: rest ∧ right = common ++ c :: rest'

theorem escape_byte_lt {c : UInt8} (less : b < c) (zero : b = 0x00 → c = 0xFF) :
    escape [b] < escape [c] := by
  rcases escape_byte b with ⟨special, _⟩ | ⟨_, _, written⟩
  · rcases special with rfl | rfl
    · rw [zero rfl]
      decide
    · exact absurd less (not_lt.mpr (UInt8.le_iff_toNat_le.mpr (Nat.le_of_lt_succ c.toNat_lt)))
  · rw [written]
    rcases escape_byte c with ⟨special', written'⟩ | ⟨_, _, written'⟩
    · rw [written']
      rcases special' with rfl | rfl
      · exact absurd less (not_lt.mpr UInt8.zero_le)
      · exact List.cons_lt_cons_iff.mpr (.inl less)
    · rw [written']
      exact List.cons_lt_cons_iff.mpr (.inl less)

theorem escape_lt_of_lt (less : left < right) (whole : ¬ SplitsAtNul left right) :
    escape left < escape right := by
  induction left generalizing right with
  | nil =>
    cases right with
    | nil => exact absurd less (lt_irrefl _)
    | cons c right =>
      obtain ⟨first, rest, _, written⟩ := escape_cons_head c right
      rw [written]
      exact List.nil_lt_cons _ _
  | cons b left ih =>
    cases right with
    | nil => exact absurd less (List.not_lt_nil _)
    | cons c right =>
      rcases List.cons_lt_cons_iff.mp less with below | ⟨rfl, rest⟩
      · rw [escape_cons b left, escape_cons c right, append_lt_append_of_apart
          (escape_apart below.ne) (escape_apart below.ne')]
        apply escape_byte_lt below
        rintro rfl
        by_contra notFull
        exact whole ⟨[], left, c, right, below.ne', notFull, rfl, rfl⟩
      · rw [escape_cons b left, escape_cons b right, append_lt_append_iff]
        apply ih rest
        rintro ⟨common, tail, c, tail', notZero, notFull, rfl, rfl⟩
        exact whole ⟨b :: common, tail, c, tail', notZero, notFull, rfl, rfl⟩

theorem escape_lt_of_splits (splits : SplitsAtNul left right) :
    left < right ∧ escape right < escape left := by
  obtain ⟨common, rest, c, rest', notZero, notFull, rfl, rfl⟩ := splits
  rw [append_lt_append_iff, escape_append, escape_append, append_lt_append_iff]
  refine ⟨List.cons_lt_cons_iff.mpr (.inl (UInt8.pos_iff_ne_zero.mpr notZero)), ?_⟩
  rw [escape_cons c rest', escape_cons 0x00 rest, append_lt_append_of_apart
    (escape_apart notZero) (escape_apart (Ne.symm notZero))]
  rcases escape_byte c with ⟨special, _⟩ | ⟨_, _, written⟩
  · rcases special with rfl | rfl
    · exact absurd rfl notZero
    · exact absurd rfl notFull
  · rw [written]
    apply List.cons_lt_cons_iff.mpr
    left
    rw [UInt8.lt_iff_toNat_lt]
    have atMost : c.toNat ≤ 255 := Nat.le_of_lt_succ c.toNat_lt
    have other : c.toNat ≠ 255 := by
      intro same
      exact notFull (UInt8.toNat_inj.mp same)
    exact Nat.lt_of_le_of_ne atMost other

theorem SplitsAtNul.nul_mem (splits : SplitsAtNul left right) : 0x00 ∈ left := by
  obtain ⟨common, rest, _, _, _, _, rfl, _⟩ := splits
  exact List.mem_append_right _ List.mem_cons_self

theorem SplitsAtNul.append (splits : SplitsAtNul left right) (tail tail' : Bytes) :
    SplitsAtNul (left ++ tail) (right ++ tail') := by
  obtain ⟨common, rest, c, rest', notZero, notFull, rfl, rfl⟩ := splits
  exact ⟨common, rest ++ tail, c, rest' ++ tail', notZero, notFull, by simp, by simp⟩

theorem versionSep_pair (b : UInt8) (rest : Bytes) :
    versionSep (0xFF :: b :: rest) = (versionSep rest).map (· + 2) := by
  rw [versionSep, if_pos rfl]

theorem versionSep_plain (notZero : b ≠ 0x00) (plain : b ≠ 0xFF) (rest : Bytes) :
    versionSep (b :: rest) = (versionSep rest).map (· + 1) := by
  cases rest with
  | nil => simp only [versionSep, if_neg notZero, Option.map_none]
  | cons next rest => rw [versionSep, if_neg plain, if_neg notZero]

theorem versionSep_zero (rest : Bytes) : versionSep (0x00 :: rest) = some 0 := by
  cases rest with
  | nil => rfl
  | cons next rest => rfl

theorem versionSep_append (raw rest : Bytes) :
    versionSep (escape raw ++ rest) = (versionSep rest).map (· + (escape raw).length) := by
  induction raw with
  | nil => simp
  | cons b raw ih =>
    rw [escape_cons, List.append_assoc]
    rcases escape_byte b with ⟨_, written⟩ | ⟨notZero, plain, written⟩
    · rw [written, List.cons_append, List.singleton_append, versionSep_pair, ih, Option.map_map]
      rfl
    · rw [written, List.singleton_append, versionSep_plain notZero plain, ih, Option.map_map]
      rfl

theorem versionSep_escape (raw : Bytes) : versionSep (escape raw) = none := by
  have hidden := versionSep_append raw []
  rwa [List.append_nil] at hidden

theorem versionSep_version (raw vk : Bytes) :
    versionSep (escape raw ++ 0 :: vk) = some (escape raw).length := by
  rw [versionSep_append, versionSep_zero, Option.map_some, Nat.zero_add]

/-- The place of an object row: the single row of a key or one of its versions. -/
structure ObjectAddress where
  bucket : String
  key : String
  vk : Option Vk
  noNul : 0 ∉ utf8 bucket
  sized : ∀ v ∈ vk, v.length = 16

def ObjectAddress.raw (place : ObjectAddress) : Bytes :=
  objectRawKey place.bucket place.key place.vk

def ObjectAddress.rest (place : ObjectAddress) : Bytes :=
  escape (utf8 place.key) ++
    match place.vk with
    | none => []
    | some vk => 0 :: vk

theorem ObjectAddress.raw_eq : place.raw = objectPrefix place.bucket ++ place.rest := by
  obtain ⟨bucket, key, vk⟩ := place
  cases vk with
  | none => simp [raw, objectRawKey, objectPrefix, prefixObject, rest]
  | some vk => simp [raw, objectRawKey, objectPrefix, prefixObject, rest]

theorem ObjectAddress.raw_split :
    place.raw = prefixObject ++ (utf8 place.bucket ++ 0 :: place.rest) := by
  rw [raw_eq, objectPrefix, List.append_assoc, List.append_assoc, List.singleton_append]

theorem idxOf?_sep {bytes : Bytes} (free : 0 ∉ bytes) (rest : Bytes) :
    (bytes ++ 0 :: rest).idxOf? 0 = some bytes.length := by
  rw [List.idxOf?_eq_some_iff]
  refine ⟨by simp, by simp, ?_⟩
  intro j before same
  rw [List.getElem_append_left before] at same
  exact free (same ▸ List.getElem_mem before)

theorem parseObjectVersionKey_raw :
    parseObjectVersionKey place.raw = .ok (place.bucket, place.key, place.vk) := by
  have body : place.raw.dropPrefix? prefixObject =
      some (utf8 place.bucket ++ 0 :: place.rest) := by
    rw [place.raw_split]
    exact List.dropPrefix?_append_of_beq _ (beq_self_eq_true _)
  have named : (utf8 place.bucket ++ 0 :: place.rest).take (utf8 place.bucket).length =
      utf8 place.bucket := List.take_left
  have left : (utf8 place.bucket ++ 0 :: place.rest).drop ((utf8 place.bucket).length + 1) =
      place.rest := by
    rw [← List.drop_drop, List.drop_left]
    rfl
  unfold parseObjectVersionKey
  simp only [body, idxOf?_sep place.noNul, orCorrupt, named, left, fromUtf8_utf8, bind,
    Except.bind]
  obtain ⟨bucket, key, vk, noNul, sized⟩ := place
  cases vk with
  | none =>
    simp only [ObjectAddress.rest, List.append_nil, versionSep_escape, unescape_escape,
      fromUtf8_utf8]
    rfl
  | some vk =>
    have cut : (escape (utf8 key) ++ 0 :: vk).take (escape (utf8 key)).length =
        escape (utf8 key) := List.take_left
    have version : (escape (utf8 key) ++ 0 :: vk).drop ((escape (utf8 key)).length + 1) = vk := by
      rw [← List.drop_drop, List.drop_left]
      rfl
    simp only [ObjectAddress.rest, versionSep_version, cut, unescape_escape, fromUtf8_utf8,
      version, if_pos (sized vk rfl)]
    rfl

theorem ObjectAddress.ext_raw {place other : ObjectAddress} (same : place.raw = other.raw) :
    place = other := by
  have read := parseObjectVersionKey_raw place
  rw [same, parseObjectVersionKey_raw other] at read
  cases place
  cases other
  simp only [Except.ok.injEq, Prod.mk.injEq] at read
  obtain ⟨rfl, rfl, rfl⟩ := read
  rfl

theorem objectPrefix_iff {bucket : String} (noNul : 0 ∉ utf8 bucket) (place : ObjectAddress) :
    objectPrefix bucket <+: place.raw ↔ place.bucket = bucket := by
  rw [place.raw_split, objectPrefix, List.append_assoc, List.prefix_append_right_inj,
    sep_prefix_iff noNul place.noNul]
  constructor
  · intro same
    exact (utf8_injective same).symm
  · rintro rfl
    rfl

theorem objectKeyPrefix_iff {bucket : String} (noNul : 0 ∉ utf8 bucket) (key : String)
    (place : ObjectAddress) : objectKeyPrefix bucket key <+: place.raw ↔
      place.bucket = bucket ∧ place.key = key ∧ place.vk ≠ none := by
  have start : objectKeyPrefix bucket key =
      objectPrefix bucket ++ (escape (utf8 key) ++ [0]) := by
    simp only [objectKeyPrefix, objectRawKey, objectPrefix, prefixObject, List.append_assoc,
      List.append_nil]
  constructor
  · intro begins
    have bucketOf : place.bucket = bucket := by
      apply (objectPrefix_iff noNul place).mp
      apply List.IsPrefix.trans _ begins
      rw [start]
      exact List.prefix_append _ _
    rw [start, place.raw_eq, bucketOf, List.prefix_append_right_inj] at begins
    obtain ⟨tail, rest⟩ := begins
    have sep := versionSep_version (utf8 key) tail
    rw [List.append_assoc, List.singleton_append] at rest
    rw [rest] at sep
    unfold ObjectAddress.rest at sep rest
    cases version : place.vk with
    | none =>
      rw [version] at sep
      simp only [List.append_nil, versionSep_escape] at sep
      cases sep
    | some vk =>
      rw [version] at sep rest
      simp only [versionSep_version, Option.some.injEq] at sep
      have keys := (List.append_inj rest sep.symm).1
      exact ⟨bucketOf, (utf8_injective (escape_injective keys)).symm, Option.some_ne_none _⟩
  · rintro ⟨rfl, rfl, versioned⟩
    obtain ⟨vk, version⟩ := Option.ne_none_iff_exists'.mp versioned
    rw [start, place.raw_eq, List.prefix_append_right_inj, ObjectAddress.rest, version]
    exact ⟨vk, by rw [List.append_assoc, List.singleton_append]⟩

theorem objectRawKey_lt_iff (bucket key : String) (vk vk' : Vk) :
    objectRawKey bucket key (some vk) < objectRawKey bucket key (some vk') ↔ vk < vk' := by
  rw [objectRawKey, objectRawKey, append_lt_append_iff, List.cons_lt_cons_iff]
  simp

theorem parseObjectKey_raw :
    parseObjectKey place.raw =
      if place.vk.isSome then .error (.corrupt "versioned object key; use parse_object_version_key")
      else .ok (place.bucket, place.key) := by
  unfold parseObjectKey
  rw [parseObjectVersionKey_raw]
  rfl

/-- Raw keys are faithful to addresses, in their order and under the prefixes that scans use. -/
theorem objectKeys_faithful (place other : ObjectAddress) :
    parseObjectVersionKey place.raw = .ok (place.bucket, place.key, place.vk) ∧
      (place.raw = other.raw ↔ place = other) ∧
      (objectKeyPrefix place.bucket place.key <+: other.raw ↔
        other.bucket = place.bucket ∧ other.key = place.key ∧ other.vk ≠ none) ∧
      (objectPrefix place.bucket <+: other.raw ↔ other.bucket = place.bucket) ∧
      ∀ vk vk' : Vk, objectRawKey place.bucket place.key (some vk) <
        objectRawKey place.bucket place.key (some vk') ↔ vk < vk' := by
  refine ⟨parseObjectVersionKey_raw place, ?_, objectKeyPrefix_iff place.noNul place.key other,
    objectPrefix_iff place.noNul other, objectRawKey_lt_iff place.bucket place.key⟩
  constructor
  · exact ObjectAddress.ext_raw
  · rintro rfl
    rfl

def ObjectAddress.single (bucket key : String) (valid : validBucketName bucket = true) :
    ObjectAddress where
  bucket := bucket
  key := key
  vk := none
  noNul := validBucketName_noNul valid
  sized := fun _ versioned => nomatch versioned

theorem photos_valid : validBucketName "photos" = true := by
  decide +kernel

def photosA : ObjectAddress :=
  .single "photos" "a" photos_valid

/-- The single row of a key does not begin with the prefix of the key. -/
theorem single_row_outside_prefix :
    ¬ ∀ place other : ObjectAddress, objectKeyPrefix place.bucket place.key <+: other.raw ↔
      other.bucket = place.bucket ∧ other.key = place.key := by
  intro claimed
  have meets := (claimed photosA photosA).mpr ⟨rfl, rfl⟩
  have apart : ¬ objectKeyPrefix "photos" "a" <+: objectRawKey "photos" "a" none := by
    decide +kernel
  exact apart meets

end FastS3.Meta
