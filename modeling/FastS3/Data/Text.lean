import Mathlib

namespace FastS3.Data

/-! Operations of `str` on texts, as lists of their characters. -/

namespace Text

def isWhitespace (c : Char) : Bool :=
  let code := c.toNat
  (0x09 ≤ code && code ≤ 0x0D) || code = 0x20 || code = 0x85 || code = 0xA0 || code = 0x1680 ||
    (0x2000 ≤ code && code ≤ 0x200A) || code = 0x2028 || code = 0x2029 || code = 0x202F ||
    code = 0x205F || code = 0x3000

def trimStart (text : List Char) : List Char :=
  text.dropWhile isWhitespace

def trimEnd (text : List Char) : List Char :=
  (text.reverse.dropWhile isWhitespace).reverse

def trim (text : List Char) : List Char :=
  trimEnd (trimStart text)

/-- `to_ascii_lowercase`. -/
def lower (text : List Char) : List Char :=
  text.map Char.toLower

/-- `strip_prefix`. -/
def afterHead (head text : List Char) : Option (List Char) :=
  if head.isPrefixOf text then some (text.drop head.length) else none

/-- `strip_suffix` of one character. -/
def beforeLast (last : Char) (text : List Char) : Option (List Char) :=
  if text.getLast? = some last then some text.dropLast else none

def occursIn (part text : List Char) : Bool :=
  text.tails.any fun rest => part.isPrefixOf rest

/-- `replace`, with the number of characters that belong to an occurrence already replaced. -/
def replaceFrom (old new : List Char) : Nat → List Char → List Char
  | _, [] => []
  | skip + 1, _ :: rest => replaceFrom old new skip rest
  | 0, c :: rest =>
    if old.isPrefixOf (c :: rest) then new ++ replaceFrom old new (old.length - 1) rest
    else c :: replaceFrom old new 0 rest

def replace (old new text : List Char) : List Char :=
  replaceFrom old new 0 text

/-- `split_once` at a character. -/
def splitOnce (separator : Char) (text : List Char) : Option (List Char × List Char) :=
  match text.dropWhile (· ≠ separator) with
  | [] => none
  | _ :: rest => some (text.takeWhile (· ≠ separator), rest)

def digitsValue (digits : List Char) : Nat :=
  digits.foldl (fun value c => value * 10 + (c.toNat - '0'.toNat)) 0

def parseDigits (text : List Char) : Option Nat :=
  if text ≠ [] ∧ text.all Char.isDigit then some (digitsValue text) else none

/-- `parse` to `u8`: a plus sign may go before the digits. -/
def parseU8 (text : List Char) : Option Nat :=
  let digits := if text.head? = some '+' then text.tail else text
  (parseDigits digits).bind fun value => if value < 2 ^ 8 then some value else none

/-- `parse` to `u32`. -/
def parseU32 (text : List Char) : Option Nat :=
  let digits := if text.head? = some '+' then text.tail else text
  (parseDigits digits).bind fun value => if value < 2 ^ 32 then some value else none

/-- `parse` to `u64`. -/
def parseU64 (text : List Char) : Option Nat :=
  let digits := if text.head? = some '+' then text.tail else text
  (parseDigits digits).bind fun value => if value < 2 ^ 64 then some value else none

/-- `parse` to `i64`: a sign may go before the digits. -/
def parseI64 (text : List Char) : Option Int :=
  let value : Option Int :=
    if text.head? = some '-' then (parseDigits text.tail).map fun value => -(value : Int)
    else
      let digits := if text.head? = some '+' then text.tail else text
      (parseDigits digits).map fun value => (value : Int)
  value.bind fun value => if -2 ^ 63 ≤ value ∧ value < 2 ^ 63 then some value else none

section Lowercase

variable (text : List Char)

theorem lower_lower : lower (lower text) = lower text := by
  rw [lower, lower, List.map_map]
  apply List.map_congr_left
  intro c _
  exact c.toLower_toLower_eq_toLower

theorem lower_length : (lower text).length = text.length :=
  List.length_map _

theorem lower_append (other : List Char) : lower (text ++ other) = lower text ++ lower other :=
  List.map_append

def otherCase (c : Char) : Char :=
  if c.isUpper then c.toLower else c.toUpper

theorem toLower_otherCase (c : Char) : (otherCase c).toLower = c.toLower := by
  rw [otherCase]
  split
  · exact c.toLower_toLower_eq_toLower
  · exact c.toLower_toUpper_eq_toLower

theorem otherCase_ne {c : Char} (letter : c.isAlpha = true) : otherCase c ≠ c := by
  intro same
  rw [otherCase] at same
  split at same
  · next upper =>
      have never : c.toLower.isUpper = false := c.isUpper_toLower_eq_false
      rw [same, upper] at never
      cases never
  · next notUpper =>
      have raised : c.toUpper.isUpper = c.isAlpha := c.isUpper_toUpper_eq_isAlpha
      rw [same, letter] at raised
      exact notUpper raised

theorem exists_variant {text : List Char} {c : Char} (inside : c ∈ text) (letter : c.isAlpha = true) :
    ∃ variant, lower variant = lower text ∧ variant ≠ text := by
  refine ⟨text.map otherCase, ?_, ?_⟩
  · rw [lower, lower, List.map_map]
    apply List.map_congr_left
    intro other _
    exact toLower_otherCase other
  · intro same
    have identity : text.map otherCase = text.map id := by
      rw [same, List.map_id]
    exact otherCase_ne letter (List.map_inj_left.mp identity c inside)

theorem toLower_of_letterless {c : Char} (letterless : c.isAlpha = false) : c.toLower = c := by
  apply Char.toLower_eq_of_not_isUpper
  intro upper
  rw [Char.isAlpha, upper] at letterless
  cases letterless

theorem eq_of_lower_eq {left right : List Char} (same : lower left = lower right)
    (letterless : ∀ c ∈ left, c.isAlpha = false) : left = right := by
  induction left generalizing right with
  | nil =>
    symm
    apply List.eq_nil_of_length_eq_zero
    rw [← lower_length, ← same]
    rfl
  | cons c left ih =>
    cases right with
    | nil => cases same
    | cons d right =>
      obtain ⟨first, rest⟩ := List.cons.inj same
      have plain : c.isAlpha = false := letterless c List.mem_cons_self
      have also : d.isAlpha = false := by
        rw [← d.isAlpha_toLower_eq_isAlpha, ← first, c.isAlpha_toLower_eq_isAlpha]
        exact plain
      rw [toLower_of_letterless plain, toLower_of_letterless also] at first
      rw [first, ih rest fun other inside => letterless other (List.mem_cons_of_mem _ inside)]

end Lowercase

structure Trimmed (text : List Char) : Prop where
  start : ∀ c, text.head? = some c → isWhitespace c = false
  finish : ∀ c, text.getLast? = some c → isWhitespace c = false

section Trim

variable {text : List Char}

theorem dropWhile_head {p : Char → Bool} {c : Char} (first : (text.dropWhile p).head? = some c) :
    p c = false := by
  have stopped := List.head?_dropWhile_not p text
  rw [first] at stopped
  exact stopped

theorem dropWhile_of_head {p : Char → Bool} (first : ∀ c, text.head? = some c → p c = false) :
    text.dropWhile p = text := by
  cases text with
  | nil => rfl
  | cons c rest => exact List.dropWhile_cons_of_neg (by rw [first c rfl]; exact Bool.false_ne_true)

theorem trimEnd_begins (text : List Char) : trimEnd text <+: text := by
  rw [trimEnd, ← List.reverse_suffix, List.reverse_reverse]
  exact List.dropWhile_suffix _

theorem trimmed_trim (text : List Char) : Trimmed (trim text) where
  start := by
    intro c first
    obtain ⟨cut, whole⟩ := trimEnd_begins (trimStart text)
    have inFront : (trimStart text).head? = some c := by
      rw [← whole, List.head?_append, ← trim, first]
      rfl
    exact dropWhile_head inFront
  finish := by
    intro c last
    rw [trim, trimEnd, List.getLast?_reverse] at last
    exact dropWhile_head last

theorem trim_of_trimmed (trimmed : Trimmed text) : trim text = text := by
  have front : trimStart text = text := dropWhile_of_head trimmed.start
  have back : text.reverse.dropWhile isWhitespace = text.reverse := by
    apply dropWhile_of_head
    intro c first
    rw [List.head?_reverse] at first
    exact trimmed.finish c first
  rw [trim, front, trimEnd, back, List.reverse_reverse]

theorem trim_infix (text : List Char) : trim text <:+: text :=
  (trimEnd_begins _).isInfix.trans (List.dropWhile_suffix _).isInfix

theorem isWhitespace_of_isAlpha {c : Char} (letter : c.isAlpha = true) : isWhitespace c = false := by
  simp only [Char.isAlpha, Char.isUpper, Char.isLower, Bool.or_eq_true, Bool.and_eq_true,
    decide_eq_true_eq, UInt32.le_iff_toNat_le] at letter
  have code : 65 ≤ c.toNat ∧ c.toNat ≤ 90 ∨ 97 ≤ c.toNat ∧ c.toNat ≤ 122 := letter
  simp only [isWhitespace, Bool.or_eq_false_iff, Bool.and_eq_false_iff, decide_eq_false_iff_not]
  omega

theorem isWhitespace_toLower (c : Char) : isWhitespace c.toLower = isWhitespace c := by
  by_cases upper : c.isUpper = true
  · have letter : c.isAlpha = true := by
      rw [Char.isAlpha, upper]
      rfl
    rw [isWhitespace_of_isAlpha letter, isWhitespace_of_isAlpha]
    rw [c.isAlpha_toLower_eq_isAlpha]
    exact letter
  · rw [Char.toLower_eq_of_not_isUpper upper]

theorem trimmed_lower (trimmed : Trimmed text) : Trimmed (lower text) where
  start := by
    intro c first
    rw [lower, List.head?_map, Option.map_eq_some_iff] at first
    obtain ⟨d, original, rfl⟩ := first
    rw [isWhitespace_toLower]
    exact trimmed.start d original
  finish := by
    intro c last
    rw [lower, List.getLast?_map, Option.map_eq_some_iff] at last
    obtain ⟨d, original, rfl⟩ := last
    rw [isWhitespace_toLower]
    exact trimmed.finish d original

end Trim

end Text

end FastS3.Data
