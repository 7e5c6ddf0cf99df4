import FastS3.S3.PolicyDocument

namespace FastS3.S3

open Data
open FastS3.Core (Bytes utf8)

/-! The dates in the conditions of policies.

`parse_policy_date` calculates with 64-bit integers.  It takes every two characters for a number that
`parse` takes for one, so that it accepts more than dates.
-/

def daysFromCivil (y mo d : Int) : Int :=
  let yAdj := if mo ≤ 2 then y - 1 else y
  let era := yAdj / 400
  let yoe := yAdj % 400
  let mp := if mo > 2 then mo - 3 else mo + 9
  let doy := (153 * mp + 2) / 5 + d - 1
  let doe := yoe * 365 + yoe / 4 - yoe / 100 + doy
  era * 146097 + doe - 719468

def isLeap (year : Nat) : Bool :=
  year % 4 = 0 ∧ (year % 100 ≠ 0 ∨ year % 400 = 0)

def yearLength (year : Nat) : Nat :=
  if isLeap year then 366 else 365

def monthLength (year month : Nat) : Nat :=
  match month with
  | 2 => if isLeap year then 29 else 28
  | 4 | 6 | 9 | 11 => 30
  | _ => 31

theorem monthLength_le (year month : Nat) : monthLength year month ≤ 31 := by
  fun_cases monthLength year month
  all_goals decide

def daysBeforeYear : Nat → Nat
  | 0 => 0
  | year + 1 => daysBeforeYear year + yearLength year

def daysBeforeMonth (year : Nat) : Nat → Nat
  | 0 | 1 => 0
  | month + 2 => daysBeforeMonth year (month + 1) + monthLength year (month + 1)

def dayNumber (year month day : Nat) : Int :=
  (daysBeforeYear year + daysBeforeMonth year month + day : Nat) - 1 - daysBeforeYear 1970

theorem daysBeforeYear_eq (year : Nat) :
    daysBeforeYear year = 365 * year + (year + 3) / 4 - (year + 99) / 100 + (year + 399) / 400 := by
  induction year with
  | zero => rfl
  | succ year ih =>
    have leap : yearLength year = if year % 4 = 0 ∧ (year % 100 ≠ 0 ∨ year % 400 = 0) then 366
        else 365 := by
      rw [yearLength, isLeap]
      simp only [decide_eq_true_eq]
    rw [daysBeforeYear, ih, leap]
    split
    · omega
    · omega

theorem daysBeforeMonth_eq (year : Nat) {month : Nat} (late : 2 < month) (last : month ≤ 12) :
    daysBeforeMonth year month + 306 = yearLength year + (153 * (month - 3) + 2) / 5 := by
  have table : ∀ leap : Bool, isLeap year = leap →
      daysBeforeMonth year month + 306 = yearLength year + (153 * (month - 3) + 2) / 5 := by
    intro leap same
    interval_cases month
    all_goals
      simp only [daysBeforeMonth, monthLength, yearLength, same]
      cases leap
      · rfl
      · rfl
  exact table _ rfl

theorem eraDays_eq (year : Int) :
    year / 400 * 146097 + (year % 400 * 365 + year % 400 / 4 - year % 400 / 100) =
      365 * year + year / 4 - year / 100 + year / 400 := by
  omega

theorem daysFromCivil_eq {year month : Nat} (day : Nat) (first : 1 ≤ month) (last : month ≤ 12) :
    daysFromCivil year month day = dayNumber year month day := by
  have epoch : daysBeforeYear 1970 = 719528 := by
    rw [daysBeforeYear_eq]
  have eras := eraDays_eq (if (month : Int) ≤ 2 then (year : Int) - 1 else year)
  rw [dayNumber, epoch, daysFromCivil]
  by_cases early : month ≤ 2
  · have closed := daysBeforeYear_eq year
    have months : daysBeforeMonth year month = 31 * (month - 1) := by
      interval_cases month
      · rfl
      · rfl
    have notLate : ¬(month : Int) > 2 := by omega
    have isEarly : (month : Int) ≤ 2 := by omega
    rw [if_pos isEarly] at eras ⊢
    rw [if_neg notLate, months]
    omega
  · have closed := daysBeforeYear_eq (year + 1)
    have months := daysBeforeMonth_eq year (Nat.lt_of_not_le early) last
    have late : (month : Int) > 2 := by omega
    have notEarly : ¬(month : Int) ≤ 2 := by omega
    rw [daysBeforeYear] at closed
    rw [if_neg notEarly] at eras ⊢
    rw [if_pos late]
    omega

/-- How a time zone is written: not at all, as `Z`, or as an offset. -/
inductive Zone where
  | missing
  | utc (small : Bool)
  | offset (negative : Bool) (hours minutes : Nat)
deriving Repr, DecidableEq

def Zone.secs : Zone → Int
  | .missing => 0
  | .utc _ => 0
  | .offset negative hours minutes =>
    (if negative then -1 else 1) * (hours * 3600 + minutes * 60 : Nat)

def Zone.Valid : Zone → Prop
  | .missing => True
  | .utc _ => True
  | .offset _ hours minutes => hours < 24 ∧ minutes < 60

structure DateTime where
  year : Nat
  month : Nat
  day : Nat
  hour : Nat
  minute : Nat
  second : Nat
  small : Bool
  fraction : Option (List (Fin 10))
  zone : Zone
  yearShort : year < 10000
  monthIn : 1 ≤ month ∧ month ≤ 12
  dayIn : 1 ≤ day ∧ day ≤ monthLength year month
  hourIn : hour < 24
  minuteIn : minute < 60
  secondIn : second < 60
  fractionSome : fraction ≠ some []
  zoneValid : zone.Valid

def digitByte (digit : Nat) : UInt8 :=
  '0'.toUInt8 + UInt8.ofNat digit

def twoDigits (value : Nat) : Bytes :=
  [digitByte (value / 10), digitByte (value % 10)]

def Zone.bytes : Zone → Bytes
  | .missing => []
  | .utc small => [if small then 'z'.toUInt8 else 'Z'.toUInt8]
  | .offset negative hours minutes =>
    (if negative then '-'.toUInt8 else '+'.toUInt8) ::
      (twoDigits hours ++ ':'.toUInt8 :: twoDigits minutes)

namespace DateTime

variable (t : DateTime)

def fractionBytes : Bytes :=
  match t.fraction with
  | none => []
  | some digits => '.'.toUInt8 :: digits.map fun digit : Fin 10 => digitByte digit.val

def bytes : Bytes :=
  twoDigits (t.year / 100) ++ twoDigits (t.year % 100) ++ '-'.toUInt8 :: (twoDigits t.month ++
    '-'.toUInt8 :: (twoDigits t.day ++ (if t.small then 't'.toUInt8 else 'T'.toUInt8) ::
      (twoDigits t.hour ++ ':'.toUInt8 :: (twoDigits t.minute ++ ':'.toUInt8 :: (twoDigits t.second ++
        (t.fractionBytes ++ t.zone.bytes))))))

def instant : Int :=
  ((dayNumber t.year t.month t.day * 24 + t.hour) * 60 + t.minute) * 60 + t.second - t.zone.secs

end DateTime

/-- A string stands for some seconds: it is their number, or a date of the grammar at that instant. -/
def Denotes (s : String) (secs : Int) : Prop :=
  match Text.parseI64 (Text.trim s.toList) with
  | some epoch => secs = epoch
  | none => ∃ t : DateTime, utf8 s = t.bytes ∧ secs = t.instant

/-- There is no overflow, and what is accepted stands for the seconds that are returned. -/
def DateRight (s : String) : Prop :=
  ∃ result, policyDate s = some result ∧ ∀ secs, result = some secs → Denotes s secs

/-- Hours and minutes of a time zone are numbers, or the hours alone overflow before the minutes are
read. -/
def ZoneRead (rest : List Char) : Prop :=
  rest = [] ∨ rest = ['Z'] ∨ rest = ['z'] ∨ ∃ sign tz hours minutes th, rest = sign :: tz ∧
    (sign = '+' ∨ sign = '-') ∧ Text.splitOnce ':' tz = some (hours, minutes) ∧
    Text.parseI64 hours = some th ∧ (i64 (th * 3600) = none ∨ (Text.parseI64 minutes).isSome)

/-- The string has the length and the separators of a date with a time, its six parts are numbers, and
its time zone is read. -/
def Taken (s : String) : Prop :=
  let b := utf8 s
  20 ≤ b.length ∧ b[4]? = some '-'.toUInt8 ∧ b[7]? = some '-'.toUInt8 ∧
    (b[10]? = some 'T'.toUInt8 ∨ b[10]? = some 't'.toUInt8) ∧ b[13]? = some ':'.toUInt8 ∧
    b[16]? = some ':'.toUInt8 ∧
    (∀ part ∈ [(0, 4), (5, 7), (8, 10), (11, 13), (14, 16), (17, 19)],
      (numberAt b part.1 part.2).isSome) ∧ ZoneRead (zoneText b)

section Digits

theorem digitByte_char (digit : Fin 10) :
    (Char.ofNat (digitByte digit.val).toNat).isDigit = true ∧
      (Char.ofNat (digitByte digit.val).toNat).toNat - '0'.toNat = digit.val ∧
      Char.ofNat (digitByte digit.val).toNat ≠ '-' ∧ Char.ofNat (digitByte digit.val).toNat ≠ '+' ∧
      Char.ofNat (digitByte digit.val).toNat ≠ ':' := by
  revert digit
  decide

theorem parseI64_of_digits {text : List Char} {value : Nat} (parsed : Text.parseDigits text = some value)
    (notMinus : text.head? ≠ some '-') (notPlus : text.head? ≠ some '+')
    (small : (value : Int) < 2 ^ 63) : Text.parseI64 text = some (value : Int) := by
  have inRange : -2 ^ 63 ≤ (value : Int) ∧ (value : Int) < 2 ^ 63 := by
    constructor
    · exact le_trans (by norm_num) (Int.natCast_nonneg value)
    · exact small
  have read : ∀ check : Int → Option Int, (Option.map (fun value => value) (do
      let a ← Text.parseDigits text
      pure (a : Int))).bind check = check value := by
    intro check
    rw [parsed]
    rfl
  rw [Text.parseI64, if_neg notMinus, if_neg notPlus, read]
  exact if_pos inRange

def digitChars (digits : List (Fin 10)) : List Char :=
  digits.map fun digit : Fin 10 => Char.ofNat (digitByte digit.val).toNat

def digitsNumber (digits : List (Fin 10)) : Nat :=
  digits.foldl (fun value digit => value * 10 + digit.val) 0

theorem digitChars_value (digits : List (Fin 10)) (before : Nat) :
    (digitChars digits).foldl (fun value c => value * 10 + (c.toNat - '0'.toNat)) before =
      digits.foldl (fun value digit => value * 10 + digit.val) before := by
  induction digits generalizing before with
  | nil => rfl
  | cons digit digits ih =>
    have tail := ih (before * 10 + digit.val)
    rw [digitChars] at tail
    rw [digitChars, List.map_cons, List.foldl_cons, List.foldl_cons, (digitByte_char digit).2.1, tail]

theorem digitsNumber_lt (digits : List (Fin 10)) (before : Nat) :
    digits.foldl (fun value digit => value * 10 + digit.val) before <
      (before + 1) * 10 ^ digits.length := by
  induction digits generalizing before with
  | nil => simp
  | cons digit digits ih =>
    have small := digit.isLt
    rw [List.foldl_cons, List.length_cons]
    calc digits.foldl (fun value digit => value * 10 + digit.val) (before * 10 + digit.val)
      _ < (before * 10 + digit.val + 1) * 10 ^ digits.length := ih _
      _ ≤ ((before + 1) * 10) * 10 ^ digits.length := by
        apply Nat.mul_le_mul_right
        omega
      _ = (before + 1) * 10 ^ (digits.length + 1) := by
        rw [Nat.pow_succ, Nat.mul_assoc, Nat.mul_comm 10]

theorem digitsNumber_short {digits : List (Fin 10)} (short : digits.length ≤ 4) :
    digitsNumber digits < 10000 := by
  calc digitsNumber digits
    _ < (0 + 1) * 10 ^ digits.length := digitsNumber_lt digits 0
    _ = 10 ^ digits.length := by rw [Nat.zero_add, Nat.one_mul]
    _ ≤ 10 ^ 4 := Nat.pow_le_pow_right (by decide) short
    _ = 10000 := by norm_num

theorem parseDigits_digitChars {digits : List (Fin 10)} (some' : digits ≠ []) :
    Text.parseDigits (digitChars digits) = some (digitsNumber digits) := by
  have allDigits : (digitChars digits).all Char.isDigit = true := by
    rw [digitChars, List.all_map, List.all_eq_true]
    intro digit _
    exact (digitByte_char digit).1
  have notEmpty : digitChars digits ≠ [] := by
    rw [digitChars]
    simpa using some'
  rw [Text.parseDigits, if_pos ⟨notEmpty, allDigits⟩, Text.digitsValue, digitChars_value, digitsNumber]

theorem parseI64_digits {digits : List (Fin 10)} (some' : digits ≠ []) (short : digits.length ≤ 4) :
    Text.parseI64 (digitChars digits) = some (digitsNumber digits : Int) := by
  have small := digitsNumber_short short
  have signs : (digitChars digits).head? ≠ some '-' ∧ (digitChars digits).head? ≠ some '+' := by
    cases digits with
    | nil => exact absurd rfl some'
    | cons digit digits =>
      obtain ⟨_, _, notMinus, notPlus, _⟩ := digitByte_char digit
      rw [digitChars, List.map_cons, List.head?_cons]
      simp only [ne_eq, Option.some.injEq]
      exact ⟨notMinus, notPlus⟩
  apply parseI64_of_digits (parseDigits_digitChars some') signs.1 signs.2
  omega

theorem parseI64_twoDigits {value : Nat} (short : value < 100) :
    Text.parseI64 ((twoDigits value).map fun byte => Char.ofNat byte.toNat) = some (value : Int) := by
  have digits := @parseI64_digits [⟨value / 10, by omega⟩, ⟨value % 10, by omega⟩] (by simp) (by simp)
  have number : digitsNumber [⟨value / 10, by omega⟩, ⟨value % 10, by omega⟩] = value := by
    simp only [digitsNumber, List.foldl_cons, List.foldl_nil]
    omega
  rw [number] at digits
  exact digits

theorem parseI64_fourDigits {value : Nat} (short : value < 10000) :
    Text.parseI64 ((twoDigits (value / 100) ++ twoDigits (value % 100)).map fun byte =>
      Char.ofNat byte.toNat) = some (value : Int) := by
  have digits := @parseI64_digits
    [⟨value / 100 / 10, by omega⟩, ⟨value / 100 % 10, by omega⟩,
      ⟨value % 100 / 10, by omega⟩, ⟨value % 100 % 10, by omega⟩] (by simp) (by simp)
  have number : digitsNumber [⟨value / 100 / 10, by omega⟩, ⟨value / 100 % 10, by omega⟩,
      ⟨value % 100 / 10, by omega⟩, ⟨value % 100 % 10, by omega⟩] = value := by
    simp only [digitsNumber, List.foldl_cons, List.foldl_nil]
    omega
  rw [number] at digits
  exact digits

end Digits

section Fields

variable (t : DateTime)

def zoneChars (zone : Zone) : List Char :=
  zone.bytes.map fun byte => Char.ofNat byte.toNat

theorem zoneChars_stop (zone : Zone) :
    (zoneChars zone).dropWhile Char.isDigit = zoneChars zone ∧ (zoneChars zone).head? ≠ some '.' := by
  cases zone with
  | missing => exact ⟨rfl, nofun⟩
  | utc small =>
    cases small
    · exact ⟨rfl, by decide⟩
    · exact ⟨rfl, by decide⟩
  | offset negative hours minutes =>
    cases negative
    · exact ⟨rfl, by simp [zoneChars, Zone.bytes]; decide⟩
    · exact ⟨rfl, by simp [zoneChars, Zone.bytes]; decide⟩

theorem zoneText_bytes : zoneText t.bytes = zoneChars t.zone := by
  have stop := zoneChars_stop t.zone
  have tail : t.bytes.drop 19 = t.fractionBytes ++ t.zone.bytes := rfl
  have zone : (t.zone.bytes.map fun byte => Char.ofNat byte.toNat) = zoneChars t.zone := rfl
  rw [zoneText, tail, DateTime.fractionBytes, List.map_append, zone]
  cases t.fraction with
  | none =>
    rw [List.map_nil, List.nil_append]
    split
    · next fraction same =>
        rw [same] at stop
        exact absurd rfl stop.2
    · rfl
  | some digits =>
    have digit : ∀ c ∈ digitChars digits, c.isDigit = true := by
      intro c inside
      obtain ⟨digit, _, rfl⟩ := List.mem_map.mp inside
      exact (digitByte_char digit).1
    have chars : (digits.map fun digit : Fin 10 => digitByte digit.val).map
        (fun byte => Char.ofNat byte.toNat) = digitChars digits := by
      rw [List.map_map, digitChars]
      rfl
    have dot : Char.ofNat '.'.toUInt8.toNat = '.' := by decide
    rw [List.map_cons, dot, chars, List.cons_append]
    change (digitChars digits ++ zoneChars t.zone).dropWhile Char.isDigit = zoneChars t.zone
    rw [List.dropWhile_append_of_pos digit, stop.1]

def fields : DateFields :=
  ⟨t.year, t.month, t.day, t.hour, t.minute, t.second, zoneChars t.zone⟩

theorem dateFields_bytes (long : 20 ≤ t.bytes.length) : dateFields t.bytes = some (fields t) := by
  have y : numberAt t.bytes 0 4 = some (t.year : Int) := parseI64_fourDigits t.yearShort
  have mo : numberAt t.bytes 5 7 = some (t.month : Int) :=
    parseI64_twoDigits (Nat.lt_of_le_of_lt t.monthIn.2 (by decide))
  have d : numberAt t.bytes 8 10 = some (t.day : Int) := by
    have bound := Nat.le_trans t.dayIn.2 (monthLength_le t.year t.month)
    exact parseI64_twoDigits (Nat.lt_of_le_of_lt bound (by decide))
  have h : numberAt t.bytes 11 13 = some (t.hour : Int) :=
    parseI64_twoDigits (Nat.lt_trans t.hourIn (by decide))
  have mi : numberAt t.bytes 14 16 = some (t.minute : Int) :=
    parseI64_twoDigits (Nat.lt_trans t.minuteIn (by decide))
  have sec : numberAt t.bytes 17 19 = some (t.second : Int) :=
    parseI64_twoDigits (Nat.lt_trans t.secondIn (by decide))
  have letter : t.bytes[10]? = some 'T'.toUInt8 ∨ t.bytes[10]? = some 't'.toUInt8 := by
    have tenth : t.bytes[10]? = some (if t.small then 't'.toUInt8 else 'T'.toUInt8) := rfl
    cases small : t.small with
    | false => exact .inl (by rw [tenth, small]; rfl)
    | true => exact .inr (by rw [tenth, small]; rfl)
  have shaped : ¬(t.bytes.length < 20 ∨ ¬t.bytes[4]? = some '-'.toUInt8 ∨
      ¬t.bytes[7]? = some '-'.toUInt8 ∨
      ¬(t.bytes[10]? = some 'T'.toUInt8 ∨ t.bytes[10]? = some 't'.toUInt8) ∨
      ¬t.bytes[13]? = some ':'.toUInt8 ∨ ¬t.bytes[16]? = some ':'.toUInt8) := by
    rintro (few | no | no | no | no | no)
    · omega
    · exact no rfl
    · exact no rfl
    · exact no letter
    · exact no rfl
    · exact no rfl
  rw [dateFields, if_neg shaped, y, mo, d, h, mi, sec]
  simp only [Option.bind_eq_bind, Option.bind_some]
  rw [zoneText_bytes]
  rfl

end Fields

section Overflow

theorem i64_within {value : Int} (low : -1000000000000000 ≤ value) (high : value ≤ 1000000000000000) :
    i64 value = some value := by
  have range : -9223372036854775808 ≤ value ∧ value ≤ 9223372036854775807 := by
    omega
  rw [i64, if_pos range]

theorem civilDays_within {y mo d : Int} (year : 0 ≤ y ∧ y < 10000) (month : 1 ≤ mo ∧ mo ≤ 12)
    (day : 1 ≤ d ∧ d ≤ 31) : civilDays y mo d = some (daysFromCivil y mo d) := by
  obtain ⟨yearFrom, yearTo⟩ := year
  obtain ⟨monthFrom, monthTo⟩ := month
  obtain ⟨dayFrom, dayTo⟩ := day
  rw [civilDays, daysFromCivil]
  by_cases early : mo ≤ 2
  · have notLate : ¬mo > 2 := by omega
    simp (disch := omega) only [if_pos early, if_neg notLate, i64_within, Option.bind_eq_bind,
      Option.bind_some]
  · have late : mo > 2 := by omega
    simp (disch := omega) only [if_neg early, if_pos late, i64_within, Option.bind_eq_bind,
      Option.bind_some]

theorem splitOnce_twoDigits {hours : Nat} (short : hours < 100) (tail : List Char) :
    Text.splitOnce ':' ((twoDigits hours).map (fun byte => Char.ofNat byte.toNat) ++ ':' :: tail) =
      some ((twoDigits hours).map (fun byte => Char.ofNat byte.toNat), tail) := by
  have tens := (digitByte_char ⟨hours / 10, by omega⟩).2.2.2.2
  have ones := (digitByte_char ⟨hours % 10, by omega⟩).2.2.2.2
  rw [twoDigits, Text.splitOnce]
  simp only [List.map_cons, List.map_nil, List.cons_append, List.nil_append, List.dropWhile_cons,
    List.takeWhile_cons, ne_eq, tens, ones, not_false_eq_true, decide_true, if_true, not_true_eq_false,
    decide_false, Bool.false_eq_true, if_false]

theorem zoneSecs_zoneChars {zone : Zone} (valid : zone.Valid) :
    zoneSecs (zoneChars zone) = some (some zone.secs) := by
  cases zone with
  | missing => rfl
  | utc small =>
    cases small
    · rfl
    · rfl
  | offset negative hours minutes =>
    obtain ⟨hoursIn, minutesIn⟩ := valid
    have split := splitOnce_twoDigits (Nat.lt_trans hoursIn (by decide))
      ((twoDigits minutes).map fun byte => Char.ofNat byte.toNat)
    have hoursRead := parseI64_twoDigits (Nat.lt_trans hoursIn (by decide))
    have minutesRead := parseI64_twoDigits (Nat.lt_trans minutesIn (by decide))
    have chars : zoneChars (.offset negative hours minutes) = (if negative then '-' else '+') ::
        ((twoDigits hours).map (fun byte => Char.ofNat byte.toNat) ++
          ':' :: (twoDigits minutes).map fun byte => Char.ofNat byte.toNat) := by
      cases negative
      · rfl
      · rfl
    have notPlus : '-' ≠ '+' := by decide
    rw [chars, zoneSecs, split, Zone.secs]
    · cases negative
      · simp (disch := omega) only [hoursRead, minutesRead, i64_within, Option.bind_eq_bind,
          Option.bind_some, Option.pure_def, Bool.false_eq_true, if_false, if_true]
        push_cast
        rfl
      · simp (disch := omega) only [hoursRead, minutesRead, i64_within, Option.bind_eq_bind,
          Option.bind_some, Option.pure_def, notPlus, if_false, if_true]
        push_cast
        rfl
    · intro _ none
      exact List.cons_ne_nil _ _ (List.append_eq_nil_iff.mp none).2
    · intro _ none
      exact List.cons_ne_nil _ _ (List.append_eq_nil_iff.mp none).2

theorem daysFromCivil_within {y mo d : Int} (year : 0 ≤ y ∧ y < 10000) (month : 1 ≤ mo ∧ mo ≤ 12)
    (day : 1 ≤ d ∧ d ≤ 31) :
    -1000000 ≤ daysFromCivil y mo d ∧ daysFromCivil y mo d ≤ 4000000 := by
  rw [daysFromCivil]
  by_cases early : mo ≤ 2
  · have notLate : ¬mo > 2 := by omega
    rw [if_pos early, if_neg notLate]
    omega
  · have late : mo > 2 := by omega
    rw [if_neg early, if_pos late]
    omega

theorem zoneSecs_within {zone : Zone} (valid : zone.Valid) :
    -100000 ≤ zone.secs ∧ zone.secs ≤ 100000 := by
  cases zone with
  | missing => exact ⟨by decide, by decide⟩
  | utc small =>
    rw [Zone.secs]
    exact ⟨by decide, by decide⟩
  | offset negative hours minutes =>
    obtain ⟨hoursIn, minutesIn⟩ := valid
    rw [Zone.secs]
    split
    · omega
    · omega

theorem secs_fields (t : DateTime) : (fields t).secs t.zone.secs = some t.instant := by
  have year : 0 ≤ (t.year : Int) ∧ (t.year : Int) < 10000 := by
    have := t.yearShort
    omega
  have month : 1 ≤ (t.month : Int) ∧ (t.month : Int) ≤ 12 := by
    have := t.monthIn
    omega
  have day : 1 ≤ (t.day : Int) ∧ (t.day : Int) ≤ 31 := by
    have := t.dayIn
    have := monthLength_le t.year t.month
    omega
  have calendar := @daysFromCivil_eq t.year t.month t.day t.monthIn.1 t.monthIn.2
  have civil := civilDays_within year month day
  have bound := daysFromCivil_within year month day
  have zone := zoneSecs_within t.zoneValid
  have hour := t.hourIn
  have minute := t.minuteIn
  have second := t.secondIn
  rw [DateFields.secs, fields, DateTime.instant, ← calendar]
  dsimp only
  generalize daysFromCivil t.year t.month t.day = days at civil bound
  rw [civil]
  simp (disch := omega) only [i64_within, Option.bind_eq_bind, Option.bind_some, Option.some.injEq]
  ring

end Overflow

section Results

variable {s : String}

theorem zoneRead_offset {sign : Char} {tz : List Char} (notLarge : sign = 'Z' → tz = [] → False)
    (notSmall : sign = 'z' → tz = [] → False) :
    ZoneRead (sign :: tz) ↔ ∃ hours minutes th, (sign = '+' ∨ sign = '-') ∧
      Text.splitOnce ':' tz = some (hours, minutes) ∧ Text.parseI64 hours = some th ∧
      (i64 (th * 3600) = none ∨ (Text.parseI64 minutes).isSome) := by
  constructor
  · rintro (none | large | small | ⟨_, _, hours, minutes, th, same, isSign, split, read⟩)
    · cases none
    · cases large
      exact (notLarge rfl rfl).elim
    · cases small
      exact (notSmall rfl rfl).elim
    · cases same
      exact ⟨hours, minutes, th, isSign, split, read⟩
  · rintro ⟨hours, minutes, th, isSign, split, read⟩
    exact .inr (.inr (.inr ⟨sign, tz, hours, minutes, th, rfl, isSign, split, read⟩))

theorem minutes_none {th sign : Int} {minutes : List Char} :
    (do
      let hourSecs ← i64 (th * 3600)
      match Text.parseI64 minutes with
        | none => some none
        | some tm => do
          let minuteSecs ← i64 (tm * 60)
          let secs ← i64 (hourSecs + minuteSecs)
          return some (← i64 (sign * secs))) = (some none : Option (Option Int)) ↔
      ¬(i64 (th * 3600) = none ∨ (Text.parseI64 minutes).isSome) := by
  cases hours : i64 (th * 3600) with
  | none => simp
  | some hourSecs =>
    cases Text.parseI64 minutes with
    | none => simp
    | some tm =>
      cases ofMinutes : i64 (tm * 60) with
      | none => simp [ofMinutes]
      | some minuteSecs =>
        cases sum : i64 (hourSecs + minuteSecs) with
        | none => simp [ofMinutes, sum]
        | some secs =>
          cases signed : i64 (sign * secs) with
          | none => simp [ofMinutes, sum, signed]
          | some secs => simp [ofMinutes, sum, signed]

theorem zoneSecs_none {rest : List Char} : zoneSecs rest = some none ↔ ¬ZoneRead rest := by
  fun_cases zoneSecs rest with
  | case1 => simp [ZoneRead]
  | case2 => simp [ZoneRead]
  | case3 => simp [ZoneRead]
  | case4 first tz notLarge notSmall readSign sign hours minutes split isSign unread =>
    rw [zoneRead_offset notLarge notSmall]
    simp [split, unread]
  | case5 first tz notLarge notSmall readSign sign hours minutes split isSign th read =>
    have signs : first = '+' ∨ first = '-' := by
      by_contra neither
      obtain ⟨notPlus, notMinus⟩ := not_or.mp neither
      simp [readSign, notPlus, notMinus] at isSign
    rw [zoneRead_offset notLarge notSmall]
    refine minutes_none.trans ?_
    simp [split, read, signs]
  | case6 first tz notLarge notSmall readSign never =>
    rw [zoneRead_offset notLarge notSmall]
    simp only [true_iff]
    rintro ⟨hours, minutes, th, isSign, split, _⟩
    cases isSign with
    | inl plus => exact never 1 hours minutes (by simp [readSign, plus]) split
    | inr minus => exact never (-1) hours minutes (by simp [readSign, minus]) split

theorem policyDate_bytes (date : Text.parseI64 (Text.trim s.toList) = none) {t : DateTime}
    (same : utf8 s = t.bytes) :
    policyDate s = some (if t.bytes.length < 20 then none else some t.instant) := by
  rw [policyDate, date, same]
  by_cases short : t.bytes.length < 20
  · have refused : dateFields t.bytes = none := by
      rw [dateFields, if_pos (.inl short)]
    rw [refused, if_pos short]
  · have zone : zoneSecs (fields t).rest = some (some t.zone.secs) := zoneSecs_zoneChars t.zoneValid
    rw [dateFields_bytes t (Nat.le_of_not_lt short), if_neg short]
    dsimp only
    rw [zone]
    simp only [Option.bind_eq_bind, Option.bind_some, secs_fields, Option.pure_def]

theorem denotes_value {secs instant : Int} (returns : policyDate s = some (some secs))
    (denotes : Denotes s instant) : secs = instant := by
  rw [Denotes] at denotes
  cases integer : Text.parseI64 (Text.trim s.toList) with
  | some epoch =>
    rw [policyDate, integer] at returns
    rw [integer] at denotes
    cases returns
    exact denotes.symm
  | none =>
    rw [integer] at denotes
    obtain ⟨t, same, rfl⟩ := denotes
    rw [policyDate_bytes integer same] at returns
    split at returns
    · cases returns
    · cases returns
      rfl

theorem taken_iff : Taken s ↔ ∃ f, dateFields (utf8 s) = some f ∧ ZoneRead f.rest := by
  rw [Taken, dateFields]
  dsimp only
  simp only [List.forall_mem_cons, List.not_mem_nil, false_imp_iff, implies_true, and_true]
  constructor
  · rintro ⟨long, dash, dashes, between, colon, colons, ⟨y, mo, d, h, mi, sec⟩, zone⟩
    obtain ⟨y, year⟩ := Option.isSome_iff_exists.mp y
    obtain ⟨mo, month⟩ := Option.isSome_iff_exists.mp mo
    obtain ⟨d, day⟩ := Option.isSome_iff_exists.mp d
    obtain ⟨h, hour⟩ := Option.isSome_iff_exists.mp h
    obtain ⟨mi, minute⟩ := Option.isSome_iff_exists.mp mi
    obtain ⟨sec, second⟩ := Option.isSome_iff_exists.mp sec
    refine ⟨⟨y, mo, d, h, mi, sec, zoneText (utf8 s)⟩, ?_, zone⟩
    rw [if_neg, year, month, day, hour, minute, second]
    · rfl
    · rintro (short | wrong | wrong | wrong | wrong | wrong)
      · exact absurd long (Nat.not_le_of_lt short)
      · exact wrong dash
      · exact wrong dashes
      · exact wrong between
      · exact wrong colon
      · exact wrong colons
  · rintro ⟨f, read, zone⟩
    split at read
    · cases read
    · next shaped =>
        simp only [not_or, Decidable.not_not, Nat.not_lt] at shaped
        simp only [Option.bind_eq_bind, Option.bind_eq_some_iff] at read
        obtain ⟨y, year, mo, month, d, day, h, hour, mi, minute, sec, second, same⟩ := read
        cases same
        obtain ⟨long, dash, dashes, between, colon, colons⟩ := shaped
        rw [year, month, day, hour, minute, second]
        exact ⟨long, dash, dashes, Decidable.or_iff_not_not_and_not.mpr between, colon, colons, ⟨rfl, rfl, rfl, rfl, rfl, rfl⟩, zone⟩

theorem dateRight_iff (s : String) :
    DateRight s ↔ (Text.parseI64 (Text.trim s.toList)).isSome ∨ ¬Taken s ∨
      ∃ t : DateTime, utf8 s = t.bytes := by
  constructor
  · rintro ⟨result, returns, right⟩
    cases integer : Text.parseI64 (Text.trim s.toList) with
    | some epoch => exact .inl rfl
    | none =>
      by_cases taken : Taken s
      · obtain ⟨f, read, zone⟩ := taken_iff.mp taken
        rw [policyDate, integer] at returns
        dsimp only at returns
        rw [read] at returns
        obtain ⟨offset, zoneReturns, rest⟩ := Option.bind_eq_some_iff.mp returns
        cases offset with
        | none => exact absurd zone (zoneSecs_none.mp zoneReturns)
        | some offset =>
          obtain ⟨secs, _, same⟩ := Option.bind_eq_some_iff.mp rest
          have denotes := right secs (Option.some.inj same).symm
          rw [Denotes, integer] at denotes
          obtain ⟨t, written, _⟩ := denotes
          exact .inr (.inr ⟨t, written⟩)
      · exact .inr (.inl taken)
  · intro condition
    cases integer : Text.parseI64 (Text.trim s.toList) with
    | some epoch =>
      refine ⟨some epoch, by rw [policyDate, integer], ?_⟩
      intro secs same
      rw [Denotes, integer]
      exact (Option.some.inj same).symm
    | none =>
      rw [integer] at condition
      rcases condition with number | refused | ⟨t, written⟩
      · cases number
      · have returns : policyDate s = some none := by
          rw [policyDate, integer]
          dsimp only
          cases read : dateFields (utf8 s) with
          | none => rfl
          | some f =>
            have notRead : ¬ZoneRead f.rest := fun zone => refused (taken_iff.mpr ⟨f, read, zone⟩)
            dsimp only
            rw [zoneSecs_none.mpr notRead]
            rfl
        exact ⟨none, returns, nofun⟩
      · refine ⟨_, policyDate_bytes integer written, ?_⟩
        intro secs same
        rw [Denotes, integer]
        refine ⟨t, written, ?_⟩
        split at same
        · cases same
        · exact (Option.some.inj same).symm

/-- A date is read right, without an overflow, exactly if it is a number of seconds, refused, or in the
grammar; the conditions then compare the instants. -/
theorem policyDate_right_iff (s : String) :
    (DateRight s ↔ (Text.parseI64 (Text.trim s.toList)).isSome ∨ ¬Taken s ∨
      ∃ t : DateTime, utf8 s = t.bytes) ∧
    ∀ later low high, policyDate s = some (some low) → policyDate later = some (some high) →
      ∀ first second, Denotes s first → Denotes later second → first ≤ second → ∀ now,
        (DateOp.cmp now high .gt → DateOp.cmp now low .gt) ∧
        (DateOp.cmp now low .lt → DateOp.cmp now high .lt) ∧
        (DateOp.cmp now low .eq ↔ now = first) := by
  refine ⟨dateRight_iff s, ?_⟩
  intro later low high accepted acceptedLater first second denotes denotesLater before now
  rw [denotes_value accepted denotes, denotes_value acceptedLater denotesLater]
  simp only [DateOp.cmp, decide_eq_true_eq]
  refine ⟨?_, ?_, trivial⟩
  · intro above
    exact Int.lt_of_le_of_lt before above
  · intro below
    exact Int.lt_of_lt_of_le below before

/-- An offset that overflows, and a month that the year does not have. -/
theorem policyDate_misreads :
    ¬DateRight "2026-01-01T00:00:00+9999999999999999:00" ∧ ¬DateRight "2026-13-01T00:00:00Z" := by
  constructor
  · rintro ⟨result, returns, _⟩
    have overflow : policyDate "2026-01-01T00:00:00+9999999999999999:00" = none := by
      decide +kernel
    rw [overflow] at returns
    cases returns
  · rintro ⟨result, returns, right⟩
    have accepted : policyDate "2026-13-01T00:00:00Z" = some (some 1798761600) := by
      decide +kernel
    have notNumber : Text.parseI64 (Text.trim "2026-13-01T00:00:00Z".toList) = none := by
      decide +kernel
    rw [accepted] at returns
    have denotes := right 1798761600 (Option.some.inj returns).symm
    rw [Denotes, notNumber] at denotes
    obtain ⟨t, written, _⟩ := denotes
    have long : 20 ≤ t.bytes.length := by
      rw [← written]
      decide +kernel
    have month : (dateFields (utf8 "2026-13-01T00:00:00Z")).map (·.mo) = some 13 := by
      decide +kernel
    rw [written, dateFields_bytes t long] at month
    have same : (t.month : Int) = 13 := Option.some.inj month
    have bound := t.monthIn
    omega

end Results

end FastS3.S3
