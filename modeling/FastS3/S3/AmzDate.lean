import FastS3.S3.PolicyDate
import FastS3.S3.Signature

namespace FastS3.S3.SignedDate

open Data
open FastS3.Core (Bytes slice utf8)

/-! The date of a signed request: reading it, comparing it with the clock, and writing the clock.

A computation that panics has no result.  The texts of the requests come as they are, so a slice may cut a
character of several bytes.
-/

inductive AmzDateError where
  | malformed (message : String)
  | requestTimeTooSkewed (message : List Char)
deriving Repr, DecidableEq

abbrev Checked (α : Type) := Option (Except AmzDateError α)

def Checked.andThen {α β : Type} (first : Checked α) (next : α → Checked β) : Checked β :=
  first.bind fun result =>
    match result with
    | .ok value => next value
    | .error e => some (.error e)

def invalidDate : AmzDateError :=
  .malformed "invalid date"

def isCharBoundary (b : Bytes) (place : Nat) : Bool :=
  place = 0 || place = b.length ||
    match b[place]? with
    | some byte => byte < 128 || 192 ≤ byte
    | none => false

def strSlice (b : Bytes) (start stop : Nat) : Option Bytes :=
  if isCharBoundary b start && isCharBoundary b stop then some (slice b start (stop - start)) else none

def chars (b : Bytes) : List Char :=
  b.map fun byte => Char.ofNat byte.toNat

def parseSigned (b : Bytes) : Option Int :=
  Text.parseI64 (chars b)

def parseUnsigned (b : Bytes) : Option Int :=
  (Text.parseU32 (chars b)).map Int.ofNat

/-- `s[start..stop].parse()`. -/
def number (parse : Bytes → Option Int) (b : Bytes) (start stop : Nat) : Checked Int :=
  (strSlice b start stop).map fun part =>
    match parse part with
    | some value => .ok value
    | none => .error invalidDate

def daysFromCivilPub (y m d : Int) : Int :=
  let y := if m ≤ 2 then y - 1 else y
  let era := y / 400
  let yoe := y - era * 400
  let mp := (m + 9) % 12
  let doy := (153 * mp + 2) / 5 + d - 1
  let doe := yoe * 365 + yoe / 4 - yoe / 100 + doy
  era * 146097 + doe - 719468

/-- `UNIX_EPOCH + Duration::from_secs(secs as u64)`. -/
def systemTime (secs : Int) : Option Nat :=
  let unsigned := secs % 18446744073709551616
  if unsigned < 9223372036854775808 then some unsigned.toNat else none

def parseAmzDatetime (b : Bytes) : Checked Nat :=
  if b.length ≠ 16 ∨ b.getLast? ≠ some 'Z'.toUInt8 then some (.error (.malformed "invalid X-Amz-Date"))
  else
    (strSlice b 0 8).bind fun date =>
    (strSlice b 9 15).bind fun time =>
    (number parseSigned date 0 4).andThen fun y =>
    (number parseUnsigned date 4 6).andThen fun mo =>
    (number parseUnsigned date 6 8).andThen fun d =>
    (number parseUnsigned time 0 2).andThen fun h =>
    (number parseUnsigned time 2 4).andThen fun mi =>
    (number parseUnsigned time 4 6).andThen fun sec =>
      if ¬(1 ≤ y ∧ y ≤ 9999) ∨ ¬(1 ≤ mo ∧ mo ≤ 12) ∨ ¬(1 ≤ d ∧ d ≤ 31) then some (.error invalidDate)
      else if h > 23 ∨ mi > 59 ∨ sec > 59 then some (.error invalidDate)
      else (systemTime (daysFromCivilPub y mo d * 86400 + h * 3600 + mi * 60 + sec)).map .ok

def civilFromDays (z : Int) : Int × Int × Int :=
  let z := z + 719468
  let era := z / 146097
  let doe := z % 146097
  let yoe := (doe - doe / 1460 + doe / 36524 - doe / 146096) / 365
  let y := yoe + era * 400
  let doy := doe - (365 * yoe + yoe / 4 - yoe / 100)
  let mp := (5 * doy + 2) / 153
  let d := doy - (153 * mp + 2) / 5 + 1
  let m := if mp < 10 then mp + 3 else mp - 9
  (if m ≤ 2 then y + 1 else y, m, d)

def padded (width : Nat) (value : Int) : List Char :=
  let digits := Nat.toDigits 10 value.natAbs
  if value < 0 then '-' :: (List.replicate (width - 1 - digits.length) '0' ++ digits)
  else List.replicate (width - digits.length) '0' ++ digits

/-- The instant in nanoseconds, without those that are no whole second; 0 in front of the epoch. -/
def fmtNow (now : Int) : List Char :=
  let secs := max now 0 / 1000000000
  let sod := secs % 86400
  let (y, m, d) := civilFromDays (secs / 86400)
  padded 4 y ++ padded 2 m ++ padded 2 d ++ 'T' :: (padded 2 (sod / 3600) ++ padded 2 (sod % 3600 / 60) ++
    padded 2 (sod % 60) ++ ['Z'])

def maxSkew : Nat := 900000000000

def checkTimeSkew (amzDate : String) (now : Int) : Checked Unit :=
  (parseAmzDatetime (asBytes amzDate.toList)).andThen fun parsed =>
    let diff := (now - parsed * 1000000000).natAbs
    if diff > maxSkew then
      some (.error (.requestTimeTooSkewed (
        "The difference between the request time and the current time is too large. Server time: ".toList ++
          fmtNow now ++ ". Request time: ".toList ++ amzDate.toList)))
    else some (.ok ())

structure AmzDate where
  year : Nat
  month : Nat
  day : Nat
  hour : Nat
  minute : Nat
  second : Nat
  yearIn : 1 ≤ year ∧ year ≤ 9999
  monthIn : 1 ≤ month ∧ month ≤ 12
  dayIn : 1 ≤ day ∧ day ≤ monthLength year month
  hourIn : hour < 24
  minuteIn : minute < 60
  secondIn : second < 60

/-- `YYYYMMDDTHHMMSSZ`. -/
def AmzDate.bytes (t : AmzDate) : Bytes :=
  twoDigits (t.year / 100) ++ twoDigits (t.year % 100) ++ twoDigits t.month ++ twoDigits t.day ++
    'T'.toUInt8 :: (twoDigits t.hour ++ twoDigits t.minute ++ twoDigits t.second ++ ['Z'.toUInt8])

def AmzDate.instant (t : AmzDate) : Int :=
  ((dayNumber t.year t.month t.day * 24 + t.hour) * 60 + t.minute) * 60 + t.second

/-- The reading and the comparison of a text end; and what is accepted is a date, read and written as such. -/
structure DateSound (s : String) : Prop where
  parsed : parseAmzDatetime (asBytes s.toList) ≠ none
  skew : ∀ now, checkTimeSkew s now ≠ none
  accepted : ∀ secs, parseAmzDatetime (asBytes s.toList) = some (.ok secs) →
    ∃ t : AmzDate, asBytes s.toList = t.bytes ∧ (secs : Int) = t.instant ∧
      fmtNow (secs * 1000000000) = s.toList

def numbers : List ((Bytes → Option Int) × Nat × Nat) :=
  [(parseSigned, 0, 4), (parseUnsigned, 4, 6), (parseUnsigned, 6, 8), (parseUnsigned, 9, 11),
    (parseUnsigned, 11, 13), (parseUnsigned, 13, 15)]

def Cut (b : Bytes) : List ((Bytes → Option Int) × Nat × Nat) → Prop
  | [] => False
  | (parse, start, stop) :: rest =>
    ¬(isCharBoundary b start = true ∧ isCharBoundary b stop = true) ∨
      (parse (slice b start (stop - start))).isSome = true ∧ Cut b rest

structure Read (b : Bytes) (y mo d h mi sec : Int) : Prop where
  year : parseSigned (slice b 0 4) = some y
  month : parseUnsigned (slice b 4 2) = some mo
  day : parseUnsigned (slice b 6 2) = some d
  hour : parseUnsigned (slice b 9 2) = some h
  minute : parseUnsigned (slice b 11 2) = some mi
  second : parseUnsigned (slice b 13 2) = some sec
  date : (1 ≤ y ∧ y ≤ 9999) ∧ (1 ≤ mo ∧ mo ≤ 12) ∧ 1 ≤ d ∧ d ≤ 31
  time : h ≤ 23 ∧ mi ≤ 59 ∧ sec ≤ 59

/-- The slices cut no character as long as numbers stand in front, and what passes the checks is a date from
1970 on. -/
def WellDated (b : Bytes) : Prop :=
  b.length = 16 → b.getLast? = some 'Z'.toUInt8 →
    isCharBoundary b 8 = true ∧ isCharBoundary b 9 = true ∧ ¬ Cut b numbers ∧
      ∀ y mo d h mi sec, Read b y mo d h mi sec → ∃ t : AmzDate, 1970 ≤ t.year ∧ b = t.bytes

section Slices

variable {b : Bytes} {α β : Type}

theorem slice_slice (start len first count : Nat) (inside : first + count ≤ len) :
    slice (slice b start len) first count = slice b (start + first) count := by
  rw [slice, slice, slice, List.drop_take, List.take_take, List.drop_drop, Nat.min_eq_left (by omega)]

theorem isCharBoundary_slice {start stop place : Nat} (from_ : isCharBoundary b start = true)
    (to_ : isCharBoundary b stop = true) (bound : stop ≤ b.length) (inside : start + place ≤ stop) :
    isCharBoundary (slice b start (stop - start)) place = isCharBoundary b (start + place) := by
  have length : (slice b start (stop - start)).length = stop - start := by
    rw [slice, List.length_take, List.length_drop]
    omega
  by_cases first : place = 0
  · subst first
    rw [Nat.add_zero, from_]
    rfl
  · by_cases last : place = stop - start
    · have whole : start + place = stop := by omega
      rw [whole, to_, isCharBoundary, length]
      simp [last]
    · have entry : (slice b start (stop - start))[place]? = b[start + place]? := by
        rw [slice, List.getElem?_take_of_lt (by omega), List.getElem?_drop]
      rw [isCharBoundary, isCharBoundary, length, entry]
      simp [first, last, show ¬start + place = b.length by omega]

theorem number_slice {parse : Bytes → Option Int} {start stop first last : Nat}
    (from_ : isCharBoundary b start = true) (to_ : isCharBoundary b stop = true) (bound : stop ≤ b.length)
    (order : first ≤ last) (inside : start + last ≤ stop) :
    number parse (slice b start (stop - start)) first last = number parse b (start + first) (start + last) := by
  rw [number, number, strSlice, strSlice, isCharBoundary_slice from_ to_ bound (by omega),
    isCharBoundary_slice from_ to_ bound inside, slice_slice _ _ _ _ (by omega),
    show start + last - (start + first) = last - first by omega]

end Slices

section Runs

variable {b : Bytes}

theorem parseAmzDatetime_eq (long : b.length = 16) (ends : b.getLast? = some 'Z'.toUInt8)
    (dated : isCharBoundary b 8 = true) (timed : isCharBoundary b 9 = true) :
    parseAmzDatetime b =
      ((number parseSigned b 0 4).andThen fun y =>
      (number parseUnsigned b 4 6).andThen fun mo =>
      (number parseUnsigned b 6 8).andThen fun d =>
      (number parseUnsigned b 9 11).andThen fun h =>
      (number parseUnsigned b 11 13).andThen fun mi =>
      (number parseUnsigned b 13 15).andThen fun sec =>
        if ¬(1 ≤ y ∧ y ≤ 9999) ∨ ¬(1 ≤ mo ∧ mo ≤ 12) ∨ ¬(1 ≤ d ∧ d ≤ 31) then some (.error invalidDate)
        else if h > 23 ∨ mi > 59 ∨ sec > 59 then some (.error invalidDate)
        else (systemTime (daysFromCivilPub y mo d * 86400 + h * 3600 + mi * 60 + sec)).map .ok) := by
  have last : isCharBoundary b 15 = true := by
    have byte : b[15]? = some 'Z'.toUInt8 := by
      rw [← ends, List.getLast?_eq_getElem?, long]
    rw [isCharBoundary, byte]
    exact Bool.or_eq_true_iff.mpr (.inr (by decide))
  have none : isCharBoundary b 0 = true := rfl
  have date : strSlice b 0 8 = some (slice b 0 (8 - 0)) := by
    rw [strSlice, none, dated]
    rfl
  have time : strSlice b 9 15 = some (slice b 9 (15 - 9)) := by
    rw [strSlice, timed, last]
    rfl
  have bound : 15 ≤ b.length := by omega
  rw [parseAmzDatetime, if_neg (by simp [long, ends]), date, time, Option.bind_some, Option.bind_some,
    number_slice none dated (by omega) (by decide) (by decide),
    number_slice none dated (by omega) (by decide) (by decide),
    number_slice none dated (by omega) (by decide) (by decide),
    number_slice timed last bound (by decide) (by decide),
    number_slice timed last bound (by decide) (by decide),
    number_slice timed last bound (by decide) (by decide)]

def readNumbers (b : Bytes) : List ((Bytes → Option Int) × Nat × Nat) → Checked (List Int)
  | [] => some (.ok [])
  | (parse, start, stop) :: rest =>
    (number parse b start stop).andThen fun value =>
      (readNumbers b rest).andThen fun values => some (.ok (value :: values))

theorem readNumbers_cases (fields : List ((Bytes → Option Int) × Nat × Nat)) :
    (readNumbers b fields = none ∧ Cut b fields) ∨
      ((∃ e, readNumbers b fields = some (.error e)) ∧ ¬ Cut b fields ∧
        ∃ field ∈ fields, field.1 (slice b field.2.1 (field.2.2 - field.2.1)) = none) ∨
      ∃ values, readNumbers b fields = some (.ok values) ∧ ¬ Cut b fields ∧
        fields.Forall₂ (fun field value => field.1 (slice b field.2.1 (field.2.2 - field.2.1)) = some value)
          values := by
  induction fields with
  | nil => exact .inr (.inr ⟨[], rfl, id, .nil⟩)
  | cons field rest ih =>
    obtain ⟨parse, start, stop⟩ := field
    simp only [readNumbers, Cut, Checked.andThen, number, strSlice]
    by_cases whole : isCharBoundary b start = true ∧ isCharBoundary b stop = true
    · cases parsed : parse (slice b start (stop - start)) with
      | none =>
        refine .inr (.inl ⟨⟨invalidDate, by simp [whole, parsed]⟩, by simp [whole], ?_⟩)
        exact ⟨_, List.mem_cons_self, parsed⟩
      | some value =>
        rcases ih with ⟨read, cut⟩ | ⟨⟨e, read⟩, cut, field, member, unread⟩ | ⟨values, read, cut, values_⟩
        · exact .inl ⟨by simp [whole, parsed, read], .inr ⟨rfl, cut⟩⟩
        · refine .inr (.inl ⟨⟨e, by simp [whole, parsed, read]⟩, by simp [whole, cut], ?_⟩)
          exact ⟨field, List.mem_cons_of_mem _ member, unread⟩
        · exact .inr (.inr ⟨value :: values, by simp [whole, parsed, read], by simp [whole, cut],
            .cons parsed values_⟩)
    · exact .inl ⟨by simp [whole], .inl whole⟩

theorem andThen_assoc {α β γ : Type} (first : Checked α) (next : α → Checked β) (last : β → Checked γ) :
    (first.andThen next).andThen last = first.andThen fun value => (next value).andThen last := by
  rcases first with _ | (e | value) <;> rfl

def dateOf : List Int → Checked Nat
  | [y, mo, d, h, mi, sec] =>
    if ¬(1 ≤ y ∧ y ≤ 9999) ∨ ¬(1 ≤ mo ∧ mo ≤ 12) ∨ ¬(1 ≤ d ∧ d ≤ 31) then some (.error invalidDate)
    else if h > 23 ∨ mi > 59 ∨ sec > 59 then some (.error invalidDate)
    else (systemTime (daysFromCivilPub y mo d * 86400 + h * 3600 + mi * 60 + sec)).map .ok
  | _ => none

theorem parseAmzDatetime_cases (long : b.length = 16) (ends : b.getLast? = some 'Z'.toUInt8)
    (dated : isCharBoundary b 8 = true) (timed : isCharBoundary b 9 = true) :
    (parseAmzDatetime b = none ∧ Cut b numbers) ∨
      ((∃ e, parseAmzDatetime b = some (.error e)) ∧ ¬ Cut b numbers ∧
        ∀ y mo d h mi sec, ¬ Read b y mo d h mi sec) ∨
      ∃ y mo d h mi sec, Read b y mo d h mi sec ∧ ¬ Cut b numbers ∧ parseAmzDatetime b =
        (systemTime (daysFromCivilPub y mo d * 86400 + h * 3600 + mi * 60 + sec)).map .ok := by
  have run : parseAmzDatetime b = (readNumbers b numbers).andThen dateOf := by
    rw [parseAmzDatetime_eq long ends dated timed]
    simp only [numbers, readNumbers, andThen_assoc]
    rfl
  rw [run]
  rcases readNumbers_cases (b := b) numbers with ⟨read, cut⟩ | ⟨⟨e, read⟩, cut, field, member, unread⟩ |
    ⟨values, read, cut, values_⟩
  · exact .inl ⟨by rw [read]; rfl, cut⟩
  · refine .inr (.inl ⟨⟨e, by rw [read]; rfl⟩, cut, fun y mo d h mi sec whole => ?_⟩)
    simp only [numbers, List.mem_cons, List.not_mem_nil, or_false] at member
    rcases member with rfl | rfl | rfl | rfl | rfl | rfl
    · exact absurd (whole.year.symm.trans unread) (by simp)
    · exact absurd (whole.month.symm.trans unread) (by simp)
    · exact absurd (whole.day.symm.trans unread) (by simp)
    · exact absurd (whole.hour.symm.trans unread) (by simp)
    · exact absurd (whole.minute.symm.trans unread) (by simp)
    · exact absurd (whole.second.symm.trans unread) (by simp)
  · obtain ⟨y, _, year, months, rfl⟩ := List.forall₂_cons_left_iff.mp values_
    obtain ⟨mo, _, month, days, rfl⟩ := List.forall₂_cons_left_iff.mp months
    obtain ⟨d, _, day, hours, rfl⟩ := List.forall₂_cons_left_iff.mp days
    obtain ⟨h, _, hour, minutes, rfl⟩ := List.forall₂_cons_left_iff.mp hours
    obtain ⟨mi, _, minute, seconds, rfl⟩ := List.forall₂_cons_left_iff.mp minutes
    obtain ⟨sec, _, second, nothing, rfl⟩ := List.forall₂_cons_left_iff.mp seconds
    obtain rfl := List.forall₂_nil_left_iff.mp nothing
    have ended : (readNumbers b numbers).andThen dateOf = dateOf [y, mo, d, h, mi, sec] := by
      rw [read]
      rfl
    rw [ended]
    -- the ranges are those of the numbers that were read
    have known : ∀ y' mo' d' h' mi' sec', Read b y' mo' d' h' mi' sec' →
        ((1 ≤ y ∧ y ≤ 9999) ∧ (1 ≤ mo ∧ mo ≤ 12) ∧ 1 ≤ d ∧ d ≤ 31) ∧ h ≤ 23 ∧ mi ≤ 59 ∧ sec ≤ 59 := by
      intro y' mo' d' h' mi' sec' whole
      obtain rfl := Option.some.inj (year.symm.trans whole.year)
      obtain rfl := Option.some.inj (month.symm.trans whole.month)
      obtain rfl := Option.some.inj (day.symm.trans whole.day)
      obtain rfl := Option.some.inj (hour.symm.trans whole.hour)
      obtain rfl := Option.some.inj (minute.symm.trans whole.minute)
      obtain rfl := Option.some.inj (second.symm.trans whole.second)
      exact ⟨whole.date, whole.time⟩
    rw [dateOf]
    split
    · next outside =>
        refine .inr (.inl ⟨⟨_, rfl⟩, cut, fun y' mo' d' h' mi' sec' whole => ?_⟩)
        have ranges := known _ _ _ _ _ _ whole
        omega
    · next inside =>
        split
        · next outside =>
            refine .inr (.inl ⟨⟨_, rfl⟩, cut, fun y' mo' d' h' mi' sec' whole => ?_⟩)
            have ranges := known _ _ _ _ _ _ whole
            omega
        · next timed =>
            exact .inr (.inr ⟨y, mo, d, h, mi, sec, ⟨year, month, day, hour, minute, second, by omega,
              by omega⟩, cut, rfl⟩)

end Runs

section Dates

theorem daysFromCivilPub_eq {year month : Nat} (day : Nat) (first : 1 ≤ month) (last : month ≤ 12) :
    daysFromCivilPub year month day = dayNumber year month day := by
  rw [← daysFromCivil_eq day first last, daysFromCivilPub, daysFromCivil]
  split <;> split <;> omega

theorem yoe_of_doe {yoe doy doe : Int} (range : 0 ≤ yoe ∧ yoe < 400) (days : 0 ≤ doy ∧ doy ≤ 365)
    (leap : doy = 365 → (yoe + 1) % 4 = 0 ∧ ((yoe + 1) % 100 ≠ 0 ∨ yoe = 399))
    (whole : doe = yoe * 365 + yoe / 4 - yoe / 100 + doy) :
    (0 ≤ doe ∧ doe < 146097) ∧ (doe - doe / 1460 + doe / 36524 - doe / 146096) / 365 = yoe := by
  refine ⟨by omega, ?_⟩
  obtain ⟨century, same⟩ : ∃ century, century = yoe / 100 := ⟨_, rfl⟩
  have first : doe / 36524 = century ∨ doe / 36524 = century + 1 := by omega
  have second : doe / 146096 = 0 ∨ doe / 146096 = 1 := by omega
  have centuries : century = 0 ∨ century = 1 ∨ century = 2 ∨ century = 3 := by omega
  rcases centuries with rfl | rfl | rfl | rfl <;> omega

theorem civilFromDays_shifted {y mp d : Int} (months : 0 ≤ mp ∧ mp ≤ 11)
    (found : (5 * ((153 * mp + 2) / 5 + d - 1) + 2) / 153 = mp)
    (leap : (153 * mp + 2) / 5 + d - 1 ≤ 365 ∧ ((153 * mp + 2) / 5 + d - 1 = 365 →
      (y % 400 + 1) % 4 = 0 ∧ ((y % 400 + 1) % 100 ≠ 0 ∨ y % 400 = 399))) :
    civilFromDays (y / 400 * 146097 + (y % 400 * 365 + y % 400 / 4 - y % 400 / 100 +
        ((153 * mp + 2) / 5 + d - 1)) - 719468) =
      (if mp < 10 then y else y + 1, if mp < 10 then mp + 3 else mp - 9, d) := by
  obtain ⟨doy, doy_⟩ : ∃ doy, doy = (153 * mp + 2) / 5 + d - 1 := ⟨_, rfl⟩
  obtain ⟨doe, doe_⟩ : ∃ doe, doe = y % 400 * 365 + y % 400 / 4 - y % 400 / 100 + doy := ⟨_, rfl⟩
  rw [← doy_] at found leap ⊢
  rw [← doe_]
  have range : 0 ≤ y % 400 ∧ y % 400 < 400 := by omega
  obtain ⟨inside, yoe⟩ := yoe_of_doe range (by omega) leap.2 doe_
  have era : (y / 400 * 146097 + doe - 719468 + 719468) / 146097 = y / 400 := by omega
  have rest : (y / 400 * 146097 + doe - 719468 + 719468) % 146097 = doe := by omega
  have day : doe - (365 * (y % 400) + y % 400 / 4 - y % 400 / 100) = doy := by omega
  simp only [civilFromDays, era, rest, yoe, day, found, Prod.mk.injEq]
  refine ⟨?_, trivial, by omega⟩
  split <;> split <;> omega

theorem civilFromDays_dayNumber {year month day : Nat} (monthIn : 1 ≤ month ∧ month ≤ 12)
    (dayIn : 1 ≤ day ∧ day ≤ monthLength year month) :
    civilFromDays (dayNumber year month day) = ((year : Int), (month : Int), (day : Int)) := by
  obtain ⟨first, last⟩ := monthIn
  obtain ⟨y, y_⟩ : ∃ y : Int, y = if (month : Int) ≤ 2 then (year : Int) - 1 else year := ⟨_, rfl⟩
  obtain ⟨mp, mp_⟩ : ∃ mp : Int, mp = ((month : Int) + 9) % 12 := ⟨_, rfl⟩
  have leap : isLeap year = true ↔ year % 4 = 0 ∧ (year % 100 ≠ 0 ∨ year % 400 = 0) := decide_eq_true_iff
  have days : (5 * ((153 * mp + 2) / 5 + day - 1) + 2) / 153 = mp ∧ (153 * mp + 2) / 5 + day - 1 ≤ 365 ∧
      ((153 * mp + 2) / 5 + (day : Int) - 1 = 365 → (y % 400 + 1) % 4 = 0 ∧
        ((y % 400 + 1) % 100 ≠ 0 ∨ y % 400 = 399)) := by
    obtain ⟨from_, to_⟩ := dayIn
    by_cases leapYear : isLeap year = true
    · have divides := leap.mp leapYear
      interval_cases month <;> simp only [monthLength, if_pos leapYear] at to_ <;> omega
    · interval_cases month <;> simp only [monthLength, if_neg leapYear] at to_ <;> omega
  have early : mp = if (month : Int) ≤ 2 then (month : Int) + 9 else month - 3 := by
    split <;> omega
  have shifted := @civilFromDays_shifted y mp day (by omega) days.1 days.2
  have yoe : y - y / 400 * 400 = y % 400 := by omega
  rw [← daysFromCivilPub_eq day first last, daysFromCivilPub]
  simp only [← y_, ← mp_, yoe]
  rw [shifted, Prod.mk.injEq, Prod.mk.injEq]
  refine ⟨?_, ?_, rfl⟩
  · split at y_ <;> split at early <;> split <;> omega
  · split at early <;> split <;> omega

theorem daysFromCivilPub_nonneg {y m d : Int} (months : 1 ≤ m ∧ m ≤ 12) (days : 1 ≤ d ∧ d ≤ 31) :
    0 ≤ daysFromCivilPub y m d ↔ 1970 ≤ y := by
  obtain ⟨shifted, shifted_⟩ : ∃ shifted, shifted = if m ≤ 2 then y - 1 else y := ⟨_, rfl⟩
  have eras := eraDays_eq shifted
  have yoe : shifted - shifted / 400 * 400 = shifted % 400 := by omega
  have doy : if m ≤ 2 then 306 ≤ (153 * ((m + 9) % 12) + 2) / 5 ∧ (153 * ((m + 9) % 12) + 2) / 5 ≤ 337 else
      0 ≤ (153 * ((m + 9) % 12) + 2) / 5 ∧ (153 * ((m + 9) % 12) + 2) / 5 ≤ 275 := by
    split <;> omega
  simp only [daysFromCivilPub, ← shifted_, yoe]
  generalize (153 * ((m + 9) % 12) + 2) / 5 = months at doy ⊢
  split at shifted_ <;> simp only [*, if_true, if_false] at doy <;> omega

theorem padded_two {value : Nat} (short : value < 100) : asBytes (padded 2 value) = twoDigits value := by
  rw [asBytes_eq]
  obtain ⟨value, rfl⟩ : ∃ n : Fin 100, n.val = value := ⟨⟨value, short⟩, rfl⟩
  revert value
  decide +kernel

theorem parseUnsigned_twoDigits {value : Nat} (short : value < 100) :
    parseUnsigned (twoDigits value) = some (value : Int) := by
  obtain ⟨value, rfl⟩ : ∃ n : Fin 100, n.val = value := ⟨⟨value, short⟩, rfl⟩
  revert value
  decide +kernel

theorem asBytes_append (left right : List Char) : asBytes (left ++ right) = asBytes left ++ asBytes right := by
  rw [asBytes_eq, asBytes_eq, asBytes_eq, List.flatMap_append]

theorem utf8EncodeChar_digit {digit : Nat} (short : digit < 10) :
    String.utf8EncodeChar (Nat.digitChar digit) = [digitByte digit] := by
  obtain ⟨digit, rfl⟩ : ∃ n : Fin 10, n.val = digit := ⟨⟨digit, short⟩, rfl⟩
  revert digit
  decide +kernel

theorem padded_four {value : Nat} (short : value < 10000) (long : 1000 ≤ value) :
    asBytes (padded 4 value) = twoDigits (value / 100) ++ twoDigits (value % 100) := by
  have digits : Nat.toDigits 10 value = [Nat.digitChar (value / 100 / 10), Nat.digitChar (value / 100 % 10),
      Nat.digitChar (value % 100 / 10), Nat.digitChar (value % 100 % 10)] := by
    rw [Nat.toDigits_eq_if (by decide), if_neg (by omega), Nat.toDigits_eq_if (by decide), if_neg (by omega),
      Nat.toDigits_eq_if (by decide), if_neg (by omega), Nat.toDigits_of_lt_base (by omega)]
    simp only [List.cons_append, List.nil_append, List.cons.injEq, and_true]
    refine ⟨?_, ?_, ?_, ?_⟩ <;> congr 1 <;> omega
  have text : padded 4 value = Nat.toDigits 10 value := by
    rw [padded, if_neg (by omega), Int.natAbs_natCast, digits]
    rfl
  rw [text, digits, asBytes_eq]
  simp only [List.flatMap_cons, List.flatMap_nil, utf8EncodeChar_digit (show value / 100 / 10 < 10 by omega),
    utf8EncodeChar_digit (show value / 100 % 10 < 10 by omega),
    utf8EncodeChar_digit (show value % 100 / 10 < 10 by omega),
    utf8EncodeChar_digit (show value % 100 % 10 < 10 by omega)]
  rfl

variable (t : AmzDate)

theorem AmzDate.read : Read t.bytes t.year t.month t.day t.hour t.minute t.second := by
  have days := monthLength_le t.year t.month
  obtain ⟨⟨first, last⟩, ⟨firstMonth, lastMonth⟩, firstDay, lastDay⟩ := And.intro t.yearIn (And.intro t.monthIn t.dayIn)
  have hour := t.hourIn
  have minute := t.minuteIn
  have second := t.secondIn
  exact ⟨parseI64_fourDigits (by omega), parseUnsigned_twoDigits (by omega), parseUnsigned_twoDigits (by omega),
    parseUnsigned_twoDigits (by omega), parseUnsigned_twoDigits (by omega), parseUnsigned_twoDigits (by omega),
    by omega, by omega⟩

theorem AmzDate.instant_nonneg : 0 ≤ t.instant ↔ 1970 ≤ t.year := by
  have days := monthLength_le t.year t.month
  have monthIn := t.monthIn
  have dayIn := t.dayIn
  have recent := @daysFromCivilPub_nonneg t.year t.month t.day (by omega) (by omega)
  rw [daysFromCivilPub_eq t.day monthIn.1 monthIn.2] at recent
  have hour := t.hourIn
  have minute := t.minuteIn
  have second := t.secondIn
  rw [AmzDate.instant]
  omega

theorem AmzDate.instant_bound : -1000000000000 < t.instant ∧ t.instant < 1000000000000 := by
  have days := monthLength_le t.year t.month
  have yearIn := t.yearIn
  have monthIn := t.monthIn
  have dayIn := t.dayIn
  have bound : dayNumber t.year t.month t.day < 10000000 ∧ -10000000 < dayNumber t.year t.month t.day := by
    rw [← daysFromCivilPub_eq t.day monthIn.1 monthIn.2, daysFromCivilPub]
    split <;> omega
  have hour := t.hourIn
  have minute := t.minuteIn
  have second := t.secondIn
  rw [AmzDate.instant]
  omega

theorem AmzDate.systemTime_eq : systemTime t.instant = if 1970 ≤ t.year then some t.instant.toNat else none := by
  have sign := t.instant_nonneg
  have bound := t.instant_bound
  rw [systemTime]
  split_ifs
  · rw [Int.emod_eq_of_lt (by omega) (by omega)]
  · omega
  · omega
  · rfl

theorem AmzDate.written (recent : 1970 ≤ t.year) : asBytes (fmtNow (t.instant * 1000000000)) = t.bytes := by
  have days := monthLength_le t.year t.month
  have monthIn := t.monthIn
  have dayIn := t.dayIn
  have hour := t.hourIn
  have minute := t.minuteIn
  have second := t.secondIn
  have future := t.instant_nonneg.mpr recent
  have secs : max (t.instant * 1000000000) 0 / 1000000000 = t.instant := by
    omega
  have day : t.instant / 86400 = dayNumber t.year t.month t.day := by
    rw [AmzDate.instant]
    omega
  have hours : t.instant % 86400 / 3600 = t.hour := by
    rw [AmzDate.instant]
    omega
  have minutes : t.instant % 86400 % 3600 / 60 = t.minute := by
    rw [AmzDate.instant]
    omega
  have seconds : t.instant % 86400 % 60 = t.second := by
    rw [AmzDate.instant]
    omega
  have letter : ∀ c : Char, c.val.toNat ≤ 127 → ∀ rest, asBytes (c :: rest) = c.toUInt8 :: asBytes rest := by
    intro c ascii rest
    rw [asBytes_eq, asBytes_eq, List.flatMap_cons, String.utf8EncodeChar, if_pos ascii]
    rfl
  have nothing : asBytes [] = [] := asBytes_eq []
  have yearIn := t.yearIn
  simp only [fmtNow, secs, day, civilFromDays_dayNumber monthIn dayIn, hours, minutes, seconds, asBytes_append,
    letter 'T' (by decide), letter 'Z' (by decide), nothing, padded_four (show t.year < 10000 by omega) (by omega),
    padded_two (show t.month < 100 by omega), padded_two (show t.day < 100 by omega),
    padded_two (show t.hour < 100 by omega), padded_two (show t.minute < 100 by omega),
    padded_two (show t.second < 100 by omega), AmzDate.bytes]

variable {t}

theorem Read.instant {y mo d h mi sec : Int} (read : Read t.bytes y mo d h mi sec) :
    daysFromCivilPub y mo d * 86400 + h * 3600 + mi * 60 + sec = t.instant := by
  obtain rfl := Option.some.inj (read.year.symm.trans t.read.year)
  obtain rfl := Option.some.inj (read.month.symm.trans t.read.month)
  obtain rfl := Option.some.inj (read.day.symm.trans t.read.day)
  obtain rfl := Option.some.inj (read.hour.symm.trans t.read.hour)
  obtain rfl := Option.some.inj (read.minute.symm.trans t.read.minute)
  obtain rfl := Option.some.inj (read.second.symm.trans t.read.second)
  rw [daysFromCivilPub_eq t.day t.monthIn.1 t.monthIn.2, AmzDate.instant]
  omega

end Dates

section Sound

variable {b : Bytes} {s : String}

theorem parseAmzDatetime_refused (other : b.length ≠ 16 ∨ b.getLast? ≠ some 'Z'.toUInt8) :
    parseAmzDatetime b = some (.error (.malformed "invalid X-Amz-Date")) := by
  rw [parseAmzDatetime, if_pos other]

theorem boundaries_of_some (long : b.length = 16) (ends : b.getLast? = some 'Z'.toUInt8)
    (some_ : parseAmzDatetime b ≠ none) : isCharBoundary b 8 = true ∧ isCharBoundary b 9 = true := by
  rw [parseAmzDatetime, if_neg (by simp [long, ends])] at some_
  constructor
  · by_contra cut
    simp [strSlice, cut] at some_
  · by_contra cut
    simp [strSlice, cut] at some_

/-- A date is read and compared soundly exactly if it is well dated. -/
theorem amzDate_sound_iff : DateSound s ↔ WellDated (asBytes s.toList) := by
  constructor
  · intro sound long ends
    obtain ⟨dated, timed⟩ := boundaries_of_some long ends sound.parsed
    rcases parseAmzDatetime_cases long ends dated timed with ⟨panics, -⟩ | ⟨-, cut, unread⟩ |
      ⟨y, mo, d, h, mi, sec, read, cut, run⟩
    · exact absurd panics sound.parsed
    · exact ⟨dated, timed, cut, fun y mo d h mi sec read => absurd read (unread y mo d h mi sec)⟩
    · refine ⟨dated, timed, cut, fun _ _ _ _ _ _ _ => ?_⟩
      cases taken : systemTime (daysFromCivilPub y mo d * 86400 + h * 3600 + mi * 60 + sec) with
      | none =>
        rw [taken] at run
        exact absurd run sound.parsed
      | some secs =>
        rw [taken] at run
        obtain ⟨t, same, -, -⟩ := sound.accepted secs run
        rw [same] at read
        rw [read.instant, t.systemTime_eq] at taken
        refine ⟨t, ?_, same⟩
        by_contra early
        rw [if_neg early] at taken
        cases taken
  · intro dated
    -- a text that is taken is a date, and the system can tell it
    have cases_ : (∃ e, parseAmzDatetime (asBytes s.toList) = some (.error e)) ∨
        ∃ t : AmzDate, 1970 ≤ t.year ∧ asBytes s.toList = t.bytes ∧
          parseAmzDatetime (asBytes s.toList) = some (.ok t.instant.toNat) ∧ (t.instant.toNat : Int) = t.instant := by
      by_cases form : (asBytes s.toList).length = 16 ∧ (asBytes s.toList).getLast? = some 'Z'.toUInt8
      · obtain ⟨before, behind, cut, dates⟩ := dated form.1 form.2
        rcases parseAmzDatetime_cases form.1 form.2 before behind with ⟨-, impossible⟩ | ⟨refused, -, -⟩ |
          ⟨y, mo, d, h, mi, sec, read, -, run⟩
        · exact absurd impossible cut
        · exact .inl refused
        · obtain ⟨t, recent, same⟩ := dates y mo d h mi sec read
          rw [same] at read
          rw [read.instant, t.systemTime_eq, if_pos recent] at run
          exact .inr ⟨t, recent, same, run, Int.toNat_of_nonneg (t.instant_nonneg.mpr recent)⟩
      · exact .inl ⟨_, parseAmzDatetime_refused (by tauto)⟩
    refine ⟨?_, ?_, ?_⟩
    · rcases cases_ with ⟨e, read⟩ | ⟨t, -, -, read, -⟩ <;> simp [read]
    · intro now
      rw [checkTimeSkew]
      rcases cases_ with ⟨e, read⟩ | ⟨t, -, -, read, -⟩
      · simp [read, Checked.andThen]
      · rw [read]
        simp only [Checked.andThen, Option.bind_some]
        split <;> simp
    · intro secs accepted
      rcases cases_ with ⟨e, read⟩ | ⟨t, recent, same, read, instant⟩
      · rw [read] at accepted
        cases accepted
      · rw [read] at accepted
        cases accepted
        refine ⟨t, same, instant, asBytes_inj ?_⟩
        rw [instant, t.written recent, same]

/-- The last day of February 1969, and a day that February does not have. -/
theorem dates_unsound : ¬ (∀ s, DateSound s) ∧ parseAmzDatetime (asBytes "19690228T000000Z".toList) = none ∧
    parseAmzDatetime (asBytes "20240230T000000Z".toList) =
      parseAmzDatetime (asBytes "20240301T000000Z".toList) := by
  refine ⟨fun sound => ?_, by decide +kernel, by decide +kernel⟩
  exact absurd (by decide +kernel) (sound "19690228T000000Z").parsed

end Sound

end FastS3.S3.SignedDate
