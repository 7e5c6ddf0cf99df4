import FastS3.Data.Text

namespace FastS3.S3.ByteRanges

open Data Text

/-! The ranges of a request: `parse_range_multi`, `multipart_byte_length` and the body that is
rendered for them. -/

def toUtf8 (text : List Char) : List UInt8 :=
  text.flatMap String.utf8EncodeChar

/-- `S3ErrorCode::InvalidArgument` with its message. -/
structure InvalidArgument where
  message : String
  deriving DecidableEq

def invalid : InvalidArgument := ⟨"invalid Range"⟩

structure RangePart where
  start : Nat
  stop : Nat
  deriving DecidableEq

def keep (start stop : Nat) : Option RangePart :=
  if stop < start then none else some ⟨start, stop⟩

def readEnd (size : Nat) (b : List Char) : Except InvalidArgument Nat :=
  if b = [] then .ok (size - 1)
  else
    match parseU64 b with
    | none => .error invalid
    | some e => .ok (min e (size - 1))

/-- One element of the list, without white space around it; `none` where it is ignored. -/
def readSubRange (size : Nat) (raw : List Char) : Except InvalidArgument (Option RangePart) :=
  if raw = [] then .ok none
  else
    match splitOnce '-' raw with
    | none => .error invalid
    | some (a, b) =>
      if a = [] ∧ b = [] then .ok none
      else if a = [] then
        match parseU64 b with
        | none => .error invalid
        | some n => .ok (if n = 0 ∨ size = 0 then none else some ⟨size - n, size - 1⟩)
      else
        match parseU64 a with
        | none => .error invalid
        | some start =>
          -- the second number is not looked at
          if size ≤ start then .ok none else (readEnd size b).map (keep start)

/-- `saturating_add(1)`. -/
def next (stop : Nat) : Nat :=
  min (stop + 1) 18446744073709551615

/-- The loop over the sorted parts; `last` is the part that was pushed last. -/
def mergeInto (last : RangePart) : List RangePart → List RangePart
  | [] => [last]
  | p :: rest =>
    if p.start ≤ next last.stop then mergeInto ⟨last.start, max last.stop p.stop⟩ rest
    else last :: mergeInto p rest

def mergeParts : List RangePart → List RangePart
  | [] => []
  | p :: rest => mergeInto p rest

/-- What follows `bytes=`, if there is something. -/
def rangeBody (h : List Char) : Option (List Char) :=
  (afterHead "bytes=".toList (trim h)).filter (· ≠ [])

def parseRangeMulti (h : List Char) (size : UInt64) : Except InvalidArgument (List RangePart) :=
  match rangeBody h with
  | none => .error invalid
  | some body => do
      let found ← (body.splitOn ',').mapM fun raw => readSubRange size.toNat (trim raw)
      return mergeParts ((found.filterMap id).mergeSort fun p q => p.start ≤ q.start)

/-- `to_string` of a number. -/
def decimal (n : Nat) : List Char :=
  Nat.toDigits 10 n

/-- The header of a part, in the closure `per_part_header`. -/
def perPartHeader (boundary partContentType : List Char) (total : Nat) (p : RangePart) : List Char :=
  "--".toList ++ boundary ++ "\r\nContent-Type: ".toList ++ partContentType ++
    "\r\nContent-Range: bytes ".toList ++ decimal p.start ++ "-".toList ++ decimal p.stop ++
    "/".toList ++ decimal total ++ "\r\n\r\n".toList

def tail (boundary : List Char) : List Char :=
  "--".toList ++ boundary ++ "--\r\n".toList

/-- `len() as u64`. -/
def len (text : List Char) : UInt64 :=
  .ofNat (toUtf8 text).length

def multipartByteLength (boundary partContentType : List Char) (ranges : List RangePart)
    (total : UInt64) : UInt64 :=
  let data := (ranges.map fun p => UInt64.ofNat p.stop - UInt64.ofNat p.start + 1).sum
  let headers := (ranges.map fun p => len (perPartHeader boundary partContentType total.toNat p)).sum
  let crlf := 2 * UInt64.ofNat ranges.length
  headers + data + crlf + len (tail boundary)

def sentRange (boundary partContentType : List Char) (content : List UInt8) (p : RangePart) :
    List UInt8 :=
  toUtf8 ("--".toList ++ boundary ++ "\r\nContent-Type: ".toList ++ partContentType ++
      "\r\nContent-Range: bytes ".toList ++ decimal p.start ++ "-".toList ++ decimal p.stop ++
      "/".toList ++ decimal content.length ++ "\r\n\r\n".toList) ++
    (content.drop p.start).take (p.stop - p.start + 1) ++ toUtf8 "\r\n".toList

/-- The body of `ResponseBody::MultiRange`. -/
def multiRangeBody (boundary partContentType : List Char) (content : List UInt8)
    (ranges : List RangePart) : List UInt8 :=
  ranges.flatMap (sentRange boundary partContentType content) ++
    toUtf8 ("--".toList ++ boundary ++ "--\r\n".toList)

/-- The forms of an element: nothing, `-N`, `N-` and `N-N`, where a number is a row of digits.
A lone `-` selects nothing. -/
inductive SubRange where
  | nothing
  | suffix (count : Nat)
  | behind (first : Nat)
  | between (first last : Nat)

def subRange (raw : List Char) : Option SubRange :=
  if raw = [] then some .nothing
  else
    match splitOnce '-' raw with
    | none => none
    | some (a, b) =>
      if a = [] ∧ b = [] then some .nothing
      else if a = [] then (parseDigits b).map .suffix
      else (parseDigits a).bind fun first =>
        if b = [] then some (.behind first) else (parseDigits b).map (.between first)

def SubRange.Selects (size x : Nat) : SubRange → Prop
  | .nothing => False
  | .suffix count => x < size ∧ size ≤ x + count
  | .behind first => first ≤ x ∧ x < size
  | .between first last => first ≤ x ∧ x ≤ last ∧ x < size

def ValidHeader (h : List Char) : Prop :=
  ∃ body, rangeBody h = some body ∧ ∀ raw ∈ body.splitOn ',', (subRange (trim raw)).isSome

def Selected (h : List Char) (size x : Nat) : Prop :=
  ∃ body, rangeBody h = some body ∧ ∃ raw ∈ body.splitOn ',', ∃ form,
    subRange (trim raw) = some form ∧ form.Selects size x

structure Promised (h : List Char) (size : UInt64) : Prop where
  refused : (∃ e, parseRangeMulti h size = .error e) ↔ ¬ ValidHeader h
  inside : ∀ parts, parseRangeMulti h size = .ok parts →
    ∀ p ∈ parts, p.start ≤ p.stop ∧ p.stop < size.toNat
  apart : ∀ parts, parseRangeMulti h size = .ok parts →
    parts.Pairwise fun p q => p.stop + 1 < q.start
  covers : ∀ parts, parseRangeMulti h size = .ok parts →
    ∀ x, (∃ p ∈ parts, p.start ≤ x ∧ x ≤ p.stop) ↔ Selected h size.toNat x
  unsatisfiable : ∀ parts, parseRangeMulti h size = .ok parts →
    (parts = [] ↔ ∀ x, ¬ Selected h size.toNat x)
  announced : ∀ parts, parseRangeMulti h size = .ok parts →
    ∀ (boundary partContentType : List Char) (content : List UInt8), content.length = size.toNat →
      (multiRangeBody boundary partContentType content parts).length < 2 ^ 64 →
      (multipartByteLength boundary partContentType parts size).toNat =
        (multiRangeBody boundary partContentType content parts).length

/-- An element that has none of the forms and is not refused: a number has a plus sign, or the
second one is not read since the first one lies behind the object. -/
def Tolerated (size : Nat) (raw : List Char) : Prop :=
  subRange raw = none ∧ ∃ a b, splitOnce '-' raw = some (a, b) ∧
    (a = [] ∧ (parseU64 b).isSome ∨
      ∃ first, parseU64 a = some first ∧ (size ≤ first ∨ b = [] ∨ (parseU64 b).isSome))

def SubRange.Outgrown (size : Nat) : SubRange → Prop
  | .nothing => False
  | .suffix count => 18446744073709551616 ≤ count
  | .behind first => 18446744073709551616 ≤ first
  | .between first last =>
    18446744073709551616 ≤ first ∨ first < size ∧ 18446744073709551616 ≤ last

def Outgrown (size : Nat) (raw : List Char) : Prop :=
  ∃ form, subRange raw = some form ∧ form.Outgrown size

def RightlyJudged (h : List Char) (size : Nat) : Prop :=
  ∀ body, rangeBody h = some body →
    ((∃ raw ∈ body.splitOn ',', Tolerated size (trim raw)) ↔
        ∃ raw ∈ body.splitOn ',', Outgrown size (trim raw)) ∨
      ∃ raw ∈ body.splitOn ',', subRange (trim raw) = none ∧ ¬ Tolerated size (trim raw)

theorem parseU64_digits {text : List Char} {n : Nat} (digits : parseDigits text = some n) :
    parseU64 text = if n < 18446744073709551616 then some n else none := by
  have plain : text.head? ≠ some '+' := by
    intro plus
    unfold parseDigits at digits
    by_cases row : text ≠ [] ∧ text.all Char.isDigit = true
    · have digit := List.all_eq_true.mp row.2 '+' (List.mem_of_head? plus)
      exact absurd digit (by decide)
    · rw [if_neg row] at digits
      cases digits
  rw [parseU64, if_neg plain, digits]
  rfl

structure Gives (size : Nat) (found : Option RangePart) (form : SubRange) : Prop where
  inside : ∀ p ∈ found, p.start ≤ p.stop ∧ p.stop < size
  covers : ∀ x, (∃ p ∈ found, p.start ≤ x ∧ x ≤ p.stop) ↔ form.Selects size x

theorem gives_none {size : Nat} {form : SubRange} (never : ∀ x, ¬ form.Selects size x) :
    Gives size none form where
  inside := by
    intro p among
    cases among
  covers := by
    intro x
    simp [never x]

theorem gives_keep {size start stop : Nat} {form : SubRange} (within : start ≤ stop → stop < size)
    (same : ∀ x, start ≤ x ∧ x ≤ stop ↔ form.Selects size x) : Gives size (keep start stop) form := by
  unfold keep
  by_cases backwards : stop < start
  · rw [if_pos backwards]
    apply gives_none
    intro x selected
    have bounds := (same x).mpr selected
    omega
  · rw [if_neg backwards]
    constructor
    · intro p among
      cases among
      exact ⟨Nat.not_lt.mp backwards, within (Nat.not_lt.mp backwards)⟩
    · intro x
      simpa using same x

/-- An element of one of the forms is refused if its number does not fit, and gives the bytes that
it selects otherwise. -/
theorem readSubRange_form {size : Nat} {raw : List Char} {form : SubRange}
    (read : subRange raw = some form) :
    (form.Outgrown size ∧ readSubRange size raw = .error invalid) ∨
      ¬ form.Outgrown size ∧ ∃ found, readSubRange size raw = .ok found ∧ Gives size found form := by
  unfold subRange at read
  unfold readSubRange
  by_cases empty : raw = []
  · rw [if_pos empty] at read ⊢
    cases read
    exact .inr ⟨id, none, rfl, gives_none fun x => id⟩
  rw [if_neg empty] at read ⊢
  generalize splitOnce '-' raw = split at read ⊢
  rcases split with _ | ⟨a, b⟩
  · cases read
  simp only at read ⊢
  by_cases lone : a = [] ∧ b = []
  · rw [if_pos lone] at read ⊢
    cases read
    exact .inr ⟨id, none, rfl, gives_none fun x => id⟩
  rw [if_neg lone] at read ⊢
  by_cases ending : a = []
  · rw [if_pos ending] at read ⊢
    obtain ⟨count, digits, rfl⟩ := Option.map_eq_some_iff.mp read
    rw [parseU64_digits digits]
    by_cases fits : count < 18446744073709551616
    · rw [if_pos fits]
      refine .inr ⟨Nat.not_le.mpr fits, _, rfl, ?_⟩
      by_cases none : count = 0 ∨ size = 0
      · rw [if_pos none]
        apply gives_none
        intro x selected
        have bounds : x < size ∧ size ≤ x + count := selected
        omega
      · rw [if_neg none]
        have order : ¬ size - 1 < size - count := by omega
        have part := gives_keep (show size - count ≤ size - 1 → size - 1 < size by omega)
          (show ∀ x, size - count ≤ x ∧ x ≤ size - 1 ↔ (SubRange.suffix count).Selects size x by
            intro x
            show size - count ≤ x ∧ x ≤ size - 1 ↔ x < size ∧ size ≤ x + count
            omega)
        rwa [keep, if_neg order] at part
    · rw [if_neg fits]
      exact .inl ⟨Nat.not_lt.mp fits, rfl⟩
  rw [if_neg ending] at read ⊢
  obtain ⟨first, digits, rest⟩ := Option.bind_eq_some_iff.mp read
  rw [parseU64_digits digits]
  unfold readEnd
  by_cases fits : first < 18446744073709551616
  · rw [if_pos fits]
    simp only
    by_cases endless : b = []
    · rw [if_pos endless] at rest ⊢
      cases rest
      refine .inr ⟨Nat.not_le.mpr fits, ?_⟩
      by_cases past : size ≤ first
      · refine ⟨none, if_pos past, gives_none ?_⟩
        intro x selected
        have bounds : first ≤ x ∧ x < size := selected
        omega
      · refine ⟨_, if_neg past, gives_keep (by omega) ?_⟩
        intro x
        show first ≤ x ∧ x ≤ size - 1 ↔ first ≤ x ∧ x < size
        omega
    · rw [if_neg endless] at rest ⊢
      obtain ⟨last, digits', rfl⟩ := Option.map_eq_some_iff.mp rest
      rw [parseU64_digits digits']
      by_cases past : size ≤ first
      · refine .inr ⟨?_, none, if_pos past, gives_none ?_⟩
        · intro outgrown
          have bounds : 18446744073709551616 ≤ first ∨
              first < size ∧ 18446744073709551616 ≤ last := outgrown
          omega
        · intro x selected
          have bounds : first ≤ x ∧ x ≤ last ∧ x < size := selected
          omega
      · rw [if_neg past]
        by_cases fits' : last < 18446744073709551616
        · rw [if_pos fits']
          refine .inr ⟨?_, _, rfl, gives_keep (by omega) ?_⟩
          · intro outgrown
            have bounds : 18446744073709551616 ≤ first ∨
                first < size ∧ 18446744073709551616 ≤ last := outgrown
            omega
          · intro x
            show first ≤ x ∧ x ≤ min last (size - 1) ↔ first ≤ x ∧ x ≤ last ∧ x < size
            omega
        · rw [if_neg fits']
          exact .inl ⟨.inr ⟨Nat.not_le.mp past, Nat.not_lt.mp fits'⟩, rfl⟩
  · rw [if_neg fits]
    refine .inl ⟨?_, rfl⟩
    by_cases endless : b = []
    · rw [if_pos endless] at rest
      cases rest
      exact Nat.not_lt.mp fits
    · rw [if_neg endless] at rest
      obtain ⟨last, -, rfl⟩ := Option.map_eq_some_iff.mp rest
      exact .inl (Nat.not_lt.mp fits)

theorem readSubRange_formless {size : Nat} {raw : List Char} (read : subRange raw = none) :
    (Tolerated size raw → ∃ found, readSubRange size raw = .ok found) ∧
      (¬ Tolerated size raw → readSubRange size raw = .error invalid) := by
  have filled : raw ≠ [] := by
    rintro rfl
    cases read
  unfold readSubRange readEnd
  rw [if_neg filled]
  constructor
  · rintro ⟨-, a, b, split, reads⟩
    rw [split]
    simp only
    by_cases lone : a = [] ∧ b = []
    · exact ⟨none, if_pos lone⟩
    rw [if_neg lone]
    rcases reads with ⟨ending, signed⟩ | ⟨first, number, rest⟩
    · obtain ⟨n, number⟩ := Option.isSome_iff_exists.mp signed
      rw [if_pos ending, number]
      exact ⟨_, rfl⟩
    · have filled' : a ≠ [] := by
        rintro rfl
        cases number
      rw [if_neg filled', number]
      simp only
      by_cases past : size ≤ first
      · exact ⟨none, if_pos past⟩
      · rw [if_neg past]
        by_cases endless : b = []
        · rw [if_pos endless]
          exact ⟨_, rfl⟩
        · obtain ⟨last, number'⟩ := Option.isSome_iff_exists.mp
            ((rest.resolve_left past).resolve_left endless)
          rw [if_neg endless, number']
          exact ⟨_, rfl⟩
  · intro strict
    cases split : splitOnce '-' raw with
    | none => rfl
    | some pair =>
      obtain ⟨a, b⟩ := pair
      have tolerated := fun reads => strict ⟨read, a, b, split, reads⟩
      simp only
      by_cases lone : a = [] ∧ b = []
      · rw [subRange, if_neg filled, split] at read
        simp only [if_pos lone] at read
        cases read
      rw [if_neg lone]
      by_cases ending : a = []
      · rw [if_pos ending]
        cases number : parseU64 b with
        | none => rfl
        | some n => exact absurd (.inl ⟨ending, by rw [number]; rfl⟩) tolerated
      · rw [if_neg ending]
        cases number : parseU64 a with
        | none => rfl
        | some first =>
          simp only
          have rest := fun reads => tolerated (.inr ⟨first, number, reads⟩)
          have inside : ¬ size ≤ first := fun past => rest (.inl past)
          have more : b ≠ [] := fun endless => rest (.inr (.inl endless))
          rw [if_neg inside, if_neg more]
          cases number' : parseU64 b with
          | none => rfl
          | some last => exact absurd (.inr (.inr (by rw [number']; rfl))) rest

/-- Every part of a sorted list behind `last` goes into it or comes after it. -/
theorem mergeInto_spec {size : Nat} (bound : size < 18446744073709551616) (rest : List RangePart) :
    ∀ {last : RangePart}, last.start ≤ last.stop → last.stop < size →
      (∀ p ∈ rest, p.start ≤ p.stop ∧ p.stop < size ∧ last.start ≤ p.start) →
      (rest.Pairwise fun p q => p.start ≤ q.start) →
      (∀ q ∈ mergeInto last rest, q.start ≤ q.stop ∧ q.stop < size ∧ last.start ≤ q.start) ∧
        ((mergeInto last rest).Pairwise fun p q => p.stop + 1 < q.start) ∧
        mergeInto last rest ≠ [] ∧
        ∀ x, (∃ q ∈ mergeInto last rest, q.start ≤ x ∧ x ≤ q.stop) ↔
          (last.start ≤ x ∧ x ≤ last.stop) ∨ ∃ p ∈ rest, p.start ≤ x ∧ x ≤ p.stop := by
  induction rest with
  | nil =>
    intro last order within _ _
    simp only [mergeInto]
    refine ⟨?_, List.pairwise_singleton _ _, List.cons_ne_nil _ _, ?_⟩
    · intro q among
      rw [List.mem_singleton.mp among]
      exact ⟨order, within, Nat.le_refl _⟩
    · intro x
      simp
  | cons p rest ih =>
    intro last order within each sorted
    obtain ⟨orderP, withinP, after⟩ := each p List.mem_cons_self
    obtain ⟨first, later⟩ := List.pairwise_cons.mp sorted
    have beyond := fun q among => each q (List.mem_cons_of_mem p among)
    unfold mergeInto
    have step : next last.stop = last.stop + 1 := Nat.min_eq_left (by omega)
    by_cases joined : p.start ≤ next last.stop
    · rw [if_pos joined]
      rw [step] at joined
      obtain ⟨inside, apart, some, covers⟩ := @ih ⟨last.start, max last.stop p.stop⟩
        (by simp only; omega) (by simp only; omega) beyond later
      refine ⟨inside, apart, some, ?_⟩
      intro x
      rw [covers]
      have union : last.start ≤ x ∧ x ≤ max last.stop p.stop ↔
          (last.start ≤ x ∧ x ≤ last.stop) ∨ (p.start ≤ x ∧ x ≤ p.stop) := by
        omega
      simp only [union, List.mem_cons, exists_eq_or_imp, or_assoc]
    · rw [if_neg joined]
      rw [step] at joined
      obtain ⟨inside, apart, -, covers⟩ := @ih p orderP withinP
        (fun q among => ⟨(beyond q among).1, (beyond q among).2.1, first q among⟩) later
      refine ⟨?_, ?_, List.cons_ne_nil _ _, ?_⟩
      · intro q among
        rcases List.mem_cons.mp among with rfl | among
        · exact ⟨order, within, Nat.le_refl _⟩
        · obtain ⟨orderQ, withinQ, behind⟩ := inside q among
          exact ⟨orderQ, withinQ, by omega⟩
      · apply List.pairwise_cons.mpr
        refine ⟨?_, apart⟩
        intro q among
        have behind := (inside q among).2.2
        omega
      · intro x
        simp only [List.mem_cons, exists_eq_or_imp, covers]

theorem mergeParts_spec {size : Nat} (bound : size < 18446744073709551616) {parts : List RangePart}
    (each : ∀ p ∈ parts, p.start ≤ p.stop ∧ p.stop < size)
    (sorted : parts.Pairwise fun p q => p.start ≤ q.start) :
    (∀ q ∈ mergeParts parts, q.start ≤ q.stop ∧ q.stop < size) ∧
      ((mergeParts parts).Pairwise fun p q => p.stop + 1 < q.start) ∧
      ∀ x, (∃ q ∈ mergeParts parts, q.start ≤ x ∧ x ≤ q.stop) ↔
        ∃ p ∈ parts, p.start ≤ x ∧ x ≤ p.stop := by
  cases parts with
  | nil => exact ⟨each, List.Pairwise.nil, fun x => Iff.rfl⟩
  | cons p rest =>
    obtain ⟨order, within⟩ := each p List.mem_cons_self
    obtain ⟨first, later⟩ := List.pairwise_cons.mp sorted
    obtain ⟨inside, apart, -, covers⟩ := @mergeInto_spec size bound rest p order within
      (fun q among => ⟨(each q (List.mem_cons_of_mem p among)).1,
        (each q (List.mem_cons_of_mem p among)).2, first q among⟩) later
    refine ⟨fun q among => ⟨(inside q among).1, (inside q among).2.1⟩, apart, ?_⟩
    intro x
    simp only [mergeParts, covers, List.mem_cons, exists_eq_or_imp]

section Each

variable {ε α β : Type} {read : α → Except ε β}

theorem mapM_error {items : List α} :
    (∃ e, items.mapM read = .error e) ↔ ∃ item ∈ items, ∃ e, read item = .error e := by
  induction items with
  | nil => simp [pure, Except.pure]
  | cons item items ih =>
    rw [List.mapM_cons]
    cases first : read item with
    | error e => simp [first, bind, Except.bind]
    | ok value =>
      cases rest : items.mapM read with
      | error e => simpa [first, rest, bind, Except.bind] using ih
      | ok values => simpa [first, rest, bind, Except.bind, pure, Except.pure] using ih

theorem mapM_ok {items : List α} {values : List β} (all : items.mapM read = .ok values) :
    (∀ item ∈ items, ∃ value ∈ values, read item = .ok value) ∧
      ∀ value ∈ values, ∃ item ∈ items, read item = .ok value := by
  induction items generalizing values with
  | nil =>
    cases all
    simp
  | cons item items ih =>
    rw [List.mapM_cons] at all
    cases first : read item with
    | error e => simp [first, bind, Except.bind] at all
    | ok value =>
      cases rest : items.mapM read with
      | error e => simp [first, rest, bind, Except.bind] at all
      | ok values' =>
        simp only [first, rest, bind, Except.bind, pure, Except.pure, Except.ok.injEq] at all
        subst all
        obtain ⟨forward, backward⟩ := ih rest
        constructor
        · intro other among
          rcases List.mem_cons.mp among with rfl | among
          · exact ⟨value, List.mem_cons_self, first⟩
          · obtain ⟨found, listed, same⟩ := forward other among
            exact ⟨found, List.mem_cons_of_mem _ listed, same⟩
        · intro found listed
          rcases List.mem_cons.mp listed with rfl | listed
          · exact ⟨item, List.mem_cons_self, first⟩
          · obtain ⟨other, among, same⟩ := backward found listed
            exact ⟨other, List.mem_cons_of_mem _ among, same⟩

end Each

variable {h body : List Char} {size : UInt64}

theorem parseRangeMulti_eq (some : rangeBody h = some body) :
    parseRangeMulti h size =
      ((body.splitOn ',').mapM fun raw => readSubRange size.toNat (trim raw)).map fun found =>
        mergeParts ((found.filterMap id).mergeSort fun p q => p.start ≤ q.start) := by
  unfold parseRangeMulti
  rw [some]
  cases all : (body.splitOn ',').mapM fun raw => readSubRange size.toNat (trim raw) with
  | error e => simp only [all, bind, Except.bind, Except.map]
  | ok found => simp only [all, bind, Except.bind, pure, Except.pure, Except.map]

theorem parseRangeMulti_error (some : rangeBody h = some body) :
    (∃ e, parseRangeMulti h size = .error e) ↔
      ∃ raw ∈ body.splitOn ',', subRange (trim raw) = none ∧ ¬ Tolerated size.toNat (trim raw) ∨
        Outgrown size.toNat (trim raw) := by
  have whole : (∃ e, parseRangeMulti h size = .error e) ↔ ∃ e,
      ((body.splitOn ',').mapM fun raw => readSubRange size.toNat (trim raw)) = .error e := by
    rw [parseRangeMulti_eq some]
    cases (body.splitOn ',').mapM fun raw => readSubRange size.toNat (trim raw) with
    | error e => simp [Except.map]
    | ok found => simp [Except.map]
  rw [whole, mapM_error]
  apply exists_congr
  intro raw
  apply and_congr_right
  intro _
  cases read : subRange (trim raw) with
  | none =>
    obtain ⟨tolerated, strict⟩ := @readSubRange_formless size.toNat _ read
    have fits : ¬ Outgrown size.toNat (trim raw) := by
      rintro ⟨form, found, -⟩
      rw [read] at found
      cases found
    constructor
    · rintro ⟨e, refused⟩
      left
      refine ⟨rfl, fun plain => ?_⟩
      obtain ⟨found, kept⟩ := tolerated plain
      rw [kept] at refused
      cases refused
    · rintro (⟨-, refused⟩ | grown)
      · exact ⟨_, strict refused⟩
      · exact absurd grown fits
  | some form =>
    have judged := @readSubRange_form size.toNat _ _ read
    constructor
    · rintro ⟨e, refused⟩
      rcases judged with ⟨grown, -⟩ | ⟨-, found, kept, -⟩
      · exact .inr ⟨form, read, grown⟩
      · rw [kept] at refused
        cases refused
    · rintro (⟨impossible, -⟩ | ⟨form', same, grown⟩)
      · cases impossible
      · rw [read] at same
        cases same
        exact ⟨_, (judged.resolve_right fun other => other.1 grown).2⟩

theorem parseRangeMulti_parts {parts : List RangePart} (some : rangeBody h = some body)
    (valid : ∀ raw ∈ body.splitOn ',', (subRange (trim raw)).isSome)
    (done : parseRangeMulti h size = .ok parts) :
    (∀ p ∈ parts, p.start ≤ p.stop ∧ p.stop < size.toNat) ∧
      (parts.Pairwise fun p q => p.stop + 1 < q.start) ∧
      ∀ x, (∃ p ∈ parts, p.start ≤ x ∧ x ≤ p.stop) ↔ Selected h size.toNat x := by
  rw [parseRangeMulti_eq some] at done
  cases all : (body.splitOn ',').mapM fun raw => readSubRange size.toNat (trim raw) with
  | error e =>
    rw [all] at done
    cases done
  | ok found =>
    rw [all] at done
    cases done
    obtain ⟨forward, backward⟩ := mapM_ok all
    have each : ∀ raw ∈ body.splitOn ',', ∀ part, readSubRange size.toNat (trim raw) = .ok part →
        ∃ form, subRange (trim raw) = Option.some form ∧ Gives size.toNat part form := by
      intro raw among part read
      obtain ⟨form, formed⟩ := Option.isSome_iff_exists.mp (valid raw among)
      rcases @readSubRange_form size.toNat _ _ formed with ⟨-, refused⟩ | ⟨-, part', kept, gives⟩
      · rw [read] at refused
        cases refused
      · rw [read] at kept
        cases kept
        exact ⟨form, formed, gives⟩
    have sorted : ((found.filterMap id).mergeSort fun p q => p.start ≤ q.start).Pairwise
        fun p q => p.start ≤ q.start := by
      have ordered := @List.pairwise_mergeSort _ (fun p q : RangePart => decide (p.start ≤ q.start))
        (by intro a b c; simpa using Nat.le_trans) (by intro a b; simpa using Nat.le_total _ _)
        (found.filterMap id)
      simpa using ordered
    have listed : ∀ p, p ∈ ((found.filterMap id).mergeSort fun p q => p.start ≤ q.start) ↔
        Option.some p ∈ found := by
      intro p
      rw [List.mem_mergeSort, List.mem_filterMap]
      simp
    have inside : ∀ p ∈ ((found.filterMap id).mergeSort fun p q => p.start ≤ q.start),
        p.start ≤ p.stop ∧ p.stop < size.toNat := by
      intro p among
      obtain ⟨raw, item, read⟩ := backward _ ((listed p).mp among)
      obtain ⟨form, -, gives⟩ := each raw item _ read
      exact gives.inside p rfl
    obtain ⟨within, apart, covers⟩ := mergeParts_spec size.toNat_lt inside sorted
    refine ⟨within, apart, ?_⟩
    intro x
    rw [covers]
    constructor
    · rintro ⟨p, among, bounds⟩
      obtain ⟨raw, item, read⟩ := backward _ ((listed p).mp among)
      obtain ⟨form, formed, gives⟩ := each raw item _ read
      exact ⟨body, some, raw, item, form, formed, (gives.covers x).mp ⟨p, rfl, bounds⟩⟩
    · rintro ⟨body', some', raw, item, form, formed, selected⟩
      rw [some] at some'
      cases some'
      obtain ⟨part, among, read⟩ := forward raw item
      obtain ⟨form', formed', gives⟩ := each raw item part read
      rw [formed] at formed'
      cases formed'
      obtain ⟨p, here, bounds⟩ := (gives.covers x).mpr selected
      cases here
      exact ⟨p, (listed p).mpr among, bounds⟩

theorem multipartByteLength_eq (boundary partContentType : List Char) {content : List UInt8}
    (whole : content.length = size.toNat) {parts : List RangePart}
    (inside : ∀ p ∈ parts, p.start ≤ p.stop ∧ p.stop < size.toNat) :
    multipartByteLength boundary partContentType parts size =
      .ofNat (multiRangeBody boundary partContentType content parts).length := by
  have one : ∀ p ∈ parts, UInt64.ofNat (sentRange boundary partContentType content p).length =
      len (perPartHeader boundary partContentType size.toNat p) +
        (UInt64.ofNat p.stop - UInt64.ofNat p.start + 1) + 2 := by
    intro p among
    obtain ⟨order, within⟩ := inside p among
    have data : ((content.drop p.start).take (p.stop - p.start + 1)).length = p.stop - p.start + 1 := by
      rw [List.length_take, List.length_drop]
      omega
    have ending : (toUtf8 "\r\n".toList).length = 2 := rfl
    rw [sentRange, List.length_append, List.length_append, data, ending, UInt64.ofNat_add,
      UInt64.ofNat_add, UInt64.ofNat_add, UInt64.ofNat_sub order, whole]
    rfl
  have sums : (parts.map fun p => len (perPartHeader boundary partContentType size.toNat p)).sum +
        (parts.map fun p => UInt64.ofNat p.stop - UInt64.ofNat p.start + 1).sum +
        2 * UInt64.ofNat parts.length =
      UInt64.ofNat (parts.flatMap (sentRange boundary partContentType content)).length := by
    clear inside
    induction parts with
    | nil => rfl
    | cons p parts ih =>
      have rest := ih fun q among => one q (List.mem_cons_of_mem p among)
      rw [List.flatMap_cons, List.length_append, UInt64.ofNat_add, one p List.mem_cons_self, ← rest]
      simp only [List.map_cons, List.sum_cons, List.length_cons, UInt64.ofNat_add]
      grind
  rw [multiRangeBody, List.length_append, UInt64.ofNat_add, ← sums]
  rfl

/-- The promise is kept exactly where no element is misjudged, or the header is refused rightly. -/
theorem promised_iff (h : List Char) (size : UInt64) :
    Promised h size ↔ RightlyJudged h size.toNat := by
  have invalidIff : ∀ body, rangeBody h = some body →
      (¬ ValidHeader h ↔ ∃ raw ∈ body.splitOn ',', subRange (trim raw) = none) := by
    intro body some
    constructor
    · intro wrong
      by_contra all
      push Not at all
      exact wrong ⟨body, some, fun raw among => Option.ne_none_iff_isSome.mp (all raw among)⟩
    · rintro ⟨raw, among, formless⟩ ⟨body', some', valid⟩
      rw [some] at some'
      cases some'
      have formed := valid raw among
      rw [formless] at formed
      cases formed
  have toleratedFormless : ∀ {raw}, Tolerated size.toNat raw → subRange raw = none := fun plain => plain.1
  constructor
  · intro promised body some
    have judged := promised.refused
    rw [parseRangeMulti_error some, invalidIff body some] at judged
    by_cases refused : ∃ raw ∈ body.splitOn ',',
        subRange (trim raw) = none ∧ ¬ Tolerated size.toNat (trim raw)
    · exact .inr refused
    · left
      constructor
      · rintro ⟨raw, among, plain⟩
        obtain ⟨raw', among', found⟩ := judged.mpr ⟨raw, among, toleratedFormless plain⟩
        rcases found with wrong | grown
        · exact absurd ⟨raw', among', wrong⟩ refused
        · exact ⟨raw', among', grown⟩
      · rintro ⟨raw, among, grown⟩
        obtain ⟨raw', among', formless⟩ := judged.mp ⟨raw, among, .inr grown⟩
        refine ⟨raw', among', ?_⟩
        by_contra strict
        exact refused ⟨raw', among', formless, strict⟩
  · intro judged
    cases some : rangeBody h with
    | none =>
      have error : parseRangeMulti h size = .error invalid := by
        rw [parseRangeMulti, some]
      have wrong : ¬ ValidHeader h := by
        rintro ⟨body, some', -⟩
        rw [some] at some'
        cases some'
      have never : ∀ parts, parseRangeMulti h size ≠ .ok parts := by
        intro parts done
        rw [error] at done
        cases done
      exact ⟨⟨fun _ => wrong, fun _ => ⟨_, error⟩⟩, fun parts done => absurd done (never parts),
        fun parts done => absurd done (never parts), fun parts done => absurd done (never parts),
        fun parts done => absurd done (never parts), fun parts done => absurd done (never parts)⟩
    | some body =>
      have refused : (∃ e, parseRangeMulti h size = .error e) ↔ ¬ ValidHeader h := by
        rw [parseRangeMulti_error some, invalidIff body some]
        rcases judged body some with balanced | ⟨raw, among, formless, strict⟩
        · constructor
          · rintro ⟨raw, among, ⟨formless, -⟩ | grown⟩
            · exact ⟨raw, among, formless⟩
            · obtain ⟨raw', among', plain⟩ := balanced.mpr ⟨raw, among, grown⟩
              exact ⟨raw', among', toleratedFormless plain⟩
          · rintro ⟨raw, among, formless⟩
            by_cases plain : Tolerated size.toNat (trim raw)
            · obtain ⟨raw', among', grown⟩ := balanced.mp ⟨raw, among, plain⟩
              exact ⟨raw', among', .inr grown⟩
            · exact ⟨raw, among, .inl ⟨formless, plain⟩⟩
        · exact ⟨fun _ => ⟨raw, among, formless⟩, fun _ => ⟨raw, among, .inl ⟨formless, strict⟩⟩⟩
      have parts : ∀ parts, parseRangeMulti h size = .ok parts →
          (∀ p ∈ parts, p.start ≤ p.stop ∧ p.stop < size.toNat) ∧
            (parts.Pairwise fun p q => p.stop + 1 < q.start) ∧
            ∀ x, (∃ p ∈ parts, p.start ≤ x ∧ x ≤ p.stop) ↔ Selected h size.toNat x := by
        intro parts done
        have valid : ValidHeader h := by
          by_contra wrong
          obtain ⟨e, error⟩ := refused.mpr wrong
          rw [done] at error
          cases error
        obtain ⟨body', some', each⟩ := valid
        rw [some] at some'
        cases some'
        exact parseRangeMulti_parts some each done
      refine ⟨refused, fun list done => (parts list done).1, fun list done => (parts list done).2.1,
        fun list done => (parts list done).2.2, ?_, ?_⟩
      · intro list done
        obtain ⟨inside, -, covers⟩ := parts list done
        constructor
        · rintro rfl x selected
          obtain ⟨p, among, -⟩ := (covers x).mpr selected
          cases among
        · intro never
          cases list with
          | nil => rfl
          | cons p rest =>
            have order := (inside p List.mem_cons_self).1
            exact absurd ((covers p.start).mp ⟨p, List.mem_cons_self, Nat.le_refl _, order⟩)
              (never p.start)
      · intro list done boundary partContentType content whole fits
        rw [multipartByteLength_eq boundary partContentType whole (parts list done).1,
          UInt64.toNat_ofNat_of_lt' fits]

/-- The second number of an element is not read if the first one lies behind the object. -/
theorem bad_end_ignored :
    parseRangeMulti "bytes=5000-abc".toList 1000 = .ok [] ∧
      ¬ ValidHeader "bytes=5000-abc".toList ∧ ¬ Promised "bytes=5000-abc".toList 1000 := by
  have ignored : parseRangeMulti "bytes=5000-abc".toList 1000 = .ok [] := by decide +kernel
  have wrong : ¬ ValidHeader "bytes=5000-abc".toList := by
    rintro ⟨body, some, valid⟩
    have body : body = "5000-abc".toList := by
      have found : rangeBody "bytes=5000-abc".toList = Option.some "5000-abc".toList := by
        decide +kernel
      rw [found] at some
      exact (Option.some.inj some).symm
    subst body
    have element := valid "5000-abc".toList (by decide +kernel)
    revert element
    decide +kernel
  refine ⟨ignored, wrong, ?_⟩
  intro promised
  obtain ⟨e, error⟩ := promised.refused.mpr wrong
  rw [ignored] at error
  cases error

end FastS3.S3.ByteRanges
