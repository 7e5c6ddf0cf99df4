import FastS3.S3.Policy

namespace FastS3.S3

open FastS3.Core (Bytes)

/-! What the patterns of policies match.

The loop keeps the place behind the last star only, and gives each star the shortest string that fits.
That is enough: what another start of the last star can reach lies behind what the first one has reached.
A star that meets a star of the text is taken for a letter, however, and its place is not kept.
-/

/-- The text is the pattern with each star replaced by some string and each question mark by a byte. -/
inductive Glob : Bytes → Bytes → Prop where
  | done : Glob [] []
  | byte {c v : UInt8} {pattern text : Bytes} (letter : c ≠ '*'.toUInt8)
      (fits : c = '?'.toUInt8 ∨ c = v) (rest : Glob pattern text) : Glob (c :: pattern) (v :: text)
  | star {pattern text : Bytes} (gap : Bytes) (rest : Glob pattern text) :
      Glob ('*'.toUInt8 :: pattern) (gap ++ text)

/-- The same, with each star that stands before a star of the text replaced by that one. -/
inductive StarGlob : Bytes → Bytes → Prop where
  | done : StarGlob [] []
  | byte {c v : UInt8} {pattern text : Bytes} (fits : c = '?'.toUInt8 ∨ c = v)
      (rest : StarGlob pattern text) : StarGlob (c :: pattern) (v :: text)
  | star {pattern text : Bytes} (gap : Bytes) (before : (gap ++ text).head? ≠ some '*'.toUInt8)
      (rest : StarGlob pattern text) : StarGlob ('*'.toUInt8 :: pattern) (gap ++ text)

theorem question_ne_star : ('*'.toUInt8 : UInt8) ≠ '?'.toUInt8 := by
  decide

section Globs

variable {c v : UInt8} {pattern pattern' text text' : Bytes}

theorem StarGlob.glob (matched : StarGlob pattern text) : Glob pattern text := by
  induction matched with
  | done => exact .done
  | @byte c v pattern text fits _ ih =>
    by_cases star : c = '*'.toUInt8
    · have same : v = '*'.toUInt8 := by
        obtain mark | same := fits
        · exact absurd (star.symm.trans mark) question_ne_star
        · exact same.symm.trans star
      rw [star, same]
      exact Glob.star ['*'.toUInt8] ih
    · exact .byte star fits ih
  | star gap _ _ ih => exact .star gap ih

theorem Glob.starGlob (matched : Glob pattern text) (starless : '*'.toUInt8 ∉ text) :
    StarGlob pattern text := by
  induction matched with
  | done => exact .done
  | byte _ fits _ ih => exact .byte fits (ih fun inside => starless (List.mem_cons_of_mem _ inside))
  | star gap _ ih =>
    refine .star gap ?_ (ih fun inside => starless (List.mem_append_right _ inside))
    exact fun first => starless (List.mem_of_head? first)

theorem starGlob_cons_iff (fits : c = '?'.toUInt8 ∨ c = v) :
    StarGlob (c :: pattern) (v :: text) ↔ StarGlob pattern text := by
  constructor
  · intro matched
    generalize whole : v :: text = text' at matched
    cases matched with
    | byte _ rest =>
      cases whole
      exact rest
    | star gap before rest =>
      have same : '*'.toUInt8 = v := fits.resolve_left question_ne_star
      rw [← whole, same] at before
      exact absurd rfl before
  · exact StarGlob.byte fits

theorem not_starGlob_cons (misses : ¬(c = '?'.toUInt8 ∨ c = v)) (letter : c ≠ '*'.toUInt8) :
    ¬StarGlob (c :: pattern) (v :: text) := by
  intro matched
  generalize whole : v :: text = text' at matched
  cases matched with
  | byte fits _ =>
    cases whole
    exact misses fits
  | star => exact letter rfl

theorem not_starGlob_nil : ¬StarGlob [] (v :: text) :=
  nofun

theorem starGlob_star_iff (before : text.head? ≠ some '*'.toUInt8) :
    StarGlob ('*'.toUInt8 :: pattern) text ↔ ∃ k, StarGlob pattern (text.drop k) := by
  constructor
  · intro matched
    generalize same : '*'.toUInt8 :: pattern = pattern' at matched
    cases matched with
    | done => cases same
    | byte fits rest =>
      obtain ⟨rfl, rfl⟩ := List.cons.inj same
      have letter := fits.resolve_left question_ne_star
      rw [← letter] at before
      exact absurd rfl before
    | star gap _ rest =>
      obtain ⟨_, rfl⟩ := List.cons.inj same
      exact ⟨gap.length, by rwa [List.drop_left]⟩
  · intro found
    obtain ⟨k, rest⟩ := found
    rw [← List.take_append_drop k text] at before ⊢
    exact .star _ before rest

theorem starGlob_nil_iff :
    StarGlob pattern [] ↔ (pattern.dropWhile (· = '*'.toUInt8)).isEmpty = true := by
  induction pattern with
  | nil => exact iff_of_true .done rfl
  | cons c pattern ih =>
    by_cases star : c = '*'.toUInt8
    · rw [star, starGlob_star_iff (by simp), List.dropWhile_cons_of_pos (by simp), ← ih]
      simp
    · rw [List.dropWhile_cons_of_neg (by simpa using star)]
      apply iff_of_false
      · intro matched
        generalize same : c :: pattern = pattern' at matched
        generalize empty : ([] : Bytes) = text at matched
        cases matched with
        | done => cases same
        | byte => cases empty
        | star => exact star (List.cons.inj same).1
      · simp

abbrev Along (part gone : Bytes) : Prop :=
  List.Forall₂ (fun c v => c = '?'.toUInt8 ∨ c = v) part gone

/-- Where a part of the pattern has gone along the text, a match of the whole from a later start leaves
the rest of the pattern a place that is not earlier. -/
theorem StarGlob.behind {part gone : Bytes} (along : Along part gone) {k : Nat}
    (matched : StarGlob (part ++ pattern) ((gone ++ text).drop k)) :
    ∃ m, StarGlob pattern (text.drop m) := by
  induction along generalizing k with
  | nil => exact ⟨k, matched⟩
  | @cons c w part gone fits along ih =>
    cases k with
    | zero => exact ih (k := 0) ((starGlob_cons_iff fits).mp matched)
    | succ k =>
      rw [List.cons_append, List.cons_append, List.drop_succ_cons] at matched
      generalize same : c :: (part ++ pattern) = whole at matched
      generalize left : (gone ++ text).drop k = rest at matched
      cases matched with
      | done => cases same
      | byte _ tail =>
        obtain ⟨_, rfl⟩ := List.cons.inj same
        apply ih (k := k + 1)
        rw [← List.tail_drop, left]
        exact tail
      | star gap _ tail =>
        obtain ⟨_, rfl⟩ := List.cons.inj same
        apply ih (k := k + gap.length)
        rw [← List.drop_drop, left, List.drop_left]
        exact tail

end Globs

def Reached (pattern value : Bytes) (star : Option (Bytes × Bytes)) : Prop :=
  ∀ afterStar saved, star = some (afterStar, saved) →
    ∃ part gone, afterStar = part ++ pattern ∧ saved = gone ++ value ∧ Along part gone

def Open (pattern value : Bytes) (star : Option (Bytes × Bytes)) : Prop :=
  StarGlob pattern value ∨
    ∃ afterStar saved k, star = some (afterStar, saved) ∧ StarGlob afterStar (saved.drop (k + 1))

section Loop

variable {pattern value afterStar saved : Bytes} {star : Option (Bytes × Bytes)} {c v : UInt8}

theorem Reached.next (reached : Reached (c :: pattern) (v :: value) star)
    (fits : c = '?'.toUInt8 ∨ c = v) : Reached pattern value star := by
  intro afterStar saved same
  obtain ⟨part, gone, rfl, rfl, along⟩ := reached afterStar saved same
  refine ⟨part ++ [c], gone ++ [v], ?_, ?_, List.rel_append along (.cons fits .nil)⟩
  · rw [List.append_assoc]
    rfl
  · rw [List.append_assoc]
    rfl

theorem reached_start : Reached pattern value (some (pattern, value)) := by
  intro afterStar saved same
  cases same
  exact ⟨[], [], rfl, rfl, .nil⟩

theorem Reached.later (reached : Reached pattern value star) {k : Nat}
    (same : star = some (afterStar, saved)) (matched : StarGlob afterStar (saved.drop k)) :
    ∃ m, StarGlob pattern (value.drop m) := by
  obtain ⟨part, gone, rfl, rfl, along⟩ := reached afterStar saved same
  exact matched.behind along

theorem open_backtrack :
    Open afterStar saved.tail (some (afterStar, saved.tail)) ↔
      ∃ k, StarGlob afterStar (saved.drop (k + 1)) := by
  constructor
  · intro left
    obtain now | ⟨_, _, k, same, later⟩ := left
    · exact ⟨0, by rwa [List.drop_one]⟩
    · cases same
      rw [← List.drop_one, List.drop_drop] at later
      exact ⟨k + 1, by rwa [Nat.add_comm 1] at later⟩
  · intro found
    obtain ⟨k, later⟩ := found
    cases k with
    | zero => exact .inl (by rwa [List.drop_one] at later)
    | succ k =>
      refine .inr ⟨_, _, k, rfl, ?_⟩
      rw [← List.drop_one, List.drop_drop, Nat.add_comm 1]
      exact later

theorem open_none : Open pattern value none ↔ StarGlob pattern value := by
  constructor
  · intro left
    obtain now | ⟨_, _, _, same, _⟩ := left
    · exact now
    · cases same
  · exact .inl

theorem open_missed (missed : ¬StarGlob pattern value) :
    Open pattern value (some (afterStar, saved)) ↔ ∃ k, StarGlob afterStar (saved.drop (k + 1)) := by
  constructor
  · intro left
    obtain now | ⟨_, _, k, same, later⟩ := left
    · exact absurd now missed
    · cases same
      exact ⟨k, later⟩
  · intro found
    obtain ⟨k, later⟩ := found
    exact .inr ⟨_, _, k, rfl, later⟩

theorem globLoop_iff (pattern value : Bytes) (star : Option (Bytes × Bytes))
    (behind : ∀ saved, star = some saved → value.length ≤ saved.2.length)
    (reached : Reached pattern value star) :
    globLoop pattern value star behind = true ↔ Open pattern value star := by
  induction pattern, value, star, behind using globLoop.induct with
  | case1 pattern star behind _ =>
    rw [globLoop.eq_def]
    dsimp only
    rw [← starGlob_nil_iff]
    constructor
    · exact .inl
    · intro left
      obtain now | ⟨_, _, k, same, later⟩ := left
      · exact now
      · obtain ⟨m, rest⟩ := reached.later same later
        rwa [List.drop_nil] at rest
  | case2 v value p pattern star behind fits _ ih =>
    rw [globLoop.eq_def]
    dsimp only
    rw [if_pos fits, ih (reached.next fits), Open, Open, starGlob_cons_iff fits]
  | case3 v value pattern star behind _ misses ih =>
    rw [globLoop.eq_def]
    dsimp only
    rw [if_neg misses, if_pos rfl, ih reached_start]
    have before : (v :: value).head? ≠ some '*'.toUInt8 := by
      intro first
      exact misses (.inr (Option.some.inj first).symm)
    constructor
    · intro left
      left
      apply (starGlob_star_iff before).mpr
      obtain now | ⟨_, _, k, same, later⟩ := left
      · exact ⟨0, now⟩
      · cases same
        exact ⟨k + 1, later⟩
    · intro left
      have found : ∃ k, StarGlob pattern ((v :: value).drop k) := by
        obtain now | ⟨_, _, k, same, later⟩ := left
        · exact (starGlob_star_iff before).mp now
        · obtain ⟨m, rest⟩ := reached.later same later
          by_cases open' : ((v :: value).drop m).head? ≠ some '*'.toUInt8
          · obtain ⟨k', inner⟩ := (starGlob_star_iff open').mp rest
            exact ⟨m + k', by rwa [List.drop_drop] at inner⟩
          · cases left' : (v :: value).drop m with
            | nil =>
              rw [left'] at open'
              exact absurd (by simp) open'
            | cons w tail =>
              have letter : '*'.toUInt8 = w := by
                rw [left', not_not] at open'
                exact (Option.some.inj open').symm
              rw [left'] at rest
              refine ⟨m + 1, ?_⟩
              rw [← List.tail_drop, left']
              exact (starGlob_cons_iff (.inr letter)).mp rest
      obtain ⟨k, inner⟩ := found
      cases k with
      | zero => exact .inl inner
      | succ k => exact .inr ⟨_, _, k, rfl, inner⟩
  | case4 v value p pattern misses letter behind _ =>
    rw [globLoop, if_neg misses, if_neg letter, open_none]
    exact iff_of_false (by decide) (not_starGlob_cons misses letter)
  | case5 v value p pattern misses letter afterStar saved behind _ ih =>
    rw [globLoop, if_neg misses, if_neg letter, ih reached_start, open_backtrack, open_missed (not_starGlob_cons misses letter)]
  | case6 v value behind _ =>
    rw [globLoop, open_none]
    exact iff_of_false (by decide) not_starGlob_nil
  | case7 v value afterStar saved behind _ ih =>
    rw [globLoop]
    rw [ih reached_start, open_backtrack, open_missed not_starGlob_nil]

end Loop

theorem globLoop_eq (pattern text : Bytes) :
    globLoop pattern text none nofun = true ↔ StarGlob pattern text := by
  rw [globLoop_iff pattern text none nofun nofun, open_none]

theorem globLoop_of_starless {pattern text : Bytes} (starless : '*'.toUInt8 ∉ text) :
    globLoop pattern text none nofun = true ↔ Glob pattern text := by
  rw [globLoop_eq]
  exact ⟨StarGlob.glob, fun matched => matched.starGlob starless⟩

/-- The loop decides the patterns for exactly those texts that do not match, or match with each star that
meets a star of the text taken for it. -/
theorem globLoop_glob_iff (pattern text : Bytes) :
    (globLoop pattern text none nofun = true ↔ Glob pattern text) ↔
      (Glob pattern text → StarGlob pattern text) := by
  rw [globLoop_eq]
  constructor
  · exact fun same => same.mpr
  · exact fun kept => ⟨StarGlob.glob, kept⟩

/-- The pattern `a*` misses the text `a*b`. -/
theorem globLoop_misses :
    ¬(globLoop ['a'.toUInt8, '*'.toUInt8] ['a'.toUInt8, '*'.toUInt8, 'b'.toUInt8] none nofun = true ↔
      Glob ['a'.toUInt8, '*'.toUInt8] ['a'.toUInt8, '*'.toUInt8, 'b'.toUInt8]) := by
  have glob : Glob ['a'.toUInt8, '*'.toUInt8] ['a'.toUInt8, '*'.toUInt8, 'b'.toUInt8] :=
    .byte (by decide) (.inr rfl) (.star ['*'.toUInt8, 'b'.toUInt8] .done)
  rw [globLoop_eq]
  intro same
  have last := same.mpr glob
  rw [starGlob_cons_iff (.inr rfl), starGlob_cons_iff (.inr rfl)] at last
  exact not_starGlob_nil last

end FastS3.S3
