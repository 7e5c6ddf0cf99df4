import FastS3.Data.Text

namespace FastS3.Data

namespace Text

/-! The words of a text: what is left of it up to whitespace. -/

/-- `split_whitespace`. -/
def words (text : List Char) : List (List Char) :=
  (text.splitOnP isWhitespace).filter fun word => word ≠ []

def squeeze : Bool → List Char → List Char
  | _, [] => []
  | inside, c :: rest =>
    if isWhitespace c then
      if inside then squeeze true rest else ' ' :: squeeze true rest
    else c :: squeeze false rest

section Words

variable {text rest : List Char} {c : Char}

theorem words_space (space : isWhitespace c = true) : words (c :: rest) = words rest := by
  rw [words, words, List.splitOnP_cons_eq_if_modifyHead, if_pos space]
  simp

def pieces (text : List Char) : List Char × List (List Char) :=
  ((text.splitOnP isWhitespace).headD [], ((text.splitOnP isWhitespace).tail).filter fun word => word ≠ [])

theorem words_eq (text : List Char) :
    words text = (if (pieces text).1 = [] then [] else [(pieces text).1]) ++ (pieces text).2 := by
  rw [words, pieces]
  cases split : text.splitOnP isWhitespace with
  | nil => rfl
  | cons first rest =>
    simp only [List.filter_cons, List.headD_cons, List.tail_cons]
    by_cases empty : first = []
    · simp [empty]
    · simp [empty]

theorem pieces_space (space : isWhitespace c = true) : pieces (c :: rest) = ([], words rest) := by
  rw [pieces, List.splitOnP_cons_eq_if_modifyHead, if_pos space]
  rfl

theorem pieces_letter (letter : isWhitespace c = false) :
    pieces (c :: rest) = (c :: (pieces rest).1, (pieces rest).2) := by
  rw [pieces, List.splitOnP_cons_eq_if_modifyHead, if_neg (by simp [letter]), pieces]
  cases split : rest.splitOnP isWhitespace with
  | nil => exact absurd split (List.splitOnP_ne_nil _ _)
  | cons first others => rfl

theorem squeeze_spec (text : List Char) :
    words (squeeze true text) = words text ∧ pieces (squeeze false text) = pieces text := by
  induction text with
  | nil => exact ⟨rfl, rfl⟩
  | cons c rest ih =>
    cases kind : isWhitespace c with
    | true =>
      constructor
      · rw [squeeze, if_pos kind, if_pos rfl, words_space kind]
        exact ih.1
      · rw [squeeze, if_pos kind, if_neg (by decide), pieces_space kind, pieces_space (by decide), ih.1]
    | false =>
      have first : pieces (c :: squeeze false rest) = pieces (c :: rest) := by
        rw [pieces_letter kind, pieces_letter kind, ih.2]
      constructor
      · rw [squeeze, if_neg (by simp [kind]), words_eq, first, ← words_eq]
      · rw [squeeze, if_neg (by simp [kind]), first]

theorem words_squeeze (text : List Char) : words (squeeze false text) = words text := by
  rw [words_eq, (squeeze_spec text).2, ← words_eq]

theorem mem_squeeze {inside : Bool} (member : c ∈ squeeze inside text) :
    c = ' ' ∨ isWhitespace c = false := by
  induction text generalizing inside with
  | nil => cases member
  | cons first rest ih =>
    rw [squeeze] at member
    split at member
    · split at member
      · exact ih member
      · rcases List.mem_cons.mp member with rfl | later
        · exact .inl rfl
        · exact ih later
    · next letter =>
        rcases List.mem_cons.mp member with rfl | later
        · exact .inr (by simpa using letter)
        · exact ih later

theorem words_dropWhile (text : List Char) : words (text.dropWhile isWhitespace) = words text := by
  induction text with
  | nil => rfl
  | cons c rest ih =>
    cases kind : isWhitespace c with
    | true => rw [List.dropWhile_cons_of_pos kind, words_space kind, ih]
    | false => rw [List.dropWhile_cons_of_neg (by simp [kind])]

theorem pieces_append_space (text : List Char) (space : isWhitespace c = true) :
    pieces (text ++ [c]) = pieces text := by
  induction text with
  | nil =>
    rw [List.nil_append, pieces_space space]
    rfl
  | cons first rest ih =>
    cases kind : isWhitespace first with
    | true =>
      rw [List.cons_append, pieces_space kind, pieces_space kind, words_eq, ih, ← words_eq]
    | false => rw [List.cons_append, pieces_letter kind, pieces_letter kind, ih]

theorem words_trim (text : List Char) : words (trim text) = words text := by
  have backwards : ∀ mirrored : List Char,
      words (mirrored.dropWhile isWhitespace).reverse = words mirrored.reverse := by
    intro mirrored
    induction mirrored with
    | nil => rfl
    | cons c rest ih =>
      cases kind : isWhitespace c with
      | true =>
        rw [List.dropWhile_cons_of_pos kind, ih, List.reverse_cons, words_eq (rest.reverse ++ [c]),
          pieces_append_space _ kind, ← words_eq]
      | false => rw [List.dropWhile_cons_of_neg (by simp [kind])]
  rw [trim, trimEnd, backwards, List.reverse_reverse, trimStart, words_dropWhile]

end Words

end Text

end FastS3.Data
