import FastS3.S3.GetObject

namespace FastS3.S3

open Data Engine
open FastS3.Core (Bytes slice)

/-! The parts of an object by their numbers. -/

structure PartRequest where
  bucket : String
  key : String
  partNumber : Nat
  headOnly : Bool
  /-- The encryption headers are refused, or the first byte of the part is not read. -/
  refuses : Core.ObjectMeta → Bool

def PartRequest.address (req : PartRequest) : Address :=
  { bucket := req.bucket, key := req.key, version := none }

/-- The first byte and the length of a part; nothing, where the index in front of the first part is taken. -/
def partSpan (m : Core.ObjectMeta) (partNumber : Nat) : Option (Except GetError (Nat × Nat)) :=
  if m.parts = [] then
    if partNumber ≠ 1 then some (.error .invalidPart) else some (.ok (0, m.size))
  else if partNumber > m.parts.length then some (.error .invalidPart)
  else
    match partNumber with
    | 0 => none
    | index + 1 => m.parts[index]?.map fun length => .ok ((m.parts.take index).sum, length)

/-- `op_get_object_part`; nothing is the panic of an index that is out of range. -/
def opGetObjectPart (catalog : Catalog) (req : PartRequest) : Option (Except GetError ResponseBody) :=
  match headVersion catalog req.address with
  | .error .deleteMarker => some (.error .noSuchKey)
  | .error reason => some (.error reason)
  | .ok (bucket, v) =>
    (partSpan v.record req.partNumber).map fun span => do
      let (start, length) ← span
      if req.refuses v.record then .error .refused
      else if length = 0 ∨ req.headOnly then return .empty
      else return .objectStream ⟨req.address, bucket.versioning, start, length⟩

/-- An object is made up of the contents of its parts; one that has no parts is a part. -/
structure Assembled (v : Version) (contents : List Bytes) : Prop where
  content : v.content = contents.flatten
  parts : contents ≠ [] ∧ v.record.parts = contents.map List.length ∨
    v.record.parts = [] ∧ contents = [v.content]

def ResponseBody.deliver (v : Version) : ResponseBody → Bytes
  | .objectStream stream => slice v.content stream.offset stream.length
  | .bytes content => content
  | _ => []

def Consecutive (stop : Nat) : Nat → List (Nat × Nat) → Prop
  | start, [] => start = stop
  | start, span :: rest => span.1 = start ∧ Consecutive stop (start + span.2) rest

/-- The request is answered by an error or by the bytes of the part, and the parts make up the object. -/
structure PartServed (catalog : Catalog) (req : PartRequest) (v : Version) (contents : List Bytes) : Prop where
  answered : ∃ answer, opGetObjectPart catalog req = some answer
  delivered : ∀ body, opGetObjectPart catalog req = some (.ok body) →
    ∃ content, 0 < req.partNumber ∧ contents[req.partNumber - 1]? = some content ∧
      body.deliver v = if req.headOnly then [] else content
  tiled : ∃ spans : List (Nat × Nat), spans.length = contents.length ∧
    (∀ index span, spans[index]? = some span → partSpan v.record (index + 1) = some (.ok span)) ∧
      Consecutive v.record.size 0 spans

section Spans

variable {contents : List Bytes} {v : Version}

def spansFrom (start : Nat) : List Nat → List (Nat × Nat)
  | [] => []
  | length :: rest => (start, length) :: spansFrom (start + length) rest

theorem spansFrom_consecutive (start : Nat) (lengths : List Nat) :
    Consecutive (start + lengths.sum) start (spansFrom start lengths) := by
  induction lengths generalizing start with
  | nil => rfl
  | cons length rest ih =>
    refine ⟨rfl, ?_⟩
    rw [List.sum_cons, ← Nat.add_assoc]
    exact ih (start + length)

theorem spansFrom_getElem? (start : Nat) (lengths : List Nat) (index : Nat) :
    (spansFrom start lengths)[index]? =
      lengths[index]?.map fun length => (start + (lengths.take index).sum, length) := by
  induction lengths generalizing start index with
  | nil => rfl
  | cons length rest ih =>
    cases index with
    | zero => simp [spansFrom]
    | succ index =>
      rw [spansFrom, List.getElem?_cons_succ, List.getElem?_cons_succ, ih, List.take_succ_cons,
        List.sum_cons, Nat.add_assoc]

theorem spansFrom_length (start : Nat) (lengths : List Nat) :
    (spansFrom start lengths).length = lengths.length := by
  induction lengths generalizing start with
  | nil => rfl
  | cons length rest ih => rw [spansFrom, List.length_cons, List.length_cons, ih]

theorem slice_flatten {index : Nat} {content : Bytes} (held : contents[index]? = some content) :
    slice contents.flatten ((contents.map List.length).take index).sum content.length = content := by
  induction contents generalizing index with
  | nil => cases held
  | cons first rest ih =>
    cases index with
    | zero =>
      cases held
      simp [slice]
    | succ index =>
      rw [List.getElem?_cons_succ] at held
      rw [List.map_cons, List.take_succ_cons, List.sum_cons, List.flatten_cons, slice, ← List.drop_drop,
        List.drop_left]
      exact ih held

theorem Assembled.size (assembled : Assembled v contents) : v.record.size = (contents.map List.length).sum := by
  rw [← v.sized, assembled.content, List.length_flatten]

theorem Assembled.partSpan (assembled : Assembled v contents) (index : Nat) :
    partSpan v.record (index + 1) =
      if index < contents.length then ((spansFrom 0 (contents.map List.length))[index]?).map .ok
      else some (.error .invalidPart) := by
  rcases assembled.parts with ⟨several, parts⟩ | ⟨parts, rfl⟩
  · have filled : v.record.parts ≠ [] := by
      rw [parts]
      exact fun none => several (List.map_eq_nil_iff.mp none)
    have count : v.record.parts.length = contents.length := by
      rw [parts, List.length_map]
    rw [S3.partSpan, if_neg filled, count, ← parts, spansFrom_getElem?]
    by_cases inside : index < contents.length
    · rw [if_neg (by omega), if_pos inside]
      cases v.record.parts[index]? with
      | none => rfl
      | some length => simp
    · rw [if_pos (by omega), if_neg inside]
  · rw [S3.partSpan, if_pos parts]
    cases index with
    | zero => simp [spansFrom, v.sized]
    | succ index => simp

end Spans

/-- Every number is answered, but for 0 where the object has parts. -/
theorem getObjectPart_served_iff {catalog : Catalog} {req : PartRequest} {v : Version}
    {contents : List Bytes} (held : (headVersion catalog req.address).map Prod.snd = .ok v)
    (assembled : Assembled v contents) :
    PartServed catalog req v contents ↔ (req.partNumber = 0 → v.record.parts = []) := by
  obtain ⟨bucket, held⟩ : ∃ bucket, headVersion catalog req.address = .ok (bucket, v) := by
    cases found : headVersion catalog req.address with
    | error reason => simp [found, Except.map] at held
    | ok pair =>
      rw [found] at held
      cases held
      exact ⟨pair.1, rfl⟩
  have run : opGetObjectPart catalog req = (partSpan v.record req.partNumber).map fun span => do
      let (start, length) ← span
      if req.refuses v.record then .error .refused
      else if length = 0 ∨ req.headOnly then return .empty
      else return .objectStream ⟨req.address, bucket.versioning, start, length⟩ := by
    rw [opGetObjectPart, held]
  constructor
  · intro served none
    by_contra parts
    obtain ⟨answer, answered⟩ := served.answered
    rw [run, none, partSpan, if_neg parts] at answered
    simp at answered
  · intro numbered
    have tiled : ∃ spans : List (Nat × Nat), spans.length = contents.length ∧
        (∀ index span, spans[index]? = some span → partSpan v.record (index + 1) = some (.ok span)) ∧
          Consecutive v.record.size 0 spans := by
      refine ⟨spansFrom 0 (contents.map List.length), ?_, ?_, ?_⟩
      · rw [spansFrom_length, List.length_map]
      · intro index span at_index
        have inside : index < contents.length := by
          have bound := (List.getElem?_eq_some_iff.mp at_index).1
          rwa [spansFrom_length, List.length_map] at bound
        rw [assembled.partSpan, if_pos inside, at_index]
        rfl
      · have consecutive := spansFrom_consecutive 0 (contents.map List.length)
        rwa [Nat.zero_add, ← assembled.size] at consecutive
    cases number : req.partNumber with
    | zero =>
      have refused : opGetObjectPart catalog req = some (.error .invalidPart) := by
        rw [run, number, partSpan, if_pos (numbered number), if_pos (by decide)]
        rfl
      refine ⟨⟨_, refused⟩, ?_, tiled⟩
      intro body answered
      rw [refused] at answered
      cases answered
    | succ index =>
      rw [number, assembled.partSpan, spansFrom_getElem?] at run
      by_cases inside : index < contents.length
      · obtain ⟨content, found⟩ : ∃ content, contents[index]? = some content :=
          ⟨_, List.getElem?_eq_getElem inside⟩
        have bytes := slice_flatten found
        rw [if_pos inside, List.getElem?_map, found] at run
        simp only [Option.map_some, Nat.zero_add] at run
        refine ⟨⟨_, run⟩, ?_, tiled⟩
        intro body answered
        refine ⟨content, by omega, by rw [number]; exact found, ?_⟩
        rw [run] at answered
        simp only [bind, Except.bind, pure, Except.pure, Option.some.injEq] at answered
        split at answered
        · cases answered
        · split at answered
          · next none =>
              cases answered
              cases whole : req.headOnly with
              | true => rfl
              | false =>
                have empty : content.length = 0 := none.resolve_right (by rw [whole]; decide)
                exact (List.length_eq_zero_iff.mp empty).symm
          · next filled =>
              cases answered
              have whole : req.headOnly = false := by
                by_contra head
                exact filled (.inr (Bool.eq_true_of_not_eq_false head))
              rw [whole, ResponseBody.deliver, assembled.content]
              exact bytes
      · rw [if_neg inside] at run
        refine ⟨⟨_, run⟩, ?_, tiled⟩
        intro body answered
        rw [run] at answered
        cases answered

def twoParts : Version :=
  ⟨{ size := 2, mtime := 0, extents := [], inline := none, parts := [1, 1], versionId := none,
     isDeleteMarker := false, sse := none, compressed := none, storageClass := none,
     restoreState := none }, [7, 8], rfl⟩

def storedParts : Catalog :=
  (Catalog.empty.createBucket "docs").write "docs" "text" ⟨0, 0, []⟩ none twoParts

def readPart (partNumber : Nat) : PartRequest :=
  ⟨"docs", "text", partNumber, false, fun _ => false⟩

theorem second_part_served : PartServed storedParts (readPart 2) twoParts [[7], [8]] :=
  (getObjectPart_served_iff (by decide +kernel) ⟨rfl, .inl ⟨by decide, rfl⟩⟩).mpr (by decide)

/-- The router lets the number 0 through, and the index in front of the first part panics. -/
theorem part_zero_panics :
    parsePartNumber "0" = .ok 0 ∧ ¬ PartServed storedParts (readPart 0) twoParts [[7], [8]] := by
  refine ⟨by decide +kernel, ?_⟩
  intro served
  obtain ⟨answer, answered⟩ := served.answered
  have panics : opGetObjectPart storedParts (readPart 0) = none := by decide +kernel
  rw [panics] at answered
  cases answered

end FastS3.S3
