import FastS3.Data.Runs
import FastS3.S3.GetObject

namespace FastS3.S3

open Data Engine
open FastS3.Core (Bytes CacheConfig ObjectCache slice)

/-! The body of a streamed GetObject.

Every chunk is a read of its own, of the version that the address leads to then; between two chunks
anything may change.
-/

/-- A stream under way: what was delivered, and the versions it came from. -/
structure Streaming where
  catalog : Catalog
  pos : Nat := 0
  delivered : Bytes := []
  sources : List Version := []
  ended : Bool := false

inductive StreamStep where
  | change (change : Change)
  | chunk (bufLen : Nat) (readable : Bool)

def Streaming.step (stream : ObjectStream) (s : Streaming) : StreamStep → Streaming
  | .change change => { s with catalog := s.catalog.apply change }
  | .chunk bufLen readable =>
    if s.ended then s
    else
      match readStreamChunk s.catalog stream s.pos bufLen readable with
      | .error _ => { s with ended := true }
      | .ok none => { s with ended := true }
      | .ok (some (v, bytes)) =>
        { s with
          pos := s.pos + bytes.length
          delivered := s.delivered ++ bytes
          sources := s.sources ++ [v] }

/-- A version has its id and its content; a transition, a restore or a compaction rewrites the rest of
its record. -/
def SameVersion (v announced : Version) : Prop :=
  v.record.versionId = announced.record.versionId ∧ v.content = announced.content

/-- What was delivered is the beginning of the range of the announced version, and comes from it. -/
def OneVersion (announced : Version) (stream : ObjectStream) (s : Streaming) : Prop :=
  s.delivered <+: slice announced.content stream.offset stream.length ∧
    ∀ v ∈ s.sources, SameVersion v announced

def Steady (announced : Version) (stream : ObjectStream) (s : Streaming) : StreamStep → Prop
  | .change _ => True
  | .chunk bufLen readable => ∀ v, s.ended = false → s.pos < stream.length → 0 < bufLen →
      readable = true → catalog s stream = some v → stream.offset + s.pos < v.record.size →
      SameVersion v announced
where
  catalog (s : Streaming) (stream : ObjectStream) : Option Version :=
    s.catalog.resolve (some stream.versioning) stream.address

/-- The place of the next chunk, and the part of the announced version in front of it. -/
structure Delivering (announced : Version) (stream : ObjectStream) (s : Streaming) : Prop where
  within : s.pos ≤ stream.length
  placed : s.delivered.length = s.pos
  delivered : s.delivered = slice announced.content stream.offset s.pos
  sources : ∀ v ∈ s.sources, SameVersion v announced

section Chunks

variable {announced : Version} {stream : ObjectStream} {s : Streaming}

theorem slice_append (content : Bytes) (start first second : Nat) :
    slice content start first ++ slice content (start + first) second =
      slice content start (first + second) := by
  rw [slice, slice, slice, ← List.drop_drop, ← List.take_add]

theorem slice_of_length {content bytes : Bytes} {start len : Nat} (same : bytes = slice content start len) :
    bytes = slice content start bytes.length := by
  rw [slice] at same ⊢
  rw [same, List.length_take, List.take_eq_take_iff]
  omega

theorem slice_eq_nil_iff {content : Bytes} {start len : Nat} :
    slice content start len = [] ↔ len = 0 ∨ content.length ≤ start := by
  rw [slice, List.take_eq_nil_iff, List.drop_eq_nil_iff]

theorem readStreamChunk_eq_some {catalog : Catalog} {pos bufLen : Nat} {readable : Bool} {v : Version}
    {bytes : Bytes} (read : readStreamChunk catalog stream pos bufLen readable = .ok (some (v, bytes))) :
    pos < stream.length ∧ 0 < bufLen ∧ readable = true ∧
      catalog.resolve (some stream.versioning) stream.address = some v ∧
      stream.offset + pos < v.record.size ∧ bytes ≠ [] ∧
      bytes = slice v.content (stream.offset + pos) (min (stream.length - pos) bufLen) := by
  rw [readStreamChunk] at read
  split at read
  · cases read
  · next before =>
      split at read
      · cases read
      · next resolved =>
          split at read
          · next readable =>
              simp only at read
              split at read
              · cases read
              · next filled =>
                  cases read
                  have apart := (not_congr slice_eq_nil_iff).mp filled
                  rw [v.sized] at apart
                  refine ⟨not_le.mp before, ?_, readable, resolved, ?_, filled, rfl⟩ <;> omega
          · cases read

theorem readStreamChunk_delivers {catalog : Catalog} {pos bufLen : Nat} {v : Version}
    (before : pos < stream.length) (room : 0 < bufLen)
    (resolved : catalog.resolve (some stream.versioning) stream.address = some v)
    (inside : stream.offset + pos < v.record.size) :
    ∃ bytes, readStreamChunk catalog stream pos bufLen true = .ok (some (v, bytes)) := by
  have filled : slice v.content (stream.offset + pos) (min (stream.length - pos) bufLen) ≠ [] := by
    rw [ne_eq, slice_eq_nil_iff, v.sized]
    omega
  refine ⟨slice v.content (stream.offset + pos) (min (stream.length - pos) bufLen), ?_⟩
  rw [readStreamChunk, if_neg (not_le.mpr before), resolved]
  simp only [if_pos, if_neg filled]

theorem Delivering.oneVersion (delivering : Delivering announced stream s) :
    OneVersion announced stream s := by
  refine ⟨?_, delivering.sources⟩
  rw [delivering.delivered, slice, slice]
  exact List.take_prefix_take_left delivering.within

theorem Delivering.chunk {v : Version} {bytes : Bytes} {bufLen : Nat}
    (delivering : Delivering announced stream s) (same : SameVersion v announced)
    (read : bytes = slice v.content (stream.offset + s.pos) (min (stream.length - s.pos) bufLen)) :
    Delivering announced stream { s with
      pos := s.pos + bytes.length
      delivered := s.delivered ++ bytes
      sources := s.sources ++ [v] } := by
  rw [same.2] at read
  have short : bytes.length ≤ stream.length - s.pos := by
    rw [read, slice, List.length_take]
    omega
  have within := delivering.within
  refine ⟨?_, ?_, ?_, ?_⟩
  · simp only
    omega
  · simp only [List.length_append, delivering.placed]
  · simp only
    rw [delivering.delivered, slice_of_length read, slice_append, ← slice_of_length read]
  · intro source inside
    obtain before | last := List.mem_append.mp inside
    · exact delivering.sources source before
    · exact List.mem_singleton.mp last ▸ same

theorem delivering_step (step : StreamStep) (delivering : Delivering announced stream s) :
    Delivering announced stream (s.step stream step) ↔ Steady announced stream s step := by
  cases step with
  | change change =>
    exact iff_of_true ⟨delivering.within, delivering.placed, delivering.delivered,
      delivering.sources⟩ trivial
  | chunk bufLen readable =>
    have still : Delivering announced stream { s with ended := true } :=
      ⟨delivering.within, delivering.placed, delivering.delivered, delivering.sources⟩
    rw [Streaming.step]
    by_cases ended : s.ended = true
    · rw [if_pos ended]
      refine iff_of_true delivering ?_
      intro v running
      rw [ended] at running
      cases running
    · rw [if_neg ended]
      split
    -- what delivers nothing cannot come from another version
      · next reason read =>
          refine iff_of_true still ?_
          intro v _ before room sound resolved inside
          obtain ⟨bytes, delivers⟩ := readStreamChunk_delivers before room resolved inside
          rw [sound, delivers] at read
          cases read
      · next read =>
          refine iff_of_true still ?_
          intro v _ before room sound resolved inside
          obtain ⟨bytes, delivers⟩ := readStreamChunk_delivers before room resolved inside
          rw [sound, delivers] at read
          cases read
      · next v bytes read =>
          obtain ⟨before, room, sound, resolved, inside, -, slice⟩ := readStreamChunk_eq_some read
          constructor
          · intro after w _ _ _ _ resolved' _
            rw [Steady.catalog, resolved] at resolved'
            rw [← Option.some.inj resolved']
            exact after.sources v (List.mem_append_right _ (List.mem_singleton.mpr rfl))
          · intro steady
            have same : SameVersion v announced := steady v (Bool.not_eq_true _ ▸ ended) before room
              sound resolved inside
            exact delivering.chunk same slice

theorem oneVersion_step (step : StreamStep) (delivering : Delivering announced stream s) :
    OneVersion announced stream (s.step stream step) ↔ Delivering announced stream (s.step stream step) := by
  refine ⟨fun whole => ?_, Delivering.oneVersion⟩
  refine (delivering_step step delivering).mpr ?_
  cases step with
  | change change => trivial
  | chunk bufLen readable =>
    intro v running before room sound resolved inside
    obtain ⟨bytes, delivers⟩ := readStreamChunk_delivers before room resolved inside
    have after := whole.2 v
    rw [Streaming.step, if_neg (by rw [running]; decide), sound, delivers] at after
    exact after (List.mem_append_right _ (List.mem_singleton.mpr rfl))

end Chunks

/-- A stream starts with the version that it announces.  Throughout a run, what it delivers is the
beginning of the range of that version exactly if the address leads to it at every chunk with bytes. -/
theorem stream_oneVersion_iff {catalog : Catalog} {config : CacheConfig} {cache : ObjectCache}
    {req : GetRequest} {announced : Version} {stream : ObjectStream}
    (answered : (opGetObject catalog config cache req).1 = .ok (announced, .objectStream stream))
    (steps : List StreamStep) :
    catalog.resolve (some stream.versioning) stream.address = some announced ∧
      (AlwaysHolds (Streaming.step stream) (OneVersion announced stream) { catalog := catalog } steps ↔
        EveryStep (Streaming.step stream) (Steady announced stream) { catalog := catalog } steps) := by
  refine ⟨(opGetObject_stream answered).2, ?_⟩
  have start : Delivering announced stream { catalog := catalog } :=
    ⟨Nat.zero_le _, rfl, rfl, fun v inside => nomatch inside⟩
  refine alwaysHolds_iff_of_invariant (fun s => Delivering.oneVersion) ?_ ?_ start
  · intro s step delivering
    exact (oneVersion_step step delivering).trans (delivering_step step delivering)
  · intro s step delivering steady
    exact (delivering_step step delivering).mpr steady

def noCache : CacheConfig :=
  ⟨false, 0, 0⟩

def letters (bytes : Bytes) : Version :=
  ⟨{ size := bytes.length, mtime := 0, extents := [], inline := none, parts := [], versionId := none,
     isDeleteMarker := false, sse := none, compressed := none, storageClass := none,
     restoreState := none }, bytes, rfl⟩

def storedLetters : Catalog :=
  (Catalog.empty.createBucket "docs").write "docs" "text" ⟨0, 0, []⟩ none (letters [1, 1])

def readLetters : GetRequest where
  address := ⟨"docs", "text", none⟩
  headOnly := false
  now := 0
  refuses := fun _ => false
  rangeParts := fun _ => .ok none
  readable := true

def lettersStream : ObjectStream :=
  ⟨⟨"docs", "text", none⟩, .off, 0, 2⟩

theorem storedLetters_streamed :
    (opGetObject storedLetters noCache (ObjectCache.new noCache) readLetters).1 =
      .ok (letters [1, 1], .objectStream lettersStream) := by
  decide +kernel

/-- The object is moved to another class between two chunks. -/
def transitionBetween : List StreamStep :=
  [.chunk 1 true, .change (.rewrite "docs" "text" none ⟨[], none, none, some "STANDARD_IA", none⟩),
    .chunk 1 true]

theorem storedLetters_oneVersion :
    storedLetters.resolve (some .off) ⟨"docs", "text", none⟩ = some (letters [1, 1]) ∧
      (AlwaysHolds (Streaming.step lettersStream) (OneVersion (letters [1, 1]) lettersStream)
          { catalog := storedLetters } transitionBetween ↔
        EveryStep (Streaming.step lettersStream) (Steady (letters [1, 1]) lettersStream)
          { catalog := storedLetters } transitionBetween) :=
  stream_oneVersion_iff storedLetters_streamed _

def overwriteBetween : List StreamStep :=
  [.chunk 1 true, .change (.write "docs" "text" ⟨0, 0, []⟩ none (letters [2, 2])), .chunk 1 true]

theorem overwritten_stream_mixed :
    ((overwriteBetween.foldl (Streaming.step lettersStream) { catalog := storedLetters }).delivered =
        [1, 2]) ∧
      ¬AlwaysHolds (Streaming.step lettersStream) (OneVersion (letters [1, 1]) lettersStream)
        { catalog := storedLetters } overwriteBetween := by
  have mixed : (overwriteBetween.foldl (Streaming.step lettersStream)
      { catalog := storedLetters }).delivered = [1, 2] := by decide +kernel
  refine ⟨mixed, ?_⟩
  intro always
  have last := (always overwriteBetween [] (List.append_nil _).symm).1
  rw [mixed] at last
  exact absurd last (by decide)

end FastS3.S3
