import FastS3.Core.ObjectCache
import FastS3.Engine.Catalog
import FastS3.S3.Router

namespace FastS3.S3

open Data Engine
open FastS3.Core (Bytes CacheConfig ObjectCache VersioningState slice)

/-! The reads of objects: by GetObject, by the number of a part, and by the chunks of a stream.

The checks of the conditions and of the encryption headers only refuse, and what `parse_range_multi`
makes of a range header is part of the request.
-/

def objKey (address : Address) (size : Nat) : String :=
  let version := match address.version with
    | some vk => hexEncode vk
    | none => "-"
  address.bucket ++ "\x00" ++ address.key ++ "\x00" ++ version ++ "\x00" ++ toString size

inductive GetError where
  | noSuchBucket
  | noSuchKey
  | noSuchVersion
  | deleteMarker
  | invalidObjectState
  | invalidRange
  | invalidPart
  | refused
deriving Repr, DecidableEq

structure GetRequest where
  address : Address
  headOnly : Bool
  now : Int
  refuses : Core.ObjectMeta → Bool
  /-- The parts of the range header for an object of a size: first and last byte. -/
  rangeParts : Nat → Except GetError (Option (List (Nat × Nat)))
  /-- The read of the whole object that fills the cache does not fail. -/
  readable : Bool

structure ObjectStream where
  address : Address
  versioning : VersioningState
  offset : Nat
  length : Nat
deriving Repr, DecidableEq

inductive ResponseBody where
  | empty
  | bytes (content : Bytes)
  | objectStream (stream : ObjectStream)
  | multiRange (address : Address) (versioning : VersioningState) (ranges : List (Nat × Nat))
deriving Repr, DecidableEq

/-- What a request reads: from a first byte to before another, or several parts. -/
inductive Span where
  | single (start stop : Nat)
  | multi (ranges : List (Nat × Nat))
deriving Repr, DecidableEq

/-- `head_version_for` with the errors of GetObject. -/
def headVersion (catalog : Catalog) (address : Address) : Except GetError (CatalogBucket × Version) :=
  match catalog.buckets.get? address.bucket with
  | none => .error .noSuchBucket
  | some bucket =>
    match catalog.resolveEntry (some bucket.versioning) address with
    | none => .error (if address.version.isSome then .noSuchVersion else .noSuchKey)
    | some v => if v.record.isDeleteMarker then .error .deleteMarker else .ok (bucket, v)

/-- Archived objects are read when they are restored; while that is under way, their metadata are. -/
def archiveGate (m : Core.ObjectMeta) (now : Int) (headOnly : Bool) : Except GetError Unit :=
  if archiveNeedsRestore m ∧ ¬m.restoreValid now then
    if headOnly ∧ m.restoreOngoing then .ok () else .error .invalidObjectState
  else .ok ()

def requestedSpan (req : GetRequest) (size : Nat) : Except GetError Span :=
  match req.rangeParts size with
  | .error reason => .error reason
  | .ok none => .ok (.single 0 size)
  | .ok (some []) => .error .invalidRange
  | .ok (some [part]) =>
    if size ≤ part.1 then .error .invalidRange else .ok (.single part.1 (part.2 + 1))
  | .ok (some parts) => .ok (.multi parts)

/-- The part of `op_get_object` in front of the body. -/
def admitGet (catalog : Catalog) (req : GetRequest) :
    Except GetError (CatalogBucket × Version × Span) := do
  let (bucket, v) ← headVersion catalog req.address
  archiveGate v.record req.now req.headOnly
  if req.refuses v.record then .error .refused
  else
    let span ← requestedSpan req v.record.size
    return (bucket, v, span)

section Admission

variable {catalog : Catalog} {req : GetRequest} {bucket : CatalogBucket} {v : Version} {span : Span}

theorem headVersion_eq_ok {address : Address} :
    headVersion catalog address = .ok (bucket, v) ↔
      catalog.buckets.get? address.bucket = some bucket ∧ catalog.resolve none address = some v := by
  rw [headVersion, Catalog.resolve]
  cases held : catalog.buckets.get? address.bucket with
  | none => simp
  | some found =>
    simp only [catalog.resolveEntry_some held, Option.filter_eq_some_iff]
    cases entry : catalog.resolveEntry none address with
    | none => simp
    | some w =>
      cases marker : w.record.isDeleteMarker with
      | true =>
        simp only [marker]
        refine iff_of_false (fun found => nomatch found) ?_
        intro both
        rw [← Option.some.inj both.2.1, marker] at both
        cases both.2.2
      | false =>
        simp only [marker]
        constructor
        · intro found
          cases found
          exact ⟨rfl, rfl, by rw [marker]; rfl⟩
        · intro both
          cases both.1
          cases both.2.1
          rfl

theorem archiveGate_eq_ok {m : Core.ObjectMeta} {now : Int} :
    archiveGate m now false = .ok () ↔ (archiveNeedsRestore m = true → m.restoreValid now = true) := by
  rw [archiveGate]
  cases archiveNeedsRestore m <;> cases m.restoreValid now <;> simp

theorem admitGet_eq_ok (whole : req.headOnly = false) :
    admitGet catalog req = .ok (bucket, v, span) ↔
      catalog.buckets.get? req.address.bucket = some bucket ∧
        catalog.resolve none req.address = some v ∧
        (archiveNeedsRestore v.record = true → v.record.restoreValid req.now = true) ∧
        req.refuses v.record = false ∧ requestedSpan req v.record.size = .ok span := by
  rw [admitGet, whole]
  cases found : headVersion catalog req.address with
  | error reason =>
    refine iff_of_false (fun admitted => nomatch admitted) ?_
    intro admitted
    have head := headVersion_eq_ok.mpr ⟨admitted.1, admitted.2.1⟩
    rw [found] at head
    cases head
  | ok head =>
    obtain ⟨bucket', w⟩ := head
    obtain ⟨held, resolved⟩ := headVersion_eq_ok.mp found
    simp only [held, resolved, Option.some.injEq, bind, Except.bind]
    cases gate : archiveGate w.record req.now false with
    | error reason =>
      refine iff_of_false (fun admitted => nomatch admitted) ?_
      intro admitted
      have passed := archiveGate_eq_ok.mpr (admitted.2.1 ▸ admitted.2.2.1)
      rw [gate] at passed
      cases passed
    | ok passed =>
      have restored := archiveGate_eq_ok.mp gate
      simp only
      split
      · next refused =>
          refine iff_of_false (fun admitted => nomatch admitted) ?_
          intro admitted
          rw [admitted.2.1, admitted.2.2.2.1] at refused
          cases refused
      · next accepted =>
          cases asked : requestedSpan req w.record.size with
          | error reason =>
            refine iff_of_false (fun admitted => nomatch admitted) ?_
            intro admitted
            rw [admitted.2.1, admitted.2.2.2.2] at asked
            cases asked
          | ok given =>
            constructor
            · intro admitted
              cases admitted
              exact ⟨rfl, rfl, restored, Bool.not_eq_true _ ▸ accepted, asked⟩
            · intro admitted
              obtain ⟨rfl, rfl, -, -, spanned⟩ := admitted
              rw [asked] at spanned
              cases spanned
              rfl

end Admission

/-- `get_to_version` of all bytes of a size. -/
def readWhole (catalog : Catalog) (req : GetRequest) (size : Nat) : Option Bytes :=
  if req.readable then
    (catalog.resolve none req.address).bind fun v =>
      let bytes := v.content.take size
      if bytes.length = size then some bytes else none
  else none

def cachedObject (catalog : Catalog) (config : CacheConfig) (cache : ObjectCache) (req : GetRequest)
    (size : Nat) : Option Bytes × ObjectCache :=
  let key := objKey req.address size
  match cache.get key with
  | (some bytes, touched) => (some bytes, touched)
  | (none, missed) =>
    match readWhole catalog req size with
    | none => (none, missed)
    | some bytes => (some bytes, (missed.insert config key bytes).getD missed)

def cachedBody (catalog : Catalog) (config : CacheConfig) (cache : ObjectCache) (req : GetRequest)
    (v : Version) (start length : Nat) : Option Bytes × ObjectCache :=
  if v.record.sse = none ∧ config.eligible v.record.size ∧ 0 < length then
    match cachedObject catalog config cache req v.record.size with
    | (none, after) => (none, after)
    | (some full, after) =>
      if full = [] then (none, after) else (some (slice full start length), after)
  else (none, cache)

/-- `op_get_object`: the announced version, the body, and the cache behind the request. -/
def opGetObject (catalog : Catalog) (config : CacheConfig) (cache : ObjectCache) (req : GetRequest) :
    Except GetError (Version × ResponseBody) × ObjectCache :=
  match admitGet catalog req with
  | .error reason => (.error reason, cache)
  | .ok (bucket, v, .multi ranges) =>
    (.ok (v, if req.headOnly then .empty else .multiRange req.address bucket.versioning ranges), cache)
  | .ok (bucket, v, .single start stop) =>
    if req.headOnly then (.ok (v, .empty), cache)
    else
      match cachedBody catalog config cache req v start (stop - start) with
      | (some body, after) => (.ok (v, .bytes body), after)
      | (none, after) =>
        (.ok (v, .objectStream ⟨req.address, bucket.versioning, start, stop - start⟩), after)

theorem opGetObject_stream {catalog : Catalog} {config : CacheConfig} {cache : ObjectCache}
    {req : GetRequest} {v : Version} {stream : ObjectStream}
    (answered : (opGetObject catalog config cache req).1 = .ok (v, .objectStream stream)) :
    stream.address = req.address ∧ catalog.resolve (some stream.versioning) stream.address = some v := by
  rw [opGetObject] at answered
  cases admitted : admitGet catalog req with
  | error reason =>
    rw [admitted] at answered
    cases answered
  | ok found =>
    obtain ⟨bucket, w, span⟩ := found
    rw [admitted] at answered
    cases span with
    | multi ranges =>
      simp only at answered
      split at answered <;> cases answered
    | single start stop =>
      simp only at answered
      split at answered
      · cases answered
      · next whole =>
          obtain ⟨held, resolved, -⟩ :=
            (admitGet_eq_ok (Bool.not_eq_true _ ▸ whole)).mp admitted
          split at answered
          · cases answered
          · cases answered
            refine ⟨rfl, ?_⟩
            rw [Catalog.resolve, catalog.resolveEntry_some held]
            exact resolved

/-- `read_stream_chunk` with `read_at_meta`: the version that the address leads to by now, and its
bytes; `readable` tells that the device does not fail. -/
def readStreamChunk (catalog : Catalog) (stream : ObjectStream) (pos bufLen : Nat) (readable : Bool) :
    Except GetError (Option (Version × Bytes)) :=
  if stream.length ≤ pos then .ok none
  else
    match catalog.resolve (some stream.versioning) stream.address with
    | none => .error .noSuchKey
    | some v =>
      if readable then
        let bytes := slice v.content (stream.offset + pos) (min (stream.length - pos) bufLen)
        if bytes = [] then .ok none else .ok (some (v, bytes))
      else .error .refused

end FastS3.S3
