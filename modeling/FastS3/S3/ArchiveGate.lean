import FastS3.S3.GetObject

namespace FastS3.S3

open Data Engine
open FastS3.Core (Bytes CacheConfig ObjectCache VersioningState slice)

/-! The gate in front of archived objects, for GetObject and for the copies of objects and of parts.

Objects of the classes `GLACIER` and `DEEP_ARCHIVE` have to be restored first.  Copies within the
class of the source are exempt, since they share the archived data.
-/

/-- What a copy of a part asks for: the session has a class of its own. -/
structure PartCopy where
  src : Address
  sessionClass : Option String
  encrypted : Bool
  start : Nat
  stop : Nat
deriving Repr, DecidableEq

inductive PartCopyRefusal where
  | notFound
  | invalidObjectState
  | encryption
  | emptyRange
deriving Repr, DecidableEq

/-- `upload_part_copy` up to the content of the part, with the keys that it needs at hand. -/
def uploadPartCopy (catalog : Catalog) (copy : PartCopy) (now : Int) :
    Except PartCopyRefusal (Version × Bytes) :=
  match catalog.resolve none copy.src with
  | none => .error .notFound
  | some v =>
    if archiveNeedsRestore v.record ∧ ¬v.record.restoreValid now ∧
        copy.sessionClass ≠ v.record.storageClass then .error .invalidObjectState
    else if v.record.sse.isSome ∧ copy.encrypted = false then .error .encryption
    else
      let start := min copy.start v.record.size
      let stop := min copy.stop v.record.size
      if stop ≤ start then .error .emptyRange
      else .ok (v, slice v.content start (stop - start))

section Gate

variable {catalog : Catalog} {now : Int} {v : Version}

theorem opGetObject_gated {config : CacheConfig} {cache : ObjectCache} {req : GetRequest}
    {body : ResponseBody} (whole : req.headOnly = false)
    (answered : (opGetObject catalog config cache req).1 = .ok (v, body)) :
    archiveNeedsRestore v.record = true → v.record.restoreValid req.now = true := by
  rw [opGetObject] at answered
  cases admitted : admitGet catalog req with
  | error reason =>
    rw [admitted] at answered
    cases answered
  | ok found =>
    obtain ⟨bucket, w, span⟩ := found
    obtain ⟨-, -, restored, -, -⟩ := (admitGet_eq_ok whole).mp admitted
    have same : w = v := by
      rw [admitted] at answered
      cases span with
      | multi ranges =>
        cases answered
        rfl
      | single start stop =>
        simp only [whole] at answered
        split at answered
        · next head => cases head
        · split at answered <;> cases answered <;> rfl
    rw [← same]
    exact restored

theorem opGetObject_accepts (config : CacheConfig) (cache : ObjectCache) {req : GetRequest}
    {bucket : CatalogBucket} {span : Span}
    (admitted : admitGet catalog req = .ok (bucket, v, span)) :
    ∃ body, (opGetObject catalog config cache req).1 = .ok (v, body) := by
  rw [opGetObject, admitted]
  cases span with
  | multi ranges => exact ⟨_, rfl⟩
  | single start stop =>
    simp only
    split
    · exact ⟨_, rfl⟩
    · split <;> exact ⟨_, rfl⟩

theorem copySource_eq_ok {src : Address} {dst : CopyTarget} {versioning : VersioningState}
    {targetClass : Option String} :
    catalog.copySource src dst now versioning = .ok (v, targetClass) ↔
      catalog.resolveEntry none src = some v ∧
        targetClass = dst.requestedClass.getD v.record.storageClass ∧
        (archiveNeedsRestore v.record = true →
          v.record.restoreValid now = true ∨ targetClass = v.record.storageClass) ∧
        (v.record.isDeleteMarker = true → versioning ≠ .off) ∧
        (v.record.isDeleteMarker = false → v.record.sse.isSome = true → dst.sse ≠ none) := by
  rw [Catalog.copySource]
  constructor
  · intro copied
    split at copied
    · cases copied
    · next w found =>
        simp only at copied
        split at copied
        · cases copied
        · next passed =>
            split at copied
            · cases copied
            · next placed =>
                split at copied
                · cases copied
                · next keyed =>
                    cases copied
                    refine ⟨found, rfl, ?_, fun marker off => placed ⟨marker, off⟩, ?_⟩
                    · intro needs
                      by_contra neither
                      obtain ⟨invalid, differs⟩ := not_or.mp neither
                      exact passed ⟨needs, invalid, differs⟩
                    · intro data encrypted none
                      refine keyed ⟨?_, encrypted, none⟩
                      rw [data]
                      rfl
  · intro allowed
    obtain ⟨found, rfl, gate, versioned, keyed⟩ := allowed
    rw [found]
    simp only
    rw [if_neg (fun blocked => (gate blocked.1).elim blocked.2.1 blocked.2.2),
      if_neg (fun marker => versioned marker.1 marker.2), if_neg]
    intro data
    exact keyed (Bool.not_eq_true' _ ▸ data.1) data.2.1 data.2.2

theorem uploadPartCopy_eq_ok {copy : PartCopy} {content : Bytes} :
    uploadPartCopy catalog copy now = .ok (v, content) ↔
      catalog.resolve none copy.src = some v ∧
        (archiveNeedsRestore v.record = true →
          v.record.restoreValid now = true ∨ copy.sessionClass = v.record.storageClass) ∧
        (v.record.sse.isSome = true → copy.encrypted = true) ∧
        min copy.start v.record.size < min copy.stop v.record.size ∧
        content = slice v.content (min copy.start v.record.size)
          (min copy.stop v.record.size - min copy.start v.record.size) := by
  rw [uploadPartCopy]
  constructor
  · intro copied
    split at copied
    · cases copied
    · next w found =>
        simp only at copied
        split at copied
        · cases copied
        · next passed =>
            split at copied
            · cases copied
            · next keyed =>
                split at copied
                · cases copied
                · next filled =>
                    cases copied
                    refine ⟨found, ?_, ?_, not_le.mp filled, rfl⟩
                    · intro needs
                      by_contra neither
                      obtain ⟨invalid, differs⟩ := not_or.mp neither
                      exact passed ⟨needs, invalid, differs⟩
                    · intro encrypted
                      by_contra plain
                      exact keyed ⟨encrypted, Bool.not_eq_true _ ▸ plain⟩
  · intro allowed
    obtain ⟨found, gate, keyed, filled, rfl⟩ := allowed
    rw [found]
    simp only
    rw [if_neg (fun blocked => (gate blocked.1).elim blocked.2.1 blocked.2.2), if_neg,
      if_neg (not_le.mpr filled)]
    intro plain
    exact absurd (keyed plain.1) (Bool.eq_false_iff.mp plain.2)

end Gate

/-- Content of a version that has to be restored is returned or copied only when it is restored, or
within its own class; and a version that is restored is accepted by all of these. -/
theorem archive_gated (catalog : Catalog) (now : Int) (v : Version) :
    (∀ config cache req, req.headOnly = false → req.now = now →
      (∀ body, (opGetObject catalog config cache req).1 = .ok (v, body) →
        archiveNeedsRestore v.record = true → v.record.restoreValid now = true) ∧
      (∀ bucket span, catalog.buckets.get? req.address.bucket = some bucket →
        catalog.resolve none req.address = some v → req.refuses v.record = false →
        requestedSpan req v.record.size = .ok span → v.record.restoreValid now = true →
        ∃ body, (opGetObject catalog config cache req).1 = .ok (v, body))) ∧
    (∀ src dst versioning,
      (∀ targetClass, catalog.copySource src dst now versioning = .ok (v, targetClass) →
        archiveNeedsRestore v.record = true →
          v.record.restoreValid now = true ∨ targetClass = v.record.storageClass) ∧
      (catalog.resolve none src = some v → (v.record.sse.isSome = true → dst.sse ≠ none) →
        v.record.restoreValid now = true →
        ∃ targetClass, catalog.copySource src dst now versioning = .ok (v, targetClass))) ∧
    ∀ copy,
      (∀ content, uploadPartCopy catalog copy now = .ok (v, content) →
        archiveNeedsRestore v.record = true →
          v.record.restoreValid now = true ∨ copy.sessionClass = v.record.storageClass) ∧
      (catalog.resolve none copy.src = some v → (v.record.sse.isSome = true → copy.encrypted = true) →
        min copy.start v.record.size < min copy.stop v.record.size →
        v.record.restoreValid now = true →
        ∃ content, uploadPartCopy catalog copy now = .ok (v, content)) := by
  refine ⟨?_, ?_, ?_⟩
  · intro config cache req whole time
    constructor
    · intro body answered
      rw [← time]
      exact opGetObject_gated whole answered
    · intro bucket span held resolved accepted spanned valid
      rw [← time] at valid
      have admitted := (admitGet_eq_ok whole).mpr
        ⟨held, resolved, fun _ => valid, accepted, spanned⟩
      exact opGetObject_accepts config cache admitted
  · intro src dst versioning
    constructor
    · intro targetClass copied
      exact (copySource_eq_ok.mp copied).2.2.1
    · intro resolved keyed valid
      obtain ⟨entry, data⟩ := Option.filter_eq_some_iff.mp resolved
      rw [Bool.not_eq_true'] at data
      refine ⟨_, copySource_eq_ok.mpr ⟨entry, rfl, fun _ => .inl valid, ?_, fun _ => keyed⟩⟩
      intro marker
      rw [data] at marker
      cases marker
  · intro copy
    constructor
    · intro content copied
      exact (uploadPartCopy_eq_ok.mp copied).2.1
    · intro resolved keyed filled valid
      exact ⟨_, uploadPartCopy_eq_ok.mpr ⟨resolved, fun _ => .inl valid, keyed, filled, rfl⟩⟩

def ofClass (storageClass : String) : Version :=
  ⟨{ size := 1, mtime := 0, extents := [], inline := none, parts := [], versionId := none,
     isDeleteMarker := false, sse := none, compressed := none, storageClass := some storageClass,
     restoreState := none }, [1], rfl⟩

def storedOfClass (storageClass : String) : Catalog :=
  (Catalog.empty.createBucket "docs").write "docs" "text" ⟨0, 0, []⟩ none (ofClass storageClass)

/-- A copy within the class of its source, and the class that is read online. -/
theorem archived_without_restore :
    ((storedOfClass "GLACIER").copySource ⟨"docs", "text", none⟩ ⟨"docs", "copy", none, none⟩ 0 .off =
        .ok (ofClass "GLACIER", some "GLACIER")) ∧
      (opGetObject (storedOfClass "GLACIER_IR") ⟨false, 0, 0⟩ (ObjectCache.new ⟨false, 0, 0⟩)
          ⟨⟨"docs", "text", none⟩, false, 0, fun _ => false, fun _ => .ok none, true⟩).1 =
        .ok (ofClass "GLACIER_IR", .objectStream ⟨⟨"docs", "text", none⟩, .off, 0, 1⟩) ∧
      ((ofClass "GLACIER").record.isArchive = true ∧
        (ofClass "GLACIER").record.restoreValid 0 = false) ∧
      (ofClass "GLACIER_IR").record.isArchive = true ∧
        (ofClass "GLACIER_IR").record.restoreValid 0 = false := by
  decide +kernel

end FastS3.S3
