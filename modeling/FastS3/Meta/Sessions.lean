import FastS3.Data.Paging
import FastS3.Meta.Keys

namespace FastS3.Meta

open FastS3.Core Data

/-! The listing of the uploads of a bucket.

The rows of the index of a bucket are in the order of the upload ids, and the marker of a
page is compared by key and upload id.  Texts are compared as their UTF-8 bytes.
-/

def prefixUploadIndex : Bytes := utf8 "m:"

def sessionIndexPrefix (bucket : String) : Bytes :=
  prefixUploadIndex ++ utf8 bucket ++ [0]

def sessionIndexKey (bucket uploadId : String) : Bytes :=
  sessionIndexPrefix bucket ++ utf8 uploadId

/-- `parse_session_index_key`: the upload id. -/
def parseSessionIndexKey (raw : Bytes) : Except Error String := do
  let body ← orCorrupt "session index key missing prefix" (raw.dropPrefix? prefixUploadIndex)
  let sep ← orCorrupt "session index key missing separator" (body.idxOf? 0)
  orCorrupt "upload id not utf8" (fromUtf8 (body.drop (sep + 1)))

/-- The rows of uploads: the index, in the order of its raw keys, and the sessions. -/
structure UploadRows where
  index : BTreeMap Bytes Unit
  session : String → Option MultipartSession
  indexed : ∀ entry ∈ index.entries, ∃ bucket uploadId : String, 0 ∉ utf8 bucket ∧
    entry.1 = sessionIndexKey bucket uploadId

namespace UploadRows

variable (rows : UploadRows)

/-- `scan_prefix` of the index. -/
def scanIndex (bucket : String) : List Bytes :=
  (rows.index.entries.map Prod.fst).filter fun raw => sessionIndexPrefix bucket <+: raw

def listed (keyPrefix : Bytes) (session : MultipartSession) : Bool :=
  !session.completed && (keyPrefix = [] || keyPrefix.isPrefixOf (utf8 session.key))

def passed (afterKey : Option (Bytes × Bytes)) (uploadId : String) (session : MultipartSession) :
    Bool :=
  match afterKey with
  | none => false
  | some (key, upload) =>
    utf8 session.key < key || (utf8 session.key = key && utf8 uploadId ≤ upload)

/-- The loop of `list_bucket_sessions`; a page that is full ends it. -/
def sessionsLoop (keyPrefix : Bytes) (afterKey : Option (Bytes × Bytes)) (count : Nat) :
    List Bytes → List (String × MultipartSession) → Except Error (List (String × MultipartSession))
  | [], out => .ok out
  | raw :: rest, out => do
      let uploadId ← parseSessionIndexKey raw
      match rows.session uploadId with
      | none => sessionsLoop keyPrefix afterKey count rest out
      | some session =>
        if !listed keyPrefix session then sessionsLoop keyPrefix afterKey count rest out
        else if passed afterKey uploadId session then sessionsLoop keyPrefix afterKey count rest out
        else if out.length ≥ count then .ok out
        else sessionsLoop keyPrefix afterKey count rest (out ++ [(uploadId, session)])

def listBucketSessions (bucket : String) (keyPrefix : Bytes) (afterKey : Option (Bytes × Bytes))
    (count : Nat) : Except Error (List (String × MultipartSession)) :=
  rows.sessionsLoop keyPrefix afterKey count (rows.scanIndex bucket) []

end UploadRows

/-- What the service answers: a page that is full names the marker of the next one. -/
structure UploadPage where
  uploads : List (String × MultipartSession)
  truncated : Bool
  nextMarker : Option (Bytes × Bytes)
deriving DecidableEq

def uploadMarker (upload : String × MultipartSession) : Bytes × Bytes :=
  (utf8 upload.2.key, utf8 upload.1)

/-- `op_list_multipart_uploads` on the page of `Engine::list_multipart_uploads`. -/
def UploadRows.listMultipartUploads (rows : UploadRows) (bucket : String) (keyPrefix : Bytes)
    (afterKey : Option (Bytes × Bytes)) (count : Nat) : Except Error UploadPage := do
  let uploads ← rows.listBucketSessions bucket keyPrefix afterKey count
  let truncated : Bool := uploads.length = count
  return ⟨uploads, truncated, if truncated then uploads.getLast?.map uploadMarker else none⟩

theorem parseSessionIndexKey_key {bucket : String} (noNul : 0 ∉ utf8 bucket) (uploadId : String) :
    parseSessionIndexKey (sessionIndexKey bucket uploadId) = .ok uploadId := by
  have split : sessionIndexKey bucket uploadId =
      prefixUploadIndex ++ (utf8 bucket ++ 0 :: utf8 uploadId) := by
    rw [sessionIndexKey, sessionIndexPrefix, List.append_assoc, List.append_assoc,
      List.singleton_append]
  have body : (sessionIndexKey bucket uploadId).dropPrefix? prefixUploadIndex =
      some (utf8 bucket ++ 0 :: utf8 uploadId) := by
    rw [split]
    exact List.dropPrefix?_append_of_beq _ (beq_self_eq_true _)
  have left : (utf8 bucket ++ 0 :: utf8 uploadId).drop ((utf8 bucket).length + 1) =
      utf8 uploadId := by
    rw [← List.drop_drop, List.drop_left]
    rfl
  unfold parseSessionIndexKey
  simp only [body, idxOf?_sep noNul, orCorrupt, left, fromUtf8_utf8, bind, Except.bind]

theorem sessionIndexPrefix_iff {bucket other : String} (noNul : 0 ∉ utf8 bucket)
    (noNul' : 0 ∉ utf8 other) (uploadId : String) :
    sessionIndexPrefix bucket <+: sessionIndexKey other uploadId ↔ bucket = other := by
  rw [sessionIndexKey, sessionIndexPrefix, sessionIndexPrefix, List.append_assoc,
    List.append_assoc, List.append_assoc, List.prefix_append_right_inj, List.singleton_append,
    sep_prefix_iff noNul noNul']
  constructor
  · exact utf8_injective
  · rintro rfl
    rfl

namespace UploadRows

variable {rows : UploadRows} {bucket : String}

def Indexed (rows : UploadRows) (bucket uploadId : String) : Prop :=
  sessionIndexKey bucket uploadId ∈ rows.index.entries.map Prod.fst

theorem scanIndex_eq (noNul : 0 ∉ utf8 bucket) : ∃ uploads : List String,
    rows.scanIndex bucket = uploads.map (sessionIndexKey bucket) ∧
      uploads.Pairwise (fun left right => utf8 left < utf8 right) ∧
      ∀ uploadId, uploadId ∈ uploads ↔ rows.Indexed bucket uploadId := by
  have found : ∀ raw ∈ rows.scanIndex bucket, ∃ uploadId, sessionIndexKey bucket uploadId = raw := by
    intro raw inside
    rw [scanIndex, List.mem_filter] at inside
    obtain ⟨entry, listed, rfl⟩ := List.mem_map.mp inside.1
    obtain ⟨other, uploadId, noNul', same⟩ := rows.indexed entry listed
    have begins := of_decide_eq_true inside.2
    rw [same, sessionIndexPrefix_iff noNul noNul'] at begins
    exact ⟨uploadId, by rw [same, begins]⟩
  obtain ⟨uploads, same⟩ : ∃ uploads : List String,
      uploads.map (sessionIndexKey bucket) = rows.scanIndex bucket := by
    have ranged : rows.scanIndex bucket ∈ Set.range (List.map (sessionIndexKey bucket)) := by
      rw [Set.range_list_map]
      exact found
    exact ranged
  refine ⟨uploads, same.symm, ?_, ?_⟩
  · have ordered : (rows.scanIndex bucket).Pairwise (· < ·) := by
      apply List.Pairwise.filter
      rw [List.pairwise_map]
      exact rows.index.sorted
    rw [← same, List.pairwise_map] at ordered
    apply ordered.imp
    intro left right less
    rwa [sessionIndexKey, sessionIndexKey, append_lt_append_iff] at less
  · intro uploadId
    have member : uploadId ∈ uploads ↔ sessionIndexKey bucket uploadId ∈ rows.scanIndex bucket := by
      rw [← same, List.mem_map]
      constructor
      · intro inside
        exact ⟨uploadId, inside, rfl⟩
      · rintro ⟨other, inside, equal⟩
        have ids := List.append_cancel_left equal
        rwa [← utf8_injective ids]
    rw [member, scanIndex, List.mem_filter, Indexed]
    constructor
    · exact fun inside => inside.1
    · intro inside
      exact ⟨inside, decide_eq_true (List.prefix_append _ _)⟩

def candidates (rows : UploadRows) (keyPrefix : Bytes) (uploads : List String) :
    List (String × MultipartSession) :=
  uploads.filterMap fun uploadId =>
    ((rows.session uploadId).filter (listed keyPrefix)).map fun session => (uploadId, session)

theorem sessionsLoop_eq (noNul : 0 ∉ utf8 bucket) (keyPrefix : Bytes)
    (afterKey : Option (Bytes × Bytes)) (count : Nat) (uploads : List String)
    (out : List (String × MultipartSession)) :
    rows.sessionsLoop keyPrefix afterKey count (uploads.map (sessionIndexKey bucket)) out =
      .ok (out ++ ((rows.candidates keyPrefix uploads).filter fun upload =>
        !passed afterKey upload.1 upload.2).take (count - out.length)) := by
  induction uploads generalizing out with
  | nil => simp [sessionsLoop, candidates]
  | cons uploadId uploads ih =>
    rw [List.map_cons, sessionsLoop, parseSessionIndexKey_key noNul]
    simp only [bind, Except.bind]
    cases held : rows.session uploadId with
    | none =>
      simp only [candidates, List.filterMap_cons, held, Option.filter_none, Option.map_none]
      exact ih out
    | some session =>
      cases shown : listed keyPrefix session with
      | false =>
        simp only [candidates, List.filterMap_cons, held, Option.filter_some, shown,
          Bool.not_false, if_true, Bool.false_eq_true, if_false, Option.map_none]
        exact ih out
      | true =>
        simp only [candidates, List.filterMap_cons, held, Option.filter_some, shown,
          Bool.not_true, Bool.false_eq_true, if_false, if_true, Option.map_some,
          List.filter_cons]
        cases behind : passed afterKey uploadId session with
        | true =>
          simp only [if_true, Bool.not_true, Bool.false_eq_true, if_false]
          exact ih out
        | false =>
          simp only [Bool.false_eq_true, if_false, Bool.not_false, if_true]
          split
          · next filled =>
              rw [Nat.sub_eq_zero_of_le filled, List.take_zero, List.append_nil]
          · next open' =>
              have room : count - out.length = count - (out.length + 1) + 1 := by omega
              rw [ih, room, List.take_succ_cons, List.append_assoc, List.singleton_append,
                List.length_append, List.length_singleton]
              rfl

def paging : Paging (String × MultipartSession) (Bytes ×ₗ Bytes) (Bytes × Bytes) Nat
    UploadPage where
  rank := fun upload => toLex (uploadMarker upload)
  cut := fun count _ => count
  full := fun count left => (left.take count).length = count
  render := fun chunk flag => ⟨chunk, flag, if flag then chunk.getLast?.map uploadMarker else none⟩
  name := uploadMarker
  more := UploadPage.truncated
  marker := UploadPage.nextMarker
  more_render := fun _ _ => rfl
  marker_render := fun _ => rfl

theorem paging_sound {count : Nat} (positive : 0 < count) : paging.Sound count where
  takes := fun _ _ => positive
  overflows := by
    intro left excess
    exact decide_eq_true (by rw [List.length_take]; exact Nat.min_eq_left excess.le)
  ends := decide_eq_false (by simpa using positive.ne)

theorem passed_iff {upload item : String × MultipartSession} :
    passed (some (uploadMarker item)) upload.1 upload.2 = true ↔
      paging.rank upload ≤ paging.rank item := by
  simp only [paging, uploadMarker, passed, Prod.Lex.toLex_le_toLex, Bool.or_eq_true,
    Bool.and_eq_true]
  exact or_congr decide_eq_true_iff (and_congr decide_eq_true_iff decide_eq_true_iff)

section Listing

variable (noNul : 0 ∉ utf8 bucket) (keyPrefix : Bytes) {uploads : List String}
  (scanned : rows.scanIndex bucket = uploads.map (sessionIndexKey bucket))

include noNul scanned

theorem listMultipartUploads_eq (afterKey : Option (Bytes × Bytes)) (count : Nat) :
    rows.listMultipartUploads bucket keyPrefix afterKey count =
      .ok (paging.pageOf count ((rows.candidates keyPrefix uploads).filter fun upload =>
        !passed afterKey upload.1 upload.2)) := by
  unfold listMultipartUploads listBucketSessions
  rw [scanned, sessionsLoop_eq noNul, List.nil_append]
  rfl

theorem listMultipartUploads_scan :
    PagedScan paging (rows.candidates keyPrefix uploads)
      (rows.listMultipartUploads bucket keyPrefix) where
  first := by
    intro count
    have all : (rows.candidates keyPrefix uploads).filter
        (fun upload => !passed none upload.1 upload.2) = rows.candidates keyPrefix uploads :=
      List.filter_eq_self.mpr fun _ _ => rfl
    rw [listMultipartUploads_eq noNul keyPrefix scanned, all]
  next := by
    intro before item rest count split smaller
    have each : ∀ upload : String × MultipartSession,
        (!passed (some (paging.name item)) upload.1 upload.2) =
          decide (paging.rank item < paging.rank upload) := by
      intro upload
      rw [Bool.eq_iff_iff, decide_eq_true_eq, Bool.not_eq_true', Bool.eq_false_iff, ne_eq]
      exact (not_congr passed_iff).trans not_le
    have none : before.filter (fun upload => paging.rank item < paging.rank upload) = [] := by
      rw [List.filter_eq_nil_iff]
      intro x inside
      simpa using (smaller x inside).le
    rw [listMultipartUploads_eq noNul keyPrefix scanned]
    simp only [each, split, List.filter_append, List.filter_cons, lt_irrefl, decide_false,
      Bool.false_eq_true, if_false, none, List.nil_append]

theorem listMultipartUploads_forwards :
    PagedScan.Forwards paging (rows.candidates keyPrefix uploads)
      (rows.listMultipartUploads bucket keyPrefix) (fun page upload => upload ∈ page.uploads) where
  render := fun _ _ _ => Iff.rfl
  cuts := by
    intro afterKey count
    refine ⟨_, listMultipartUploads_eq noNul keyPrefix scanned afterKey count,
      fun upload inside => (List.mem_filter.mp inside).1, ?_⟩
    rintro item _ rfl upload inside
    have kept := (List.mem_filter.mp inside).2
    rw [Bool.not_eq_true', Bool.eq_false_iff, ne_eq] at kept
    exact not_le.mp (mt passed_iff.mpr kept)

end Listing

structure Matching (rows : UploadRows) (bucket : String) (keyPrefix : Bytes)
    (upload : String × MultipartSession) : Prop where
  indexed : rows.Indexed bucket upload.1
  stored : rows.session upload.1 = some upload.2
  open' : upload.2.completed = false
  named : keyPrefix <+: utf8 upload.2.key

/-- The pages show every upload once, in the order of keys and upload ids. -/
structure Enumerated (rows : UploadRows) (bucket : String) (keyPrefix : Bytes)
    (pages : List UploadPage) : Prop where
  complete : ∀ upload, (∃ page ∈ pages, upload ∈ page.uploads) ↔ rows.Matching bucket keyPrefix upload
  ascending : (pages.flatMap UploadPage.uploads).Pairwise fun left right =>
    toLex (uploadMarker left) < toLex (uploadMarker right)

theorem mem_candidates {keyPrefix : Bytes} {uploads : List String}
    (listed' : ∀ uploadId, uploadId ∈ uploads ↔ rows.Indexed bucket uploadId)
    (upload : String × MultipartSession) :
    upload ∈ rows.candidates keyPrefix uploads ↔ rows.Matching bucket keyPrefix upload := by
  have shown : ∀ session : MultipartSession, listed keyPrefix session = true ↔
      session.completed = false ∧ keyPrefix <+: utf8 session.key := by
    intro session
    simp only [listed, Bool.and_eq_true, Bool.not_eq_true', Bool.or_eq_true, decide_eq_true_eq,
      List.isPrefixOf_iff_prefix]
    constructor
    · rintro ⟨current, rfl | begins⟩
      · exact ⟨current, List.nil_prefix⟩
      · exact ⟨current, begins⟩
    · rintro ⟨current, begins⟩
      exact ⟨current, .inr begins⟩
  obtain ⟨uploadId, session⟩ := upload
  simp only [candidates, List.mem_filterMap, Option.map_eq_some_iff, Option.filter_eq_some_iff,
    Prod.mk.injEq]
  constructor
  · rintro ⟨_, inside, _, ⟨held, kept⟩, rfl, rfl⟩
    exact ⟨(listed' _).mp inside, held, ((shown _).mp kept).1, ((shown _).mp kept).2⟩
  · intro matching
    exact ⟨uploadId, (listed' uploadId).mpr matching.indexed, session,
      ⟨matching.stored, (shown session).mpr ⟨matching.open', matching.named⟩⟩, rfl, rfl⟩

theorem candidates_byId {uploads : List String} (keyPrefix : Bytes)
    (sorted : uploads.Pairwise fun left right => utf8 left < utf8 right) :
    (rows.candidates keyPrefix uploads).Pairwise fun left right => utf8 left.1 < utf8 right.1 := by
  rw [candidates, List.pairwise_filterMap]
  apply sorted.imp
  intro left right less first found second found'
  simp only [Option.map_eq_some_iff] at found found'
  obtain ⟨_, _, rfl⟩ := found
  obtain ⟨_, _, rfl⟩ := found'
  exact less

def KeysFollowIds (rows : UploadRows) (bucket : String) (keyPrefix : Bytes) : Prop :=
  ∀ left right, rows.Matching bucket keyPrefix left → rows.Matching bucket keyPrefix right →
    utf8 left.1 < utf8 right.1 → utf8 left.2.key ≤ utf8 right.2.key

theorem ordered_iff {keyPrefix : Bytes} {uploads : List String}
    (sorted : uploads.Pairwise fun left right => utf8 left < utf8 right)
    (listed' : ∀ uploadId, uploadId ∈ uploads ↔ rows.Indexed bucket uploadId) :
    paging.Ordered (rows.candidates keyPrefix uploads) ↔ rows.KeysFollowIds bucket keyPrefix := by
  have byId : (rows.candidates keyPrefix uploads).Pairwise _ := candidates_byId keyPrefix sorted
  constructor
  · intro ordered left right first second less
    have ranked := PagedScan.related_of_pairwise (fun _ _ => lt_asymm) byId ordered
      ((mem_candidates listed' left).mpr first) ((mem_candidates listed' right).mpr second) less
    rcases Prod.Lex.toLex_lt_toLex.mp ranked with smaller | ⟨same, _⟩
    · exact smaller.le
    · exact same.le
  · intro follows
    apply byId.imp_of_mem
    intro left right here there less
    have keys := follows left right ((mem_candidates listed' left).mp here)
      ((mem_candidates listed' right).mp there) less
    apply Prod.Lex.toLex_lt_toLex.mpr
    rcases keys.lt_or_eq with smaller | same
    · exact .inl smaller
    · exact .inr ⟨same, less⟩

/-- Following the markers shows every upload once and in order if and only if the order of
upload ids is that of the keys. -/
theorem listMultipartUploads_complete_iff (rows : UploadRows) {bucket : String}
    (noNul : 0 ∉ utf8 bucket) (keyPrefix : Bytes) {sizes : Nat → Nat}
    (positive : ∀ i, 0 < sizes i) :
    (∃ fuel pages, follow (rows.listMultipartUploads bucket keyPrefix) UploadPage.truncated
        UploadPage.nextMarker fuel sizes none = .ok (some pages) ∧
      rows.Enumerated bucket keyPrefix pages) ↔ rows.KeysFollowIds bucket keyPrefix := by
  obtain ⟨uploads, scanned, sorted, listed'⟩ := rows.scanIndex_eq noNul
  have scan := listMultipartUploads_scan noNul keyPrefix scanned
  have sound : ∀ i, paging.Sound (sizes i) := fun i => paging_sound (positive i)
  rw [← ordered_iff sorted listed']
  constructor
  · rintro ⟨fuel, pages, run, enumerated⟩
    apply PagedScan.sorted_of_follow (listMultipartUploads_forwards noNul keyPrefix scanned) scan
      _ sound run
    · intro upload inside
      exact (enumerated.complete upload).mpr ((mem_candidates listed' upload).mp inside)
    · intro i rest shown
      have part := List.sublist_flatten_of_mem (List.mem_map_of_mem (f := UploadPage.uploads) shown)
      rw [← List.flatMap_def] at part
      exact enumerated.ascending.sublist part
    · rw [List.nodup_iff_pairwise_ne, List.pairwise_map]
      apply (candidates_byId keyPrefix sorted).imp
      intro left right less same
      exact absurd (congrArg (fun rank => (ofLex rank).2) same) less.ne
  · intro ordered
    obtain ⟨fuel, chunks, last, run, covers⟩ := scan.follow_sorted ordered sound
    refine ⟨fuel, paging.pages chunks last, run, ?_⟩
    have all : (paging.pages chunks last).flatMap UploadPage.uploads =
        rows.candidates keyPrefix uploads := by
      rw [← covers, Paging.pages, List.flatMap_append, List.flatMap_map, List.flatMap_singleton]
      exact congrArg (· ++ last) List.flatMap_id
    refine ⟨?_, ?_⟩
    · intro upload
      rw [← mem_candidates listed' upload, ← all, List.mem_flatMap]
    · rw [all]
      exact ordered

/-- An upload of the key in the bucket `photos`. -/
def upload (key : String) : MultipartSession :=
  ⟨"photos", key, false, [], 0, 0⟩

/-- Two uploads of the bucket `photos`, whose ids are `a` and `b`. -/
def twoUploads (first second : String) : UploadRows where
  index := ⟨[(sessionIndexKey "photos" "a", ()), (sessionIndexKey "photos" "b", ())],
    by decide +kernel⟩
  session := fun uploadId =>
    if uploadId = "a" then some (upload first)
    else if uploadId = "b" then some (upload second)
    else none
  indexed := by
    have noNul : 0 ∉ utf8 "photos" := by decide +kernel
    intro entry inside
    rcases List.mem_pair.mp inside with rfl | rfl
    · exact ⟨"photos", "a", noNul, rfl⟩
    · exact ⟨"photos", "b", noNul, rfl⟩

theorem twoUploads_matching {first second : String} {keyPrefix : Bytes}
    {found : String × MultipartSession}
    (matching : (twoUploads first second).Matching "photos" keyPrefix found) :
    found = ("a", upload first) ∨ found = ("b", upload second) := by
  obtain ⟨uploadId, session⟩ := found
  have stored := matching.stored
  simp only [twoUploads] at stored
  split at stored
  · next same =>
      cases stored
      exact .inl (by rw [same])
  · split at stored
    · next same =>
        cases stored
        exact .inr (by rw [same])
    · cases stored

theorem listMultipartUploads_complete_ordered : ∃ fuel pages,
    follow ((twoUploads "x" "y").listMultipartUploads "photos" []) UploadPage.truncated
        UploadPage.nextMarker fuel (fun _ => 1) none = .ok (some pages) ∧
      (twoUploads "x" "y").Enumerated "photos" [] pages := by
  have noNul : 0 ∉ utf8 "photos" := by decide +kernel
  apply (listMultipartUploads_complete_iff (twoUploads "x" "y") noNul [] fun _ => Nat.one_pos).mpr
  intro left right first second less
  rcases twoUploads_matching first with rfl | rfl
  · rcases twoUploads_matching second with rfl | rfl
    · exact le_refl _
    · have keys : utf8 "x" ≤ utf8 "y" := by decide +kernel
      exact keys
  · rcases twoUploads_matching second with rfl | rfl
    · have ids : ¬ utf8 "b" < utf8 "a" := by decide +kernel
      exact absurd less ids
    · exact le_refl _

/-- The upload of a smaller key that has a greater id is not listed. -/
theorem listMultipartUploads_skips : ¬ ∀ (rows : UploadRows) (bucket : String) (keyPrefix : Bytes)
    (sizes : Nat → Nat), validBucketName bucket = true → (∀ i, 0 < sizes i) → ∃ fuel pages,
      follow (rows.listMultipartUploads bucket keyPrefix) UploadPage.truncated
          UploadPage.nextMarker fuel sizes none = .ok (some pages) ∧
        rows.Enumerated bucket keyPrefix pages := by
  intro claimed
  obtain ⟨fuel, pages, run, enumerated⟩ := claimed (twoUploads "z" "y") "photos" [] (fun _ => 1)
    (by decide +kernel) (fun _ => Nat.one_pos)
  have shown : follow ((twoUploads "z" "y").listMultipartUploads "photos" []) UploadPage.truncated
      UploadPage.nextMarker 2 (fun _ => 1) none =
        .ok (some [⟨[("a", upload "z")], true, some (utf8 "z", utf8 "a")⟩, ⟨[], false, none⟩]) := by
    decide +kernel
  have matching : (twoUploads "z" "y").Matching "photos" [] ("b", upload "y") := by
    refine ⟨?_, rfl, rfl, List.nil_prefix⟩
    exact List.mem_cons_of_mem _ List.mem_cons_self
  obtain ⟨page, listed', inside⟩ := (enumerated.complete _).mpr matching
  rw [follow_unique run shown] at listed'
  rcases List.mem_pair.mp listed' with rfl | rfl
  · have other := congrArg Prod.fst (List.mem_singleton.mp inside)
    exact absurd other (by decide)
  · cases inside

end UploadRows

end FastS3.Meta
