import FastS3.Meta.Keys

namespace FastS3.Meta

open FastS3.Core Data

/-! The metadata export of `repl.rs`: a snapshot that a downstream pulls page by page.

One thread serves a session.  It keeps an iterator over the snapshot and the key of the last
entry it sent, and sets up a new iterator only when a request names another key.
-/

/-- `s:sse_kek_seed` and `s:sse_kek_gen`, the two system keys that go along. -/
def sseKekKeys : List Bytes :=
  [utf8 "s:sse_kek_seed", utf8 "s:sse_kek_gen"]

/-- The system, allocation, transaction, binlog, event, restore, ingest and batch rows. -/
def excludedFamilies : List Bytes :=
  [utf8 "s:", utf8 "a:", utf8 "t:", utf8 "bl:", utf8 "e:", utf8 "x:", utf8 "ij:", utf8 "jb:"]

def exportKeyExcluded (key : Bytes) : Bool :=
  if sseKekKeys.contains key then false
  else excludedFamilies.any fun family => family.isPrefixOf key

def bucketFamilies : List Bytes :=
  [utf8 "b:", utf8 "l:", utf8 "bc:", utf8 "bt:", utf8 "bo:", utf8 "ba:", utf8 "bp:"]

def bucketFirstFamilies : List Bytes :=
  [prefixObject, utf8 "r:", utf8 "n:", utf8 "iv:", utf8 "m:"]

def exportKeyBucket (key : Bytes) : Option String :=
  match bucketFamilies.findSome? fun family => key.dropPrefix? family with
  | some rest => fromUtf8 rest
  | none =>
    match bucketFirstFamilies.findSome? fun family => key.dropPrefix? family with
    | some rest => fromUtf8 (rest.take ((rest.idxOf? 0).getD rest.length))
    | none => none

def exportKeyIncluded (key : Bytes) (filters : BucketFilter) : Bool :=
  if exportKeyExcluded key then false
  else
    match filters with
    | .all => true
    | .include list => (exportKeyBucket key).all fun bucket => list.contains bucket
    | .exclude list => (exportKeyBucket key).all fun bucket => !list.contains bucket

abbrev RawRow := Bytes × Bytes

/-- The rows of the store at one moment, in the order of their keys. -/
structure Snapshot where
  rows : List RawRow
  sorted : rows.Pairwise fun row row' => row.1 < row'.1

/-- An iterator that came to its end, or whose read failed, yields nothing any more. -/
structure SnapshotIter where
  rest : List RawRow
  done : Bool := false

structure ReplExportPage where
  entries : List RawRow := []
  next : Option Bytes := none
  done : Bool := false
deriving Repr, DecidableEq

/-- The fields of `ExportReq::MetaPage`, with the number of reads after which the iterator
fails, and what it then reports. -/
structure ExportReq where
  after : Option Bytes
  limit : Nat
  byteCap : Nat
  reads : Option (Nat × String) := none
deriving DecidableEq

structure ExportThread where
  iter : SnapshotIter
  last : Option Bytes := none

namespace Snapshot

variable (snapshot : Snapshot)

/-- `IteratorMode::Start`, or `From` the cursor, which stands at the key itself. -/
def iterator : Option Bytes → SnapshotIter
  | none => ⟨snapshot.rows, false⟩
  | some after => ⟨snapshot.rows.filter fun row => after ≤ row.1, false⟩

def thread : ExportThread :=
  { iter := snapshot.iterator none }

end Snapshot

def RawRow.size (row : RawRow) : Nat :=
  row.1.length + row.2.length

def pageNext (entries : List RawRow) : Option Bytes :=
  entries.getLast?.map Prod.fst

/-- The loop of `meta_page` over the iterator's rows. -/
def fillPage (filters : BucketFilter) (request : ExportReq) (isCursor : Bytes → Bool) :
    Option (Nat × String) → List RawRow → List RawRow → Nat →
      Except Error ReplExportPage × SnapshotIter
  | some (0, message), _, _, _ => (.error (.metaError s!"rocksdb: {message}"), ⟨[], true⟩)
  | _, [], entries, _ =>
    (.ok { entries := entries, next := pageNext entries, done := true }, ⟨[], true⟩)
  | reads, row :: rest, entries, bytes =>
    if isCursor row.1 || !exportKeyIncluded row.1 filters then
      fillPage filters request isCursor (reads.map fun read => (read.1 - 1, read.2)) rest entries bytes
    else
      let entries := entries ++ [row]
      let bytes := bytes + row.size
      if request.limit ≤ entries.length || request.byteCap ≤ bytes then
        (.ok { entries := entries, next := pageNext entries }, ⟨rest, false⟩)
      else fillPage filters request isCursor (reads.map fun read => (read.1 - 1, read.2)) rest entries bytes

/-- The rows a request reads: those of the iterator, or of a new one if the request does not
continue the last page. -/
def takeUp (snapshot : Snapshot) (after : Option Bytes) (thread : ExportThread) : ExportThread :=
  if after ≠ thread.last then { iter := snapshot.iterator after, last := none } else thread

/-- `meta_page`, as the thread serves it. -/
def metaPage (snapshot : Snapshot) (filters : BucketFilter) (request : ExportReq)
    (thread : ExportThread) : Except Error ReplExportPage × ExportThread :=
  let thread := takeUp snapshot request.after thread
  let isCursor key := thread.last.isNone && request.after == some key
  -- an iterator that is done does not read, so that it cannot fail either
  let reads := if thread.iter.done then none else request.reads
  match fillPage filters request isCursor reads thread.iter.rest [] 0 with
  | (.error reason, iter) => (.error reason, { thread with iter := iter })
  | (.ok page, iter) => (.ok page, { iter := iter, last := page.next })

abbrev ExportAnswer := Except Error ReplExportPage

/-- One request of a session, with the key the thread remembered and the answer before it. -/
structure Exchange where
  request : ExportReq
  last : Option Bytes
  previous : Option ExportAnswer
  answer : ExportAnswer
deriving DecidableEq

def serve (snapshot : Snapshot) (filters : BucketFilter) :
    List ExportReq → Option ExportAnswer → ExportThread → List Exchange
  | [], _, _ => []
  | request :: requests, previous, thread =>
    let served := metaPage snapshot filters request thread
    ⟨request, thread.last, previous, served.1⟩ ::
      serve snapshot filters requests (some served.1) served.2

def Snapshot.session (snapshot : Snapshot) (filters : BucketFilter) (requests : List ExportReq) :
    List Exchange :=
  serve snapshot filters requests none snapshot.thread

def sentNothing : ExportAnswer → Bool
  | .error _ => true
  | .ok page => page.entries.isEmpty

/-- The request names the key the thread remembers, but the iterator that it continues has
failed or ended without an entry. -/
def Exchange.stranded (exchange : Exchange) : Bool :=
  exchange.request.after == exchange.last && exchange.previous.any sentNothing

def beyond : Option Bytes → Bytes → Bool
  | none, _ => true
  | some after, key => decide (after < key)

namespace Snapshot

variable (snapshot : Snapshot) (filters : BucketFilter)

def included : List RawRow :=
  snapshot.rows.filter fun row => exportKeyIncluded row.1 filters

def left (after : Option Bytes) : List RawRow :=
  (snapshot.included filters).filter fun row => beyond after row.1

end Snapshot

namespace ExportReq

variable (request : ExportReq)

def reached (entries : List RawRow) : Bool :=
  request.limit ≤ entries.length || request.byteCap ≤ (entries.map RawRow.size).sum

/-- The least number of entries that reaches a limit together with those that were taken. -/
def cutAfter (taken left : List RawRow) : Option Nat :=
  (List.range' 1 left.length).find? fun count => request.reached (taken ++ left.take count)

def pageAfter (taken left : List RawRow) : ReplExportPage :=
  let entries := taken ++ left.take ((request.cutAfter taken left).getD left.length)
  { entries := entries, next := pageNext entries, done := (request.cutAfter taken left).isNone }

/-- The first of the entries that are left, up to the one that reaches a limit; done if none
does. -/
def page (left : List RawRow) : ReplExportPage :=
  request.pageAfter [] left

end ExportReq

namespace ExportReq

variable {request : ExportReq} {taken left : List RawRow} {row : RawRow}

theorem cutAfter_cons_reached (full : request.reached (taken ++ [row]) = true) :
    request.cutAfter taken (row :: left) = some 1 := by
  simp [cutAfter, List.range'_succ, full]

theorem cutAfter_cons (full : request.reached (taken ++ [row]) = false) :
    request.cutAfter taken (row :: left) = (request.cutAfter (taken ++ [row]) left).map (· + 1) := by
  simp only [cutAfter, List.length_cons, List.range'_succ]
  rw [List.find?_cons_of_neg (by simp [full]), List.range'_succ_left, List.find?_map]
  simp only [Function.comp_def, List.take_succ_cons, List.append_assoc, List.singleton_append]

theorem pageAfter_cons_reached (full : request.reached (taken ++ [row]) = true) :
    request.pageAfter taken (row :: left) =
      { entries := taken ++ [row], next := pageNext (taken ++ [row]) } := by
  simp [pageAfter, cutAfter_cons_reached full]

theorem pageAfter_cons (full : request.reached (taken ++ [row]) = false) :
    request.pageAfter taken (row :: left) = request.pageAfter (taken ++ [row]) left := by
  rw [pageAfter, pageAfter, cutAfter_cons full]
  cases request.cutAfter (taken ++ [row]) left with
  | none => simp
  | some count => simp

end ExportReq

def keeps (filters : BucketFilter) (isCursor : Bytes → Bool) (row : RawRow) : Bool :=
  !(isCursor row.1 || !exportKeyIncluded row.1 filters)

def StopsAt (page : ReplExportPage) (rest : List RawRow) (iter : SnapshotIter) : Prop :=
  if page.done then iter.rest = []
  else ∃ before row, rest = before ++ row :: iter.rest ∧ page.next = some row.1

section Loop

variable {filters : BucketFilter} {request : ExportReq} {isCursor : Bytes → Bool}

theorem pageNext_append (entries : List RawRow) (row : RawRow) :
    pageNext (entries ++ [row]) = some row.1 := by
  simp [pageNext]

theorem StopsAt.cons {page : ReplExportPage} {rest : List RawRow} {iter : SnapshotIter}
    (stops : StopsAt page rest iter) (row : RawRow) : StopsAt page (row :: rest) iter := by
  unfold StopsAt at stops ⊢
  cases done : page.done with
  | true => simpa only [done, if_true] using stops
  | false =>
    simp only [done, Bool.false_eq_true, if_false] at stops ⊢
    obtain ⟨before, final, rfl, next⟩ := stops
    exact ⟨row :: before, final, rfl, next⟩

theorem fillPage_ok {reads : Option (Nat × String)} {rest entries : List RawRow} {bytes : Nat}
    {page : ReplExportPage} {iter : SnapshotIter} (weighed : bytes = (entries.map RawRow.size).sum)
    (filled : fillPage filters request isCursor reads rest entries bytes = (.ok page, iter)) :
    page = request.pageAfter entries (rest.filter (keeps filters isCursor)) ∧
      StopsAt page rest iter := by
  fun_induction fillPage filters request isCursor reads rest entries bytes with
  | case1 => cases filled
  | case2 reads entries bytes =>
    cases filled
    exact ⟨by simp [ExportReq.pageAfter, ExportReq.cutAfter], by simp [StopsAt]⟩
  | case3 reads row rest entries bytes _ skipped ih =>
    have dropped : keeps filters isCursor row = false := by
      rw [keeps, skipped, Bool.not_true]
    obtain ⟨served, stops⟩ := ih weighed filled
    rw [List.filter_cons_of_neg (by simp [dropped])]
    exact ⟨served, stops.cons row⟩
  | case4 reads row rest entries bytes _ kept entries' bytes' full =>
    have sent : keeps filters isCursor row = true := by
      rw [keeps, Bool.eq_false_of_not_eq_true kept, Bool.not_false]
    have reached : request.reached (entries ++ [row]) = true := by
      simpa [ExportReq.reached, entries', bytes', weighed] using full
    cases filled
    rw [List.filter_cons_of_pos sent, ExportReq.pageAfter_cons_reached reached]
    have stops : ∃ before final, row :: rest = before ++ final :: rest ∧
        pageNext entries' = some final.1 := ⟨[], row, rfl, pageNext_append entries row⟩
    exact ⟨rfl, by simpa only [StopsAt, Bool.false_eq_true, if_false] using stops⟩
  | case5 reads row rest entries bytes _ kept entries' bytes' full ih =>
    have sent : keeps filters isCursor row = true := by
      rw [keeps, Bool.eq_false_of_not_eq_true kept, Bool.not_false]
    have reached : request.reached (entries ++ [row]) = false := by
      simpa [ExportReq.reached, entries', bytes', weighed] using full
    obtain ⟨served, stops⟩ := ih (by simp [entries', bytes', weighed]) filled
    rw [List.filter_cons_of_pos sent, ExportReq.pageAfter_cons reached]
    exact ⟨served, stops.cons row⟩

theorem fillPage_error {reads : Option (Nat × String)} {rest entries : List RawRow} {bytes : Nat}
    {reason : Error} {iter : SnapshotIter}
    (failed : fillPage filters request isCursor reads rest entries bytes = (.error reason, iter)) :
    reads ≠ none ∧ iter = ⟨[], true⟩ := by
  fun_induction fillPage filters request isCursor reads rest entries bytes with
  | case1 =>
    cases failed
    exact ⟨nofun, rfl⟩
  | case2 => cases failed
  | case3 reads _ _ _ _ _ _ ih =>
    obtain ⟨read, ended⟩ := ih failed
    exact ⟨mt Option.map_eq_none_iff.mpr read, ended⟩
  | case4 => cases failed
  | case5 reads _ _ _ _ _ _ _ _ _ ih =>
    obtain ⟨read, ended⟩ := ih failed
    exact ⟨mt Option.map_eq_none_iff.mpr read, ended⟩

end Loop

theorem filter_suffix {α : Type} {R : α → α → Prop} {p : α → Bool} {xs : List α}
    (sorted : xs.Pairwise R) (upward : ∀ x y, R x y → p x = true → p y = true) :
    xs.filter p <:+ xs := by
  induction sorted with
  | nil => exact List.suffix_refl []
  | @cons x xs related _ ih =>
    cases holds : p x with
    | false =>
      rw [List.filter_cons_of_neg (by simp [holds])]
      exact ih.trans (List.suffix_cons x xs)
    | true =>
      have all : (x :: xs).filter p = x :: xs := by
        rw [List.filter_eq_self]
        intro y inside
        rcases List.mem_cons.mp inside with rfl | later
        · exact holds
        · exact upward x y (related y later) holds
      rw [all]

namespace Snapshot

variable {snapshot : Snapshot} {filters : BucketFilter}

theorem iterator_suffix (after : Option Bytes) : (snapshot.iterator after).rest <:+ snapshot.rows := by
  cases after with
  | none => exact List.suffix_refl _
  | some after =>
    apply filter_suffix snapshot.sorted
    intro row row' less above
    exact decide_eq_true ((of_decide_eq_true above).trans less.le)

theorem left_none : snapshot.left filters none = snapshot.included filters := by
  simp [left, beyond]

theorem left_sorted (after : Option Bytes) :
    (snapshot.left filters after).Pairwise fun row row' => row.1 < row'.1 := by
  rw [left, included]
  exact (snapshot.sorted.filter _).filter _

theorem left_of_split {before rest : List RawRow} {row : RawRow}
    (split : snapshot.rows = before ++ row :: rest) :
    snapshot.left filters (some row.1) =
      rest.filter fun entry => exportKeyIncluded entry.1 filters := by
  have sorted := snapshot.sorted
  rw [split, List.pairwise_append, List.pairwise_cons] at sorted
  obtain ⟨_, ⟨above, _⟩, below⟩ := sorted
  rw [left, included, List.filter_filter, split, List.filter_append, List.filter_cons_of_neg]
  · have none : (before.filter fun entry =>
        beyond (some row.1) entry.1 && exportKeyIncluded entry.1 filters) = [] := by
      rw [List.filter_eq_nil_iff]
      intro entry inside
      have smaller := below entry inside row (List.mem_cons_self ..)
      simp [beyond, not_lt.mpr smaller.le]
    rw [none, List.nil_append]
    apply List.filter_congr
    intro entry inside
    simp [beyond, above entry inside]
  · simp [beyond]

theorem beyond_of_mem {after : Option Bytes} {row : RawRow}
    (inside : row ∈ snapshot.left filters after) : beyond after row.1 = true :=
  (List.mem_filter.mp inside).2

theorem beyond_trans {after : Option Bytes} {key key' : Bytes} (behind : beyond after key = true)
    (less : key < key') : beyond after key' = true := by
  cases after with
  | none => rfl
  | some after => exact decide_eq_true ((of_decide_eq_true behind).trans less)

theorem left_drop {after : Option Bytes} {count : Nat} {row : RawRow}
    (final : ((snapshot.left filters after).take count).getLast? = some row) :
    snapshot.left filters (some row.1) = (snapshot.left filters after).drop count := by
  have behind := beyond_of_mem (List.mem_of_mem_take (List.mem_of_getLast? final))
  have narrowed : snapshot.left filters (some row.1) =
      (snapshot.left filters after).filter fun entry => beyond (some row.1) entry.1 := by
    rw [left, left, List.filter_filter]
    apply List.filter_congr
    intro entry inside
    cases less : beyond (some row.1) entry.1 with
    | false => rfl
    | true => exact (beyond_trans behind (of_decide_eq_true less)).symm
  have sorted : (snapshot.left filters after).Pairwise _ := left_sorted after
  rw [← List.take_append_drop count (snapshot.left filters after), List.pairwise_append] at sorted
  obtain ⟨first, _, apart⟩ := sorted
  rw [narrowed]
  conv_lhs => rw [← List.take_append_drop count (snapshot.left filters after)]
  rw [List.filter_append]
  have none : (((snapshot.left filters after).take count).filter fun entry =>
      beyond (some row.1) entry.1) = [] := by
    rw [List.filter_eq_nil_iff]
    intro entry inside
    obtain ⟨init, split⟩ := List.getLast?_eq_some_iff.mp final
    rw [split] at inside first
    rcases List.mem_append.mp inside with earlier | same
    · have smaller := (List.pairwise_append.mp first).2.2 entry earlier row
        (List.mem_singleton_self row)
      simp [beyond, not_lt.mpr smaller.le]
    · rw [List.mem_singleton.mp same]
      simp [beyond]
  have all : (((snapshot.left filters after).drop count).filter fun entry =>
      beyond (some row.1) entry.1) = (snapshot.left filters after).drop count := by
    rw [List.filter_eq_self]
    intro entry inside
    exact decide_eq_true (apart row (List.mem_of_getLast? final) entry inside)
  rw [none, all, List.nil_append]

end Snapshot

namespace ExportReq

variable {request : ExportReq} {left : List RawRow}

theorem page_done (done : (request.page left).done = true) : (request.page left).entries = left := by
  simp only [page, pageAfter, Option.isNone_iff_eq_none] at done ⊢
  rw [done, Option.getD_none, List.take_length, List.nil_append]

theorem page_cut (unfinished : (request.page left).done = false) :
    ∃ count row, 0 < count ∧ count ≤ left.length ∧ (request.page left).entries = left.take count ∧
      (left.take count).getLast? = some row ∧ (request.page left).next = some row.1 := by
  simp only [page, pageAfter, Option.isNone_eq_false_iff, Option.isSome_iff_exists] at unfinished ⊢
  obtain ⟨count, cut⟩ := unfinished
  have within := List.mem_of_find?_eq_some cut
  rw [List.mem_range'_1] at within
  have nonempty : left.take count ≠ [] := by
    intro nothing
    rcases List.take_eq_nil_iff.mp nothing with zero | nil
    · omega
    · rw [nil, List.length_nil] at within
      omega
  obtain ⟨row, final⟩ := Option.ne_none_iff_exists'.mp (mt List.getLast?_eq_none_iff.mp nonempty)
  simp only [cut, Option.getD_some, List.nil_append]
  exact ⟨count, row, by omega, by omega, rfl, final, by rw [pageNext, final, Option.map_some]⟩

end ExportReq

section Step

variable {snapshot : Snapshot} {filters : BucketFilter} {request : ExportReq}
  {thread after : ExportThread}

def Continues (snapshot : Snapshot) (filters : BucketFilter) (thread : ExportThread) : Prop :=
  (thread.iter.rest.filter fun row => exportKeyIncluded row.1 filters) =
    snapshot.left filters thread.last

theorem takeUp_left (position : request.after ≠ thread.last ∨ Continues snapshot filters thread) :
    ((takeUp snapshot request.after thread).iter.rest.filter (keeps filters fun key =>
      (takeUp snapshot request.after thread).last.isNone && request.after == some key)) =
      snapshot.left filters request.after := by
  by_cases same : request.after = thread.last
  · have continues := position.resolve_left (not_not_intro same)
    have kept : takeUp snapshot request.after thread = thread := if_neg (not_not_intro same)
    rw [kept, same, ← continues]
    apply List.filter_congr
    intro row _
    cases thread.last <;> simp [keeps]
  · have rebuilt : takeUp snapshot request.after thread =
        { iter := snapshot.iterator request.after, last := none } := if_pos same
    rw [rebuilt]
    cases cursor : request.after with
    | none =>
      rw [Snapshot.left_none, Snapshot.included]
      apply List.filter_congr
      intro row _
      simp [keeps]
    | some key =>
      simp only [Snapshot.iterator, Snapshot.left, Snapshot.included, List.filter_filter]
      apply List.filter_congr
      intro row _
      simp only [keeps, beyond, Option.isNone_none, Bool.true_and, Bool.not_or, Bool.not_not,
        Option.some_beq_some]
      rcases lt_trichotomy key row.1 with less | equal | greater
      · simp [less, less.le, less.ne]
      · simp [equal]
      · simp [not_lt.mpr greater.le, not_le.mpr greater]

theorem takeUp_suffix (stands : thread.iter.rest <:+ snapshot.rows) (cursor : Option Bytes) :
    (takeUp snapshot cursor thread).iter.rest <:+ snapshot.rows := by
  unfold takeUp
  split
  · exact Snapshot.iterator_suffix cursor
  · exact stands

theorem metaPage_cases (snapshot : Snapshot) (filters : BucketFilter) (request : ExportReq)
    (thread : ExportThread) :
    (∃ reason, metaPage snapshot filters request thread =
        (.error reason, { takeUp snapshot request.after thread with iter := ⟨[], true⟩ }) ∧
        request.reads ≠ none) ∨
      ∃ page iter reads, metaPage snapshot filters request thread =
          (.ok page, { iter := iter, last := page.next }) ∧
        fillPage filters request
          (fun key => (takeUp snapshot request.after thread).last.isNone &&
            request.after == some key)
          reads (takeUp snapshot request.after thread).iter.rest [] 0 = (.ok page, iter) := by
  simp only [metaPage]
  generalize found : fillPage filters request _ _ _ [] 0 = filled
  obtain ⟨answer, iter⟩ := filled
  cases answer with
  | error reason =>
    obtain ⟨read, rfl⟩ := fillPage_error found
    refine .inl ⟨reason, rfl, ?_⟩
    intro unread
    rw [unread, ite_self] at read
    exact read rfl
  | ok page => exact .inr ⟨page, iter, _, rfl, found⟩

theorem stopsAt_continues {rest : List RawRow} {cursor : Option Bytes} {iter : SnapshotIter}
    (suffix : rest <:+ snapshot.rows)
    (stops : StopsAt (request.page (snapshot.left filters cursor)) rest iter)
    (sent : (request.page (snapshot.left filters cursor)).entries ≠ []) :
    Continues snapshot filters
      { iter := iter, last := (request.page (snapshot.left filters cursor)).next } := by
  unfold StopsAt at stops
  cases done : (request.page (snapshot.left filters cursor)).done with
  | true =>
    simp only [done, if_true] at stops
    have whole := ExportReq.page_done done
    rw [whole] at sent
    obtain ⟨row, final⟩ := Option.ne_none_iff_exists'.mp (mt List.getLast?_eq_none_iff.mp sent)
    have next : (request.page (snapshot.left filters cursor)).next = some row.1 := by
      rw [show (request.page (snapshot.left filters cursor)).next =
        pageNext (request.page (snapshot.left filters cursor)).entries from rfl, whole, pageNext,
        final, Option.map_some]
    rw [← List.take_length (l := snapshot.left filters cursor)] at final
    have nothing := Snapshot.left_drop final
    rw [List.drop_length] at nothing
    rw [Continues, stops, next, nothing, List.filter_nil]
  | false =>
    simp only [done, Bool.false_eq_true, if_false] at stops
    obtain ⟨before, row, split, next⟩ := stops
    obtain ⟨earlier, whole⟩ := suffix
    rw [Continues, next]
    have all : snapshot.rows = (earlier ++ before) ++ row :: iter.rest := by
      rw [← whole, split, List.append_assoc]
    exact (Snapshot.left_of_split all).symm

variable {answer : ExportAnswer}

theorem metaPage_serves (stands : thread.iter.rest <:+ snapshot.rows)
    (position : request.after ≠ thread.last ∨ Continues snapshot filters thread)
    (served : metaPage snapshot filters request thread = (answer, after)) :
    (∀ page, answer = .ok page → page = request.page (snapshot.left filters request.after)) ∧
      (request.reads = none → ∃ page, answer = .ok page) ∧
      (sentNothing answer = false → Continues snapshot filters after) := by
  rcases metaPage_cases snapshot filters request thread with
    ⟨reason, failed, read⟩ | ⟨page, iter, reads, sent, filled⟩
  · rw [failed] at served
    cases served
    exact ⟨nofun, fun unread => absurd unread read, nofun⟩
  · rw [sent] at served
    cases served
    obtain ⟨whole, stops⟩ := fillPage_ok rfl filled
    rw [takeUp_left position] at whole
    have exact' : page = request.page (snapshot.left filters request.after) := whole
    refine ⟨?_, fun _ => ⟨page, rfl⟩, ?_⟩
    · intro page' same
      cases same
      exact exact'
    · intro something
      subst exact'
      apply stopsAt_continues (takeUp_suffix stands request.after) stops
      simpa [sentNothing] using something

theorem metaPage_suffix (stands : thread.iter.rest <:+ snapshot.rows)
    (served : metaPage snapshot filters request thread = (answer, after)) :
    after.iter.rest <:+ snapshot.rows := by
  rcases metaPage_cases snapshot filters request thread with
    ⟨reason, failed, _⟩ | ⟨page, iter, reads, sent, filled⟩
  · rw [failed] at served
    cases served
    exact List.nil_suffix
  · rw [sent] at served
    cases served
    obtain ⟨_, stops⟩ := fillPage_ok rfl filled
    have before := takeUp_suffix stands request.after
    unfold StopsAt at stops
    split at stops
    · rw [stops]
      exact List.nil_suffix
    · obtain ⟨earlier, row, split, _⟩ := stops
      have shorter : iter.rest <:+ earlier ++ row :: iter.rest :=
        ⟨earlier ++ [row], by rw [List.append_assoc, List.singleton_append]⟩
      rw [← split] at shorter
      exact shorter.trans before

theorem metaPage_ended (served : metaPage snapshot filters request thread = (answer, after))
    (nothing : sentNothing answer = true) : after.iter.rest = [] := by
  rcases metaPage_cases snapshot filters request thread with
    ⟨reason, failed, _⟩ | ⟨page, iter, reads, sent, filled⟩
  · rw [failed] at served
    cases served
    rfl
  · rw [sent] at served
    cases served
    obtain ⟨whole, stops⟩ := fillPage_ok rfl filled
    have done : page.done = true := by
      by_contra unfinished
      rw [whole] at unfinished
      obtain ⟨count, row, _, _, entries, final, _⟩ :=
        ExportReq.page_cut (Bool.eq_false_of_not_eq_true unfinished)
      rw [sentNothing, whole, List.isEmpty_iff] at nothing
      rw [show _ = [] from entries.symm.trans nothing] at final
      cases final
    simpa only [StopsAt, done, if_true] using stops

theorem metaPage_drained (drained : thread.iter.rest = []) (same : request.after = thread.last)
    (served : metaPage snapshot filters request thread = (answer, after)) :
    sentNothing answer = true := by
  rcases metaPage_cases snapshot filters request thread with
    ⟨reason, failed, _⟩ | ⟨page, iter, reads, sent, filled⟩
  · rw [failed] at served
    cases served
    rfl
  · rw [sent] at served
    cases served
    obtain ⟨whole, _⟩ := fillPage_ok rfl filled
    have kept : takeUp snapshot request.after thread = thread := if_neg (not_not_intro same)
    rw [sentNothing, whole, kept, drained]
    rfl

end Step

section Session

variable {snapshot : Snapshot} {filters : BucketFilter}

structure Exchange.Serves (snapshot : Snapshot) (filters : BucketFilter) (exchange : Exchange) :
    Prop where
  page : ∀ page, exchange.answer = .ok page →
    page = exchange.request.page (snapshot.left filters exchange.request.after)
  answered : exchange.request.reads = none → ∃ page, exchange.answer = .ok page

/-- The iterator is at its end when nothing was sent, else it stands at the remembered key. -/
def Located (snapshot : Snapshot) (filters : BucketFilter) (previous : Option ExportAnswer)
    (thread : ExportThread) : Prop :=
  if previous.any sentNothing then thread.iter.rest = [] else Continues snapshot filters thread

theorem metaPage_located {request : ExportReq} {previous : Option ExportAnswer}
    {thread after : ExportThread} {answer : ExportAnswer}
    (stands : thread.iter.rest <:+ snapshot.rows)
    (located : Located snapshot filters previous thread)
    (served : metaPage snapshot filters request thread = (answer, after)) :
    Located snapshot filters (some answer) after := by
  unfold Located at located ⊢
  cases nothing : sentNothing answer with
  | true => simpa [nothing] using metaPage_ended served nothing
  | false =>
    simp only [Option.any_some, nothing, Bool.false_eq_true, if_false]
    have position : request.after ≠ thread.last ∨ Continues snapshot filters thread := by
      by_cases same : request.after = thread.last
      · split at located
        · rw [metaPage_drained located same served] at nothing
          cases nothing
        · exact .inr located
      · exact .inl same
    exact (metaPage_serves stands position served).2.2 nothing

theorem serve_serves {requests : List ExportReq} {previous : Option ExportAnswer}
    {thread : ExportThread} (stands : thread.iter.rest <:+ snapshot.rows)
    (located : Located snapshot filters previous thread) :
    ∀ exchange ∈ serve snapshot filters requests previous thread, exchange.stranded = false →
      exchange.Serves snapshot filters := by
  induction requests generalizing previous thread with
  | nil => exact fun _ inside => absurd inside List.not_mem_nil
  | cons request requests ih =>
    intro exchange inside free
    rcases List.mem_cons.mp inside with rfl | later
    · have position : request.after ≠ thread.last ∨ Continues snapshot filters thread := by
        simp only [Exchange.stranded, Bool.and_eq_false_iff, beq_eq_false_iff_ne] at free
        apply free.imp_right
        intro sent
        simpa only [Located, sent, Bool.false_eq_true, if_false] using located
      obtain ⟨page, answered, _⟩ := metaPage_serves stands position rfl
      exact ⟨page, answered⟩
    · exact ih (metaPage_suffix stands rfl) (metaPage_located stands located rfl) exchange later
        free

theorem session_serves (requests : List ExportReq) :
    ∀ exchange ∈ snapshot.session filters requests, exchange.stranded = false →
      exchange.Serves snapshot filters := by
  apply serve_serves (List.suffix_refl _)
  simp [Located, Continues, Snapshot.thread, Snapshot.iterator, Snapshot.left_none,
    Snapshot.included]

/-- A client's requests: each carries the cursor of the page before it, until a page is the
last one. -/
def Follows : Option Bytes → List Exchange → Prop
  | _, [] => True
  | after, exchange :: rest => exchange.request.after = after ∧
      ∃ page, exchange.answer = .ok page ∧ (rest = [] ∨ page.done = false) ∧ Follows page.next rest

def Finished (pulled : List Exchange) : Prop :=
  ∃ exchange page, pulled.getLast? = some exchange ∧ exchange.answer = .ok page ∧ page.done = true

def Exchange.entries (exchange : Exchange) : List RawRow :=
  match exchange.answer with
  | .ok page => page.entries
  | .error _ => []

theorem follows_left {after : Option Bytes} {pulled : List Exchange}
    (follows : Follows after pulled)
    (served : ∀ exchange ∈ pulled, exchange.Serves snapshot filters) :
    pulled.length ≤ (snapshot.left filters after).length + 1 ∧
      (Finished pulled → pulled.flatMap Exchange.entries = snapshot.left filters after) := by
  induction pulled generalizing after with
  | nil =>
    refine ⟨Nat.zero_le _, ?_⟩
    rintro ⟨_, _, none, _⟩
    cases none
  | cons exchange rest ih =>
    obtain ⟨cursor, page, answer, unfinished, follows⟩ := follows
    have shown := (served exchange (List.mem_cons_self ..)).page page answer
    rw [cursor] at shown
    have entries : exchange.entries = page.entries := by rw [Exchange.entries, answer]
    cases rest with
    | nil =>
      refine ⟨by simp, ?_⟩
      rintro ⟨last, final, same, answer', done⟩
      rw [List.getLast?_singleton, Option.some.injEq] at same
      rw [← same, answer] at answer'
      cases answer'
      rw [shown] at done
      rw [List.flatMap_singleton, entries, shown, ExportReq.page_done done]
    | cons next rest =>
      have more := unfinished.resolve_left (List.cons_ne_nil _ _)
      rw [shown] at more
      obtain ⟨count, row, positive, within, taken, final, marker⟩ := ExportReq.page_cut more
      rw [shown, marker] at follows
      obtain ⟨short, complete⟩ :=
        ih follows (fun x inside => served x (List.mem_cons_of_mem _ inside))
      rw [Snapshot.left_drop final] at short complete
      constructor
      · rw [List.length_drop] at short
        rw [List.length_cons]
        omega
      · rintro ⟨last, page', isLast, answer', done⟩
        rw [List.flatMap_cons, entries, shown, taken,
          complete ⟨last, page', by simpa using isLast, answer', done⟩, List.take_append_drop]

/-- Every request that is not stranded is answered with the first included entries behind its
cursor, and a client that follows the cursor receives every included entry once. -/
theorem session_pages (snapshot : Snapshot) (filters : BucketFilter) (requests : List ExportReq) :
    (∀ exchange ∈ snapshot.session filters requests, exchange.stranded = false →
      (∀ page, exchange.answer = .ok page →
        page = exchange.request.page (snapshot.left filters exchange.request.after)) ∧
      (exchange.request.reads = none → ∃ page, exchange.answer = .ok page)) ∧
    ∀ pulled, pulled.Sublist (snapshot.session filters requests) →
      (∀ exchange ∈ pulled, exchange.stranded = false) → Follows none pulled →
      pulled.length ≤ (snapshot.included filters).length + 1 ∧
      (Finished pulled → pulled.flatMap Exchange.entries = snapshot.included filters) := by
  constructor
  · intro exchange inside free
    obtain ⟨page, answered⟩ := session_serves requests exchange inside free
    exact ⟨page, answered⟩
  · intro pulled picked free follows
    have served : ∀ exchange ∈ pulled, exchange.Serves snapshot filters := fun exchange inside =>
      session_serves requests exchange (picked.subset inside) (free exchange inside)
    have received := follows_left follows served
    rw [Snapshot.left_none] at received
    exact received

def oneBucket : Snapshot where
  rows := [(utf8 "b:photos", [1])]
  sorted := List.pairwise_singleton _ _

def pullFrom (after : Option Bytes) : ExportReq :=
  { after := after, limit := 1, byteCap := 1024 }

def photosPage : ReplExportPage :=
  { entries := [(utf8 "b:photos", [1])], next := some (utf8 "b:photos") }

theorem session_pages_photos :
    ((oneBucket.session .all [pullFrom none, pullFrom (some (utf8 "b:photos"))]).flatMap
      Exchange.entries) = oneBucket.included .all := by
  have answers : (oneBucket.session .all [pullFrom none, pullFrom (some (utf8 "b:photos"))]) =
      [⟨pullFrom none, none, none, .ok photosPage⟩,
        ⟨pullFrom (some (utf8 "b:photos")), some (utf8 "b:photos"), some (.ok photosPage),
          .ok { done := true }⟩] := by
    decide +kernel
  apply ((session_pages oneBucket .all [pullFrom none, pullFrom (some (utf8 "b:photos"))]).2 _
    (List.Sublist.refl _) ?_ ?_).2 ?_
  · rw [answers]
    decide +kernel
  · rw [answers]
    exact ⟨rfl, photosPage, rfl, .inr rfl, rfl, _, rfl, .inl rfl, trivial⟩
  · rw [answers]
    exact ⟨_, { done := true }, rfl, rfl, rfl⟩

/-- A page that its last entry fills is not reported as the last one.  The empty page behind it
leaves an iterator at its end, which a new pull from the start then continues. -/
theorem session_restart_empty :
    (oneBucket.session .all
        [pullFrom none, pullFrom (some (utf8 "b:photos")), pullFrom none]).map
          (fun exchange => exchange.answer.toOption) =
        [some photosPage, some { done := true }, some { done := true }] ∧
      oneBucket.left .all photosPage.next = [] ∧
      oneBucket.left .all none = photosPage.entries := by
  decide +kernel

end Session

end FastS3.Meta
