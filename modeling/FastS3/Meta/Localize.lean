import FastS3.Meta.Applied

namespace FastS3.Meta

open FastS3.Core Data

/-! `repl_localize_segments`: a replica exchanges the upstream places in its records for
the local segments it has fetched. -/

/-- The rows whose values hold segments.  The callers pass no other keys. -/
inductive SegmentKey where
  | object (bucket key : String) (vk : Option Vk)
  | part (uploadId : String) (partNo : Nat)
deriving Repr, DecidableEq

def SegmentKey.row : SegmentKey → Key
  | .object bucket key vk => .object bucket key vk
  | .part uploadId partNo => .part uploadId partNo

def segmentsAt (rows : Store) : SegmentKey → List Segment
  | .object bucket key vk =>
    match rows (.object bucket key vk) with
    | some found => found.segments
    | none => []
  | .part uploadId partNo =>
    match rows (.part uploadId partNo) with
    | some found => found.extents
    | none => []

/-- A line of the substitution table: an upstream place, the local segments for it and
the epoch of the record that brought it. -/
structure Substitution where
  place : DataRef
  segments : List Segment
  epoch : Nat
deriving Repr, DecidableEq

structure ReplLocalizeItem where
  key : SegmentKey
  subs : List Substitution
deriving Repr, DecidableEq

/-- The flags of the lines that were used, and how many segments were exchanged. -/
structure Matched where
  flags : List Bool
  substituted : Nat

/-- The closure `remap`.  A line is used once. -/
def localizeList (subs : List Substitution) :
    Matched → List Segment → Except Error (List Segment × Matched)
  | matched, [] => .ok ([], matched)
  | matched, s :: rest => do
      match subs.findIdx? fun sub => sub.place = s.key with
      | none =>
        let (out, matched) ← localizeList subs matched rest
        return (s :: out, matched)
      | some i =>
        if matched.flags.getD i false then
          let extent := s.extentId
          let offset := s.offset
          let len := s.len
          throw (.corrupt
            s!"repl localize: segment DataRef \x7b extent_id: {extent}, offset: {offset}, len: {len}, crc32c: None \x7d referenced twice in one key")
        else
          let (out, matched) ← localizeList subs
            ⟨matched.flags.set i true, matched.substituted + 1⟩ rest
          return ((subs[i]?.map Substitution.segments).getD [] ++ out, matched)

def putRmap (sub : Substitution) : MetaTx Unit :=
  tinsert (.replRmap sub.epoch sub.place.extent sub.place.offset sub.place.len)
    (some sub.segments)

def unmatched (subs : List Substitution) : Matched :=
  ⟨List.replicate subs.length false, 0⟩

def localizeObject (bucket key : String) (vk : Option Vk) (subs : List Substitution) :
    MetaTx Nat := do
  let length := (objectRawKey bucket key vk).length
  match ← tget (.object bucket key vk) with
  | none => throw (.objectChanged s!"repl localize target key ({length} bytes) deleted")
  | some found =>
    let (extents, matched) ← liftExcept (localizeList subs (unmatched subs) found.extents)
    let (restored, matched) ← liftExcept (localizeList subs matched found.restoredExtents)
    if subs = [] then return matched.substituted
    else if matched.flags.all id then
      tinsert (.object bucket key vk) (some { found with
        extents := extents
        restoreState := found.restoreState.map fun st =>
          { st with restoredExtents := restored } })
      subs.forM putRmap
      return matched.substituted
    else
      throw (.objectChanged
        s!"repl localize: segment refs no longer match key ({length} bytes)")

def localizePart (uploadId : String) (partNo : Nat) (subs : List Substitution) : MetaTx Nat := do
  let length := (partRawKey uploadId partNo).length
  match ← tget (.part uploadId partNo) with
  | none => throw (.objectChanged s!"repl localize target key ({length} bytes) deleted")
  | some found =>
    let (extents, matched) ← liftExcept (localizeList subs (unmatched subs) found.extents)
    if subs = [] then return matched.substituted
    else if matched.flags.all id then
      tinsert (.part uploadId partNo) (some { found with extents := extents })
      subs.forM putRmap
      return matched.substituted
    else
      throw (.objectChanged
        s!"repl localize: part segment refs no longer match ({length} bytes)")

def localizeItem (item : ReplLocalizeItem) : MetaTx Nat :=
  match item.key with
  | .object bucket key vk => localizeObject bucket key vk item.subs
  | .part uploadId partNo => localizePart uploadId partNo item.subs

def localizeItems : List ReplLocalizeItem → MetaTx Nat
  | [] => pure 0
  | item :: rest => do
      let here ← localizeItem item
      let there ← localizeItems rest
      return here + there

def swapRemove (list : List DataRef) (i : Nat) : List DataRef :=
  match list.getLast? with
  | none => list
  | some last => (list.set i last).dropLast

def takeRef (pending : List DataRef) (place : DataRef) : List DataRef :=
  match pending.idxOf? place with
  | none => pending
  | some i => swapRemove pending i

def consumeEntry (consumed : List (Gtid × DataRef)) (g : Gtid) : MetaTx Unit := do
  match ← tget (.replPending g) with
  | none => return ()
  | some pending =>
    let left := (consumed.filter fun taken => taken.1 = g).foldl
      (fun left taken => takeRef left taken.2) pending
    tinsert (.replPending g) (if left = [] then none else some left)

def clearMarker (marker : String × String) : MetaTx Unit :=
  tremove (.replPendingObj marker.1 marker.2)

/-- The transaction of `repl_localize_segments`: the number of exchanged segments. -/
def replLocalizeTx (items : List ReplLocalizeItem) (consumed : List (Gtid × DataRef))
    (alloc : Option AllocDraft) (allocSeq : Nat) (clearMarkers : List (String × String)) :
    MetaTx Nat := do
  let substituted ← localizeItems items
  ((consumed.map Prod.fst).mergeSort Gtid.le).dedup.forM (consumeEntry consumed)
  clearMarkers.forM clearMarker
  mergeAlloc alloc allocSeq
  return substituted

/-- What the database does with it: a write in between, any other failure, a failed
flush of the log, or success. -/
inductive LocalizeFate where
  | busy (message : String)
  | failed (message : String)
  | unflushed (message : String)
  | kept
deriving Repr, DecidableEq

def MetaStore.replLocalizeSegments (store : MetaStore) (fate : LocalizeFate)
    (items : List ReplLocalizeItem) (consumed : List (Gtid × DataRef)) (alloc : Option AllocDraft)
    (allocSeq : Nat) (clearMarkers : List (String × String)) : Except Error Nat × MetaStore :=
  match replLocalizeTx items consumed alloc allocSeq clearMarkers store.rows with
  | .error e => (.error e, store)
  | .ok (substituted, rows) =>
    match fate with
    | .busy message => (.error (.objectChanged s!"repl localize txn conflict: {message}"), store)
    | .failed message => (.error (.metaError message), store)
    | .unflushed message => (.error (.metaError message), { store with rows := rows })
    | .kept => (.ok substituted, { store with rows := rows })

section Items

variable {subs : List Substitution} {before after : Store}

variable {s : Segment} {key : SegmentKey} {count : Nat}

theorem localizeList_mem {matched matched' : Matched} {list out : List Segment}
    (run : localizeList subs matched list = .ok (out, matched')) (member : s ∈ out) :
    s ∈ list ∧ (∀ sub ∈ subs, sub.place ≠ s.key) ∨ ∃ sub ∈ subs, s ∈ sub.segments := by
  induction list generalizing matched matched' out with
  | nil =>
    cases run
    cases member
  | cons first rest ih =>
    unfold localizeList at run
    cases found : subs.findIdx? fun sub => sub.place = first.key with
    | none =>
      cases later : localizeList subs matched rest with
      | error e =>
        rw [found, later] at run
        cases run
      | ok outcome =>
        rw [found, later] at run
        cases run
        rcases List.mem_cons.mp member with rfl | inside
        · refine .inl ⟨List.mem_cons_self, ?_⟩
          intro sub listed same
          have unused := List.findIdx?_eq_none_iff.mp found sub listed
          simp only [same, decide_true, Bool.true_eq_false] at unused
        · rcases ih later inside with ⟨held, unnamed⟩ | localised
          · exact .inl ⟨List.mem_cons_of_mem _ held, unnamed⟩
          · exact .inr localised
    | some i =>
      rw [found] at run
      dsimp only at run
      split at run
      · cases run
      · cases later : localizeList subs ⟨matched.flags.set i true, matched.substituted + 1⟩ rest with
        | error e =>
          rw [later] at run
          cases run
        | ok outcome =>
          rw [later] at run
          cases run
          rcases List.mem_append.mp member with inside | inside
          · cases line : subs[i]? with
            | none =>
              rw [line] at inside
              cases inside
            | some sub =>
              rw [line] at inside
              exact .inr ⟨sub, List.mem_of_getElem? line, inside⟩
          · rcases ih later inside with ⟨held, unnamed⟩ | localised
            · exact .inl ⟨List.mem_cons_of_mem _ held, unnamed⟩
            · exact .inr localised

theorem liftExcept_eq_ok {α : Type} {outcome : Except Error α} {result : α × Store} :
    liftExcept outcome before = .ok result ↔ outcome = .ok result.1 ∧ result.2 = before := by
  obtain ⟨value, rows⟩ := result
  cases outcome with
  | error e =>
    constructor
    · intro impossible
      exact absurd impossible Tx.throw_ne_ok
    · rintro ⟨impossible, _⟩
      cases impossible
  | ok found =>
    constructor
    · intro run
      cases Tx.pure_eq_ok.mp run
      exact ⟨rfl, rfl⟩
    · rintro ⟨same, rfl⟩
      cases same
      rfl

theorem putRmaps_within :
    Within (fun key => ∃ epoch extent offset len, key = .replRmap epoch extent offset len)
      (subs.forM putRmap) := by
  apply Within.forM
  intro sub _
  exact tinsert_within _ ⟨_, _, _, _, rfl⟩

theorem segmentsAt_congr {left right : Store} (same : left key.row = right key.row) :
    segmentsAt left key = segmentsAt right key := by
  cases key with
  | object bucket name vk =>
    have row : left (.object bucket name vk) = right (.object bucket name vk) := same
    simp only [segmentsAt, row]
  | part uploadId partNo =>
    have row : left (.part uploadId partNo) = right (.part uploadId partNo) := same
    simp only [segmentsAt, row]

theorem localizeObject_ok {bucket name : String} {vk : Option Vk}
    (run : localizeObject bucket name vk subs before = .ok (count, after)) :
    ∃ found, before (.object bucket name vk) = some found ∧
      (subs = [] ∧ after = before ∨
        ∃ extents met restored all,
          localizeList subs (unmatched subs) found.extents = .ok (extents, met) ∧
          localizeList subs met found.restoredExtents = .ok (restored, all) ∧
          after (.object bucket name vk) = some { found with
            extents := extents
            restoreState := found.restoreState.map fun st =>
              { st with restoredExtents := restored } }) := by
  have rest := tget_bind_ok.mp run
  cases held : before (.object bucket name vk) with
  | none =>
    simp only [held] at rest
    exact absurd rest Tx.throw_ne_ok
  | some found =>
    simp only [held] at rest
    obtain ⟨⟨extents, met⟩, middle, first, behind⟩ := Tx.bind_eq_ok.mp rest
    obtain ⟨main, same⟩ := liftExcept_eq_ok.mp first
    obtain ⟨⟨restored, all⟩, last, second, rest⟩ := Tx.bind_eq_ok.mp behind
    obtain ⟨copy, unchanged⟩ := liftExcept_eq_ok.mp second
    dsimp only at main copy rest same unchanged
    rw [unchanged, same] at rest
    refine ⟨found, rfl, ?_⟩
    split at rest
    · next empty =>
        cases Tx.pure_eq_ok.mp rest
        exact .inl ⟨empty, rfl⟩
    · split at rest
      · replace rest := tinsert_bind_ok.mp rest
        obtain ⟨_, mapped, put, rest⟩ := Tx.bind_eq_ok.mp rest
        cases Tx.pure_eq_ok.mp rest
        refine .inr ⟨extents, met, restored, all, main, copy, ?_⟩
        rw [putRmaps_within.frame put (.object bucket name vk) (by rintro ⟨_, _, _, _, other⟩; cases other)]
        exact Function.update_self _ _ _
      · exact absurd rest Tx.throw_ne_ok

theorem localizeObject_segments {bucket name : String} {vk : Option Vk}
    (run : localizeObject bucket name vk subs before = .ok (count, after))
    (member : s ∈ segmentsAt after (.object bucket name vk)) :
    s ∈ segmentsAt before (.object bucket name vk) ∧ (∀ sub ∈ subs, sub.place ≠ s.key) ∨
      ∃ sub ∈ subs, s ∈ sub.segments := by
  obtain ⟨found, held, ⟨empty, same⟩ | ⟨extents, met, restored, all, main, copy, same⟩⟩ :=
    localizeObject_ok run
  · rw [same] at member
    refine .inl ⟨member, ?_⟩
    rw [empty]
    intro sub impossible
    cases impossible
  · simp only [segmentsAt, same, ObjectMeta.segments, List.mem_append] at member
    simp only [segmentsAt, held, ObjectMeta.segments, List.mem_append]
    rcases member with inside | inside
    · rcases localizeList_mem main inside with ⟨kept, unnamed⟩ | localised
      · exact .inl ⟨.inl kept, unnamed⟩
      · exact .inr localised
    · have inside : s ∈ restored := by
        unfold Core.ObjectMeta.restoredExtents at inside
        cases state : found.restoreState with
        | none =>
          simp only [state, Option.map_none] at inside
          cases inside
        | some st =>
          simp only [state, Option.map_some] at inside
          exact inside
      rcases localizeList_mem copy inside with ⟨kept, unnamed⟩ | localised
      · exact .inl ⟨.inr kept, unnamed⟩
      · exact .inr localised

theorem localizePart_ok {uploadId : String} {partNo : Nat}
    (run : localizePart uploadId partNo subs before = .ok (count, after)) :
    ∃ found, before (.part uploadId partNo) = some found ∧
      (subs = [] ∧ after = before ∨
        ∃ extents met, localizeList subs (unmatched subs) found.extents = .ok (extents, met) ∧
          after (.part uploadId partNo) = some { found with extents := extents }) := by
  have rest := tget_bind_ok.mp run
  cases held : before (.part uploadId partNo) with
  | none =>
    simp only [held] at rest
    exact absurd rest Tx.throw_ne_ok
  | some found =>
    simp only [held] at rest
    obtain ⟨⟨extents, met⟩, middle, first, rest⟩ := Tx.bind_eq_ok.mp rest
    obtain ⟨main, same⟩ := liftExcept_eq_ok.mp first
    dsimp only at main rest same
    rw [same] at rest
    refine ⟨found, rfl, ?_⟩
    split at rest
    · next empty =>
        cases Tx.pure_eq_ok.mp rest
        exact .inl ⟨empty, rfl⟩
    · split at rest
      · replace rest := tinsert_bind_ok.mp rest
        obtain ⟨_, mapped, put, rest⟩ := Tx.bind_eq_ok.mp rest
        cases Tx.pure_eq_ok.mp rest
        refine .inr ⟨extents, met, main, ?_⟩
        rw [putRmaps_within.frame put (.part uploadId partNo) (by rintro ⟨_, _, _, _, other⟩; cases other)]
        exact Function.update_self _ _ _
      · exact absurd rest Tx.throw_ne_ok

theorem localizePart_segments {uploadId : String} {partNo : Nat}
    (run : localizePart uploadId partNo subs before = .ok (count, after))
    (member : s ∈ segmentsAt after (.part uploadId partNo)) :
    s ∈ segmentsAt before (.part uploadId partNo) ∧ (∀ sub ∈ subs, sub.place ≠ s.key) ∨
      ∃ sub ∈ subs, s ∈ sub.segments := by
  obtain ⟨found, held, ⟨empty, same⟩ | ⟨extents, met, main, same⟩⟩ := localizePart_ok run
  · rw [same] at member
    refine .inl ⟨member, ?_⟩
    rw [empty]
    intro sub impossible
    cases impossible
  · simp only [segmentsAt, same] at member
    simp only [segmentsAt, held]
    exact localizeList_mem main member

theorem localizeItem_within (item : ReplLocalizeItem) :
    Within (fun key => key = item.key.row ∨
      ∃ epoch extent offset len, key = .replRmap epoch extent offset len) (localizeItem item) := by
  have mapped : Within (fun key => key = item.key.row ∨
      ∃ epoch extent offset len, key = .replRmap epoch extent offset len)
        (item.subs.forM putRmap) := putRmaps_within.of_subset fun key inside => .inr inside
  obtain ⟨target, subs⟩ := item
  cases target with
  | object bucket name vk =>
    refine Within.bind (tget_within (.inl rfl)) ?_
    intro row
    cases row with
    | none => exact Within.throw _
    | some found =>
      refine Within.bind (liftExcept_within _) ?_
      intro main
      refine Within.bind (liftExcept_within _) ?_
      intro copy
      dsimp only
      split
      · exact Within.pure _
      · split
        · refine Within.bind (tinsert_within _ (.inl rfl)) ?_
          intro _
          refine Within.bind mapped ?_
          intro _
          exact Within.pure _
        · exact Within.throw _
  | part uploadId partNo =>
    refine Within.bind (tget_within (.inl rfl)) ?_
    intro row
    cases row with
    | none => exact Within.throw _
    | some found =>
      refine Within.bind (liftExcept_within _) ?_
      intro main
      dsimp only
      split
      · exact Within.pure _
      · split
        · refine Within.bind (tinsert_within _ (.inl rfl)) ?_
          intro _
          refine Within.bind mapped ?_
          intro _
          exact Within.pure _
        · exact Within.throw _

theorem SegmentKey.row_injective {left right : SegmentKey} (same : left.row = right.row) :
    left = right := by
  cases left <;> cases right <;> cases same <;> rfl

theorem localizeItem_segments {item : ReplLocalizeItem}
    (run : localizeItem item before = .ok (count, after)) (member : s ∈ segmentsAt after key) :
    s ∈ segmentsAt before key ∧ (item.key = key → ∀ sub ∈ item.subs, sub.place ≠ s.key) ∨
      item.key = key ∧ ∃ sub ∈ item.subs, s ∈ sub.segments := by
  by_cases here : item.key = key
  · subst here
    obtain ⟨target, subs⟩ := item
    have outcome : s ∈ segmentsAt before target ∧ (∀ sub ∈ subs, sub.place ≠ s.key) ∨
        ∃ sub ∈ subs, s ∈ sub.segments := by
      cases target with
      | object bucket name vk => exact localizeObject_segments run member
      | part uploadId partNo => exact localizePart_segments run member
    rcases outcome with ⟨held, unnamed⟩ | localised
    · exact .inl ⟨held, fun _ => unnamed⟩
    · exact .inr ⟨rfl, localised⟩
  · refine .inl ⟨?_, fun same => absurd same here⟩
    have same : after key.row = before key.row := by
      apply (localizeItem_within item).frame run
      rintro (same | ⟨_, _, _, _, other⟩)
      · exact here (SegmentKey.row_injective same.symm)
      · cases key <;> cases other
    rw [← segmentsAt_congr same]
    exact member

theorem localizeItems_segments {items : List ReplLocalizeItem}
    (run : localizeItems items before = .ok (count, after)) (member : s ∈ segmentsAt after key) :
    s ∈ segmentsAt before key ∧
        (∀ item ∈ items, item.key = key → ∀ sub ∈ item.subs, sub.place ≠ s.key) ∨
      ∃ item ∈ items, item.key = key ∧ ∃ sub ∈ item.subs, s ∈ sub.segments := by
  induction items generalizing before count with
  | nil =>
    cases Tx.pure_eq_ok.mp run
    refine .inl ⟨member, ?_⟩
    intro item impossible
    cases impossible
  | cons item rest ih =>
    obtain ⟨here, middle, ran, remaining⟩ := Tx.bind_eq_ok.mp run
    obtain ⟨there, last, finished, returned⟩ := Tx.bind_eq_ok.mp remaining
    cases Tx.pure_eq_ok.mp returned
    rcases ih finished with ⟨held, unnamed⟩ | ⟨other, listed, localised⟩
    · rcases localizeItem_segments ran held with ⟨first, missed⟩ | localised
      · refine .inl ⟨first, ?_⟩
        intro other listed
        rcases List.mem_cons.mp listed with rfl | later
        · exact missed
        · exact unnamed other later
      · exact .inr ⟨item, List.mem_cons_self, localised⟩
    · exact .inr ⟨other, List.mem_cons_of_mem _ listed, localised⟩

theorem localizeItems_within (items : List ReplLocalizeItem) :
    Within (fun key => (∃ item ∈ items, key = item.key.row) ∨
      ∃ epoch extent offset len, key = .replRmap epoch extent offset len) (localizeItems items) := by
  induction items with
  | nil => exact Within.pure _
  | cons item rest ih =>
    have first := (localizeItem_within item).of_subset
      (fun key inside => show (∃ other ∈ item :: rest, key = other.key.row) ∨
          ∃ epoch extent offset len, key = .replRmap epoch extent offset len from
        inside.imp_left fun same => ⟨item, List.mem_cons_self, same⟩)
    have others := ih.of_subset
      (fun key inside => show (∃ other ∈ item :: rest, key = other.key.row) ∨
          ∃ epoch extent offset len, key = .replRmap epoch extent offset len from
        inside.imp_left fun ⟨other, listed, same⟩ =>
          ⟨other, List.mem_cons_of_mem _ listed, same⟩)
    refine Within.bind first ?_
    intro here
    refine Within.bind others ?_
    intro there
    exact Within.pure _

end Items

theorem mem_swapRemove {list : List DataRef} {i : Nat} {place taken : DataRef}
    (found : list[i]? = some taken) (member : place ∈ list) (other : place ≠ taken) :
    place ∈ swapRemove list i := by
  obtain ⟨j, bound, same⟩ := List.getElem_of_mem member
  obtain ⟨inside, here⟩ := List.getElem?_eq_some_iff.mp found
  have apart : i ≠ j := by
    rintro rfl
    exact other (same.symm.trans here)
  have last : list.getLast? = some (list.get ⟨list.length - 1, by omega⟩) := by
    rw [List.getLast?_eq_getElem?, List.getElem?_eq_getElem (by omega)]
    rfl
  simp only [swapRemove, last]
  rw [List.mem_iff_getElem?]
  by_cases final : j = list.length - 1
  · refine ⟨i, ?_⟩
    rw [List.getElem?_dropLast, if_pos (by rw [List.length_set]; omega),
      List.getElem?_set_self inside]
    simp only [← same, final, List.get_eq_getElem]
  · refine ⟨j, ?_⟩
    rw [List.getElem?_dropLast, if_pos (by rw [List.length_set]; omega), List.getElem?_set_ne apart,
      List.getElem?_eq_getElem bound, same]

theorem mem_takeRef {pending : List DataRef} {place taken : DataRef} (member : place ∈ pending)
    (other : place ≠ taken) : place ∈ takeRef pending taken := by
  unfold takeRef
  cases found : pending.idxOf? taken with
  | none => exact member
  | some i =>
    have named : pending[i]? = some taken := by
      obtain ⟨bound, here, _⟩ := List.idxOf?_eq_some_iff.mp found
      exact List.getElem?_eq_some_iff.mpr ⟨bound, here⟩
    exact mem_swapRemove named member other

theorem mem_foldl_takeRef {consumed : List (Gtid × DataRef)} {pending : List DataRef}
    {place : DataRef} (member : place ∈ pending) (kept : ∀ taken ∈ consumed, place ≠ taken.2) :
    place ∈ consumed.foldl (fun left taken => takeRef left taken.2) pending := by
  induction consumed generalizing pending with
  | nil => exact member
  | cons taken rest ih =>
    apply ih (mem_takeRef member (kept taken List.mem_cons_self))
    intro other listed
    exact kept other (List.mem_cons_of_mem _ listed)

section Queue

variable {consumed : List (Gtid × DataRef)} {before after : Store}

theorem consumeEntry_within (consumed : List (Gtid × DataRef)) (g : Gtid) :
    Within (fun key => key = .replPending g) (consumeEntry consumed g) := by
  refine Within.bind (tget_within (by rfl)) ?_
  intro row
  cases row with
  | none => exact Within.pure _
  | some pending => exact tinsert_within _ rfl

theorem consumeEntry_keeps {other g : Gtid} {place : DataRef} (kept : (g, place) ∉ consumed)
    (run : consumeEntry consumed other before = .ok ((), after))
    (held : ∃ refs, before (.replPending g) = some refs ∧ place ∈ refs) :
    ∃ refs, after (.replPending g) = some refs ∧ place ∈ refs := by
  by_cases same : g = other
  · subst same
    obtain ⟨refs, queued, member⟩ := held
    have rest := tget_bind_ok.mp run
    simp only [queued] at rest
    cases tinsert_eq_ok.mp rest
    have stays : place ∈ (consumed.filter fun taken => taken.1 = g).foldl
        (fun left taken => takeRef left taken.2) refs := by
      apply mem_foldl_takeRef member
      rintro ⟨named, taken⟩ listed rfl
      obtain ⟨inside, here⟩ := List.mem_filter.mp listed
      exact kept ((of_decide_eq_true here : named = g) ▸ inside)
    rw [Function.update_self, if_neg (List.ne_nil_of_mem stays)]
    exact ⟨_, rfl, stays⟩
  · have unchanged : after (.replPending g) = before (.replPending g) := by
      apply (consumeEntry_within consumed other).frame run
      intro named
      cases named
      exact same rfl
    rw [unchanged]
    exact held

theorem consumeEntry_queued {other g : Gtid}
    (run : consumeEntry consumed other before = .ok ((), after))
    (gone : before (.replPending g) = none) : after (.replPending g) = none := by
  by_cases same : g = other
  · subst same
    have rest := tget_bind_ok.mp run
    simp only [gone] at rest
    cases Tx.pure_eq_ok.mp rest
    exact gone
  · have unchanged : after (.replPending g) = before (.replPending g) := by
      apply (consumeEntry_within consumed other).frame run
      intro named
      cases named
      exact same rfl
    rw [unchanged]
    exact gone

theorem clearMarkers_within (clearMarkers : List (String × String)) :
    Within (fun key => ∃ marker ∈ clearMarkers, key = .replPendingObj marker.1 marker.2)
      (clearMarkers.forM clearMarker) := by
  apply Within.forM
  intro marker listed
  exact tremove_within ⟨marker, listed, rfl⟩

theorem mergeAlloc_within (alloc : Option AllocDraft) (seq : Nat) :
    Within (fun key => key = .alloc seq ∨ key = .txn seq) (mergeAlloc alloc seq) := by
  cases alloc with
  | none => exact Within.pure _
  | some draft =>
    dsimp only [mergeAlloc]
    split
    · exact Within.pure _
    · refine Within.bind (tget_within (.inl rfl)) ?_
      intro row
      refine Within.bind (tinsert_within _ (.inl rfl)) ?_
      intro _
      exact tinsert_within _ (.inr rfl)

end Queue

structure Localized (items : List ReplLocalizeItem) (consumed : List (Gtid × DataRef))
    (clearMarkers : List (String × String)) (before after : Store) : Prop where
  segments : ∀ key s, s ∈ segmentsAt after key →
    s ∈ segmentsAt before key ∧
        (∀ item ∈ items, item.key = key → ∀ sub ∈ item.subs, sub.place ≠ s.key) ∨
      ∃ item ∈ items, item.key = key ∧ ∃ sub ∈ item.subs, s ∈ sub.segments
  kept : ∀ g refs place, before (.replPending g) = some refs → place ∈ refs →
    (g, place) ∉ consumed → ∃ left, after (.replPending g) = some left ∧ place ∈ left
  gone : ∀ g, before (.replPending g) = none → after (.replPending g) = none
  markers : ∀ bucket name, (bucket, name) ∉ clearMarkers →
    after (.replPendingObj bucket name) = before (.replPendingObj bucket name)
  binlog : ∀ g, after (.binlog g) = before (.binlog g)
  cursor : after .replCursor = before .replCursor

variable {items : List ReplLocalizeItem}

theorem replLocalizeTx_stages {consumed : List (Gtid × DataRef)} {alloc : Option AllocDraft}
    {allocSeq substituted : Nat} {clearMarkers : List (String × String)} {before after : Store}
    (run : replLocalizeTx items consumed alloc allocSeq clearMarkers before =
      .ok (substituted, after)) :
    ∃ count exchanged settled, localizeItems items before = .ok (count, exchanged) ∧
      ((consumed.map Prod.fst).mergeSort Gtid.le).dedup.forM (consumeEntry consumed) exchanged =
        .ok ((), settled) ∧
      (∀ g, after (.replPending g) = settled (.replPending g)) ∧
      ∀ key, (∀ g, key ≠ .replPending g) →
        (∀ marker ∈ clearMarkers, key ≠ .replPendingObj marker.1 marker.2) →
        (∀ seq, key ≠ .alloc seq ∧ key ≠ .txn seq) → after key = exchanged key := by
  obtain ⟨count, exchanged, items_run, rest⟩ := Tx.bind_eq_ok.mp run
  obtain ⟨_, settled, consume_run, rest⟩ := Tx.bind_eq_ok.mp rest
  obtain ⟨_, cleared, clear_run, rest⟩ := Tx.bind_eq_ok.mp rest
  obtain ⟨_, merged, merge_run, returned⟩ := Tx.bind_eq_ok.mp rest
  cases Tx.pure_eq_ok.mp returned
  refine ⟨substituted, exchanged, settled, items_run, consume_run, ?_, ?_⟩
  · intro g
    rw [(mergeAlloc_within alloc allocSeq).frame merge_run _ (by rintro (same | same) <;> cases same),
      (clearMarkers_within clearMarkers).frame clear_run _ (by rintro ⟨_, _, same⟩; cases same)]
  · intro key notQueued notMarker notAlloc
    have first : settled key = exchanged key := by
      apply Tx.forM_keeps (P := fun rows => rows key = exchanged key) _ consume_run rfl
      intro g _ start middle ran held
      rw [(consumeEntry_within consumed g).frame ran key (notQueued g)]
      exact held
    rw [(mergeAlloc_within alloc allocSeq).frame merge_run key (by
        rintro (same | same)
        · exact (notAlloc allocSeq).1 same
        · exact (notAlloc allocSeq).2 same),
      (clearMarkers_within clearMarkers).frame clear_run key (by
        rintro ⟨marker, listed, same⟩
        exact notMarker marker listed same), first]

theorem localizeItems_progress {before after : Store} {count : Nat}
    (run : localizeItems items before = .ok (count, after)) {key : Key}
    (progress : key.progress = true) : after key = before key := by
  apply (localizeItems_within items).frame run
  rintro (⟨⟨target, _⟩, _, rfl⟩ | ⟨_, _, _, _, rfl⟩)
  · cases target <;> cases progress
  · cases progress

theorem replLocalizeTx_localized {consumed : List (Gtid × DataRef)} {alloc : Option AllocDraft}
    {allocSeq substituted : Nat} {clearMarkers : List (String × String)} {before after : Store}
    (run : replLocalizeTx items consumed alloc allocSeq clearMarkers before =
      .ok (substituted, after)) : Localized items consumed clearMarkers before after := by
  obtain ⟨count, exchanged, settled, items_run, consume_run, queue, behind⟩ :=
    replLocalizeTx_stages run
  have start : ∀ key : Key, key.progress = true → exchanged key = before key :=
    fun key progress => localizeItems_progress items_run progress
  refine ⟨?_, ?_, ?_, ?_, ?_, ?_⟩
  · intro key s member
    have same : after key.row = exchanged key.row := by
      apply behind <;> cases key <;> simp [SegmentKey.row]
    rw [segmentsAt_congr same] at member
    exact localizeItems_segments items_run member
  · intro g refs place held member unconsumed
    have same : exchanged (.replPending g) = before (.replPending g) := start _ rfl
    rw [queue]
    apply Tx.forM_keeps
      (P := fun rows => ∃ left, rows (.replPending g) = some left ∧ place ∈ left) _ consume_run
    · exact ⟨refs, same.trans held, member⟩
    · intro other _ first middle ran queued
      exact consumeEntry_keeps unconsumed ran queued
  · intro g missing
    have same : exchanged (.replPending g) = before (.replPending g) := start _ rfl
    rw [queue]
    apply Tx.forM_keeps (P := fun rows => rows (.replPending g) = none) _ consume_run
      (same.trans missing)
    intro other _ first middle ran gone
    exact consumeEntry_queued ran gone
  · intro bucket name unnamed
    rw [behind _ (fun _ => Key.noConfusion) _ (fun _ => ⟨Key.noConfusion, Key.noConfusion⟩)]
    · exact start _ rfl
    · rintro ⟨bucket', name'⟩ listed same
      cases same
      exact unnamed listed
  · intro g
    rw [behind _ (fun _ => Key.noConfusion) (fun _ _ => Key.noConfusion)
      (fun _ => ⟨Key.noConfusion, Key.noConfusion⟩)]
    exact start _ rfl
  · rw [behind _ (fun _ => Key.noConfusion) (fun _ _ => Key.noConfusion)
      (fun _ => ⟨Key.noConfusion, Key.noConfusion⟩)]
    exact start _ rfl

end FastS3.Meta
