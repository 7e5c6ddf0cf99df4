import FastS3.Meta.BucketRows
import FastS3.Meta.Entries

namespace FastS3.Meta

open FastS3.Core Data

/-! The pages of an object listing.

A page shows the entries of the live keys of a bucket, in the order of the escaped keys, and
its marker is compared in the order of the entries.
-/

def listPaging : Paging (ListEntry ObjectMeta) Bytes Bytes Nat ListPage where
  rank := ListEntry.text
  cut := fun max _ => max
  full := fun max left => max < left.length
  render := fun chunk flag => ⟨chunk.filterMap ListEntry.object?,
    chunk.filterMap ListEntry.commonPrefix?, flag, chunk.getLast?.map ListEntry.text⟩
  name := ListEntry.text
  more := ListPage.truncated
  marker := ListPage.lastScanned
  more_render := fun _ _ => rfl
  marker_render := fun _ => rfl

@[simp] theorem listPaging_name (entry : ListEntry ObjectMeta) :
    listPaging.name entry = entry.text :=
  rfl

def ListPage.Shows (page : ListPage) : ListEntry ObjectMeta → Prop
  | .object key value => (key, value) ∈ page.items
  | .commonPrefix text => text ∈ page.commonPrefixes

theorem listPaging_shows (chunk : List (ListEntry ObjectMeta)) (flag : Bool)
    (entry : ListEntry ObjectMeta) : (listPaging.render chunk flag).Shows entry ↔ entry ∈ chunk := by
  cases entry with
  | object key value =>
    show (key, value) ∈ chunk.filterMap ListEntry.object? ↔ _
    rw [List.mem_filterMap]
    constructor
    · rintro ⟨entry, inside, found⟩
      cases entry with
      | commonPrefix text => cases found
      | object key value =>
        cases found
        exact inside
    · exact fun inside => ⟨_, inside, rfl⟩
  | commonPrefix text =>
    show text ∈ chunk.filterMap ListEntry.commonPrefix? ↔ _
    rw [List.mem_filterMap]
    constructor
    · rintro ⟨entry, inside, found⟩
      cases entry with
      | object key value => cases found
      | commonPrefix text =>
        cases found
        exact inside
    · exact fun inside => ⟨_, inside, rfl⟩

theorem listPaging_sound {max : Nat} (positive : 0 < max) : listPaging.Sound max where
  takes := fun _ _ => positive
  overflows := fun _ excess => decide_eq_true excess
  ends := decide_eq_false (Nat.not_lt_zero max)

def Query.shows (query : Query) (after : Option Bytes) (live : String × ObjectMeta) : Bool :=
  underPrefix query.keyPrefix live.1 && !atMarker after (query.listEntry live).text

def pageState (shown : List (ListEntry ObjectMeta)) : ListState :=
  ⟨shown.filterMap ListEntry.object?, shown.filterMap ListEntry.commonPrefix?, shown.length,
    shown.getLast?.map ListEntry.text⟩

theorem pageState_push (query : Query) (live : String × ObjectMeta) (shown : List (ListEntry ObjectMeta)) :
    (pageState shown).push (query.entryOf (utf8 live.1)).2 (query.entryOf (utf8 live.1)).1 live.1
      live.2 = pageState (shown ++ [query.listEntry live]) := by
  unfold ListState.push pageState
  rw [List.filterMap_append, List.filterMap_append, List.length_append, List.getLast?_concat,
    Option.map_some, Query.listEntry_text]
  unfold Query.listEntry
  cases rolls : (query.entryOf (utf8 live.1)).2 with
  | true => simp [ListEntry.object?, ListEntry.commonPrefix?]
  | false =>
    have own := Query.entryOf_key rolls
    simp [ListEntry.object?, ListEntry.commonPrefix?, own]

theorem emitEntry_eq (query : Query) (after : Option Bytes) (max : Nat)
    (live : String × ObjectMeta) (shown : List (ListEntry ObjectMeta)) :
    emitEntry query after max live.1 live.2 (pageState shown) =
      if !query.shows after live then (true, pageState shown)
      else if shown.getLast?.map ListEntry.text = some (query.listEntry live).text then
        (true, pageState shown)
      else if shown.length ≥ max then (false, pageState shown)
      else (true, pageState (shown ++ [query.listEntry live])) := by
  unfold emitEntry Query.shows
  simp only [pageState_push, Query.listEntry_text]
  cases underPrefix query.keyPrefix live.1 with
  | false => rfl
  | true =>
    cases atMarker after (query.entryOf (utf8 live.1)).1 with
    | true => rfl
    | false => rfl

theorem emitEntry_skip {query : Query} {after : Option Bytes} {live : String × ObjectMeta}
    (hidden : query.shows after live = false) (max : Nat) (st : ListState) :
    emitEntry query after max live.1 live.2 st = (true, st) := by
  unfold Query.shows at hidden
  rw [Query.listEntry_text] at hidden
  unfold emitEntry
  cases under : underPrefix query.keyPrefix live.1 with
  | false => rfl
  | true =>
    rw [under, Bool.true_and, Bool.not_eq_false'] at hidden
    simp only [hidden, Bool.not_true, Bool.false_eq_true, if_false, if_true]

theorem runUntil_groups {query : Query} {after : Option Bytes} (max : Nat)
    {lives : List (String × ObjectMeta)} {groups : List (ListEntry ObjectMeta × List (String × ObjectMeta))}
    (grouped : Grouped query.listEntry lives groups)
    (shown : ∀ live ∈ lives, query.shows after live = true)
    (texts : (groups.map fun group => group.1.text).Nodup) {done : List (ListEntry ObjectMeta)}
    (last : ∀ text ∈ done.getLast?.map ListEntry.text, text ∉ groups.map fun group => group.1.text) :
    runUntil (fun live => emitEntry query after max live.1 live.2) lives (pageState done) =
      (decide (groups.length ≤ max - done.length),
        pageState (done ++ (groups.map Prod.fst).take (max - done.length))) := by
  induction groups generalizing lives done with
  | nil =>
    rw [← grouped.flat]
    simp [runUntil]
  | cons group groups ih =>
    obtain ⟨entry, members⟩ := group
    obtain ⟨live, others, rfl⟩ := List.exists_cons_of_ne_nil (grouped.filled _ List.mem_cons_self)
    have keyed := grouped.keyed _ List.mem_cons_self
    have first : query.listEntry live = entry := keyed live List.mem_cons_self
    have shows : ∀ other ∈ live :: (others ++ groups.flatMap Prod.snd),
        query.shows after other = true := by
      intro other inside
      apply shown
      rwa [← grouped.flat]
    have differs : done.getLast?.map ListEntry.text ≠ some entry.text := by
      intro same
      exact last entry.text same List.mem_cons_self
    rw [← grouped.flat, List.flatMap_cons, List.cons_append, runUntil, emitEntry_eq, first]
    simp only [shows live List.mem_cons_self, Bool.not_true, Bool.false_eq_true, if_false,
      if_neg differs]
    split
    · next filled =>
        rw [Nat.sub_eq_zero_of_le filled]
        simp
    · next room =>
        have again : ∀ other ∈ others, emitEntry query after max other.1 other.2
            (pageState (done ++ [entry])) = (true, pageState (done ++ [entry])) := by
          intro other inside
          rw [emitEntry_eq, keyed other (List.mem_cons_of_mem _ inside), List.getLast?_concat,
            shows other (List.mem_cons_of_mem _ (List.mem_append_left _ inside))]
          exact if_pos rfl
        obtain ⟨fresh, rest⟩ := List.nodup_cons.mp texts
        have left : max - done.length = max - (done ++ [entry]).length + 1 := by
          rw [List.length_append, List.length_singleton]
          omega
        simp only [if_true]
        rw [runUntil_skip again, ih grouped.tail _ rest, left, List.map_cons, List.take_succ_cons,
          List.append_assoc, List.singleton_append, List.length_cons]
        · simp only [Nat.add_le_add_iff_right]
        · intro text held
          rw [List.getLast?_concat, Option.map_some, Option.mem_some_iff] at held
          rw [← held]
          exact fresh
        · intro other inside
          exact shows other (List.mem_cons_of_mem _ (List.mem_append_right _ inside))

theorem page_groups {query : Query} {after : Option Bytes} (max : Nat)
    {lives : List (String × ObjectMeta)} {groups : List (ListEntry ObjectMeta × List (String × ObjectMeta))}
    (grouped : Grouped query.listEntry (lives.filter (query.shows after)) groups)
    (texts : (groups.map fun group => group.1.text).Nodup) :
    (fun scanned : Bool × ListState => scanned.2.page (!scanned.1))
        (runUntil (fun live => emitEntry query after max live.1 live.2) lives .empty) =
      listPaging.pageOf max (groups.map Prod.fst) := by
  have start : ListState.empty = pageState [] := rfl
  rw [runUntil_filter (p := query.shows after) (fun live st hidden => emitEntry_skip hidden max st),
    start, runUntil_groups max grouped (fun live inside => (List.mem_filter.mp inside).2) texts
      (by simp)]
  simp only [ListState.page, pageState, Paging.pageOf, listPaging, List.length_map, List.length_nil,
    Nat.sub_zero, List.nil_append]
  congr 1
  rw [Bool.eq_iff_iff, Bool.not_eq_true', decide_eq_false_iff_not, decide_eq_true_iff, not_le]

def liveOf (group : String × List Placed) : Option (String × ObjectMeta) :=
  match (slotsOf group.2).current with
  | none => none
  | some (_, m) => if m.isDeleteMarker then none else some (group.1, m)

theorem liveOf_key {group : String × List Placed} {live : String × ObjectMeta}
    (found : liveOf group = some live) : live.1 = group.1 := by
  unfold liveOf at found
  split at found
  · cases found
  · split at found
    · cases found
    · cases found
      rfl

def livesOf (bucket : String) (places : List Placed) : List (String × ObjectMeta) :=
  (groupsOf Placed.key (inBucket bucket places)).filterMap liveOf

theorem filterMap_liveOf (p : String → Bool) (groups : List (String × List Placed)) :
    (groups.filter fun group => p group.1).filterMap liveOf =
      (groups.filterMap liveOf).filter fun live => p live.1 := by
  rw [List.filterMap_filter, List.filter_filterMap]
  apply List.filterMap_congr
  intro group _
  cases found : liveOf group with
  | none =>
    rw [ite_self]
    rfl
  | some live =>
    rw [Option.filter_some, liveOf_key found]

theorem filterMap_liveOf_single {groups : List (String × List Placed)}
    (single : ∀ group ∈ groups, ∃ placed : Placed, group.2 = [placed] ∧
      liveOf group = some (placed.key, placed.2)) :
    groups.filterMap liveOf =
      (groups.flatMap Prod.snd).map fun placed => (placed.key, placed.2) := by
  induction groups with
  | nil => rfl
  | cons group groups ih =>
    obtain ⟨⟨placed, members, live⟩, later⟩ := List.forall_mem_cons.mp single
    rw [List.flatMap_cons, List.map_append, ← ih later, members]
    exact List.filterMap_cons_some live

theorem plainPageLoop_eq (query : Query) (after : Option Bytes) (max : Nat) {group : List Placed}
    (plain : ∀ placed ∈ group, placed.1.vk = none) (st : ListState) :
    plainPageLoop query after max (group.map Placed.row) st =
      .ok (runUntil (fun live => emitEntry query after max live.1 live.2)
        (group.map fun placed => (placed.key, placed.2)) st) := by
  induction group generalizing st with
  | nil => rfl
  | cons placed group ih =>
    obtain ⟨here, later⟩ := List.forall_mem_cons.mp plain
    rw [List.map_cons, Placed.row, plainPageLoop, parseObjectKey_raw, here]
    simp only [Option.isSome_none, Bool.false_eq_true, if_false, bind, Except.bind, List.map_cons,
      runUntil]
    split
    · next taken =>
        rw [ih later]
        exact congrArg Except.ok (if_pos taken).symm
    · next stopped => exact congrArg Except.ok (if_neg stopped).symm

namespace Places

variable {rows : ObjectRows} {places : List Placed} (held : Places rows places) {bucket : String}
  (noNul : 0 ∉ utf8 bucket)

include held

include noNul

theorem mem_livesOf {live : String × ObjectMeta} : live ∈ livesOf bucket places ↔
    ∃ vk, rows.getCurrentVersion bucket live.1 = .ok (some (vk, live.2)) ∧
      live.2.isDeleteMarker = false := by
  rw [livesOf, List.mem_filterMap, held.getCurrentVersion_eq noNul]
  constructor
  · rintro ⟨group, inside, found⟩
    have named := liveOf_key found
    unfold liveOf at found
    rw [held.group_eq inside, ← named] at found
    cases current : (slotsOf (ofKey bucket live.1 places)).current with
    | none =>
      rw [current] at found
      cases found
    | some version =>
      rw [current] at found
      simp only at found
      split at found
      · cases found
      · next kept =>
          have value : version.2 = live.2 := congrArg Prod.snd (Option.some.inj found)
          rw [value] at kept
          exact ⟨version.1, by rw [← value], Bool.eq_false_iff.mpr kept⟩
  · rintro ⟨vk, current, kept⟩
    rw [Except.ok.injEq] at current
    have some : ofKey bucket live.1 places ≠ [] := by
      intro nothing
      rw [nothing] at current
      cases current
    obtain ⟨placed, member⟩ := List.exists_mem_of_ne_nil _ some
    obtain ⟨inside, named⟩ := List.mem_filter.mp member
    have key : live.1 ∈ (groupsOf Placed.key (inBucket bucket places)).map Prod.fst :=
      (held.grouped bucket).mem_key.mpr ⟨placed, inside, of_decide_eq_true named⟩
    obtain ⟨group, groupIn, named'⟩ := List.mem_map.mp key
    refine ⟨group, groupIn, ?_⟩
    unfold liveOf
    rw [held.group_eq groupIn, named', current]
    simp only [kept, Bool.false_eq_true, if_false]

omit noNul in
theorem livesOf_sorted (bucket : String) : (livesOf bucket places).Pairwise fun left right =>
    escape (utf8 left.1) < escape (utf8 right.1) := by
  rw [livesOf, List.pairwise_filterMap]
  apply (held.groups_sorted bucket).imp
  intro first second below left leftOf right rightOf
  rw [liveOf_key leftOf, liveOf_key rightOf]
  exact below

theorem scanGroups_lives {σ : Type} {emit : String → ObjectMeta → σ → Bool × σ}
    (hides : ∀ key m st, m.isDeleteMarker = true → emit key m st = (true, st))
    (after : Option Bytes) (st : σ) :
    scanGroups Slots.absorb .empty (emitCurrent emit) (rows.scanFrom bucket after) none st =
      .ok (runUntil (fun live => emit live.1 live.2)
        ((livesOf bucket places).filter fun live => reached after live.1) st) := by
  have each : ∀ group : String × List Placed, ∀ st,
      emitCurrent emit group.1 (gathered Slots.absorb .empty group.2) st =
        match liveOf group with
        | none => (true, st)
        | some live => emit live.1 live.2 st := by
    intro group st
    unfold emitCurrent liveOf slotsOf
    cases (gathered Slots.absorb .empty group.2).current with
    | none => rfl
    | some version =>
      simp only
      cases marker : version.2.isDeleteMarker with
      | true => exact hides _ _ _ marker
      | false => rfl
  rw [held.scanFrom_eq noNul, scanGroups_eq _ _ _ ((held.grouped bucket).filter (reached after)),
    livesOf, ← filterMap_liveOf, ← runUntil_filterMap]
  congr 2
  funext group st
  rw [each]
  cases liveOf group with
  | none => rfl
  | some live => rfl

omit noNul in
theorem livesOf_plain (off : rows.versioning bucket = .off) :
    livesOf bucket places = (inBucket bucket places).map fun placed => (placed.key, placed.2) := by
  rw [livesOf, filterMap_liveOf_single, (held.grouped bucket).flat]
  intro group inside
  have plain : ∀ placed ∈ group.2, placed.1.bucket = bucket ∧ placed.1.key = group.1 ∧
      placed.1.vk = none ∧ placed.2.isDeleteMarker = false := by
    intro placed member
    rw [held.group_eq inside] at member
    obtain ⟨stored, here, named⟩ := mem_ofKey.mp member
    have row := held.mem_iff.mp stored
    exact ⟨here, named, rows.plain placed.1 placed.2 (here ▸ off) row⟩
  have sorted : group.2.Pairwise fun left right => left.1.raw < right.1.raw := by
    rw [held.group_eq inside]
    exact held.ofKey_sorted group.1
  obtain ⟨placed, others, members⟩ := List.exists_cons_of_ne_nil
    ((held.grouped bucket).filled group inside)
  have alone : others = [] := by
    apply List.eq_nil_iff_forall_not_mem.mpr
    intro other member
    rw [members] at sorted plain
    obtain ⟨here, named, single, _⟩ := plain placed List.mem_cons_self
    obtain ⟨here', named', single', _⟩ := plain other (List.mem_cons_of_mem _ member)
    have below := (List.pairwise_cons.mp sorted).1 other member
    rw [ObjectAddress.raw, ObjectAddress.raw, here, named, single, here', named', single'] at below
    exact lt_irrefl _ below
  obtain ⟨_, named, version, kept⟩ := plain placed (members ▸ List.mem_cons_self)
  refine ⟨placed, by rw [members, alone], ?_⟩
  unfold liveOf
  rw [members, alone]
  simp only [slotsOf, gathered, List.foldl_cons, List.foldl_nil, version, Slots.absorb,
    Slots.empty, Slots.current, d1aPickCurrent, kept, Bool.false_eq_true, if_false, ← named]
  rfl

theorem listObjectsPagePlain_eq (off : rows.versioning bucket = .off) (query : Query)
    (after : Option Bytes) (max : Nat) : rows.listObjectsPagePlain bucket query after max =
      .ok ((fun scanned : Bool × ListState => scanned.2.page (!scanned.1))
        (runUntil (fun live => emitEntry query after max live.1 live.2)
          ((livesOf bucket places).filter fun live => reached after live.1) .empty)) := by
  have plain : ∀ placed ∈ (inBucket bucket places).filter (fun placed => reached after placed.key),
      placed.1.vk = none := by
    intro placed inside
    obtain ⟨stored, here⟩ := List.mem_filter.mp (List.mem_filter.mp inside).1
    have bucketOf := of_decide_eq_true here
    exact (rows.plain placed.1 placed.2 (bucketOf ▸ off) (held.mem_iff.mp stored)).1
  rw [ObjectRows.listObjectsPagePlain, held.scanFrom_eq noNul, plainPageLoop_eq _ _ _ plain,
    held.livesOf_plain off, List.filter_map]
  rfl

theorem listObjectsPageVersioned_eq (query : Query) (after : Option Bytes) (max : Nat) :
    rows.listObjectsPageVersioned bucket query after max =
      .ok ((fun scanned : Bool × ListState => scanned.2.page (!scanned.1))
        (runUntil (fun live => emitEntry query after max live.1 live.2)
          ((livesOf bucket places).filter fun live => reached after live.1) .empty)) := by
  have hides : ∀ (key : String) (m : ObjectMeta) (st : ListState), m.isDeleteMarker = true →
      (if m.isDeleteMarker then (true, st) else emitEntry query after max key m st) = (true, st) :=
    fun _ _ _ marker => if_pos marker
  have emits : ∀ live ∈ (livesOf bucket places).filter (fun live => reached after live.1),
      (fun st => if live.2.isDeleteMarker then (true, st)
        else emitEntry query after max live.1 live.2 st) =
          emitEntry query after max live.1 live.2 := by
    intro live inside
    obtain ⟨_, _, kept⟩ := (held.mem_livesOf noNul).mp (List.mem_filter.mp inside).1
    simp only [kept, Bool.false_eq_true, if_false]
  rw [ObjectRows.listObjectsPageVersioned, held.scanGroups_lives noNul hides, runUntil_congr emits]
  rfl

theorem listObjectsPage_eq (query : Query) (after : Option Bytes) (max : Nat) :
    rows.listObjectsPage bucket query after max =
      rows.listObjectsPageVersioned bucket query after max := by
  unfold ObjectRows.listObjectsPage
  split
  · next off =>
      rw [held.listObjectsPagePlain_eq noNul off, held.listObjectsPageVersioned_eq noNul]
  · rfl

end Places

def listed (query : Query) (bucket : String) (places : List Placed) : List (String × ObjectMeta) :=
  (livesOf bucket places).filter fun live => underPrefix query.keyPrefix live.1

def shownLives (query : Query) (bucket : String) (places : List Placed) (after : Option Bytes) :
    List (String × ObjectMeta) :=
  ((livesOf bucket places).filter fun live => reached after live.1).filter (query.shows after)

def entriesOf (query : Query) (bucket : String) (places : List Placed) :
    List (ListEntry ObjectMeta) :=
  (groupsOf query.listEntry (listed query bucket places)).map Prod.fst

namespace Places

variable {rows : ObjectRows} {places : List Placed} (held : Places rows places) {bucket : String}
  (noNul : 0 ∉ utf8 bucket) (query : Query)

include held

theorem under (bucket : String) : Under query (listed query bucket places) where
  sorted := (held.livesOf_sorted bucket).filter _
  under := fun _ inside => underPrefix_iff.mp (List.mem_filter.mp inside).2

theorem mem_entriesOf {entry : ListEntry ObjectMeta} : entry ∈ entriesOf query bucket places ↔
    ∃ live ∈ listed query bucket places, query.listEntry live = entry :=
  (held.under query bucket).grouped.mem_key

/-- Behind an entry that is greater than all before it, no greater entry is behind the place
where the scan begins. -/
theorem reached_of_text_lt {before rest : List (ListEntry ObjectMeta)}
    {item : ListEntry ObjectMeta} (split : entriesOf query bucket places = before ++ item :: rest)
    (smaller : ∀ entry ∈ before, entry.text < item.text) {live : String × ObjectMeta}
    (inside : live ∈ listed query bucket places) (above : item.text < (query.listEntry live).text) :
    reached (some item.text) live.1 = true := by
  have under := held.under query bucket
  have order := under.grouped.pairwise under.sorted
  obtain ⟨init, others, cut, initOf, othersOf⟩ := List.map_eq_append_iff.mp split
  obtain ⟨group, tail, rfl, isItem, tailOf⟩ := List.map_eq_cons_iff.mp othersOf
  have groupIn : group ∈ groupsOf query.listEntry (listed query bucket places) := by
    rw [cut]
    exact List.mem_append_right _ List.mem_cons_self
  obtain ⟨first, firstOf, firstIn, named⟩ := under.grouped.exists_row groupIn
  have later : ∃ group' ∈ tail, live ∈ group'.2 := by
    obtain ⟨group', groupIn', member⟩ := under.grouped.mem_row.mp inside
    have named' := under.grouped.keyed group' groupIn' live member
    rw [cut] at groupIn'
    rcases List.mem_append.mp groupIn' with earlier | rest'
    · have below := smaller group'.1 (initOf ▸ List.mem_map_of_mem earlier)
      rw [← named'] at below
      exact absurd below (lt_asymm above)
    · rcases List.mem_cons.mp rest' with rfl | behind
      · rw [named', isItem] at above
        exact absurd above (lt_irrefl _)
      · exact ⟨group', behind, member⟩
  obtain ⟨group', behind, member⟩ := later
  rw [cut] at order
  have below := (List.pairwise_cons.mp (List.pairwise_append.mp order).2.1).1 group' behind first
    firstOf live member
  have begins := (escape_prefix_iff _ _).mpr (under.text_prefix firstIn)
  rw [named, isItem] at begins
  exact decide_eq_true ((le_of_begins begins).trans below.le)

include noNul

theorem listObjectsPage_scan : PagedScan listPaging (entriesOf query bucket places)
    (rows.listObjectsPage bucket query) where
  first := by
    intro max
    have under := held.under query bucket
    have shown : ((livesOf bucket places).filter fun live => reached none live.1).filter
        (query.shows none) = listed query bucket places := by
      rw [List.filter_filter, listed]
      apply List.filter_congr
      intro live _
      simp only [Query.shows, atMarker, reached, Bool.not_false, Bool.and_true]
    have grouped := under.grouped
    rw [← shown] at grouped
    rw [held.listObjectsPage_eq noNul, held.listObjectsPageVersioned_eq noNul, page_groups max grouped (shown ▸ under.texts_nodup), shown]
    rfl
  next := by
    intro before item rest max split smaller
    have under := held.under query bucket
    have shown : ((livesOf bucket places).filter fun live => reached (some item.text) live.1).filter
        (query.shows (some item.text)) =
          (listed query bucket places).filter fun live => item.text < (query.listEntry live).text := by
      rw [List.filter_filter, listed, List.filter_filter]
      apply List.filter_congr
      intro live inside
      rw [Bool.eq_iff_iff, Bool.and_eq_true, Bool.and_eq_true, Query.shows, Bool.and_eq_true,
        Bool.not_eq_true', atMarker, decide_eq_false_iff_not, not_le, decide_eq_true_iff]
      constructor
      · rintro ⟨⟨here, above⟩, _⟩
        exact ⟨above, here⟩
      · rintro ⟨above, here⟩
        exact ⟨⟨here, above⟩, held.reached_of_text_lt query split smaller
          (List.mem_filter.mpr ⟨inside, here⟩) above⟩
    have grouped := under.grouped.filter fun entry => item.text < entry.text
    rw [← shown] at grouped
    have page := page_groups max grouped (under.texts_nodup.sublist (List.filter_sublist.map _))
    rw [listPaging_name, held.listObjectsPage_eq noNul, held.listObjectsPageVersioned_eq noNul, page]
    have entries : ((groupsOf query.listEntry (listed query bucket places)).filter fun group =>
        item.text < group.1.text).map Prod.fst = rest.filter fun entry => item.text < entry.text := by
      have none : before.filter (fun entry => item.text < entry.text) = [] := by
        rw [List.filter_eq_nil_iff]
        intro entry inside above
        exact lt_asymm (smaller entry inside) (of_decide_eq_true above)
      have mapped : (entriesOf query bucket places).filter (fun entry => item.text < entry.text) =
          _ := List.filter_map
      rw [split, List.filter_append, none, List.filter_cons_of_neg (by simp)] at mapped
      exact mapped.symm
    rw [entries]
    congr 2
    apply List.filter_congr
    intro entry _
    exact decide_eq_decide.mpr Iff.rfl

omit noNul in
theorem shownUnder (bucket : String) (query : Query) (after : Option Bytes) :
    Under query (shownLives query bucket places after) where
  sorted := ((held.livesOf_sorted bucket).filter _).filter _
  under := by
    intro live inside
    have shown := (List.mem_filter.mp inside).2
    rw [Query.shows, Bool.and_eq_true] at shown
    exact underPrefix_iff.mp shown.1

theorem listObjectsPage_pageOf (after : Option Bytes) (max : Nat) :
    rows.listObjectsPage bucket query after max =
      .ok (listPaging.pageOf max
        ((groupsOf query.listEntry (shownLives query bucket places after)).map Prod.fst)) := by
  have under := held.shownUnder bucket query after
  rw [held.listObjectsPage_eq noNul, held.listObjectsPageVersioned_eq noNul, page_groups max under.grouped under.texts_nodup]

theorem listObjectsPage_forwards :
    PagedScan.Forwards listPaging (entriesOf query bucket places)
      (rows.listObjectsPage bucket query) ListPage.Shows where
  render := fun chunk flag x => listPaging_shows chunk flag x
  cuts := by
    intro after max
    have under := held.shownUnder bucket query after
    refine ⟨_, held.listObjectsPage_pageOf noNul query after max, ?_, ?_⟩
    · intro entry member
      obtain ⟨live, inside, rfl⟩ := under.grouped.mem_key.mp member
      obtain ⟨stored, shown⟩ := List.mem_filter.mp inside
      rw [Query.shows, Bool.and_eq_true] at shown
      exact (held.mem_entriesOf query).mpr
        ⟨live, List.mem_filter.mpr ⟨(List.mem_filter.mp stored).1, shown.1⟩, rfl⟩
    · rintro item _ rfl entry member
      obtain ⟨live, inside, rfl⟩ := under.grouped.mem_key.mp member
      have behind := (List.mem_filter.mp inside).2
      rw [Query.shows, Bool.and_eq_true, Bool.not_eq_true', listPaging_name, atMarker,
        decide_eq_false_iff_not, not_le] at behind
      exact behind.2

end Places

namespace ObjectRows

variable (rows : ObjectRows) (bucket : String) (query : Query)

def Live (live : String × ObjectMeta) : Prop :=
  ∃ vk, rows.getCurrentVersion bucket live.1 = .ok (some (vk, live.2)) ∧
    live.2.isDeleteMarker = false

def Lists (entry : ListEntry ObjectMeta) : Prop :=
  ∃ live, rows.Live bucket live ∧ query.keyPrefix <+: utf8 live.1 ∧ query.listEntry live = entry

/-- The pages show every entry once, in the order of the texts, and only the last one says
that nothing follows. -/
structure Enumerates (pages : List ListPage) : Prop where
  complete : ∀ entry, (∃ page ∈ pages, page.Shows entry) ↔ rows.Lists bucket query entry
  within : ∀ page ∈ pages, (page.items.map fun item => utf8 item.1).Pairwise (· < ·) ∧
    page.commonPrefixes.Pairwise (· < ·)
  across : pages.Pairwise fun page page' =>
    ∀ entry entry', page.Shows entry → page'.Shows entry' → entry.text < entry'.text
  ends : ∃ init last, pages = init ++ [last] ∧ (∀ page ∈ init, page.truncated = true) ∧
    last.truncated = false

variable {rows bucket query}

theorem mem_entriesOf_iff {places : List Placed} (held : Places rows places)
    (noNul : 0 ∉ utf8 bucket) (entry : ListEntry ObjectMeta) :
    entry ∈ entriesOf query bucket places ↔ rows.Lists bucket query entry := by
  rw [held.mem_entriesOf query, Lists]
  constructor
  · rintro ⟨live, inside, rfl⟩
    obtain ⟨stored, under⟩ := List.mem_filter.mp inside
    exact ⟨live, (held.mem_livesOf noNul).mp stored, underPrefix_iff.mp under, rfl⟩
  · rintro ⟨live, current, under, rfl⟩
    exact ⟨live, List.mem_filter.mpr ⟨(held.mem_livesOf noNul).mpr current,
      underPrefix_iff.mpr under⟩, rfl⟩

theorem entriesOf_ordered_iff {places : List Placed} (held : Places rows places)
    (noNul : 0 ∉ utf8 bucket) : listPaging.Ordered (entriesOf query bucket places) ↔
      ∀ entry entry', rows.Lists bucket query entry → rows.Lists bucket query entry' →
        ¬ SplitsAtNul entry.text entry'.text := by
  have groups := (held.under query bucket).ordered_iff
  rw [Paging.Ordered, entriesOf, List.pairwise_map]
  constructor
  · intro ordered entry entry' first second
    obtain ⟨live, inside, rfl⟩ := (held.mem_entriesOf query).mp ((mem_entriesOf_iff held noNul _).mpr first)
    obtain ⟨live', inside', rfl⟩ :=
      (held.mem_entriesOf query).mp ((mem_entriesOf_iff held noNul _).mpr second)
    exact groups.mp ordered live inside live' inside'
  · intro whole
    apply groups.mpr
    intro live inside live' inside'
    exact whole _ _ ((mem_entriesOf_iff held noNul _).mp ((held.mem_entriesOf query).mpr ⟨live, inside, rfl⟩))
      ((mem_entriesOf_iff held noNul _).mp ((held.mem_entriesOf query).mpr ⟨live', inside', rfl⟩))

theorem render_sorted {chunk : List (ListEntry ObjectMeta)} (ordered : listPaging.Ordered chunk)
    (flag : Bool) :
    ((listPaging.render chunk flag).items.map fun item => utf8 item.1).Pairwise (· < ·) ∧
      (listPaging.render chunk flag).commonPrefixes.Pairwise (· < ·) := by
  constructor
  · rw [List.pairwise_map]
    show (chunk.filterMap ListEntry.object?).Pairwise _
    rw [List.pairwise_filterMap]
    apply ordered.imp
    intro entry entry' less item found item' found'
    cases entry with
    | commonPrefix text => cases found
    | object key value =>
      cases entry' with
      | commonPrefix text => cases found'
      | object key' value' =>
        cases found
        cases found'
        exact less
  · show (chunk.filterMap ListEntry.commonPrefix?).Pairwise _
    rw [List.pairwise_filterMap]
    apply ordered.imp
    intro entry entry' less item found item' found'
    cases entry with
    | object key value => cases found
    | commonPrefix text =>
      cases entry' with
      | object key value => cases found'
      | commonPrefix text' =>
        cases found
        cases found'
        exact less

/-- Following the continuation positions is complete for all sizes of pages if and only if
no two entries split at a NUL byte. -/
theorem listObjectsPage_complete_iff (rows : ObjectRows) {bucket : String}
    (noNul : 0 ∉ utf8 bucket) (query : Query) :
    (∀ sizes : Nat → Nat, (∀ i, 0 < sizes i) → ∃ fuel pages,
      follow (rows.listObjectsPage bucket query) ListPage.truncated ListPage.lastScanned fuel sizes
        none = .ok (some pages) ∧ rows.Enumerates bucket query pages) ↔
      ∀ entry entry', rows.Lists bucket query entry → rows.Lists bucket query entry' →
        ¬ SplitsAtNul entry.text entry'.text := by
  obtain ⟨places, held⟩ := rows.exists_places
  have scan := held.listObjectsPage_scan noNul query
  rw [← entriesOf_ordered_iff held noNul]
  constructor
  · intro claimed
    -- pages of one entry show the order of the scan
    obtain ⟨fuel, pages, run, enumerated⟩ := claimed (fun _ => 1) (fun _ => Nat.one_pos)
    apply PagedScan.sorted_of_follow (held.listObjectsPage_forwards noNul query) scan _
      (fun _ => listPaging_sound Nat.one_pos) run
    · intro entry inside
      exact (enumerated.complete entry).mpr ((mem_entriesOf_iff held noNul entry).mp inside)
    · intro _ rest _
      cases rest with
      | nil => exact List.Pairwise.nil
      | cons entry rest => exact List.pairwise_singleton _ _
    · rw [entriesOf, List.map_map]
      exact (held.under query bucket).texts_nodup
  · intro ordered sizes positive
    obtain ⟨fuel, chunks, last, run, covers⟩ := scan.follow_sorted ordered
      fun i => listPaging_sound (positive i)
    refine ⟨fuel, listPaging.pages chunks last, run, ?_⟩
    rw [← covers] at ordered
    refine ⟨?_, ?_, Paging.pages_pairwise listPaging_shows ordered, ?_⟩
    · intro entry
      rw [Paging.shown_iff listPaging_shows, covers, mem_entriesOf_iff held noNul]
    · intro page inside
      obtain ⟨chunk, flag, rfl, part⟩ := Paging.mem_pages inside
      exact render_sorted (ordered.sublist part) flag
    · refine ⟨chunks.map (listPaging.render · true), listPaging.render last false, rfl, ?_, rfl⟩
      intro page inside
      obtain ⟨chunk, _, rfl⟩ := List.mem_map.mp inside
      rfl

theorem listObjectsPage_complete_plain : ∃ fuel pages,
    follow (plainKeys.listObjectsPage "photos" ⟨[], none⟩) ListPage.truncated ListPage.lastScanned
      fuel (fun _ => 1) none = .ok (some pages) ∧
      plainKeys.Enumerates "photos" ⟨[], none⟩ pages := by
  have noNul : 0 ∉ utf8 "photos" := by decide +kernel
  refine (listObjectsPage_complete_iff plainKeys noNul ⟨[], none⟩).mpr ?_ (fun _ => 1)
    fun _ => Nat.one_pos
  intro entry entry' lists _ splits
  have held : Places plainKeys [photoKey "a", photoKey "b"] := ⟨rfl, by decide +kernel⟩
  have entries : entriesOf ⟨[], none⟩ "photos" [photoKey "a", photoKey "b"] =
      [.object "a" emptyObject, .object "b" emptyObject] := by decide +kernel
  have member := (mem_entriesOf_iff held noNul entry).mpr lists
  have free : 0 ∉ utf8 "a" ∧ 0 ∉ utf8 "b" := by decide +kernel
  rw [entries] at member
  rcases List.mem_pair.mp member with rfl | rfl
  · exact free.1 splits.nul_mem
  · exact free.2 splits.nul_mem

theorem listObjectsPage_skips : ¬ ∀ (rows : ObjectRows) (bucket : String) (query : Query)
    (sizes : Nat → Nat), validBucketName bucket = true → (∀ i, 0 < sizes i) → ∃ fuel pages,
      follow (rows.listObjectsPage bucket query) ListPage.truncated ListPage.lastScanned fuel sizes
        none = .ok (some pages) ∧ rows.Enumerates bucket query pages := by
  intro claimed
  obtain ⟨fuel, pages, run, enumerated⟩ := claimed nulKeys "photos" ⟨[], none⟩ (fun _ => 1)
    (by decide +kernel) (fun _ => Nat.one_pos)
  have shown : follow (nulKeys.listObjectsPage "photos" ⟨[], none⟩) ListPage.truncated
      ListPage.lastScanned 2 (fun _ => 1) none =
        .ok (some [⟨[("ab", emptyObject)], [], true, some (utf8 "ab")⟩, ⟨[], [], false, none⟩]) := by
    decide +kernel
  have current : nulKeys.getCurrentVersion "photos" "a\x00" = .ok (some (vkNull, emptyObject)) := by
    decide +kernel
  have lists : nulKeys.Lists "photos" ⟨[], none⟩ (.object "a\x00" emptyObject) :=
    ⟨("a\x00", emptyObject), ⟨vkNull, current, rfl⟩, List.nil_prefix, rfl⟩
  obtain ⟨page, listed', inside⟩ := (enumerated.complete _).mpr lists
  rw [follow_unique run shown] at listed'
  rcases List.mem_pair.mp listed' with rfl | rfl
  · have other := congrArg Prod.fst (List.mem_singleton.mp inside)
    exact absurd other (by decide)
  · cases inside

end ObjectRows

end FastS3.Meta
