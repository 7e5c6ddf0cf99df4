import FastS3.Meta.ObjectPages
import FastS3.Meta.VersionPages

namespace FastS3.Meta

open FastS3.Core Data

/-! The read paths agree on the current version of a key. -/

theorem plainLoop_eq (keyPrefix : Bytes) {group : List Placed}
    (plain : ∀ placed ∈ group, placed.1.vk = none) (out : List (String × ObjectMeta)) :
    plainLoop keyPrefix (group.map Placed.row) out =
      .ok (out ++ (group.map fun placed => (placed.key, placed.2)).filter fun live =>
        underPrefix keyPrefix live.1) := by
  induction group generalizing out with
  | nil => simp [plainLoop]
  | cons placed group ih =>
    obtain ⟨here, later⟩ := List.forall_mem_cons.mp plain
    rw [List.map_cons, Placed.row, plainLoop, parseObjectKey_raw, here]
    simp only [Option.isSome_none, Bool.false_eq_true, if_false, bind, Except.bind, List.map_cons,
      List.filter_cons]
    rw [ih later]
    have named : placed.key = placed.1.key := rfl
    rw [named]
    cases underPrefix keyPrefix placed.1.key with
    | true => simp
    | false => simp

theorem runUntil_collect (keyPrefix : Bytes) {lives : List (String × ObjectMeta)}
    (kept : ∀ live ∈ lives, live.2.isDeleteMarker = false) (out : List (String × ObjectMeta)) :
    runUntil (fun live out => (true,
      if !live.2.isDeleteMarker && underPrefix keyPrefix live.1 then out ++ [(live.1, live.2)]
      else out)) lives out = (true, out ++ lives.filter fun live => underPrefix keyPrefix live.1) := by
  induction lives generalizing out with
  | nil => simp [runUntil]
  | cons live lives ih =>
    obtain ⟨here, later⟩ := List.forall_mem_cons.mp kept
    rw [runUntil]
    simp only [if_true, here, Bool.not_false, Bool.true_and, ih later, List.filter_cons]
    cases underPrefix keyPrefix live.1 with
    | true => simp
    | false => simp

theorem Places.listObjects_eq {rows : ObjectRows} {places : List Placed} (held : Places rows places)
    {bucket : String} (noNul : 0 ∉ utf8 bucket) (keyPrefix : Bytes) :
    rows.listObjects bucket keyPrefix = .ok ((livesOf bucket places).filter fun live =>
      underPrefix keyPrefix live.1) := by
  have all : ((livesOf bucket places).filter fun live => reached none live.1) =
      livesOf bucket places := List.filter_eq_self.mpr fun _ _ => rfl
  unfold ObjectRows.listObjects
  split
  · next off =>
      have plain : ∀ placed ∈ (inBucket bucket places).filter (fun placed => reached none placed.key),
          placed.1.vk = none := by
        intro placed inside
        obtain ⟨stored, here⟩ := List.mem_filter.mp (List.mem_filter.mp inside).1
        have bucketOf := of_decide_eq_true here
        exact (rows.plain placed.1 placed.2 (bucketOf ▸ off) (held.mem_iff.mp stored)).1
      have every : ((inBucket bucket places).filter fun placed => reached none placed.key) =
          inBucket bucket places := List.filter_eq_self.mpr fun _ _ => rfl
      rw [ObjectRows.listObjectsPlain, held.scanFrom_eq noNul, plainLoop_eq keyPrefix plain, every,
        held.livesOf_plain off, List.nil_append]
  · have hides : ∀ (key : String) (m : ObjectMeta) (out : List (String × ObjectMeta)),
        m.isDeleteMarker = true → (true, if !m.isDeleteMarker && underPrefix keyPrefix key then
          out ++ [(key, m)] else out) = (true, out) := by
      intro key m out marker
      rw [marker]
      rfl
    have kept : ∀ live ∈ livesOf bucket places, live.2.isDeleteMarker = false := by
      intro live inside
      obtain ⟨_, _, kept⟩ := (held.mem_livesOf noNul).mp inside
      exact kept
    simp only
    rw [held.scanGroups_lives noNul hides, all, runUntil_collect keyPrefix kept]
    rfl

def MarkerBefore (after : Option Bytes) (key : String) : Prop :=
  ∀ marker ∈ after, marker < utf8 key ∧ escape marker ≤ escape (utf8 key)

theorem MarkerBefore.reached {after : Option Bytes} {key : String}
    (before : MarkerBefore after key) : reached after key = true := by
  unfold Meta.reached
  cases after with
  | none => rfl
  | some marker => exact decide_eq_true (before marker rfl).2

def ListPage.Reaches (page : ListPage) (key : String) : Prop :=
  page.truncated = false ∨ ∃ last ∈ page.lastScanned, escape (utf8 key) ≤ escape last

def VersionListPage.Passes (page : VersionListPage) (key : String) : Prop :=
  page.truncated = false ∨ ∃ last ∈ page.lastScanned, escape (utf8 key) < escape last.1

theorem mem_page_of_reaches {query : Query} {lives : List (String × ObjectMeta)}
    (under : Under query lives) {max : Nat} {live : String × ObjectMeta} (inside : live ∈ lives)
    (reaches : (listPaging.pageOf max
      ((groupsOf query.listEntry lives).map Prod.fst)).Reaches live.1) :
    query.listEntry live ∈ ((groupsOf query.listEntry lives).map Prod.fst).take max := by
  obtain ⟨group, groupIn, member⟩ := under.grouped.mem_row.mp inside
  have named := under.grouped.keyed group groupIn live member
  rcases reaches with whole | ⟨last, final, atMost⟩
  · have fits : ((groupsOf query.listEntry lives).map Prod.fst).length ≤ max :=
      not_lt.mp (of_decide_eq_false whole)
    rw [List.take_of_length_le fits, named]
    exact List.mem_map_of_mem groupIn
  · obtain ⟨entry, isLast, rfl⟩ := Option.map_eq_some_iff.mp final
    have shown := List.mem_of_getLast? isLast
    rw [← List.map_take] at shown ⊢
    obtain ⟨group', groupIn', rfl⟩ := List.mem_map.mp shown
    have cut := (List.take_append_drop max (groupsOf query.listEntry lives)).symm
    rw [cut] at groupIn
    rcases List.mem_append.mp groupIn with early | late
    · rw [named]
      exact List.mem_map_of_mem early
    · have order := under.text_lt
      rw [cut] at order
      have below := (List.pairwise_append.mp order).2.2 group' groupIn' group late live member
      exact absurd below (not_lt.mpr atMost)

theorem mem_page_of_passes {query : Query} {keys : List Keyed} (under : Under query keys)
    {keyMarker : Option Bytes} {versionIdMarker : Option Vk} {max : Nat} {keyed : Keyed}
    (inside : keyed ∈ keys) {item : VersionItem}
    (itemIn : item ∈ itemsBehind keyMarker versionIdMarker (query.listEntry keyed))
    (passes : (versionPaging.pageOf max ((groupsOf query.listEntry keys).flatMap fun group =>
      itemsBehind keyMarker versionIdMarker group.1)).Passes keyed.1) :
    item ∈ ((groupsOf query.listEntry keys).flatMap fun group =>
      itemsBehind keyMarker versionIdMarker group.1).take max := by
  obtain ⟨group, groupIn, member⟩ := under.grouped.mem_row.mp inside
  have named := under.grouped.keyed group groupIn keyed member
  have stored : item ∈ (groupsOf query.listEntry keys).flatMap fun group =>
      itemsBehind keyMarker versionIdMarker group.1 :=
    List.mem_flatMap.mpr ⟨group, groupIn, named ▸ itemIn⟩
  have begins := le_of_begins ((escape_prefix_iff _ _).mpr (under.text_prefix inside))
  rw [named] at itemIn begins
  rcases passes with whole | ⟨last, final, before⟩
  · rw [List.take_of_length_le (not_lt.mp (of_decide_eq_false whole))]
    exact stored
  · obtain ⟨other, isLast, rfl⟩ := Option.map_eq_some_iff.mp final
    -- what is shown last is of an entry before the key or of its own
    have order : ((groupsOf query.listEntry keys).flatMap fun group =>
        itemsBehind keyMarker versionIdMarker group.1).Pairwise fun left right =>
          right.text = group.1.text → escape left.text ≤ escape (utf8 keyed.1) := by
      rw [List.pairwise_flatMap]
      constructor
      · intro group' groupIn'
        apply List.pairwise_of_forall_mem_list
        intro left leftIn right rightIn same
        rw [itemsBehind_text leftIn, ← itemsBehind_text rightIn, same]
        exact begins
      · apply under.text_lt.imp_of_mem
        intro first second _ secondIn below left leftIn right rightIn same
        rw [itemsBehind_text rightIn] at same
        obtain rfl := List.inj_on_of_nodup_map under.texts_nodup secondIn groupIn same
        rw [itemsBehind_text leftIn]
        exact (below keyed member).le
    have cut := (List.take_append_drop max ((groupsOf query.listEntry keys).flatMap fun group =>
      itemsBehind keyMarker versionIdMarker group.1)).symm
    rw [cut] at stored order
    rcases List.mem_append.mp stored with early | late
    · exact early
    · have atMost := (List.pairwise_append.mp order).2.2 other (List.mem_of_getLast? isLast) item late
        (itemsBehind_text itemIn)
      have text : other.marker.1 = other.text := by
        cases other with
        | version entry => rfl
        | commonPrefix text => rfl
      rw [text] at before
      exact absurd before (not_lt.mpr atMost)

def Visible (current : Option (Vk × ObjectMeta)) (m : ObjectMeta) : Prop :=
  ∃ vk, current = some (vk, m) ∧ m.isDeleteMarker = false

namespace Places

variable {rows : ObjectRows} {places : List Placed} (held : Places rows places) {bucket : String}
  (noNul : 0 ∉ utf8 bucket) (key : String)

include held noNul

theorem mem_lives_iff (m : ObjectMeta) : (key, m) ∈ livesOf bucket places ↔
    Visible (slotsOf (ofKey bucket key places)).current m := by
  rw [held.mem_livesOf noNul, Visible, held.getCurrentVersion_eq noNul]
  simp only [Except.ok.injEq]

theorem page_current (query : Query) (after : Option Bytes) (max : Nat) :
    ∃ page, rows.listObjectsPageVersioned bucket query after max = .ok page ∧
      (∀ m, (key, m) ∈ page.items → Visible (slotsOf (ofKey bucket key places)).current m) ∧
      ∀ m, query.keyPrefix <+: utf8 key → (query.entryOf (utf8 key)).2 = false →
        MarkerBefore after key → page.Reaches key →
          Visible (slotsOf (ofKey bucket key places)).current m → (key, m) ∈ page.items := by
  have under := held.shownUnder bucket query after
  have page := held.listObjectsPage_pageOf noNul query after max
  rw [held.listObjectsPage_eq noNul] at page
  refine ⟨_, page, ?_, ?_⟩
  · intro m inside
    have shown := (listPaging_shows _ _ (.object key m)).mp inside
    obtain ⟨live, liveIn, named⟩ := under.grouped.mem_key.mp (List.mem_of_mem_take shown)
    have same : live = (key, m) := by
      unfold Query.listEntry at named
      split at named
      · cases named
      · cases named
        rfl
    rw [same] at liveIn
    exact (held.mem_lives_iff noNul key m).mp
      (List.mem_filter.mp (List.mem_filter.mp liveIn).1).1
  · intro m begins single before reaches visible
    have named : query.listEntry (key, m) = .object key m := by
      rw [Query.listEntry, single]
      rfl
    have shows : query.shows after (key, m) = true := by
      rw [Query.shows, Bool.and_eq_true, underPrefix_iff, Bool.not_eq_true', named]
      refine ⟨begins, ?_⟩
      unfold atMarker
      cases after with
      | none => rfl
      | some marker => exact decide_eq_false (not_le.mpr (before marker rfl).1)
    have inside : (key, m) ∈ shownLives query bucket places after :=
      List.mem_filter.mpr ⟨List.mem_filter.mpr
        ⟨(held.mem_lives_iff noNul key m).mpr visible, before.reached⟩, shows⟩
    have shown := mem_page_of_reaches under inside reaches
    rw [named] at shown
    exact (listPaging_shows _ _ (.object key m)).mpr shown

theorem page_flags (query : Query) (keyMarker : Option Bytes) (versionIdMarker : Option Vk)
    (max : Nat) (entry : VersionListEntry)
    (inside : entry ∈ (versionPaging.pageOf max ((groupsOf query.listEntry
      (shownKeys query bucket places keyMarker versionIdMarker)).flatMap fun group =>
        itemsBehind keyMarker versionIdMarker group.1)).entries) (named : entry.key = key) :
    entry.isLatest = true ↔
      (slotsOf (ofKey bucket key places)).current = some (entry.vk, entry.value) := by
  subst named
  have under := held.shownKeys_under query bucket keyMarker versionIdMarker
  have shown := (versionPaging_shows _ _ (.version entry)).mp inside
  obtain ⟨group, groupIn, itemIn⟩ := List.mem_flatMap.mp (List.mem_of_mem_take shown)
  obtain ⟨group', groupIn', same⟩ := held.exists_group query under.grouped groupIn
  have stored : VersionItem.version entry ∈ itemsOf query bucket places :=
    List.mem_flatMap.mpr ⟨group', groupIn', same ▸ itemsBehind_subset itemIn⟩
  have flagged := ((ObjectRows.mem_itemsOf_iff held noNul _).mp stored).2.2.2
  rwa [held.getCurrentVersion_eq noNul, Except.ok.injEq] at flagged

omit noNul in
theorem current_item {query : Query} {keyMarker : Option Bytes} (versionIdMarker : Option Vk)
    {version : Vk × ObjectMeta} (single : (query.entryOf (utf8 key)).2 = false)
    (before : MarkerBefore keyMarker key)
    (current : (slotsOf (ofKey bucket key places)).current = some version) :
    VersionItem.version ⟨key, version.1, version.2, true⟩ ∈ itemsBehind keyMarker versionIdMarker
      (query.listEntry (key, sortVersions (ofKey bucket key places))) := by
  have named : query.listEntry (key, sortVersions (ofKey bucket key places)) =
      .object key (sortVersions (ofKey bucket key places)) := by
    rw [Query.listEntry, single]
    rfl
  have whole : behindMarker keyMarker versionIdMarker key
      (sortVersions (ofKey bucket key places)) = sortVersions (ofKey bucket key places) := by
    unfold behindMarker
    cases keyMarker with
    | none => rfl
    | some marker =>
      cases versionIdMarker with
      | none => rfl
      | some vm => exact if_neg (before marker rfl).1.ne
  rw [named, itemsBehind, whole]
  apply List.mem_map.mpr
  refine ⟨version, current_mem current, ?_⟩
  have latest : some version.1 = latestVk (sortVersions (ofKey bucket key places)) := by
    rw [(held.keyRows bucket key).latestVk_eq, current]
    rfl
  rw [versionItem, decide_eq_true latest]

/-- A page of versions flags the current version of a key, and shows it if the page goes
beyond the key. -/
theorem page_latest (query : Query) (keyMarker : Option Bytes) (versionIdMarker : Option Vk)
    (max : Nat) : ∃ page,
      rows.listVersionsPage bucket query keyMarker versionIdMarker max = .ok page ∧
      (∀ entry ∈ page.entries, entry.key = key → (entry.isLatest = true ↔
        (slotsOf (ofKey bucket key places)).current = some (entry.vk, entry.value))) ∧
      ∀ version, query.keyPrefix <+: utf8 key → (query.entryOf (utf8 key)).2 = false →
        MarkerBefore keyMarker key → page.Passes key →
          (slotsOf (ofKey bucket key places)).current = some version →
            ∃! entry, entry ∈ page.entries ∧ entry.key = key ∧ entry.isLatest = true := by
  have under := held.shownKeys_under query bucket keyMarker versionIdMarker
  have page := held.listVersionsPage_groups noNul query keyMarker versionIdMarker max under.grouped
    under.texts_nodup
  have flags := held.page_flags noNul key query keyMarker versionIdMarker max
  refine ⟨_, page, flags, ?_⟩
  intro version begins single before passes current
  have filled : ofKey bucket key places ≠ [] := by
    intro nothing
    rw [nothing] at current
    cases current
  have stored : (key, sortVersions (ofKey bucket key places)) ∈ keyedOf bucket places :=
    held.mem_keyedOf.mpr ⟨rfl, filled⟩
  have shows : query.showsKey keyMarker versionIdMarker
      (key, sortVersions (ofKey bucket key places)) = true := by
    rw [Query.showsKey, Bool.and_eq_true, underPrefix_iff, Bool.not_eq_true']
    refine ⟨begins, ?_⟩
    unfold skipsGroup
    cases keyMarker with
    | none => rfl
    | some marker =>
      have above := (before marker rfl).1
      rw [Bool.or_eq_false_iff, Bool.and_eq_false_iff, Query.entryOf_key single]
      exact ⟨decide_eq_false (lt_asymm above), .inl (decide_eq_false above.ne')⟩
  have inside : (key, sortVersions (ofKey bucket key places)) ∈
      shownKeys query bucket places keyMarker versionIdMarker :=
    List.mem_filter.mpr ⟨List.mem_filter.mpr ⟨stored, before.reached⟩, shows⟩
  have itemIn := held.current_item key versionIdMarker single before current
  have shown := mem_page_of_passes under inside itemIn passes
  refine ⟨⟨key, version.1, version.2, true⟩,
    ⟨(versionPaging_shows _ _ _).mpr shown, rfl, rfl⟩, ?_⟩
  rintro ⟨key', vk, value, flag⟩ ⟨listed, rfl, rfl⟩
  have same := (flags _ listed rfl).mp rfl
  rw [current, Option.some.injEq] at same
  rw [same]

end Places

/-- All read paths agree on the current version of a key. -/
theorem ObjectRows.current_agrees (rows : ObjectRows) {bucket : String} (noNul : 0 ∉ utf8 bucket)
    (key : String) : ∃ current, rows.getCurrentVersion bucket key = .ok current ∧
      (∀ keyPrefix, ∃ out, rows.listObjects bucket keyPrefix = .ok out ∧
        ∀ m, (key, m) ∈ out ↔ keyPrefix <+: utf8 key ∧ Visible current m) ∧
      (∀ query after max, ∃ page, rows.listObjectsPageVersioned bucket query after max = .ok page ∧
        rows.listObjectsPage bucket query after max = .ok page ∧
        (∀ m, (key, m) ∈ page.items → Visible current m) ∧
        ∀ m, query.keyPrefix <+: utf8 key → (query.entryOf (utf8 key)).2 = false →
          MarkerBefore after key → page.Reaches key → Visible current m → (key, m) ∈ page.items) ∧
      ∀ query keyMarker versionIdMarker max, ∃ page,
        rows.listVersionsPage bucket query keyMarker versionIdMarker max = .ok page ∧
        (∀ entry ∈ page.entries, entry.key = key →
          (entry.isLatest = true ↔ current = some (entry.vk, entry.value))) ∧
        ∀ version, query.keyPrefix <+: utf8 key → (query.entryOf (utf8 key)).2 = false →
          MarkerBefore keyMarker key → page.Passes key → current = some version →
            ∃! entry, entry ∈ page.entries ∧ entry.key = key ∧ entry.isLatest = true := by
  obtain ⟨places, held⟩ := rows.exists_places
  refine ⟨_, held.getCurrentVersion_eq noNul key, ?_, ?_, held.page_latest noNul key⟩
  · intro keyPrefix
    refine ⟨_, held.listObjects_eq noNul keyPrefix, ?_⟩
    intro m
    rw [List.mem_filter, held.mem_lives_iff noNul, underPrefix_iff, and_comm]
  · intro query after max
    obtain ⟨page, read, shows, complete⟩ := held.page_current noNul key query after max
    exact ⟨page, read, (held.listObjectsPage_eq noNul query after max).trans read, shows, complete⟩

def overwritingVk : Vk := List.replicate 16 0x7F

def overwriting : Placed :=
  (⟨"photos", "a", some overwritingVk, validBucketName_noNul photos_valid, by rintro _ ⟨⟩; rfl⟩,
    { ObjectRows.emptyObject with mtime := 1 })

/-- A bucket whose key was stored before it kept versions, and overwritten then. -/
def ObjectRows.versionedKey : ObjectRows :=
  .ofPlaces [photoKey "a", overwriting] (fun _ => .enabled)
    (List.pairwise_pair.mpr (by decide +kernel))
    (by
      intro placed here other there _ _ _ null
      rcases List.mem_pair.mp there with rfl | rfl
      · cases null
      · exact absurd null (by decide))
    (fun _ _ off => nomatch off)

/-- The version of an overwritten key, as the read paths show it. -/
theorem current_agrees_overwritten :
    let newest := some (overwritingVk, overwriting.2)
    ObjectRows.versionedKey.getCurrentVersion "photos" "a" = .ok newest ∧
      ∀ keyPrefix, ∃ out, ObjectRows.versionedKey.listObjects "photos" keyPrefix = .ok out ∧
        ∀ m, ("a", m) ∈ out ↔ keyPrefix <+: utf8 "a" ∧ Visible newest m := by
  intro newest
  obtain ⟨current, read, listed, _⟩ :=
    ObjectRows.current_agrees .versionedKey (validBucketName_noNul photos_valid) "a"
  have found : ObjectRows.versionedKey.getCurrentVersion "photos" "a" = .ok newest := by
    decide +kernel
  cases read.symm.trans found
  exact ⟨found, listed⟩

end FastS3.Meta
