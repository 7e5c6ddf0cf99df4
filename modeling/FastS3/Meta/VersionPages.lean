import FastS3.Meta.Entries
import FastS3.Meta.Versions

namespace FastS3.Meta

open FastS3.Core Data

/-! The pages of a listing of versions.

The keys of a bucket are listed in the order of their escaped texts, each with its versions,
and a marker names a version of a key or a common prefix.
-/

inductive VersionItem where
  | version (entry : VersionListEntry)
  | commonPrefix (text : Bytes)
deriving DecidableEq

namespace VersionItem

def version? : VersionItem → Option VersionListEntry
  | version entry => some entry
  | commonPrefix _ => none

def commonPrefix? : VersionItem → Option Bytes
  | version _ => none
  | commonPrefix text => some text

def text : VersionItem → Bytes
  | version entry => utf8 entry.key
  | commonPrefix text => text

def marker : VersionItem → Bytes × Option Vk
  | version entry => (utf8 entry.key, some entry.vk)
  | commonPrefix text => (text, none)

def place : VersionItem → Int ×ₗ (Bool ×ₗ Bytesᵒᵈ)
  | version entry => versionRank (entry.vk, entry.value)
  | commonPrefix _ => toLex (0, toLex (false, OrderDual.toDual []))

def rank (item : VersionItem) : Bytes ×ₗ (Int ×ₗ (Bool ×ₗ Bytesᵒᵈ)) :=
  toLex (item.text, item.place)

theorem rank_lt_iff (left right : VersionItem) : left.rank < right.rank ↔
    left.text < right.text ∨ left.text = right.text ∧ left.place < right.place :=
  Prod.Lex.toLex_lt_toLex

end VersionItem

def versionPaging : Paging VersionItem (Bytes ×ₗ (Int ×ₗ (Bool ×ₗ Bytesᵒᵈ))) (Bytes × Option Vk)
    Nat VersionListPage where
  rank := VersionItem.rank
  cut := fun max _ => max
  full := fun max left => max < left.length
  render := fun chunk flag => ⟨chunk.filterMap VersionItem.version?,
    chunk.filterMap VersionItem.commonPrefix?, flag, chunk.getLast?.map VersionItem.marker⟩
  name := VersionItem.marker
  more := VersionListPage.truncated
  marker := VersionListPage.lastScanned
  more_render := fun _ _ => rfl
  marker_render := fun _ => rfl

theorem versionPaging_sound {max : Nat} (positive : 0 < max) : versionPaging.Sound max where
  takes := fun _ _ => positive
  overflows := fun _ excess => decide_eq_true excess
  ends := decide_eq_false (Nat.not_lt_zero max)

def VersionListPage.Shows (page : VersionListPage) : VersionItem → Prop
  | .version entry => entry ∈ page.entries
  | .commonPrefix text => text ∈ page.commonPrefixes

theorem versionPaging_shows (chunk : List VersionItem) (flag : Bool) (item : VersionItem) :
    (versionPaging.render chunk flag).Shows item ↔ item ∈ chunk := by
  cases item with
  | version entry =>
    show entry ∈ chunk.filterMap VersionItem.version? ↔ _
    rw [List.mem_filterMap]
    constructor
    · rintro ⟨item, inside, found⟩
      cases item with
      | commonPrefix text => cases found
      | version entry =>
        cases found
        exact inside
    · exact fun inside => ⟨_, inside, rfl⟩
  | commonPrefix text =>
    show text ∈ chunk.filterMap VersionItem.commonPrefix? ↔ _
    rw [List.mem_filterMap]
    constructor
    · rintro ⟨item, inside, found⟩
      cases item with
      | version entry => cases found
      | commonPrefix text =>
        cases found
        exact inside
    · exact fun inside => ⟨_, inside, rfl⟩

abbrev Keyed := String × List (Vk × ObjectMeta)

def versionItem (key : String) (latest : Option Vk) (version : Vk × ObjectMeta) : VersionItem :=
  .version ⟨key, version.1, version.2, some version.1 = latest⟩

def itemsBehind (keyMarker : Option Bytes) (versionIdMarker : Option Vk) :
    ListEntry (List (Vk × ObjectMeta)) → List VersionItem
  | .object key versions =>
    (behindMarker keyMarker versionIdMarker key versions).map (versionItem key (latestVk versions))
  | .commonPrefix text => [.commonPrefix text]

def versionState (shown : List VersionItem) : VersionState :=
  ⟨shown.filterMap VersionItem.version?, shown.filterMap VersionItem.commonPrefix?, shown.length,
    shown.getLast?.map VersionItem.marker⟩

def Query.showsKey (query : Query) (keyMarker : Option Bytes) (versionIdMarker : Option Vk)
    (keyed : Keyed) : Bool :=
  underPrefix query.keyPrefix keyed.1 &&
    !skipsGroup keyMarker versionIdMarker (query.entryOf (utf8 keyed.1))

theorem emitVersions_eq (max : Nat) (key : String) (latest : Option Vk)
    (versions : List (Vk × ObjectMeta)) (shown : List VersionItem) :
    emitVersions max key latest versions (versionState shown) =
      (decide (versions.length ≤ max - shown.length),
        versionState (shown ++ (versions.map (versionItem key latest)).take (max - shown.length))) := by
  induction versions generalizing shown with
  | nil => simp [emitVersions]
  | cons version versions ih =>
    have pushed : (⟨(versionState shown).entries ++
          [⟨key, version.1, version.2, some version.1 = latest⟩],
          (versionState shown).commonPrefixes, (versionState shown).emitted + 1,
          some (utf8 key, some version.1)⟩ : VersionState) =
        versionState (shown ++ [versionItem key latest version]) := by
      simp [versionState, versionItem, VersionItem.version?, VersionItem.commonPrefix?,
        VersionItem.marker]
    rw [emitVersions, pushed]
    split
    · next filled =>
        have filled' : max ≤ shown.length := filled
        rw [Nat.sub_eq_zero_of_le filled']
        simp
    · next room =>
        have room' : ¬ max ≤ shown.length := room
        have left : max - shown.length =
            max - (shown ++ [versionItem key latest version]).length + 1 := by
          rw [List.length_append, List.length_singleton]
          omega
        rw [ih, left, List.map_cons, List.take_succ_cons, List.append_assoc,
          List.singleton_append, List.length_cons]
        simp only [Nat.add_le_add_iff_right]

section Flush

variable (query : Query) (keyMarker : Option Bytes) (versionIdMarker : Option Vk) (max : Nat)

/-- `flush`, when the versions are already in their order. -/
def flushSorted (keyed : Keyed) (st : VersionState) : Bool × VersionState :=
  let entry := query.entryOf (utf8 keyed.1)
  if !query.showsKey keyMarker versionIdMarker keyed then (true, st)
  else if entry.2 then
    if st.commonPrefixes.getLast? = some entry.1 then (true, st)
    else if st.emitted ≥ max then (false, st)
    else (true, ⟨st.entries, st.commonPrefixes ++ [entry.1], st.emitted + 1, some (entry.1, none)⟩)
  else
    emitVersions max keyed.1 (latestVk keyed.2)
      (behindMarker keyMarker versionIdMarker keyed.1 keyed.2) st

theorem flushGroup_eq (key : String) (group : List Placed) (st : VersionState) :
    flushGroup query keyMarker versionIdMarker max key (gathered gatherVersion [] group) st =
      flushSorted query keyMarker versionIdMarker max (key, sortVersions group) st := by
  unfold flushGroup flushSorted Query.showsKey
  rw [gathered_versions]
  simp only
  cases underPrefix query.keyPrefix key with
  | false => rfl
  | true =>
    cases skipsGroup keyMarker versionIdMarker (query.entryOf (utf8 key)) with
    | true => rfl
    | false =>
      cases rolls : (query.entryOf (utf8 key)).2 with
      | true => rfl
      | false =>
        have own := Query.entryOf_key rolls
        simp only [own, ne_eq, not_true_eq_false, decide_false, Bool.or_self,
          Bool.false_eq_true, if_false, Bool.not_true, Bool.not_false, Bool.and_self]
        rfl

variable {query keyMarker versionIdMarker}

theorem flushSorted_skip {keyed : Keyed}
    (hidden : query.showsKey keyMarker versionIdMarker keyed = false) (st : VersionState) :
    flushSorted query keyMarker versionIdMarker max keyed st = (true, st) := by
  unfold flushSorted
  rw [hidden]
  rfl

theorem listEntry_object {keyed : Keyed} {key : String} {versions : List (Vk × ObjectMeta)}
    (entry : query.listEntry keyed = .object key versions) :
    (query.entryOf (utf8 keyed.1)).2 = false := by
  unfold Query.listEntry at entry
  split at entry
  · cases entry
  · next single => exact Bool.eq_false_iff.mpr single

theorem listEntry_commonPrefix {keyed : Keyed} {text : Bytes}
    (entry : query.listEntry keyed = .commonPrefix text) :
    query.entryOf (utf8 keyed.1) = (text, true) := by
  have texts := Query.listEntry_text query keyed
  unfold Query.listEntry at entry
  split at entry
  · next rolls =>
      cases entry
      exact Prod.ext rfl rolls
  · cases entry

theorem runUntil_group {entry : ListEntry (List (Vk × ObjectMeta))} {members : List Keyed}
    (filled : members ≠ []) (keyed : ∀ member ∈ members, query.listEntry member = entry)
    (shown : ∀ member ∈ members, query.showsKey keyMarker versionIdMarker member = true)
    (single : ∀ key versions, entry = .object key versions → members = [(key, versions)])
    {done : List VersionItem}
    (last : (done.filterMap VersionItem.commonPrefix?).getLast? ≠ some entry.text)
    (rest : List Keyed) :
    runUntil (flushSorted query keyMarker versionIdMarker max) (members ++ rest)
        (versionState done) =
      if (itemsBehind keyMarker versionIdMarker entry).length ≤ max - done.length then
        runUntil (flushSorted query keyMarker versionIdMarker max) rest
          (versionState (done ++ itemsBehind keyMarker versionIdMarker entry))
      else (false, versionState (done ++
        (itemsBehind keyMarker versionIdMarker entry).take (max - done.length))) := by
  cases entry with
  | object key versions =>
    have alone := single key versions rfl
    subst alone
    have own := listEntry_object (keyed (key, versions) (List.mem_singleton_self _))
    rw [List.singleton_append, runUntil, flushSorted, shown _ (List.mem_singleton_self _), own,
      emitVersions_eq]
    simp only [Bool.not_true, Bool.false_eq_true, if_false, decide_eq_true_eq, itemsBehind,
      List.length_map]
    split
    · next fits => rw [List.take_of_length_le (by simpa using fits)]
    · next excess => simp [excess]
  | commonPrefix text =>
    obtain ⟨first, others, rfl⟩ := List.exists_cons_of_ne_nil filled
    have rolled : ∀ member ∈ first :: others, query.entryOf (utf8 member.1) = (text, true) :=
      fun member inside => listEntry_commonPrefix (keyed member inside)
    have pushed : (⟨(versionState done).entries, (versionState done).commonPrefixes ++ [text],
        (versionState done).emitted + 1, some (text, none)⟩ : VersionState) =
          versionState (done ++ [.commonPrefix text]) := by
      simp [versionState, VersionItem.version?, VersionItem.commonPrefix?, VersionItem.marker]
    have differs : (versionState done).commonPrefixes.getLast? ≠ some text := last
    rw [List.cons_append, runUntil, flushSorted, shown first List.mem_cons_self,
      rolled first List.mem_cons_self, pushed]
    simp only [Bool.not_true, Bool.false_eq_true, if_false, if_true, if_neg differs]
    split
    · next full =>
        have none : max - done.length = 0 := Nat.sub_eq_zero_of_le full
        rw [none]
        simp [itemsBehind]
    · next room =>
        have left : (itemsBehind keyMarker versionIdMarker
            (ListEntry.commonPrefix text)).length ≤ max - done.length := by
          have room' : ¬ max ≤ done.length := room
          rw [itemsBehind, List.length_singleton]
          omega
        rw [if_pos left]
        apply runUntil_skip
        intro member inside
        have again : (versionState (done ++ [.commonPrefix text])).commonPrefixes.getLast? =
            some text := by
          simp [versionState, VersionItem.commonPrefix?]
        rw [flushSorted, shown member (List.mem_cons_of_mem _ inside),
          rolled member (List.mem_cons_of_mem _ inside)]
        exact if_pos again

theorem runUntil_versions {keys : List Keyed}
    {groups : List (ListEntry (List (Vk × ObjectMeta)) × List Keyed)}
    (grouped : Grouped query.listEntry keys groups)
    (shown : ∀ keyed ∈ keys, query.showsKey keyMarker versionIdMarker keyed = true)
    (single : ∀ group ∈ groups, ∀ key versions, group.1 = .object key versions →
      group.2 = [(key, versions)])
    (texts : (groups.map fun group => group.1.text).Nodup) {done : List VersionItem}
    (last : ∀ text, (done.filterMap VersionItem.commonPrefix?).getLast? = some text →
      text ∉ groups.map fun group => group.1.text) :
    runUntil (flushSorted query keyMarker versionIdMarker max) keys (versionState done) =
      (decide ((groups.flatMap fun group => itemsBehind keyMarker versionIdMarker group.1).length ≤
          max - done.length),
        versionState (done ++ (groups.flatMap fun group =>
          itemsBehind keyMarker versionIdMarker group.1).take (max - done.length))) := by
  induction groups generalizing keys done with
  | nil =>
    rw [← grouped.flat]
    simp [runUntil]
  | cons group groups ih =>
    obtain ⟨fresh, rest⟩ := List.nodup_cons.mp texts
    have members : ∀ keyed ∈ group.2 ++ groups.flatMap Prod.snd,
        query.showsKey keyMarker versionIdMarker keyed = true := by
      intro keyed inside
      apply shown
      rwa [← grouped.flat]
    have differs : (done.filterMap VersionItem.commonPrefix?).getLast? ≠ some group.1.text :=
      fun same => last group.1.text same List.mem_cons_self
    rw [← grouped.flat, List.flatMap_cons, List.flatMap_cons, runUntil_group max
      (grouped.filled group List.mem_cons_self) (grouped.keyed group List.mem_cons_self)
      (fun member inside => members member (List.mem_append_left _ inside))
      (single group List.mem_cons_self) differs]
    have ends : ∀ text, ((done ++ itemsBehind keyMarker versionIdMarker group.1).filterMap
        VersionItem.commonPrefix?).getLast? = some text →
          text ∉ groups.map fun group => group.1.text := by
      intro text found
      cases entry : group.1 with
      | object key versions =>
        have none : (itemsBehind keyMarker versionIdMarker group.1).filterMap
            VersionItem.commonPrefix? = [] := by
          rw [entry, itemsBehind, List.filterMap_map]
          exact List.filterMap_eq_nil_iff.mpr fun _ _ => rfl
        rw [List.filterMap_append, none, List.append_nil] at found
        exact fun inside => last text found (List.mem_cons_of_mem _ inside)
      | commonPrefix own =>
        rw [entry, itemsBehind, List.filterMap_append] at found
        have same : own = text := by simpa [VersionItem.commonPrefix?] using found
        have ownText : group.1.text = text := by rw [entry, ← same]; rfl
        rw [← ownText]
        exact fresh
    have later := ih grouped.tail
      (fun member inside => members member (List.mem_append_right _ inside))
      (fun other inside => single other (List.mem_cons_of_mem _ inside)) rest ends
    generalize itemsBehind keyMarker versionIdMarker group.1 = items at *
    split
    · next fits =>
        have left : max - (done ++ items).length = max - done.length - items.length := by
          rw [List.length_append]
          omega
        rw [later, left, List.take_append, List.take_of_length_le fits, List.append_assoc,
          List.length_append]
        congr 1
        rw [decide_eq_decide]
        omega
    · next excess =>
        rw [List.take_append_of_le_length (Nat.le_of_not_le excess), List.length_append]
        congr 1
        rw [eq_comm, decide_eq_false_iff_not]
        omega

theorem page_versions {keys : List Keyed}
    {groups : List (ListEntry (List (Vk × ObjectMeta)) × List Keyed)}
    (under : Under query (keys.filter (query.showsKey keyMarker versionIdMarker)))
    (grouped : Grouped query.listEntry (keys.filter (query.showsKey keyMarker versionIdMarker))
      groups)
    (texts : (groups.map fun group => group.1.text).Nodup) :
    (fun scanned : Bool × VersionState => scanned.2.page (!scanned.1))
        (runUntil (flushSorted query keyMarker versionIdMarker max) keys .empty) =
      versionPaging.pageOf max
        (groups.flatMap fun group => itemsBehind keyMarker versionIdMarker group.1) := by
  have start : VersionState.empty = versionState [] := rfl
  rw [runUntil_filter (fun keyed st hidden => flushSorted_skip max hidden st), start,
    runUntil_versions max grouped (fun keyed inside => (List.mem_filter.mp inside).2)
      (fun group inside key versions entry => under.single grouped inside entry) texts (by simp)]
  simp only [VersionState.page, versionState, Paging.pageOf, versionPaging, List.length_nil,
    Nat.sub_zero, List.nil_append]
  congr 1
  rw [Bool.eq_iff_iff, Bool.not_eq_true', decide_eq_false_iff_not, decide_eq_true_iff, not_le]

end Flush

def ObjectRows.versionsPage (rows : ObjectRows) (bucket : String) (query : Query)
    (marker : Option (Bytes × Option Vk)) (max : Nat) : Except Error VersionListPage :=
  rows.listVersionsPage bucket query (marker.map Prod.fst) (marker.bind Prod.snd) max

def keyedOf (bucket : String) (places : List Placed) : List Keyed :=
  (groupsOf Placed.key (inBucket bucket places)).map fun group => (group.1, sortVersions group.2)

def listedKeys (query : Query) (bucket : String) (places : List Placed) : List Keyed :=
  (keyedOf bucket places).filter fun keyed => underPrefix query.keyPrefix keyed.1

def shownKeys (query : Query) (bucket : String) (places : List Placed) (keyMarker : Option Bytes)
    (versionIdMarker : Option Vk) : List Keyed :=
  ((keyedOf bucket places).filter fun keyed => reached keyMarker keyed.1).filter
    (query.showsKey keyMarker versionIdMarker)

def itemsOf (query : Query) (bucket : String) (places : List Placed) : List VersionItem :=
  (groupsOf query.listEntry (listedKeys query bucket places)).flatMap fun group =>
    itemsBehind none none group.1

theorem runUntil_map {β β' σ : Type} (f : β → β') (step : β' → σ → Bool × σ) (items : List β)
    (st : σ) : runUntil (fun item => step (f item)) items st = runUntil step (items.map f) st := by
  induction items generalizing st with
  | nil => rfl
  | cons item items ih => simp only [runUntil, List.map_cons, ih]

namespace Places

variable {rows : ObjectRows} {places : List Placed} (held : Places rows places) {bucket : String}
  (noNul : 0 ∉ utf8 bucket) (query : Query)

include held

theorem keyedOf_sorted (bucket : String) : (keyedOf bucket places).Pairwise fun left right =>
    escape (utf8 left.1) < escape (utf8 right.1) := by
  rw [keyedOf, List.pairwise_map]
  exact held.groups_sorted bucket

theorem listedKeys_under (bucket : String) : Under query (listedKeys query bucket places) where
  sorted := (held.keyedOf_sorted bucket).filter _
  under := fun _ inside => underPrefix_iff.mp (List.mem_filter.mp inside).2

theorem shownKeys_under (bucket : String) (keyMarker : Option Bytes)
    (versionIdMarker : Option Vk) :
    Under query (shownKeys query bucket places keyMarker versionIdMarker) where
  sorted := ((held.keyedOf_sorted bucket).filter _).filter _
  under := by
    intro keyed inside
    have shown := (List.mem_filter.mp inside).2
    rw [Query.showsKey, Bool.and_eq_true] at shown
    exact underPrefix_iff.mp shown.1

include noNul

theorem listVersionsPage_eq (keyMarker : Option Bytes) (versionIdMarker : Option Vk) (max : Nat) :
    rows.listVersionsPage bucket query keyMarker versionIdMarker max =
      .ok ((fun scanned : Bool × VersionState => scanned.2.page (!scanned.1))
        (runUntil (flushSorted query keyMarker versionIdMarker max)
          ((keyedOf bucket places).filter fun keyed => reached keyMarker keyed.1) .empty)) := by
  have emits : (fun group : String × List Placed => flushGroup query keyMarker versionIdMarker max
      group.1 (gathered gatherVersion [] group.2)) =
        fun group => flushSorted query keyMarker versionIdMarker max
          (group.1, sortVersions group.2) := by
    funext group st
    exact flushGroup_eq query keyMarker versionIdMarker max group.1 group.2 st
  rw [ObjectRows.listVersionsPage, held.scanFrom_eq noNul,
    scanGroups_eq _ _ _ ((held.grouped bucket).filter (reached keyMarker)), emits, keyedOf,
    List.filter_map, ← runUntil_map]
  rfl

theorem listVersionsPage_groups (keyMarker : Option Bytes) (versionIdMarker : Option Vk)
    (max : Nat) {groups : List (ListEntry (List (Vk × ObjectMeta)) × List Keyed)}
    (grouped : Grouped query.listEntry (shownKeys query bucket places keyMarker versionIdMarker)
      groups)
    (texts : (groups.map fun group => group.1.text).Nodup) :
    rows.listVersionsPage bucket query keyMarker versionIdMarker max =
      .ok (versionPaging.pageOf max
        (groups.flatMap fun group => itemsBehind keyMarker versionIdMarker group.1)) := by
  rw [held.listVersionsPage_eq noNul,
    page_versions max (held.shownKeys_under query bucket keyMarker versionIdMarker) grouped texts]

end Places

theorem itemsBehind_text {keyMarker : Option Bytes} {versionIdMarker : Option Vk}
    {entry : ListEntry (List (Vk × ObjectMeta))} {item : VersionItem}
    (inside : item ∈ itemsBehind keyMarker versionIdMarker entry) : item.text = entry.text := by
  cases entry with
  | object key versions =>
    obtain ⟨version, _, rfl⟩ := List.mem_map.mp inside
    rfl
  | commonPrefix text =>
    rw [List.mem_singleton.mp inside]
    rfl

theorem itemsBehind_subset {keyMarker : Option Bytes} {versionIdMarker : Option Vk}
    {entry : ListEntry (List (Vk × ObjectMeta))} {item : VersionItem}
    (inside : item ∈ itemsBehind keyMarker versionIdMarker entry) :
    item ∈ itemsBehind none none entry := by
  cases entry with
  | commonPrefix text => exact inside
  | object key versions =>
    obtain ⟨version, member, rfl⟩ := List.mem_map.mp inside
    apply List.mem_map_of_mem
    show version ∈ versions
    unfold behindMarker at member
    split at member
    · split at member
      · exact (List.dropWhile_sublist _).subset (List.mem_of_mem_drop member)
      · exact member
    · exact member

theorem behindMarker_cut {key : String} {before rest : List (Vk × ObjectMeta)}
    {version : Vk × ObjectMeta}
    (distinct : (before ++ version :: rest).Pairwise fun left right => left.1 ≠ right.1) :
    behindMarker (some (utf8 key)) (some version.1) key (before ++ version :: rest) = rest := by
  have apart := (List.pairwise_append.mp distinct).2.2
  have passed : ∀ other ∈ before, decide (other.1 ≠ version.1) = true := by
    intro other inside
    exact decide_eq_true (apart other inside version List.mem_cons_self)
  rw [behindMarker, if_pos rfl, List.dropWhile_append_of_pos passed,
    List.dropWhile_cons_of_neg (by simp), List.drop_one, List.tail_cons]

theorem filter_versions {key : String} {latest : Option Vk} {before rest : List (Vk × ObjectMeta)}
    {version : Vk × ObjectMeta} (sorted : (before ++ version :: rest).Pairwise fun left right =>
      versionRank left < versionRank right) :
    ((before ++ version :: rest).map (versionItem key latest)).filter (fun item =>
      (versionItem key latest version).rank < item.rank) = rest.map (versionItem key latest) := by
  obtain ⟨_, later, apart⟩ := List.pairwise_append.mp sorted
  have compare : ∀ other, (versionItem key latest version).rank <
      (versionItem key latest other).rank ↔ versionRank version < versionRank other := by
    intro other
    rw [VersionItem.rank_lt_iff]
    constructor
    · rintro (less | ⟨_, less⟩)
      · exact absurd less (lt_irrefl _)
      · exact less
    · exact fun less => .inr ⟨rfl, less⟩
  have none : (before.map (versionItem key latest)).filter (fun item =>
      (versionItem key latest version).rank < item.rank) = [] := by
    rw [List.filter_eq_nil_iff]
    intro item inside above
    obtain ⟨other, member, rfl⟩ := List.mem_map.mp inside
    exact lt_asymm ((compare other).mp (of_decide_eq_true above))
      (apart other member version List.mem_cons_self)
  have all : (rest.map (versionItem key latest)).filter (fun item =>
      (versionItem key latest version).rank < item.rank) = rest.map (versionItem key latest) := by
    rw [List.filter_eq_self]
    intro item inside
    obtain ⟨other, member, rfl⟩ := List.mem_map.mp inside
    exact decide_eq_true ((compare other).mpr ((List.pairwise_cons.mp later).1 other member))
  rw [List.map_append, List.map_cons, List.filter_append, none, List.nil_append,
    List.filter_cons_of_neg (by simp), all]

namespace Places

variable {rows : ObjectRows} {places : List Placed} (held : Places rows places) {bucket : String}
  (noNul : 0 ∉ utf8 bucket) (query : Query)

include held

theorem mem_keyedOf {keyed : Keyed} : keyed ∈ keyedOf bucket places ↔
    keyed.2 = sortVersions (ofKey bucket keyed.1 places) ∧ ofKey bucket keyed.1 places ≠ [] := by
  rw [keyedOf, List.mem_map]
  constructor
  · rintro ⟨group, inside, rfl⟩
    simp only
    rw [← held.group_eq inside]
    exact ⟨rfl, (held.grouped bucket).filled group inside⟩
  · rintro ⟨versions, filled⟩
    obtain ⟨placed, member⟩ := List.exists_mem_of_ne_nil _ filled
    obtain ⟨inside, named⟩ := List.mem_filter.mp member
    have key : keyed.1 ∈ (groupsOf Placed.key (inBucket bucket places)).map Prod.fst :=
      (held.grouped bucket).mem_key.mpr ⟨placed, inside, of_decide_eq_true named⟩
    obtain ⟨group, groupIn, named'⟩ := List.mem_map.mp key
    refine ⟨group, groupIn, ?_⟩
    rw [held.group_eq groupIn, named', ← versions]

variable {group : ListEntry (List (Vk × ObjectMeta)) × List Keyed} {item : VersionItem}

theorem object_mem (inside : group ∈ groupsOf query.listEntry (listedKeys query bucket places))
    {key : String} {versions : List (Vk × ObjectMeta)} (entry : group.1 = .object key versions) :
    (key, versions) ∈ listedKeys query bucket places := by
  have under := held.listedKeys_under query bucket
  apply under.grouped.mem_row.mpr
  refine ⟨group, inside, ?_⟩
  rw [under.single under.grouped inside entry]
  exact List.mem_singleton_self _

theorem object_sorted (inside : group ∈ groupsOf query.listEntry (listedKeys query bucket places))
    {key : String} {versions : List (Vk × ObjectMeta)} (entry : group.1 = .object key versions) :
    versions.Pairwise (fun left right => versionRank left < versionRank right) ∧
      versions.Pairwise (fun left right => left.1 ≠ right.1) ∧ versions ≠ [] := by
  have member := (List.mem_filter.mp (held.object_mem query inside entry)).1
  obtain ⟨sorted, filled⟩ := held.mem_keyedOf.mp member
  simp only at sorted filled
  have rows := held.keyRows bucket key
  rw [sorted]
  refine ⟨rows.sortVersions_sorted, rows.sortVersions_distinct, ?_⟩
  obtain ⟨placed, stored⟩ := List.exists_mem_of_ne_nil _ filled
  exact List.ne_nil_of_mem (mem_sortVersions.mpr ⟨placed, stored, rfl⟩)

theorem itemsBehind_marker (stored : item ∈ itemsOf query bucket places)
    (inside : group ∈ groupsOf query.listEntry (listedKeys query bucket places)) :
    (itemsBehind none none group.1).filter (fun other => item.rank < other.rank) =
      if !skipsGroup (some item.text) item.marker.2 (group.1.text, group.1.rolls) then
        itemsBehind (some item.text) item.marker.2 group.1
      else [] := by
  have under := held.listedKeys_under query bucket
  rcases lt_trichotomy group.1.text item.text with less | same | above
  · have skipped : skipsGroup (some item.text) item.marker.2 (group.1.text, group.1.rolls) =
        true := by
      rw [skipsGroup, Bool.or_eq_true]
      exact .inl (decide_eq_true less)
    rw [skipped]
    apply List.filter_eq_nil_iff.mpr
    intro other member behind
    have texts := itemsBehind_text member
    rcases (VersionItem.rank_lt_iff _ _).mp (of_decide_eq_true behind) with below | ⟨equal, _⟩
    · rw [texts] at below
      exact lt_asymm less below
    · rw [equal, texts] at less
      exact lt_irrefl _ less
  · obtain ⟨group', inside', member⟩ := List.mem_flatMap.mp stored
    have texts := itemsBehind_text member
    obtain rfl : group = group' :=
      List.inj_on_of_nodup_map under.texts_nodup inside inside' (same.trans texts)
    cases entry : group.1 with
    | commonPrefix text =>
      rw [entry] at member same
      obtain rfl := List.mem_singleton.mp member
      simp [itemsBehind, skipsGroup, VersionItem.text, ListEntry.text, ListEntry.rolls]
    | object key versions =>
      rw [entry] at member same
      obtain ⟨version, here, rfl⟩ := List.mem_map.mp member
      obtain ⟨sorted, distinct, _⟩ := held.object_sorted query inside entry
      obtain ⟨before, rest, rfl⟩ := List.append_of_mem here
      have kept : skipsGroup (some (utf8 key)) (some version.1)
          ((ListEntry.object key (before ++ version :: rest)).text,
            (ListEntry.object key (before ++ version :: rest)).rolls) = false := by
        simp [skipsGroup, ListEntry.text, ListEntry.rolls]
      have marked : behindMarker (some (utf8 key)) (some version.1) key
          (before ++ version :: rest) = rest := behindMarker_cut distinct
      have shown : itemsBehind (some (utf8 key)) (some version.1)
          (.object key (before ++ version :: rest)) =
            rest.map (versionItem key (latestVk (before ++ version :: rest))) := by
        rw [itemsBehind, marked]
      refine Eq.trans ?_ (if_pos (Bool.not_eq_true' _ ▸ kept)).symm
      refine Eq.trans ?_ shown.symm
      exact filter_versions sorted
  · have kept : skipsGroup (some item.text) item.marker.2 (group.1.text, group.1.rolls) =
        false := by
      rw [skipsGroup, Bool.or_eq_false_iff, Bool.and_eq_false_iff]
      exact ⟨decide_eq_false (lt_asymm above), .inl (decide_eq_false above.ne')⟩
    rw [kept]
    have all : (itemsBehind none none group.1).filter (fun other => item.rank < other.rank) =
        itemsBehind none none group.1 := by
      rw [List.filter_eq_self]
      intro other member
      apply decide_eq_true
      rw [VersionItem.rank_lt_iff, itemsBehind_text member]
      exact .inl above
    rw [all]
    cases entry : group.1 with
    | commonPrefix text => rfl
    | object key versions =>
      rw [entry] at above
      have differs : item.text ≠ utf8 key := above.ne
      have whole : behindMarker (some item.text) item.marker.2 key versions = versions := by
        unfold behindMarker
        cases item.marker.2 with
        | none => rfl
        | some vm => exact if_neg differs
      simp only [Bool.not_false, if_true, itemsBehind, whole]
      rfl

theorem itemsBehind_filled
    (inside : group ∈ groupsOf query.listEntry (listedKeys query bucket places)) :
    ∃ item, item ∈ itemsBehind none none group.1 := by
  cases entry : group.1 with
  | commonPrefix text => exact ⟨_, List.mem_singleton_self _⟩
  | object key versions =>
    obtain ⟨version, member⟩ :=
      List.exists_mem_of_ne_nil _ (held.object_sorted query inside entry).2.2
    exact ⟨_, List.mem_map_of_mem member⟩

/-- Behind an item that is greater than all before it, every key that the marker keeps is
behind the place where the scan begins. -/
theorem reached_of_kept {before rest : List VersionItem}
    (split : itemsOf query bucket places = before ++ item :: rest)
    (smaller : ∀ other ∈ before, other.rank < item.rank) {keyed : Keyed}
    (inside : keyed ∈ listedKeys query bucket places)
    (kept : item.text ≤ (query.listEntry keyed).text) :
    reached (some item.text) keyed.1 = true := by
  have under := held.listedKeys_under query bucket
  rcases kept.lt_or_eq with above | same
  · obtain ⟨init, group, tail, front, back, cut, itemsOf', earlier⟩ := flatMap_eq_append_cons split
    have groupIn : group ∈ groupsOf query.listEntry (listedKeys query bucket places) := by
      rw [cut]
      exact List.mem_append_right _ List.mem_cons_self
    have groupText : item.text = group.1.text :=
      itemsBehind_text (itemsOf' ▸ List.mem_append_right _ List.mem_cons_self)
    obtain ⟨first, firstOf, firstIn, named⟩ := under.grouped.exists_row groupIn
    obtain ⟨group', groupIn', member⟩ := under.grouped.mem_row.mp inside
    have named' := under.grouped.keyed group' groupIn' keyed member
    rw [named'] at above
    have behind : group' ∈ tail := by
      have place := groupIn'
      rw [cut] at place
      rcases List.mem_append.mp place with before' | later
      · obtain ⟨other, shown⟩ := held.itemsBehind_filled query groupIn'
        have less := smaller other
          (earlier ▸ List.mem_append_left _ (List.mem_flatMap.mpr ⟨group', before', shown⟩))
        rcases (VersionItem.rank_lt_iff _ _).mp less with below | ⟨equal, _⟩
        · rw [itemsBehind_text shown] at below
          exact absurd below (lt_asymm above)
        · rw [itemsBehind_text shown] at equal
          exact absurd equal above.ne'
      · rcases List.mem_cons.mp later with rfl | after
        · exact absurd groupText above.ne
        · exact after
    have order := under.grouped.pairwise under.sorted
    rw [cut] at order
    have below := (List.pairwise_cons.mp (List.pairwise_append.mp order).2.1).1 group' behind first
      firstOf keyed member
    have begins := (escape_prefix_iff _ _).mpr (under.text_prefix firstIn)
    rw [named, ← groupText] at begins
    exact decide_eq_true ((le_of_begins begins).trans below.le)
  · have begins := (escape_prefix_iff _ _).mpr (under.text_prefix inside)
    rw [← same] at begins
    exact decide_eq_true (le_of_begins begins)

omit held in
theorem shownKeys_none : shownKeys query bucket places none none = listedKeys query bucket places := by
  rw [shownKeys, listedKeys, List.filter_filter]
  apply List.filter_congr
  intro keyed _
  simp only [Query.showsKey, skipsGroup, reached, Bool.not_false, Bool.and_true]

theorem shownKeys_marker {before rest : List VersionItem}
    (split : itemsOf query bucket places = before ++ item :: rest)
    (smaller : ∀ other ∈ before, other.rank < item.rank) :
    shownKeys query bucket places (some item.text) item.marker.2 =
      (listedKeys query bucket places).filter fun keyed =>
        !skipsGroup (some item.text) item.marker.2
          ((query.listEntry keyed).text, (query.listEntry keyed).rolls) := by
  rw [shownKeys, listedKeys, List.filter_filter, List.filter_filter]
  apply List.filter_congr
  intro keyed inside
  rw [Query.showsKey, query.entryOf_eq keyed, Bool.eq_iff_iff, Bool.and_eq_true, Bool.and_eq_true,
    Bool.and_eq_true]
  constructor
  · rintro ⟨⟨here, shown⟩, _⟩
    exact ⟨shown, here⟩
  · rintro ⟨shown, here⟩
    refine ⟨⟨here, shown⟩, held.reached_of_kept query split smaller
      (List.mem_filter.mpr ⟨inside, here⟩) ?_⟩
    rw [Bool.not_eq_true', skipsGroup, Bool.or_eq_false_iff] at shown
    exact not_lt.mp (of_decide_eq_false shown.1)

theorem exists_group {keyMarker : Option Bytes} {versionIdMarker : Option Vk}
    {groups : List (ListEntry (List (Vk × ObjectMeta)) × List Keyed)}
    (grouped : Grouped query.listEntry (shownKeys query bucket places keyMarker versionIdMarker)
      groups) (inside : group ∈ groups) :
    ∃ group' ∈ groupsOf query.listEntry (listedKeys query bucket places), group'.1 = group.1 := by
  obtain ⟨keyed, _, keyedIn, named⟩ := grouped.exists_row inside
  obtain ⟨stored, shown⟩ := List.mem_filter.mp keyedIn
  rw [Query.showsKey, Bool.and_eq_true] at shown
  have listed : keyed ∈ listedKeys query bucket places :=
    List.mem_filter.mpr ⟨(List.mem_filter.mp stored).1, shown.1⟩
  have entry := (held.listedKeys_under query bucket).grouped.mem_key.mpr ⟨keyed, listed, named⟩
  exact List.mem_map.mp entry

include noNul

theorem versionsPage_scan : PagedScan versionPaging (itemsOf query bucket places)
    (rows.versionsPage bucket query) where
  first := by
    intro max
    have under := held.listedKeys_under query bucket
    have grouped : Grouped query.listEntry (shownKeys query bucket places none none)
        (groupsOf query.listEntry (listedKeys query bucket places)) := by
      rw [shownKeys_none]
      exact under.grouped
    exact held.listVersionsPage_groups noNul query none none max grouped under.texts_nodup
  next := by
    intro before item rest max split smaller
    have under := held.listedKeys_under query bucket
    have stored : item ∈ itemsOf query bucket places :=
      split ▸ List.mem_append_right _ List.mem_cons_self
    have marker : item.marker = (item.text, item.marker.2) := by
      cases item with
      | version entry => rfl
      | commonPrefix text => rfl
    have grouped := under.grouped.filter fun entry =>
      !skipsGroup (some item.text) item.marker.2 (entry.text, entry.rolls)
    rw [← held.shownKeys_marker query split smaller] at grouped
    have page := held.listVersionsPage_groups noNul query (some item.text) item.marker.2 max grouped
      (under.texts_nodup.sublist (List.filter_sublist.map _))
    have behind := filter_flatMap_eq fun group inside =>
      held.itemsBehind_marker query stored inside
    have none : before.filter (fun other => item.rank < other.rank) = [] := by
      rw [List.filter_eq_nil_iff]
      intro other inside above
      exact lt_asymm (smaller other inside) (of_decide_eq_true above)
    rw [← itemsOf, split, List.filter_append, none, List.filter_cons_of_neg (by simp),
      List.nil_append] at behind
    rw [← behind] at page
    rw [ObjectRows.versionsPage, show versionPaging.name item = (item.text, item.marker.2) from marker]
    exact page

theorem versionsPage_forwards : PagedScan.Forwards versionPaging (itemsOf query bucket places)
    (rows.versionsPage bucket query) VersionListPage.Shows where
  render := versionPaging_shows
  cuts := by
    intro after max
    have under := held.shownKeys_under query bucket (after.map Prod.fst) (after.bind Prod.snd)
    refine ⟨_, held.listVersionsPage_groups noNul query (after.map Prod.fst)
      (after.bind Prod.snd) max under.grouped under.texts_nodup, ?_, ?_⟩
    · intro item member
      obtain ⟨group, inside, shown⟩ := List.mem_flatMap.mp member
      obtain ⟨group', inside', same⟩ := held.exists_group query under.grouped inside
      exact List.mem_flatMap.mpr ⟨group', inside', same ▸ itemsBehind_subset shown⟩
    · rintro item stored rfl other member
      obtain ⟨group, inside, shown⟩ := List.mem_flatMap.mp member
      obtain ⟨group', inside', same⟩ := held.exists_group query under.grouped inside
      obtain ⟨keyed, _, keyedIn, named⟩ := under.grouped.exists_row inside
      have kept := (List.mem_filter.mp keyedIn).2
      have marker : versionPaging.name item = (item.text, item.marker.2) := by
        cases item with
        | version entry => rfl
        | commonPrefix text => rfl
      rw [marker] at shown kept
      rw [Query.showsKey, query.entryOf_eq keyed, Bool.and_eq_true, named, ← same] at kept
      have behind := held.itemsBehind_marker query stored inside'
      have open' : (!skipsGroup (some item.text) item.marker.2 (group'.1.text, group'.1.rolls)) =
          true := kept.2
      rw [if_pos open', same] at behind
      have member' : other ∈ itemsBehind (some item.text) item.marker.2 group.1 := shown
      rw [← behind] at member'
      exact of_decide_eq_true (List.mem_filter.mp member').2

end Places

namespace ObjectRows

variable (rows : ObjectRows) (bucket : String) (query : Query)

def Stores (key : String) (version : Vk × ObjectMeta) : Prop :=
  ∃ place : ObjectAddress, (place.raw, version.2) ∈ rows.objects.entries ∧ place.bucket = bucket ∧
    place.key = key ∧ place.vk.getD vkNull = version.1

/-- The items a listing is about: the stored versions of keys that do not roll up, of which
the current one is flagged, and the common prefixes. -/
def ListsItem : VersionItem → Prop
  | .version entry => rows.Stores bucket entry.key (entry.vk, entry.value) ∧
      query.keyPrefix <+: utf8 entry.key ∧ (query.entryOf (utf8 entry.key)).2 = false ∧
      (entry.isLatest = true ↔
        rows.getCurrentVersion bucket entry.key = .ok (some (entry.vk, entry.value)))
  | .commonPrefix text => ∃ key version, rows.Stores bucket key version ∧
      query.keyPrefix <+: utf8 key ∧ query.entryOf (utf8 key) = (text, true)

/-- The pages show every item once, in the order of the keys and newest first inside a key;
one version of each key is the latest. -/
structure EnumeratesVersions (pages : List VersionListPage) : Prop where
  complete : ∀ item, (∃ page ∈ pages, page.Shows item) ↔ rows.ListsItem bucket query item
  within : ∀ page ∈ pages, (page.entries.Pairwise fun left right =>
    (VersionItem.version left).rank < (VersionItem.version right).rank) ∧
      page.commonPrefixes.Pairwise (· < ·)
  across : pages.Pairwise fun page page' =>
    ∀ item item', page.Shows item → page'.Shows item' → item.rank < item'.rank
  latest : ∀ page ∈ pages, ∀ entry ∈ page.entries, ∃! other, (∃ page' ∈ pages,
    other ∈ page'.entries) ∧ other.key = entry.key ∧ other.isLatest = true
  ends : ∃ init last, pages = init ++ [last] ∧ (∀ page ∈ init, page.truncated = true) ∧
    last.truncated = false

variable {rows bucket query}

section Held

variable {places : List Placed} (held : Places rows places)

include held

theorem stores_iff {key : String} {version : Vk × ObjectMeta} : rows.Stores bucket key version ↔
    version ∈ sortVersions (ofKey bucket key places) := by
  rw [mem_sortVersions]
  constructor
  · rintro ⟨place, stored, bucketOf, keyOf, named⟩
    have member : (place, version.2) ∈ places := held.mem_iff.mpr stored
    exact ⟨(place, version.2), mem_ofKey.mpr ⟨member, bucketOf, keyOf⟩, Prod.ext named rfl⟩
  · rintro ⟨placed, inside, rfl⟩
    obtain ⟨stored, bucketOf, keyOf⟩ := mem_ofKey.mp inside
    exact ⟨placed.1, held.mem_iff.mp stored, bucketOf, keyOf, rfl⟩

theorem mem_listedKeys {keyed : Keyed} : keyed ∈ listedKeys query bucket places ↔
    keyed.2 = sortVersions (ofKey bucket keyed.1 places) ∧
      (∃ version, rows.Stores bucket keyed.1 version) ∧ query.keyPrefix <+: utf8 keyed.1 := by
  have filled : ofKey bucket keyed.1 places ≠ [] ↔ ∃ version, rows.Stores bucket keyed.1 version := by
    constructor
    · intro some
      obtain ⟨placed, inside⟩ := List.exists_mem_of_ne_nil _ some
      exact ⟨placed.display, (stores_iff held).mpr (mem_sortVersions.mpr ⟨placed, inside, rfl⟩)⟩
    · rintro ⟨version, stored⟩ nothing
      rw [stores_iff held, mem_sortVersions, nothing] at stored
      obtain ⟨placed, inside, _⟩ := stored
      exact absurd inside List.not_mem_nil
  rw [listedKeys, List.mem_filter, held.mem_keyedOf, underPrefix_iff, filled, and_assoc]

variable (noNul : 0 ∉ utf8 bucket)

include noNul

theorem isLatest_iff {key : String} {version : Vk × ObjectMeta}
    (stored : version ∈ sortVersions (ofKey bucket key places)) :
    some version.1 = latestVk (sortVersions (ofKey bucket key places)) ↔
      rows.getCurrentVersion bucket key = .ok (some version) := by
  have rowsOf := held.keyRows bucket key
  rw [rowsOf.latestVk_eq, held.getCurrentVersion_eq noNul, Except.ok.injEq]
  constructor
  · intro same
    obtain ⟨current, found, named⟩ := Option.map_eq_some_iff.mp same.symm
    have nodup : ((sortVersions (ofKey bucket key places)).map Prod.fst).Nodup := by
      rw [List.nodup_iff_pairwise_ne, List.pairwise_map]
      exact rowsOf.sortVersions_distinct
    rw [found, List.inj_on_of_nodup_map nodup (current_mem found) stored named]
  · intro found
    rw [found]
    rfl

theorem mem_itemsOf_iff (item : VersionItem) :
    item ∈ itemsOf query bucket places ↔ rows.ListsItem bucket query item := by
  have under := held.listedKeys_under query bucket
  rw [itemsOf, List.mem_flatMap]
  constructor
  · rintro ⟨group, inside, shown⟩
    obtain ⟨keyed, _, keyedIn, named⟩ := under.grouped.exists_row inside
    obtain ⟨sorted, ⟨version, stored⟩, begins⟩ := (mem_listedKeys held).mp keyedIn
    cases entry : group.1 with
    | commonPrefix text =>
      rw [entry] at shown named
      rw [List.mem_singleton.mp shown]
      exact ⟨keyed.1, version, stored, begins, listEntry_commonPrefix named⟩
    | object key versions =>
      rw [entry] at shown named
      have single := listEntry_object named
      have same : keyed = (key, versions) := by
        rw [Query.listEntry, single] at named
        cases named
        rfl
      subst same
      obtain ⟨version, here, rfl⟩ := List.mem_map.mp shown
      have member : version ∈ sortVersions (ofKey bucket key places) := sorted ▸ here
      refine ⟨(stores_iff held).mpr member, begins, single, ?_⟩
      simp only [decide_eq_true_eq]
      rw [show versions = sortVersions (ofKey bucket key places) from sorted]
      exact isLatest_iff held noNul member
  · intro lists
    cases item with
    | version entry =>
      obtain ⟨stored, begins, single, flagged⟩ := lists
      have member := (stores_iff held).mp stored
      have listed : (entry.key, sortVersions (ofKey bucket entry.key places)) ∈
          listedKeys query bucket places :=
        (mem_listedKeys held).mpr ⟨rfl, ⟨_, stored⟩, begins⟩
      have named : query.listEntry (entry.key, sortVersions (ofKey bucket entry.key places)) =
          .object entry.key (sortVersions (ofKey bucket entry.key places)) := by
        rw [Query.listEntry, single]
        rfl
      obtain ⟨group, inside, isEntry⟩ :=
        List.mem_map.mp (under.grouped.mem_key.mpr ⟨_, listed, named⟩)
      refine ⟨group, inside, ?_⟩
      rw [isEntry]
      apply List.mem_map.mpr
      refine ⟨(entry.vk, entry.value), member, ?_⟩
      have latest : decide (some entry.vk =
          latestVk (sortVersions (ofKey bucket entry.key places))) = entry.isLatest := by
        rw [Bool.eq_iff_iff, decide_eq_true_iff, flagged]
        exact isLatest_iff held noNul member
      rw [versionItem]
      simp only [latest]
    | commonPrefix text =>
      obtain ⟨key, version, stored, begins, rolled⟩ := lists
      have listed : (key, sortVersions (ofKey bucket key places)) ∈
          listedKeys query bucket places :=
        (mem_listedKeys held).mpr ⟨rfl, ⟨_, stored⟩, begins⟩
      have named : query.listEntry (key, sortVersions (ofKey bucket key places)) =
          .commonPrefix text := by
        rw [Query.listEntry, rolled]
        rfl
      obtain ⟨group, inside, isEntry⟩ :=
        List.mem_map.mp (under.grouped.mem_key.mpr ⟨_, listed, named⟩)
      refine ⟨group, inside, ?_⟩
      rw [isEntry]
      exact List.mem_singleton_self _

omit noNul in
theorem items_sorted {group : ListEntry (List (Vk × ObjectMeta)) × List Keyed}
    (inside : group ∈ groupsOf query.listEntry (listedKeys query bucket places)) :
    (itemsBehind none none group.1).Pairwise fun left right => left.rank < right.rank := by
  cases entry : group.1 with
  | commonPrefix text => exact List.pairwise_singleton _ _
  | object key versions =>
    rw [itemsBehind, List.pairwise_map]
    apply (held.object_sorted query inside entry).1.imp
    intro left right less
    exact (VersionItem.rank_lt_iff _ _).mpr (.inr ⟨rfl, less⟩)

omit noNul in
theorem itemsOf_ordered_iff : versionPaging.Ordered (itemsOf query bucket places) ↔
    ∀ key version key' version', rows.Stores bucket key version →
      rows.Stores bucket key' version' → query.keyPrefix <+: utf8 key →
      query.keyPrefix <+: utf8 key' →
        ¬ SplitsAtNul (query.entryOf (utf8 key)).1 (query.entryOf (utf8 key')).1 := by
  have under := held.listedKeys_under query bucket
  have groups : versionPaging.Ordered (itemsOf query bucket places) ↔
      (groupsOf query.listEntry (listedKeys query bucket places)).Pairwise fun first second =>
        first.1.text < second.1.text := by
    rw [Paging.Ordered, itemsOf, List.pairwise_flatMap]
    constructor
    · rintro ⟨_, related⟩
      have texts := under.texts_nodup
      rw [List.nodup_iff_pairwise_ne, List.pairwise_map] at texts
      apply (related.and texts).imp_of_mem
      rintro first second firstIn secondIn ⟨across, differ⟩
      obtain ⟨item, shown⟩ := held.itemsBehind_filled query firstIn
      obtain ⟨item', shown'⟩ := held.itemsBehind_filled query secondIn
      rcases (VersionItem.rank_lt_iff _ _).mp (across item shown item' shown') with less | ⟨same, _⟩
      · rwa [itemsBehind_text shown, itemsBehind_text shown'] at less
      · rw [itemsBehind_text shown, itemsBehind_text shown'] at same
        exact absurd same differ
    · intro ordered
      refine ⟨fun group inside => items_sorted held inside, ordered.imp ?_⟩
      intro first second less item shown item' shown'
      apply (VersionItem.rank_lt_iff _ _).mpr
      rw [itemsBehind_text shown, itemsBehind_text shown']
      exact .inl less
  rw [groups, under.ordered_iff]
  constructor
  · intro whole key version key' version' stored stored' begins begins'
    have split := whole (key, sortVersions (ofKey bucket key places))
      ((mem_listedKeys held).mpr ⟨rfl, ⟨_, stored⟩, begins⟩)
      (key', sortVersions (ofKey bucket key' places))
      ((mem_listedKeys held).mpr ⟨rfl, ⟨_, stored'⟩, begins'⟩)
    rwa [Query.listEntry_text, Query.listEntry_text] at split
  · intro whole left leftIn right rightIn
    obtain ⟨_, ⟨version, stored⟩, begins⟩ := (mem_listedKeys held).mp leftIn
    obtain ⟨_, ⟨version', stored'⟩, begins'⟩ := (mem_listedKeys held).mp rightIn
    rw [Query.listEntry_text, Query.listEntry_text]
    exact whole _ _ _ _ stored stored' begins begins'

omit noNul in
theorem itemsOf_nodup : ((itemsOf query bucket places).map VersionItem.rank).Nodup := by
  have under := held.listedKeys_under query bucket
  have texts := under.texts_nodup
  rw [List.nodup_iff_pairwise_ne, List.pairwise_map] at texts ⊢
  rw [itemsOf, List.pairwise_flatMap]
  refine ⟨fun group inside => (items_sorted held inside).imp fun less => less.ne, texts.imp ?_⟩
  intro first second differ item shown item' shown' same
  have equal := congrArg (fun rank => (ofLex rank).1) same
  rw [← itemsBehind_text shown, ← itemsBehind_text shown'] at differ
  exact differ equal

end Held

theorem renderVersions_sorted {chunk : List VersionItem} (ordered : versionPaging.Ordered chunk)
    (flag : Bool) : ((versionPaging.render chunk flag).entries.Pairwise fun left right =>
      (VersionItem.version left).rank < (VersionItem.version right).rank) ∧
      (versionPaging.render chunk flag).commonPrefixes.Pairwise (· < ·) := by
  constructor
  · show (chunk.filterMap VersionItem.version?).Pairwise _
    rw [List.pairwise_filterMap]
    apply ordered.imp
    intro item item' less entry found entry' found'
    cases item with
    | commonPrefix text => cases found
    | version entry =>
      cases item' with
      | commonPrefix text => cases found'
      | version entry' =>
        cases found
        cases found'
        exact less
  · show (chunk.filterMap VersionItem.commonPrefix?).Pairwise _
    rw [List.pairwise_filterMap]
    apply ordered.imp
    intro item item' less text found text' found'
    cases item with
    | version entry => cases found
    | commonPrefix text =>
      cases item' with
      | version entry => cases found'
      | commonPrefix text' =>
        cases found
        cases found'
        rcases (VersionItem.rank_lt_iff _ _).mp less with below | ⟨_, below⟩
        · exact below
        · exact absurd below (lt_irrefl _)

theorem existsUnique_latest {places : List Placed} (held : Places rows places)
    (noNul : 0 ∉ utf8 bucket) {entry : VersionListEntry}
    (lists : rows.ListsItem bucket query (.version entry)) : ∃! other : VersionListEntry,
      rows.ListsItem bucket query (.version other) ∧ other.key = entry.key ∧
        other.isLatest = true := by
  obtain ⟨stored, begins, single, _⟩ := lists
  have member := (stores_iff held).mp stored
  obtain ⟨placed, inside, _⟩ := mem_sortVersions.mp member
  obtain ⟨current, found⟩ := exists_current (List.ne_nil_of_mem inside)
  have read : rows.getCurrentVersion bucket entry.key = .ok (some current) := by
    rw [held.getCurrentVersion_eq noNul, found]
  refine ⟨⟨entry.key, current.1, current.2, true⟩, ?_, ?_⟩
  · exact ⟨⟨(stores_iff held).mpr (current_mem found), begins, single, iff_of_true rfl read⟩, rfl, rfl⟩
  · rintro ⟨key, vk, value, flag⟩ ⟨⟨_, _, _, flagged⟩, rfl, rfl⟩
    have same := flagged.mp rfl
    rw [read, Except.ok.injEq, Option.some.injEq] at same
    rw [same]

/-- Following the markers is complete for all sizes of pages if and only if no two entries
split at a NUL byte. -/
theorem listVersionsPage_complete_iff (rows : ObjectRows) {bucket : String}
    (noNul : 0 ∉ utf8 bucket) (query : Query) :
    (∀ sizes : Nat → Nat, (∀ i, 0 < sizes i) → ∃ fuel pages,
      follow (rows.versionsPage bucket query) VersionListPage.truncated VersionListPage.lastScanned
        fuel sizes none = .ok (some pages) ∧ rows.EnumeratesVersions bucket query pages) ↔
      ∀ key version key' version', rows.Stores bucket key version →
        rows.Stores bucket key' version' → query.keyPrefix <+: utf8 key →
        query.keyPrefix <+: utf8 key' →
          ¬ SplitsAtNul (query.entryOf (utf8 key)).1 (query.entryOf (utf8 key')).1 := by
  obtain ⟨places, held⟩ := rows.exists_places
  have scan := held.versionsPage_scan noNul query
  rw [← itemsOf_ordered_iff held]
  constructor
  · intro claimed
    obtain ⟨fuel, pages, run, enumerated⟩ := claimed (fun _ => 1) (fun _ => Nat.one_pos)
    apply PagedScan.sorted_of_follow (held.versionsPage_forwards noNul query) scan
      (itemsOf_nodup held) (fun _ => versionPaging_sound Nat.one_pos) run
    · intro item inside
      exact (enumerated.complete item).mpr ((mem_itemsOf_iff held noNul item).mp inside)
    · intro _ rest _
      cases rest with
      | nil => exact List.Pairwise.nil
      | cons item rest => exact List.pairwise_singleton _ _
  · intro ordered sizes positive
    obtain ⟨fuel, chunks, last, run, covers⟩ := scan.follow_sorted ordered
      fun i => versionPaging_sound (positive i)
    refine ⟨fuel, versionPaging.pages chunks last, run, ?_⟩
    rw [← covers] at ordered
    have complete : ∀ item, (∃ page ∈ versionPaging.pages chunks last, page.Shows item) ↔
        rows.ListsItem bucket query item := by
      intro item
      rw [Paging.shown_iff versionPaging_shows, covers, mem_itemsOf_iff held noNul]
    refine ⟨complete, ?_, Paging.pages_pairwise versionPaging_shows ordered, ?_, ?_⟩
    · intro page inside
      obtain ⟨chunk, flag, rfl, part⟩ := Paging.mem_pages inside
      exact renderVersions_sorted (ordered.sublist part) flag
    · intro page inside entry shown
      have lists := (complete (.version entry)).mp ⟨page, inside, shown⟩
      obtain ⟨latest, ⟨listed, named, flagged⟩, unique⟩ := existsUnique_latest held noNul lists
      refine ⟨latest, ⟨(complete (.version latest)).mpr listed, named, flagged⟩, ?_⟩
      rintro other ⟨found, named', flagged'⟩
      exact unique other ⟨(complete (.version other)).mp found, named', flagged'⟩
    · refine ⟨chunks.map (versionPaging.render · true), versionPaging.render last false, rfl, ?_, rfl⟩
      intro page inside
      obtain ⟨chunk, _, rfl⟩ := List.mem_map.mp inside
      rfl

theorem listVersionsPage_complete_plain : ∃ fuel pages,
    follow (plainKeys.versionsPage "photos" ⟨[], none⟩) VersionListPage.truncated
      VersionListPage.lastScanned fuel (fun _ => 1) none = .ok (some pages) ∧
        plainKeys.EnumeratesVersions "photos" ⟨[], none⟩ pages := by
  have noNul : 0 ∉ utf8 "photos" := by decide +kernel
  refine (listVersionsPage_complete_iff plainKeys noNul ⟨[], none⟩).mpr ?_ (fun _ => 1)
    fun _ => Nat.one_pos
  intro key version key' version' stored _ _ _ splits
  have held : Places plainKeys [photoKey "a", photoKey "b"] := ⟨rfl, by decide +kernel⟩
  have free : 0 ∉ utf8 "a" ∧ 0 ∉ utf8 "b" := by decide +kernel
  obtain ⟨place, row, _, rfl, _⟩ := stored
  have member : (place, version.2) ∈ [photoKey "a", photoKey "b"] := held.mem_iff.mpr row
  rcases List.mem_pair.mp member with same | same
  · obtain rfl : place = (photoKey "a").1 := congrArg Prod.fst same
    exact free.1 splits.nul_mem
  · obtain rfl : place = (photoKey "b").1 := congrArg Prod.fst same
    exact free.2 splits.nul_mem

theorem listVersionsPage_skips : ¬ ∀ (rows : ObjectRows) (bucket : String) (query : Query)
    (sizes : Nat → Nat), validBucketName bucket = true → (∀ i, 0 < sizes i) → ∃ fuel pages,
      follow (rows.versionsPage bucket query) VersionListPage.truncated VersionListPage.lastScanned
        fuel sizes none = .ok (some pages) ∧ rows.EnumeratesVersions bucket query pages := by
  intro claimed
  obtain ⟨fuel, pages, run, enumerated⟩ := claimed nulKeys "photos" ⟨[], none⟩ (fun _ => 1)
    (by decide +kernel) (fun _ => Nat.one_pos)
  have shown : follow (nulKeys.versionsPage "photos" ⟨[], none⟩) VersionListPage.truncated
      VersionListPage.lastScanned 2 (fun _ => 1) none =
        .ok (some [⟨[⟨"ab", vkNull, emptyObject, true⟩], [], true, some (utf8 "ab", some vkNull)⟩,
          ⟨[], [], false, none⟩]) := by
    decide +kernel
  have current : nulKeys.getCurrentVersion "photos" "a\x00" = .ok (some (vkNull, emptyObject)) := by
    decide +kernel
  have lists : nulKeys.ListsItem "photos" ⟨[], none⟩
      (.version ⟨"a\x00", vkNull, emptyObject, true⟩) := by
    refine ⟨⟨(photoKey "a\x00").1, ?_, rfl, rfl, rfl⟩, List.nil_prefix, rfl, iff_of_true rfl current⟩
    exact List.mem_cons_of_mem _ List.mem_cons_self
  obtain ⟨page, listed, inside⟩ := (enumerated.complete _).mpr lists
  rw [follow_unique run shown] at listed
  rcases List.mem_pair.mp listed with rfl | rfl
  · have other := congrArg VersionListEntry.key (List.mem_singleton.mp inside)
    exact absurd other (by decide)
  · cases inside

end ObjectRows

end FastS3.Meta
