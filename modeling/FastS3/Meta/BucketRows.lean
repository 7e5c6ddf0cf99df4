import FastS3.Data.Groups
import FastS3.Meta.Listing

namespace FastS3.Meta

open FastS3.Core Data

/-! The rows of a bucket, key by key, and what the scans make of them. -/

abbrev Placed := ObjectAddress × ObjectMeta

def Placed.row (placed : Placed) : Bytes × ObjectMeta :=
  (placed.1.raw, placed.2)

def Placed.key (placed : Placed) : String :=
  placed.1.key

structure Places (rows : ObjectRows) (places : List Placed) : Prop where
  entries : rows.objects.entries = places.map Placed.row
  sorted : places.Pairwise fun left right => left.1.raw < right.1.raw

theorem ObjectRows.exists_places (rows : ObjectRows) : ∃ places, Places rows places := by
  obtain ⟨places, same⟩ : ∃ places : List Placed, places.map Placed.row = rows.objects.entries := by
    have ranged : rows.objects.entries ∈ Set.range (List.map Placed.row) := by
      rw [Set.range_list_map]
      intro entry inside
      obtain ⟨place, raw⟩ := rows.addressed entry inside
      exact ⟨(place, entry.2), by rw [Placed.row, ← raw]⟩
    exact ranged
  refine ⟨places, same.symm, ?_⟩
  have sorted := rows.objects.sorted
  rw [← same, List.pairwise_map] at sorted
  exact sorted

def ObjectRows.ofPlaces (places : List Placed) (versioning : String → VersioningState)
    (sorted : places.Pairwise fun left right => left.1.raw < right.1.raw)
    (oneNull : ∀ placed ∈ places, ∀ other ∈ places, placed.1.bucket = other.1.bucket →
      placed.1.key = other.1.key → placed.1.vk = none → other.1.vk ≠ some vkNull)
    (plain : ∀ placed ∈ places, versioning placed.1.bucket = .off →
      placed.1.vk = none ∧ placed.2.isDeleteMarker = false) : ObjectRows where
  objects := ⟨places.map Placed.row, List.pairwise_map.mpr sorted⟩
  versioning := versioning
  addressed := by
    intro entry inside
    obtain ⟨placed, _, rfl⟩ := List.mem_map.mp inside
    exact ⟨placed.1, rfl⟩
  oneNull := by
    intro place other m m' first second
    obtain ⟨placed, here, same⟩ := List.mem_map.mp first
    obtain ⟨placed', there, same'⟩ := List.mem_map.mp second
    obtain rfl : placed.1 = place := ObjectAddress.ext_raw (congrArg Prod.fst same)
    obtain rfl : placed'.1 = other := ObjectAddress.ext_raw (congrArg Prod.fst same')
    exact oneNull placed here placed' there
  plain := by
    intro place m off stored
    obtain ⟨placed, here, same⟩ := List.mem_map.mp stored
    obtain rfl : placed.1 = place := ObjectAddress.ext_raw (congrArg Prod.fst same)
    obtain rfl : placed.2 = m := congrArg Prod.snd same
    exact plain placed here off

def ObjectAddress.tail (place : ObjectAddress) : Bytes :=
  match place.vk with
  | none => []
  | some vk => 0 :: vk

theorem ObjectAddress.rest_eq (place : ObjectAddress) :
    place.rest = escape (utf8 place.key) ++ place.tail :=
  rfl

theorem ObjectAddress.endsKey (place : ObjectAddress) : EndsKey place.tail := by
  unfold ObjectAddress.tail
  cases place.vk with
  | none => exact fun first held => nomatch held
  | some vk => exact fun first held => (Option.some.inj held).symm

theorem rest_lt_escape_iff (place : ObjectAddress) (marker : Bytes) :
    place.rest < escape marker ↔ escape (utf8 place.key) < escape marker := by
  rw [place.rest_eq]
  by_cases same : utf8 place.key = marker
  · subst same
    exact iff_of_false (not_append_lt _ _) (lt_irrefl _)
  · have nothing : EndsKey [] := fun first held => nomatch held
    have compared := escape_rows_lt_iff same place.endsKey nothing
    rwa [List.append_nil] at compared

variable {place other : ObjectAddress}

theorem raw_lt_raw_iff (same : place.bucket = other.bucket) :
    place.raw < other.raw ↔ place.rest < other.rest := by
  rw [place.raw_eq, other.raw_eq, same, append_lt_append_iff]

theorem escape_le_of_raw_lt (same : place.bucket = other.bucket) (less : place.raw < other.raw) :
    escape (utf8 place.key) ≤ escape (utf8 other.key) := by
  apply not_lt.mp
  intro after
  rw [raw_lt_raw_iff same] at less
  have differ : utf8 other.key ≠ utf8 place.key := by
    intro equal
    rw [equal] at after
    exact lt_irrefl _ after
  have reversed := (escape_rows_lt_iff differ other.endsKey place.endsKey).mpr after
  exact lt_asymm less reversed

theorem vk_lt_of_raw_lt (same : place.bucket = other.bucket) (sameKey : place.key = other.key)
    (less : place.raw < other.raw) {vk : Vk} (version : place.vk = some vk) :
    ∃ vk', other.vk = some vk' ∧ vk < vk' := by
  rw [raw_lt_raw_iff same, ObjectAddress.rest_eq, ObjectAddress.rest_eq, sameKey,
    append_lt_append_iff, ObjectAddress.tail, ObjectAddress.tail, version] at less
  cases version' : other.vk with
  | none =>
    rw [version'] at less
    exact absurd less (List.not_lt_nil _)
  | some vk' =>
    rw [version'] at less
    rcases List.cons_lt_cons_iff.mp less with below | ⟨_, rest⟩
    · exact absurd below (lt_irrefl _)
    · exact ⟨vk', rfl, rest⟩

theorem takeWhile_eq_filter {α : Type} {p : α → Bool} {items : List α}
    (closed : items.Pairwise fun left right => p right = true → p left = true) :
    items.takeWhile p = items.filter p := by
  induction items with
  | nil => rfl
  | cons item items ih =>
    obtain ⟨first, rest⟩ := List.pairwise_cons.mp closed
    cases kept : p item with
    | true => rw [List.takeWhile_cons_of_pos kept, List.filter_cons_of_pos kept, ih rest]
    | false =>
      have none : items.filter p = [] := by
        rw [List.filter_eq_nil_iff]
        intro other inside holds
        rw [first other inside holds] at kept
        cases kept
      rw [List.takeWhile_cons_of_neg (by simp [kept]), List.filter_cons_of_neg (by simp [kept]),
        none]

def inBucket (bucket : String) (places : List Placed) : List Placed :=
  places.filter fun placed => placed.1.bucket = bucket

def reached (after : Option Bytes) (key : String) : Bool :=
  match after with
  | none => true
  | some marker => escape marker ≤ escape (utf8 key)

namespace Places

variable {rows : ObjectRows} {places : List Placed} (held : Places rows places) {bucket : String}

include held

theorem mem_iff {placed : Placed} : placed ∈ places ↔ placed.row ∈ rows.objects.entries := by
  rw [held.entries, List.mem_map]
  constructor
  · intro inside
    exact ⟨placed, inside, rfl⟩
  · rintro ⟨other, inside, same⟩
    have place := ObjectAddress.ext_raw (congrArg Prod.fst same)
    have value := congrArg Prod.snd same
    rwa [← Prod.ext place value]

theorem scanFrom_eq (noNul : 0 ∉ utf8 bucket) (after : Option Bytes) :
    rows.scanFrom bucket after =
      ((inBucket bucket places).filter fun placed => reached after placed.key).map Placed.row := by
  have start : ∀ placed : Placed, placed.1.bucket = bucket →
      (scanStart bucket after ≤ placed.1.raw ↔ reached after placed.key = true) := by
    rintro placed rfl
    cases after with
    | none => exact iff_of_true (le_of_begins ((objectPrefix_iff placed.1.noNul _).mpr rfl)) rfl
    | some marker =>
      rw [reached, scanStart, placed.1.raw_eq, ← not_lt, append_lt_append_iff, rest_lt_escape_iff, not_lt]
      exact decide_eq_true_iff.symm
  have above : objectPrefix bucket ≤ scanStart bucket after := by
    cases after with
    | none => exact le_refl _
    | some marker => exact le_of_begins (List.prefix_append _ _)
  rw [ObjectRows.scanFrom, takeWhile_eq_filter, held.entries, List.filter_map, List.filter_map, List.filter_filter,
    inBucket, List.filter_filter]
  · congr 1
    apply List.filter_congr
    intro placed inside
    rw [Bool.eq_iff_iff, Bool.and_eq_true, Bool.and_eq_true]
    simp only [Function.comp_apply, Placed.row, List.isPrefixOf_iff_prefix, decide_eq_true_eq,
      objectPrefix_iff noNul]
    constructor
    · rintro ⟨here, behind⟩
      exact ⟨(start placed here).mp (of_decide_eq_true behind), here⟩
    · rintro ⟨behind, here⟩
      exact ⟨here, decide_eq_true ((start placed here).mpr behind)⟩
  · apply (rows.objects.sorted.filter _).imp_of_mem
    intro left right leftIn _ less begins
    have low := of_decide_eq_true (List.mem_filter.mp leftIn).2
    rw [List.isPrefixOf_iff_prefix] at begins ⊢
    exact prefix_of_between begins (above.trans low) less

theorem sorted_keys (bucket : String) : (inBucket bucket places).Pairwise fun left right =>
    escape (utf8 left.key) ≤ escape (utf8 right.key) := by
  apply (held.sorted.filter _).imp_of_mem
  intro left right leftIn rightIn less
  have here := of_decide_eq_true (List.mem_filter.mp leftIn).2
  have there := of_decide_eq_true (List.mem_filter.mp rightIn).2
  exact escape_le_of_raw_lt (here.trans there.symm) less

theorem contiguous (bucket : String) : Contiguous Placed.key (inBucket bucket places) := by
  apply contiguous_of_sorted (fun key => escape (utf8 key)) _ (held.sorted_keys bucket)
  intro left right same
  exact utf8_injective (escape_injective same)

end Places

/-- Steps over a list, until one answers `false`. -/
def runUntil {β σ : Type} (step : β → σ → Bool × σ) : List β → σ → Bool × σ
  | [], st => (true, st)
  | item :: rest, st =>
    let taken := step item st
    if taken.1 then runUntil step rest taken.2 else taken

section Run

variable {β β' σ : Type}

theorem runUntil_filterMap (choose : β → Option β') (step : β' → σ → Bool × σ) (items : List β)
    (st : σ) :
    runUntil (fun item st => match choose item with
      | none => (true, st)
      | some chosen => step chosen st) items st = runUntil step (items.filterMap choose) st := by
  induction items generalizing st with
  | nil => rfl
  | cons item items ih =>
    rw [runUntil, List.filterMap_cons]
    cases choose item with
    | none => exact ih st
    | some chosen =>
      simp only [runUntil]
      split
      · exact ih _
      · rfl

theorem runUntil_filter {step : β → σ → Bool × σ} {p : β → Bool}
    (skips : ∀ item st, p item = false → step item st = (true, st)) (items : List β) (st : σ) :
    runUntil step items st = runUntil step (items.filter p) st := by
  induction items generalizing st with
  | nil => rfl
  | cons item items ih =>
    cases kept : p item with
    | false =>
      rw [List.filter_cons_of_neg (by simp [kept]), runUntil, skips item st kept]
      exact ih st
    | true =>
      rw [List.filter_cons_of_pos kept, runUntil, runUntil]
      simp only [ih]

theorem runUntil_skip {step : β → σ → Bool × σ} {part : List β} {st : σ}
    (skips : ∀ item ∈ part, step item st = (true, st)) (rest : List β) :
    runUntil step (part ++ rest) st = runUntil step rest st := by
  induction part with
  | nil => rfl
  | cons item part ih =>
    obtain ⟨here, later⟩ := List.forall_mem_cons.mp skips
    rw [List.cons_append, runUntil, here]
    exact ih later

theorem runUntil_congr {step step' : β → σ → Bool × σ} {items : List β}
    (same : ∀ item ∈ items, step item = step' item) (st : σ) :
    runUntil step items st = runUntil step' items st := by
  induction items generalizing st with
  | nil => rfl
  | cons item items ih =>
    obtain ⟨here, later⟩ := List.forall_mem_cons.mp same
    simp only [runUntil, here, ih later]

end Run

section Loop

variable {γ σ : Type} (gather : γ → Option Vk → ObjectMeta → γ) (fresh : γ)
  (emit : String → γ → σ → Bool × σ)

def gathered (start : γ) (group : List Placed) : γ :=
  group.foldl (fun value placed => gather value placed.1.vk placed.2) start

theorem scanGroups_group {key : String} {group : List Placed}
    (keyed : ∀ placed ∈ group, placed.key = key) (rest : List (Bytes × ObjectMeta)) (start : γ)
    (st : σ) :
    scanGroups gather fresh emit (group.map Placed.row ++ rest) (some (key, start)) st =
      scanGroups gather fresh emit rest (some (key, gathered gather start group)) st := by
  induction group generalizing start with
  | nil => rfl
  | cons placed group ih =>
    obtain ⟨here, later⟩ := List.forall_mem_cons.mp keyed
    have same : key = placed.1.key := here.symm
    rw [List.map_cons, List.cons_append, Placed.row, scanGroups, parseObjectVersionKey_raw]
    simp only [bind, Except.bind, if_pos same]
    rw [← same]
    exact ih later _

theorem scanGroups_held {groups : List (String × List Placed)} {rows : List Placed}
    (grouped : Grouped Placed.key rows groups) {key : String} (fresh' : key ∉ groups.map Prod.fst)
    (start : γ) (st : σ) :
    scanGroups gather fresh emit (rows.map Placed.row) (some (key, start)) st =
      .ok (if (emit key start st).1 then
          runUntil (fun group => emit group.1 (gathered gather fresh group.2)) groups
            (emit key start st).2
        else emit key start st) := by
  induction groups generalizing rows key start st with
  | nil =>
    rw [← grouped.flat]
    simp only [List.flatMap_nil, List.map_nil, scanGroups, runUntil]
    split
    · next taken => exact congrArg Except.ok (Prod.ext taken rfl)
    · rfl
  | cons group groups ih =>
    obtain ⟨next, members⟩ := group
    obtain ⟨placed, others, rfl⟩ := List.exists_cons_of_ne_nil
      (grouped.filled _ List.mem_cons_self)
    have keyed := grouped.keyed _ List.mem_cons_self
    have first : placed.1.key = next := keyed placed List.mem_cons_self
    have differs : key ≠ placed.1.key := by
      rw [first]
      exact List.ne_of_not_mem_cons fresh'
    have unheld : next ∉ groups.map Prod.fst := (List.nodup_cons.mp grouped.nodup).1
    rw [← grouped.flat, List.flatMap_cons, List.cons_append, List.map_cons, Placed.row,
      scanGroups, parseObjectVersionKey_raw, List.map_append]
    simp only [bind, Except.bind, if_neg differs]
    cases taken : (emit key start st).1 with
    | false => rfl
    | true =>
      simp only [if_true, first]
      rw [scanGroups_group gather fresh emit
        (fun other inside => keyed other (List.mem_cons_of_mem _ inside)),
        ih grouped.tail unheld]
      rfl

theorem scanGroups_eq {groups : List (String × List Placed)} {rows : List Placed}
    (grouped : Grouped Placed.key rows groups) (st : σ) :
    scanGroups gather fresh emit (rows.map Placed.row) none st =
      .ok (runUntil (fun group => emit group.1 (gathered gather fresh group.2)) groups st) := by
  cases groups with
  | nil =>
    rw [← grouped.flat]
    rfl
  | cons group groups =>
    obtain ⟨next, members⟩ := group
    obtain ⟨placed, others, rfl⟩ := List.exists_cons_of_ne_nil
      (grouped.filled _ List.mem_cons_self)
    have keyed := grouped.keyed _ List.mem_cons_self
    have first : placed.1.key = next := keyed placed List.mem_cons_self
    have unheld : next ∉ groups.map Prod.fst := (List.nodup_cons.mp grouped.nodup).1
    rw [← grouped.flat, List.flatMap_cons, List.cons_append, List.map_cons, Placed.row,
      scanGroups, parseObjectVersionKey_raw, List.map_append]
    simp only [bind, Except.bind, first]
    rw [scanGroups_group gather fresh emit
      (fun other inside => keyed other (List.mem_cons_of_mem _ inside)),
      scanGroups_held gather fresh emit grouped.tail unheld]
    rfl

end Loop

def slotsOf (group : List Placed) : Slots :=
  gathered Slots.absorb .empty group

theorem slotsOf_concat (group : List Placed) (placed : Placed) :
    slotsOf (group ++ [placed]) = (slotsOf group).absorb placed.1.vk placed.2 := by
  rw [slotsOf, gathered, List.foldl_append]
  rfl

def Placed.isReal (placed : Placed) : Bool :=
  placed.1.vk ≠ none ∧ placed.1.vk ≠ some vkNull

theorem slotsOf_legacy (group : List Placed) : (slotsOf group).legacy =
    ((group.filter fun placed => placed.1.vk = none).getLast?).map Prod.snd := by
  induction group using List.reverseRecOn with
  | nil => rfl
  | append_singleton group placed ih =>
    rw [slotsOf_concat, List.filter_append, List.filter_singleton]
    cases version : placed.1.vk with
    | none => simp [Slots.absorb]
    | some vk =>
      rw [Slots.absorb]
      split
      · simpa using ih
      · simpa using ih

theorem slotsOf_nullSlot (group : List Placed) : (slotsOf group).nullSlot =
    ((group.filter fun placed => placed.1.vk = some vkNull).getLast?).map Prod.snd := by
  induction group using List.reverseRecOn with
  | nil => rfl
  | append_singleton group placed ih =>
    rw [slotsOf_concat, List.filter_append, List.filter_singleton]
    cases version : placed.1.vk with
    | none => simpa [Slots.absorb] using ih
    | some vk =>
      rw [Slots.absorb]
      split
      · next null => simp [null]
      · next real => simpa [real] using ih

theorem not_vkNull_lt {vk : Vk} (sized : vk.length = 16) : ¬ vkNull < vk := by
  have below : ∀ bytes : Bytes, ¬ List.replicate bytes.length 0xFF < bytes := by
    intro bytes
    induction bytes with
    | nil => exact List.not_lt_nil _
    | cons b bytes ih =>
      rw [List.length_cons, List.replicate_succ, List.cons_lt_cons_iff]
      rintro (above | ⟨_, rest⟩)
      · exact absurd (Nat.le_of_lt_succ b.toNat_lt) (not_le.mpr (UInt8.lt_iff_toNat_lt.mp above))
      · exact ih rest
  have bounded := below vk
  rwa [sized] at bounded

/-- The versions of a key, downwards: the null slot if it is met, then the first other. -/
def tipOf : List Placed → Option ObjectMeta → Option ObjectMeta × Option (Vk × ObjectMeta)
  | [], nullSlot => (nullSlot, none)
  | placed :: rest, nullSlot =>
    match placed.1.vk with
    | none => tipOf rest nullSlot
    | some vk => if vk = vkNull then tipOf rest (some placed.2) else (nullSlot, some (vk, placed.2))

theorem tipOf_real {versions : List Placed} (real : ∀ placed ∈ versions, placed.1.vk ≠ some vkNull)
    (nullSlot : Option ObjectMeta) : tipOf versions nullSlot = (nullSlot, (tipOf versions none).2) := by
  induction versions with
  | nil => rfl
  | cons placed versions ih =>
    obtain ⟨here, later⟩ := List.forall_mem_cons.mp real
    simp only [tipOf]
    cases version : placed.1.vk with
    | none => exact ih later
    | some vk =>
      have other : vk ≠ vkNull := fun same => here (version.trans (congrArg some same))
      simp only [if_neg other]

theorem tipOf_slots {bucket key : String} {group : List Placed}
    (sorted : group.Pairwise fun left right => left.1.raw < right.1.raw)
    (same : ∀ placed ∈ group, placed.1.bucket = bucket ∧ placed.1.key = key) :
    tipOf group.reverse none = ((slotsOf group).nullSlot, (slotsOf group).real) := by
  induction group using List.reverseRecOn with
  | nil => rfl
  | append_singleton group placed ih =>
    obtain ⟨earlier, _, before⟩ := List.pairwise_append.mp sorted
    have members : ∀ other ∈ group, other.1.bucket = bucket ∧ other.1.key = key :=
      fun other inside => same other (List.mem_append_left _ inside)
    obtain ⟨bucketOf, keyOf⟩ := same placed (List.mem_append_right _ (List.mem_singleton_self _))
    have found := ih earlier members
    -- an earlier row is no null slot, because that is above this one
    have real : placed.1.vk ≠ none → ∀ other ∈ group, other.1.vk ≠ some vkNull := by
      intro versioned other inside null
      obtain ⟨bucketOf', keyOf'⟩ := members other inside
      obtain ⟨vk, version, above⟩ := vk_lt_of_raw_lt (bucketOf'.trans bucketOf.symm)
        (keyOf'.trans keyOf.symm) (before other inside placed (List.mem_singleton_self _)) null
      exact not_vkNull_lt (placed.1.sized vk version) above
    rw [slotsOf_concat, List.reverse_append, List.reverse_singleton, List.singleton_append, tipOf]
    cases version : placed.1.vk with
    | none => exact found
    | some vk =>
      have others := real (version ▸ Option.some_ne_none vk)
      simp only [Slots.absorb]
      split
      · rw [tipOf_real fun other inside => others other (List.mem_reverse.mp inside), found]
      · have nothing : (slotsOf group).nullSlot = none := by
          have filtered : group.filter (fun placed => placed.1.vk = some vkNull) = [] := by
            rw [List.filter_eq_nil_iff]
            intro other inside
            simpa using others other inside
          rw [slotsOf_nullSlot, filtered]
          rfl
        rw [nothing]

theorem tipLoop_eq {bucket : String} (noNul : 0 ∉ utf8 bucket) (key : String)
    {places : List Placed}
    (descending : places.Pairwise fun left right => right.1.raw < left.1.raw)
    (nullSlot : Option ObjectMeta) :
    tipLoop (objectKeyPrefix bucket key) (places.map Placed.row) nullSlot =
      .ok (tipOf (places.filter fun placed =>
        placed.1.bucket = bucket ∧ placed.1.key = key ∧ placed.1.vk ≠ none) nullSlot) := by
  induction places generalizing nullSlot with
  | nil => rfl
  | cons placed places ih =>
    obtain ⟨below, rest⟩ := List.pairwise_cons.mp descending
    have prefixed : ∀ other : Placed, objectKeyPrefix bucket key <+: other.1.raw ↔
        other.1.bucket = bucket ∧ other.1.key = key ∧ other.1.vk ≠ none :=
      fun other => objectKeyPrefix_iff noNul key other.1
    rw [List.map_cons, Placed.row, tipLoop]
    by_cases begins : objectKeyPrefix bucket key <+: placed.1.raw
    · rw [List.isPrefixOf_iff_prefix.mpr begins, parseObjectVersionKey_raw,
        List.filter_cons, if_pos (decide_eq_true ((prefixed placed).mp begins)), tipOf]
      obtain ⟨vk, version⟩ := Option.ne_none_iff_exists'.mp ((prefixed placed).mp begins).2.2
      simp only [version, Bool.not_true, Bool.false_eq_true, if_false, orCorrupt, bind, Except.bind]
      split
      · exact ih rest _
      · rfl
    · rw [Bool.eq_false_iff.mpr (mt List.isPrefixOf_iff_prefix.mp begins),
        List.filter_cons_of_neg (by simpa using mt (prefixed placed).mpr begins)]
      simp only [Bool.not_false, if_true]
      split
      · next under =>
          have none : places.filter (fun other => other.1.bucket = bucket ∧ other.1.key = key ∧
              other.1.vk ≠ none) = [] := by
            rw [List.filter_eq_nil_iff]
            intro other inside holds
            have above := le_of_begins ((prefixed other).mpr (of_decide_eq_true holds))
            exact absurd ((below other inside).trans under) (not_lt.mpr above)
          rw [none]
          rfl
      · exact ih rest nullSlot

def ofKey (bucket key : String) (places : List Placed) : List Placed :=
  (inBucket bucket places).filter fun placed => placed.key = key

theorem mem_ofKey {bucket key : String} {places : List Placed} {placed : Placed} :
    placed ∈ ofKey bucket key places ↔
      placed ∈ places ∧ placed.1.bucket = bucket ∧ placed.1.key = key := by
  rw [ofKey, inBucket, List.mem_filter, List.mem_filter, decide_eq_true_iff, decide_eq_true_iff,
    and_assoc]
  rfl

theorem tipOf_versions (versions : List Placed) (nullSlot : Option ObjectMeta) :
    tipOf (versions.filter fun placed => placed.1.vk ≠ none) nullSlot = tipOf versions nullSlot := by
  induction versions generalizing nullSlot with
  | nil => rfl
  | cons placed versions ih =>
    cases version : placed.1.vk with
    | none =>
      rw [List.filter_cons_of_neg (by simp [version]), tipOf, version]
      exact ih nullSlot
    | some vk =>
      rw [List.filter_cons_of_pos (by simp [version]), tipOf, tipOf, version]
      simp only [ih]

namespace Places

variable {rows : ObjectRows} {places : List Placed} (held : Places rows places) {bucket : String}
  (noNul : 0 ∉ utf8 bucket) (key : String)

include held

theorem grouped (bucket : String) : Grouped Placed.key (inBucket bucket places)
    (groupsOf Placed.key (inBucket bucket places)) :=
  groupsOf_grouped (held.contiguous bucket)

theorem group_eq {group : String × List Placed}
    (inside : group ∈ groupsOf Placed.key (inBucket bucket places)) :
    group.2 = ofKey bucket group.1 places :=
  (held.grouped bucket).eq_filter inside

theorem groups_sorted (bucket : String) : (groupsOf Placed.key (inBucket bucket places)).Pairwise
    fun first second => escape (utf8 first.1) < escape (utf8 second.1) := by
  have ordered := (held.grouped bucket).pairwise (held.sorted_keys bucket)
  have nodup := (held.grouped bucket).nodup
  rw [List.nodup_iff_pairwise_ne, List.pairwise_map] at nodup
  apply (ordered.and nodup).imp_of_mem
  intro first second firstIn secondIn below
  obtain ⟨row, member, _, named⟩ := (held.grouped bucket).exists_row firstIn
  obtain ⟨row', member', _, named'⟩ := (held.grouped bucket).exists_row secondIn
  have atMost := below.1 row member row' member'
  rw [named, named'] at atMost
  apply lt_of_le_of_ne atMost
  intro same
  exact below.2 (utf8_injective (escape_injective same))

theorem ofKey_sorted : (ofKey bucket key places).Pairwise fun left right =>
    left.1.raw < right.1.raw :=
  (held.sorted.filter _).filter _

include noNul

theorem versionScanTip_eq : rows.versionScanTip bucket key =
    .ok ((slotsOf (ofKey bucket key places)).nullSlot, (slotsOf (ofKey bucket key places)).real) := by
  have upper : ∀ placed : Placed, placed.1.bucket = bucket → placed.1.key = key →
      placed.1.vk ≠ none → placed.1.raw ≤ objectRawKey bucket key none ++ [0x01] := by
    rintro placed rfl rfl versioned
    have begins := (objectKeyPrefix_iff placed.1.noNul placed.1.key placed.1).mpr
      ⟨rfl, rfl, versioned⟩
    obtain ⟨vk, raw⟩ := begins
    rw [← raw, objectKeyPrefix, List.append_assoc]
    apply le_of_lt
    rw [append_lt_append_iff]
    exact List.cons_lt_cons_iff.mpr (.inl (by decide))
  have lower : (rows.objects.entries.filter fun entry =>
      entry.1 ≤ objectRawKey bucket key none ++ [0x01]) =
        (places.filter fun placed => placed.1.raw ≤ objectRawKey bucket key none ++ [0x01]).map
          Placed.row := by
    rw [held.entries, List.filter_map]
    rfl
  rw [ObjectRows.versionScanTip, lower, ← List.map_reverse, tipLoop_eq noNul key]
  · have kept : ((places.filter fun placed =>
        placed.1.raw ≤ objectRawKey bucket key none ++ [0x01]).reverse.filter fun placed =>
          placed.1.bucket = bucket ∧ placed.1.key = key ∧ placed.1.vk ≠ none) =
        (ofKey bucket key places).reverse.filter fun placed => placed.1.vk ≠ none := by
      rw [List.filter_reverse, List.filter_reverse, List.filter_filter, ofKey, inBucket,
        List.filter_filter, List.filter_filter]
      congr 1
      apply List.filter_congr
      intro placed _
      rw [Bool.eq_iff_iff, Bool.and_eq_true, Bool.and_eq_true, Bool.and_eq_true,
        decide_eq_true_iff, decide_eq_true_iff, decide_eq_true_iff, decide_eq_true_iff,
        decide_eq_true_iff]
      constructor
      · rintro ⟨⟨here, same, versioned⟩, _⟩
        exact ⟨⟨versioned, same⟩, here⟩
      · rintro ⟨⟨versioned, same⟩, here⟩
        exact ⟨⟨here, same, versioned⟩, upper placed here same versioned⟩
    rw [kept, tipOf_versions, tipOf_slots (held.ofKey_sorted key)
      fun placed inside => (mem_ofKey.mp inside).2]
  · rw [List.pairwise_reverse]
    exact held.sorted.filter _

theorem getObject_eq : rows.getObject bucket key = (slotsOf (ofKey bucket key places)).legacy := by
  have stored : ∀ m, rows.getObject bucket key = some m ↔
      ∃ placed ∈ ofKey bucket key places, placed.1.vk = none ∧ placed.2 = m := by
    intro m
    rw [ObjectRows.getObject, BTreeMap.get?_eq_some_iff]
    constructor
    · intro inside
      have listed := inside
      rw [held.entries, List.mem_map] at listed
      obtain ⟨placed, member, same⟩ := listed
      have place : placed.1 = ⟨bucket, key, none, noNul, by rintro _ ⟨⟩⟩ :=
        ObjectAddress.ext_raw (congrArg Prod.fst same)
      refine ⟨placed, mem_ofKey.mpr ⟨member, ?_, ?_⟩, ?_, congrArg Prod.snd same⟩
      · rw [place]
      · rw [place]
      · rw [place]
    · rintro ⟨placed, member, single, rfl⟩
      obtain ⟨inside, rfl, rfl⟩ := mem_ofKey.mp member
      have row := held.mem_iff.mp inside
      rwa [Placed.row, ObjectAddress.raw, single] at row
  rw [slotsOf_legacy]
  cases final : ((ofKey bucket key places).filter fun placed => placed.1.vk = none).getLast? with
  | none =>
    rw [Option.map_none]
    apply Option.eq_none_iff_forall_ne_some.mpr
    intro m found
    obtain ⟨placed, member, single, _⟩ := (stored m).mp found
    have empty := List.getLast?_eq_none_iff.mp final
    exact absurd (List.mem_filter.mpr ⟨member, decide_eq_true single⟩)
      (empty ▸ List.not_mem_nil)
  | some placed =>
    rw [Option.map_some]
    obtain ⟨member, single⟩ := List.mem_filter.mp (List.mem_of_getLast? final)
    exact (stored placed.2).mpr ⟨placed, member, of_decide_eq_true single, rfl⟩

theorem getCurrentVersion_eq :
    rows.getCurrentVersion bucket key = .ok (slotsOf (ofKey bucket key places)).current := by
  rw [ObjectRows.getCurrentVersion, held.versionScanTip_eq noNul, held.getObject_eq noNul]
  rfl

end Places

namespace ObjectRows

def emptyObject : ObjectMeta :=
  { size := 0, mtime := 0, extents := [], inline := none, parts := [], versionId := none
    isDeleteMarker := false, sse := none, compressed := none, storageClass := none
    restoreState := none, tags := [], retention := none, legalHold := false }

def photoKey (key : String) : Placed :=
  (.single "photos" key photos_valid, emptyObject)

def twoKeys (first second : String)
    (sorted : objectRawKey "photos" first none < objectRawKey "photos" second none) : ObjectRows :=
  .ofPlaces [photoKey first, photoKey second] (fun _ => .off)
    (List.pairwise_pair.mpr sorted)
    (by
      intro placed here other there _ _ _ null
      rcases List.mem_pair.mp there with rfl | rfl
      · cases null
      · cases null)
    (by
      intro placed here _
      rcases List.mem_pair.mp here with rfl | rfl
      · exact ⟨rfl, rfl⟩
      · exact ⟨rfl, rfl⟩)

def plainKeys : ObjectRows :=
  twoKeys "a" "b" (by decide +kernel)

def nulKeys : ObjectRows :=
  twoKeys "ab" "a\x00" (by decide +kernel)

end ObjectRows

end FastS3.Meta
