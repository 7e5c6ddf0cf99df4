import FastS3.Meta.BucketRows

namespace FastS3.Meta

open FastS3.Core Data

/-! The versions of a key as they are listed: younger ones first, one of them the latest. -/

def versionRank (version : Vk × ObjectMeta) : Int ×ₗ (Bool ×ₗ Bytesᵒᵈ) :=
  toLex (-version.2.mtime, toLex (version.1 == vkNull, OrderDual.toDual version.1))

theorem newerFirst_iff (left right : Vk × ObjectMeta) :
    newerFirst left right = true ↔ versionRank left ≤ versionRank right := by
  unfold newerFirst versionRank
  rw [Prod.Lex.toLex_le_toLex, Prod.Lex.toLex_le_toLex]
  simp only [neg_lt_neg_iff, neg_inj, OrderDual.toDual_le_toDual]
  by_cases times : left.2.mtime = right.2.mtime
  · rw [if_neg (not_not_intro times)]
    simp only [times, lt_irrefl, false_or, true_and]
    by_cases nulls : (left.1 == vkNull) = (right.1 == vkNull)
    · rw [if_neg (not_not_intro nulls)]
      simp only [nulls, lt_irrefl, false_or, true_and]
      exact decide_eq_true_iff
    · rw [if_pos nulls]
      simp only [nulls, false_and, or_false]
      cases null : (right.1 == vkNull) with
      | false =>
        rw [null] at nulls
        exact iff_of_false Bool.false_ne_true (by simp)
      | true =>
        rw [null] at nulls
        exact iff_of_true rfl (Bool.lt_iff.mpr ⟨Bool.eq_false_iff.mpr nulls, rfl⟩)
  · rw [if_pos times]
    simp only [times, false_and, or_false]
    exact decide_eq_true_iff

theorem versionRank_injective {left right : Vk × ObjectMeta}
    (same : versionRank left = versionRank right) : left.1 = right.1 := by
  have seconds := congrArg (fun rank => (ofLex (ofLex rank).2).2) same
  exact OrderDual.toDual_inj.mp seconds

instance : Std.Total fun left right => newerFirst left right = true where
  total := by
    intro left right
    rw [newerFirst_iff, newerFirst_iff]
    exact le_total _ _

instance : IsTrans (Vk × ObjectMeta) fun left right => newerFirst left right = true where
  trans := by
    intro a b c
    rw [newerFirst_iff, newerFirst_iff, newerFirst_iff]
    exact le_trans

def Placed.display (placed : Placed) : Vk × ObjectMeta :=
  (placed.1.vk.getD vkNull, placed.2)

def sortVersions (group : List Placed) : List (Vk × ObjectMeta) :=
  (group.map Placed.display).insertionSort fun left right => newerFirst left right = true

theorem gathered_versions (group : List Placed) :
    gathered gatherVersion [] group = group.map Placed.display := by
  have from' : ∀ start, gathered gatherVersion start group = start ++ group.map Placed.display := by
    induction group with
    | nil => exact fun start => (List.append_nil start).symm
    | cons placed group ih =>
      intro start
      rw [List.map_cons, List.append_cons]
      exact ih (start ++ [placed.display])
  exact from' []

structure KeyRows (group : List Placed) : Prop where
  sorted : group.Pairwise fun left right => left.1.raw < right.1.raw
  bucket : ∀ placed ∈ group, ∀ other ∈ group, placed.1.bucket = other.1.bucket
  key : ∀ placed ∈ group, ∀ other ∈ group, placed.1.key = other.1.key
  oneNull : ∀ placed ∈ group, ∀ other ∈ group, placed.1.vk = none → other.1.vk ≠ some vkNull

theorem Places.keyRows {rows : ObjectRows} {places : List Placed} (held : Places rows places)
    (bucket key : String) : KeyRows (ofKey bucket key places) where
  sorted := held.ofKey_sorted key
  bucket := by
    intro placed here other there
    rw [(mem_ofKey.mp here).2.1, (mem_ofKey.mp there).2.1]
  key := by
    intro placed here other there
    rw [(mem_ofKey.mp here).2.2, (mem_ofKey.mp there).2.2]
  oneNull := by
    intro placed here other there
    obtain ⟨stored, bucketOf, keyOf⟩ := mem_ofKey.mp here
    obtain ⟨stored', bucketOf', keyOf'⟩ := mem_ofKey.mp there
    exact rows.oneNull placed.1 other.1 placed.2 other.2 (held.mem_iff.mp stored)
      (held.mem_iff.mp stored') (bucketOf.trans bucketOf'.symm) (keyOf.trans keyOf'.symm)

namespace KeyRows

variable {group : List Placed} (rows : KeyRows group)

include rows

theorem display_ne : group.Pairwise fun left right => left.display.1 ≠ right.display.1 := by
  apply rows.sorted.imp_of_mem
  intro left right leftIn rightIn less same
  have bucketOf := rows.bucket left leftIn right rightIn
  have keyOf := rows.key left leftIn right rightIn
  unfold Placed.display at same
  cases version : left.1.vk with
  | none =>
    cases version' : right.1.vk with
    | none =>
      rw [ObjectAddress.raw, ObjectAddress.raw, bucketOf, keyOf, version, version'] at less
      exact lt_irrefl _ less
    | some vk =>
      rw [version, version'] at same
      have null : vkNull = vk := same
      exact rows.oneNull left leftIn right rightIn version (by rw [version', ← null])
  | some vk =>
    obtain ⟨vk', version', below⟩ := vk_lt_of_raw_lt bucketOf keyOf less version
    rw [version, version'] at same
    exact below.ne same

theorem sortVersions_distinct :
    (sortVersions group).Pairwise fun left right => left.1 ≠ right.1 := by
  rw [sortVersions, (List.perm_insertionSort _ _).pairwise_iff fun differ => Ne.symm differ,
    List.pairwise_map]
  exact rows.display_ne

theorem sortVersions_sorted :
    (sortVersions group).Pairwise fun left right => versionRank left < versionRank right := by
  have ordered : (sortVersions group).Pairwise fun left right => newerFirst left right = true :=
    List.pairwise_insertionSort _ _
  apply (ordered.and rows.sortVersions_distinct).imp
  rintro left right ⟨atMost, differ⟩
  exact lt_of_le_of_ne ((newerFirst_iff left right).mp atMost)
    fun same => differ (versionRank_injective same)

end KeyRows

variable {version : Vk × ObjectMeta}

theorem mem_sortVersions {group : List Placed} :
    version ∈ sortVersions group ↔ ∃ placed ∈ group, placed.display = version := by
  rw [sortVersions, List.mem_insertionSort, List.mem_map]

theorem maxByKey_mem {α ω : Type} [LinearOrder ω] {rank : α → ω} {items : List α} {best : α}
    (found : maxByKey rank items = some best) : best ∈ items := by
  induction items generalizing best with
  | nil => cases found
  | cons item items ih =>
    rw [maxByKey] at found
    split at found
    · cases found
      exact List.mem_cons_self
    · next other later =>
        split at found
        · cases found
          exact List.mem_cons_of_mem _ (ih later)
        · cases found
          exact List.mem_cons_self

theorem maxByKey_eq {α ω : Type} [LinearOrder ω] {rank : α → ω} {items : List α} {best : α}
    (inside : best ∈ items) (largest : ∀ item ∈ items, rank item ≤ rank best)
    (unique : ∀ item ∈ items, rank item = rank best → item = best) :
    maxByKey rank items = some best := by
  induction items with
  | nil => exact absurd inside List.not_mem_nil
  | cons item items ih =>
    obtain ⟨here, later⟩ := List.forall_mem_cons.mp largest
    obtain ⟨only, others⟩ := List.forall_mem_cons.mp unique
    rw [maxByKey]
    cases found : maxByKey rank items with
    | none =>
      have empty : items = [] := by
        cases items with
        | nil => rfl
        | cons other items =>
          rw [maxByKey] at found
          split at found
          · cases found
          · split at found
            · cases found
            · cases found
      rw [empty, List.mem_singleton] at inside
      rw [inside]
    | some other =>
      have member := maxByKey_mem found
      by_cases again : best ∈ items
      · rw [ih again later others] at found
        cases found
        exact if_pos here
      · have first : best = item := by
          rcases List.mem_cons.mp inside with same | behind
          · exact same
          · exact absurd behind again
        have below : ¬ rank item ≤ rank other := by
          rw [← first]
          intro atLeast
          have same := others other member (le_antisymm (later other member) atLeast)
          exact again (same ▸ member)
        simp only [if_neg below, first]

theorem d1aPickCurrent_cases {legacy nullSlot : Option ObjectMeta}
    {maxReal : Option (Vk × ObjectMeta)}
    (picked : d1aPickCurrent (·.mtime) legacy nullSlot maxReal = some version) :
    (∃ m, legacy = some m ∧ version = (vkNull, m)) ∨
      (∃ m, nullSlot = some m ∧ version = (vkNull, m)) ∨ maxReal = some version := by
  unfold d1aPickCurrent at picked
  cases legacy <;> cases nullSlot <;> cases maxReal <;> simp only at picked <;> grind

theorem d1aPickCurrent_eq_none {legacy nullSlot : Option ObjectMeta}
    {maxReal : Option (Vk × ObjectMeta)} (picked : d1aPickCurrent (·.mtime) legacy nullSlot maxReal = none) :
    legacy = none ∧ nullSlot = none ∧ maxReal = none := by
  unfold d1aPickCurrent at picked
  cases legacy <;> cases nullSlot <;> cases maxReal <;> simp only at picked <;> grind

theorem slotsOf_real (group : List Placed) :
    (slotsOf group).real = ((group.filter Placed.isReal).getLast?).map Placed.display := by
  induction group using List.reverseRecOn with
  | nil => rfl
  | append_singleton group placed ih =>
    rw [slotsOf_concat, List.filter_append, List.filter_singleton]
    cases version : placed.1.vk with
    | none => simpa [Slots.absorb, Placed.isReal, version] using ih
    | some vk =>
      rw [Slots.absorb]
      split
      · next null => simpa [Placed.isReal, version, null] using ih
      · next real => simp [Placed.isReal, version, real, Placed.display]

theorem Placed.isReal_iff (placed : Placed) : placed.isReal = true ↔ placed.display.1 ≠ vkNull := by
  unfold Placed.isReal Placed.display
  cases version : placed.1.vk with
  | none => simp
  | some vk => simp

theorem current_mem {group : List Placed} (current : (slotsOf group).current = some version) :
    version ∈ sortVersions group := by
  have legacyIn : ∀ m, (slotsOf group).legacy = some m → (vkNull, m) ∈ sortVersions group := by
    intro m found
    rw [slotsOf_legacy, Option.map_eq_some_iff] at found
    obtain ⟨placed, final, rfl⟩ := found
    obtain ⟨stored, version⟩ := List.mem_filter.mp (List.mem_of_getLast? final)
    exact mem_sortVersions.mpr ⟨placed, stored, by rw [Placed.display, of_decide_eq_true version]; rfl⟩
  have nullIn : ∀ m, (slotsOf group).nullSlot = some m → (vkNull, m) ∈ sortVersions group := by
    intro m found
    rw [slotsOf_nullSlot, Option.map_eq_some_iff] at found
    obtain ⟨placed, final, rfl⟩ := found
    obtain ⟨stored, version⟩ := List.mem_filter.mp (List.mem_of_getLast? final)
    exact mem_sortVersions.mpr ⟨placed, stored, by rw [Placed.display, of_decide_eq_true version]; rfl⟩
  have realIn : ∀ real, (slotsOf group).real = some real → real ∈ sortVersions group := by
    intro real found
    rw [slotsOf_real, Option.map_eq_some_iff] at found
    obtain ⟨placed, final, rfl⟩ := found
    exact mem_sortVersions.mpr ⟨placed, (List.mem_filter.mp (List.mem_of_getLast? final)).1, rfl⟩
  rcases d1aPickCurrent_cases current with ⟨m, found, rfl⟩ | ⟨m, found, rfl⟩ | found
  · exact legacyIn m found
  · exact nullIn m found
  · exact realIn version found

theorem exists_current {group : List Placed} (filled : group ≠ []) :
    ∃ version, (slotsOf group).current = some version := by
  cases current : (slotsOf group).current with
  | some version => exact ⟨version, rfl⟩
  | none =>
    obtain ⟨placed, stored⟩ := List.exists_mem_of_ne_nil group filled
    obtain ⟨noLegacy, noNull, noReal⟩ := d1aPickCurrent_eq_none current
    rw [slotsOf_legacy, Option.map_eq_none_iff, List.getLast?_eq_none_iff,
      List.filter_eq_nil_iff] at noLegacy
    rw [slotsOf_nullSlot, Option.map_eq_none_iff, List.getLast?_eq_none_iff,
      List.filter_eq_nil_iff] at noNull
    rw [slotsOf_real, Option.map_eq_none_iff, List.getLast?_eq_none_iff,
      List.filter_eq_nil_iff] at noReal
    exact absurd (decide_eq_true ⟨fun single => noLegacy placed stored (decide_eq_true single),
      fun null => noNull placed stored (decide_eq_true null)⟩) (noReal placed stored)

namespace KeyRows

variable {group : List Placed} (rows : KeyRows group)

include rows

theorem eq_of_display {placed other : Placed} (here : placed ∈ group) (there : other ∈ group)
    (same : placed.display.1 = other.display.1) : placed = other := by
  have nodup : (group.map fun placed => placed.display.1).Nodup := by
    rw [List.nodup_iff_pairwise_ne, List.pairwise_map]
    exact rows.display_ne
  exact List.inj_on_of_nodup_map nodup here there same

theorem maxReal_eq : maxByKey Prod.fst ((sortVersions group).filter fun version =>
    version.1 ≠ vkNull) = (slotsOf group).real := by
  have members : ∀ version, version ∈ (sortVersions group).filter (fun version =>
      version.1 ≠ vkNull) ↔ ∃ placed ∈ group.filter Placed.isReal, placed.display = version := by
    intro version
    rw [List.mem_filter, mem_sortVersions, decide_eq_true_iff]
    constructor
    · rintro ⟨⟨placed, inside, rfl⟩, real⟩
      exact ⟨placed, List.mem_filter.mpr ⟨inside, placed.isReal_iff.mpr real⟩, rfl⟩
    · rintro ⟨placed, inside, rfl⟩
      obtain ⟨stored, real⟩ := List.mem_filter.mp inside
      exact ⟨⟨placed, stored, rfl⟩, placed.isReal_iff.mp real⟩
  rw [slotsOf_real]
  cases final : (group.filter Placed.isReal).getLast? with
  | none =>
    have empty := List.getLast?_eq_none_iff.mp final
    have none : (sortVersions group).filter (fun version => version.1 ≠ vkNull) = [] := by
      apply List.eq_nil_iff_forall_not_mem.mpr
      intro version inside
      obtain ⟨placed, member, _⟩ := (members version).mp inside
      rw [empty] at member
      exact absurd member List.not_mem_nil
    rw [none]
    rfl
  | some best =>
    obtain ⟨init, cut⟩ := List.getLast?_eq_some_iff.mp final
    have stored : best ∈ group := (List.mem_filter.mp (List.mem_of_getLast? final)).1
    have atMost : ∀ placed ∈ group.filter Placed.isReal,
        placed = best ∨ placed.display.1 < best.display.1 := by
      intro placed inside
      have sorted := rows.sorted.filter Placed.isReal
      obtain ⟨here, real⟩ := List.mem_filter.mp inside
      rw [cut] at inside sorted
      rcases List.mem_append.mp inside with earlier | isLast
      · have below := (List.pairwise_append.mp sorted).2.2 placed earlier best
          (List.mem_singleton_self _)
        cases version : placed.1.vk with
        | none =>
          rw [Placed.isReal, version] at real
          simp at real
        | some vk =>
          obtain ⟨vk', version', less⟩ := vk_lt_of_raw_lt
            (rows.bucket placed here best stored) (rows.key placed here best stored) below version
          right
          rw [Placed.display, Placed.display, version, version']
          exact less
      · exact .inl (List.mem_singleton.mp isLast)
    apply maxByKey_eq
    · exact (members _).mpr ⟨best, List.mem_of_getLast? final, rfl⟩
    · intro version inside
      obtain ⟨placed, member, rfl⟩ := (members version).mp inside
      rcases atMost placed member with rfl | less
      · exact le_refl _
      · exact less.le
    · intro version inside same
      obtain ⟨placed, member, rfl⟩ := (members version).mp inside
      rcases atMost placed member with rfl | less
      · rfl
      · exact absurd same less.ne

theorem nullFamily_eq : maxByKey (fun m => m.mtime)
    (((sortVersions group).filter fun version => version.1 = vkNull).map Prod.snd) =
      (slotsOf group).legacy.or (slotsOf group).nullSlot ∧
        ((slotsOf group).legacy = none ∨ (slotsOf group).nullSlot = none) := by
  have members : ∀ m, m ∈ ((sortVersions group).filter fun version =>
      version.1 = vkNull).map Prod.snd ↔
        ∃ placed ∈ group, placed.display.1 = vkNull ∧ placed.2 = m := by
    intro m
    rw [List.mem_map]
    constructor
    · rintro ⟨version, inside, rfl⟩
      obtain ⟨sorted, null⟩ := List.mem_filter.mp inside
      obtain ⟨placed, stored, rfl⟩ := mem_sortVersions.mp sorted
      exact ⟨placed, stored, of_decide_eq_true null, rfl⟩
    · rintro ⟨placed, stored, null, rfl⟩
      exact ⟨placed.display, List.mem_filter.mpr
        ⟨mem_sortVersions.mpr ⟨placed, stored, rfl⟩, decide_eq_true null⟩, rfl⟩
  -- the one row of the null family, if there is one
  have found : ∀ placed ∈ group, placed.display.1 = vkNull → maxByKey (fun m => m.mtime)
      (((sortVersions group).filter fun version => version.1 = vkNull).map Prod.snd) =
        some placed.2 := by
    intro placed stored null
    have only : ∀ m ∈ ((sortVersions group).filter fun version => version.1 = vkNull).map Prod.snd,
        m = placed.2 := by
      intro m inside
      obtain ⟨other, stored', null', rfl⟩ := (members m).mp inside
      rw [rows.eq_of_display stored' stored (null'.trans null.symm)]
    apply maxByKey_eq
    · exact (members _).mpr ⟨placed, stored, null, rfl⟩
    · intro m inside
      rw [only m inside]
    · exact fun m inside _ => only m inside
  rw [slotsOf_legacy, slotsOf_nullSlot]
  cases single : (group.filter fun placed => placed.1.vk = none).getLast? with
  | some placed =>
    obtain ⟨stored, version⟩ := List.mem_filter.mp (List.mem_of_getLast? single)
    have none : group.filter (fun placed => placed.1.vk = some vkNull) = [] := by
      apply List.filter_eq_nil_iff.mpr
      intro other stored' null
      exact rows.oneNull placed stored other stored' (of_decide_eq_true version)
        (of_decide_eq_true null)
    refine ⟨?_, .inr (by rw [none]; rfl)⟩
    apply found placed stored
    rw [Placed.display, of_decide_eq_true version]
    rfl
  | none =>
    refine ⟨?_, .inl rfl⟩
    cases slot : (group.filter fun placed => placed.1.vk = some vkNull).getLast? with
    | some placed =>
      obtain ⟨stored, version⟩ := List.mem_filter.mp (List.mem_of_getLast? slot)
      apply found placed stored
      rw [Placed.display, of_decide_eq_true version]
      rfl
    | none =>
      have empty : ((sortVersions group).filter fun version =>
          version.1 = vkNull).map Prod.snd = [] := by
        apply List.eq_nil_iff_forall_not_mem.mpr
        intro m inside
        obtain ⟨placed, stored, null, _⟩ := (members m).mp inside
        unfold Placed.display at null
        cases version : placed.1.vk with
        | none =>
          have listed : placed ∈ group.filter (fun placed => placed.1.vk = none) :=
            List.mem_filter.mpr ⟨stored, decide_eq_true version⟩
          rw [List.getLast?_eq_none_iff.mp single] at listed
          exact absurd listed List.not_mem_nil
        | some vk =>
          rw [version] at null
          have isNull : placed.1.vk = some vkNull := version.trans (congrArg some null)
          have listed : placed ∈ group.filter (fun placed => placed.1.vk = some vkNull) :=
            List.mem_filter.mpr ⟨stored, decide_eq_true isNull⟩
          rw [List.getLast?_eq_none_iff.mp slot] at listed
          exact absurd listed List.not_mem_nil
      rw [empty]
      rfl

theorem latestVk_eq : latestVk (sortVersions group) = (slotsOf group).current.map Prod.fst := by
  obtain ⟨family, apart⟩ := rows.nullFamily_eq
  unfold latestVk Slots.current
  simp only
  rw [rows.maxReal_eq, family]
  congr 1
  unfold d1aPickCurrent
  cases legacy : (slotsOf group).legacy with
  | none => rfl
  | some l =>
    rcases apart with absent | absent
    · rw [legacy] at absent
      cases absent
    · rw [absent]
      rfl

end KeyRows

end FastS3.Meta
