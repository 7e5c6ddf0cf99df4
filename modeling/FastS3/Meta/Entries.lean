import FastS3.Data.Groups
import FastS3.Data.Paging
import FastS3.Meta.Listing

namespace FastS3.Meta

open FastS3.Core Data

/-! The entries that keys are listed under.

Keys that go on behind a delimiter roll up to a common prefix.  The keys of an entry stand
together in the order of escaped keys, which is that of the entries unless these split at a
NUL byte.
-/

theorem underPrefix_iff {keyPrefix : Bytes} {key : String} :
    underPrefix keyPrefix key = true ↔ keyPrefix <+: utf8 key := by
  rw [underPrefix, Bool.or_eq_true, decide_eq_true_iff, List.isPrefixOf_iff_prefix]
  constructor
  · rintro (rfl | begins)
    · exact List.nil_prefix
    · exact begins
  · exact .inr

section Find

variable {needle : Bytes} (nonempty : needle ≠ [])

theorem findText_bound {text : Bytes} {i : Nat} (found : findText needle text = some i) :
    i + needle.length ≤ text.length := by
  induction text generalizing i with
  | nil =>
    rw [findText] at found
    split at found
    · next empty =>
        cases found
        rw [empty]
        exact Nat.le_refl _
    · cases found
  | cons b text ih =>
    rw [findText] at found
    split at found
    · next begins =>
        cases found
        rw [Nat.zero_add]
        exact (List.isPrefixOf_iff_prefix.mp begins).length_le
    · obtain ⟨j, later, rfl⟩ := Option.map_eq_some_iff.mp found
      have bound := ih later
      rw [List.length_cons]
      omega

include nonempty

theorem findText_take {text : Bytes} {i : Nat} (found : findText needle text = some i)
    (tail : Bytes) : findText needle (text.take (i + needle.length) ++ tail) = some i := by
  induction text generalizing i with
  | nil =>
    rw [findText, if_neg nonempty] at found
    cases found
  | cons b text ih =>
    have bound := findText_bound found
    rw [findText] at found
    split at found
    · next begins =>
        cases found
        have front := List.prefix_iff_eq_take.mp (List.isPrefixOf_iff_prefix.mp begins)
        rw [Nat.zero_add, ← front]
        obtain ⟨c, rest, rfl⟩ := List.exists_cons_of_ne_nil nonempty
        rw [List.cons_append, findText, if_pos]
        rw [List.isPrefixOf_iff_prefix, ← List.cons_append]
        exact List.prefix_append _ _
    · next differs =>
        obtain ⟨j, later, rfl⟩ := Option.map_eq_some_iff.mp found
        have shift : j + 1 + needle.length = j + needle.length + 1 := by omega
        rw [shift, List.take_succ_cons, List.cons_append, findText, if_neg, ih later]
        · rfl
        · intro begins
          have whole : needle <+: b :: text.take (j + needle.length) := by
            apply List.prefix_of_prefix_length_le (List.isPrefixOf_iff_prefix.mp begins)
            · rw [← List.cons_append]
              exact List.prefix_append _ _
            · rw [List.length_cons, List.length_take]
              rw [List.length_cons] at bound
              omega
          apply differs
          rw [List.isPrefixOf_iff_prefix]
          exact whole.trans (List.cons_prefix_cons.mpr ⟨rfl, List.take_prefix _ _⟩)

end Find

namespace Query

variable {query : Query} {key : Bytes}

theorem entryOf_key (single : (query.entryOf key).2 = false) : (query.entryOf key).1 = key := by
  unfold entryOf at single ⊢
  cases delimited : query.delimiter with
  | none => rfl
  | some delimiter =>
    simp only [delimited] at single ⊢
    split
    · rfl
    · next filled =>
        rw [if_neg filled] at single
        cases found : findText delimiter (key.drop (min query.keyPrefix.length key.length)) with
        | none => rfl
        | some i =>
          rw [found] at single
          cases single

theorem entryOf_rolled {rest : Bytes} (rolls : (query.entryOf (query.keyPrefix ++ rest)).2 = true) :
    ∃ delimiter i, query.delimiter = some delimiter ∧ delimiter ≠ [] ∧
      findText delimiter rest = some i ∧
      query.entryOf (query.keyPrefix ++ rest) =
        (query.keyPrefix ++ rest.take (i + delimiter.length), true) := by
  have behind : (query.keyPrefix ++ rest).drop
      (min query.keyPrefix.length (query.keyPrefix ++ rest).length) = rest := by
    rw [List.length_append, Nat.min_eq_left (Nat.le_add_right _ _), List.drop_left]
  unfold entryOf at rolls ⊢
  cases delimited : query.delimiter with
  | none =>
    rw [delimited] at rolls
    cases rolls
  | some delimiter =>
    simp only [delimited, behind] at rolls ⊢
    split at rolls
    · cases rolls
    · next filled =>
        cases found : findText delimiter rest with
        | none =>
          rw [found] at rolls
          cases rolls
        | some i => exact ⟨delimiter, i, rfl, filled, found, by rw [if_neg filled]⟩

theorem entryOf_prefix (under : query.keyPrefix <+: key) : (query.entryOf key).1 <+: key := by
  obtain ⟨rest, rfl⟩ := under
  cases rolls : (query.entryOf (query.keyPrefix ++ rest)).2 with
  | false => rw [entryOf_key rolls]
  | true =>
    obtain ⟨delimiter, i, _, _, _, entry⟩ := entryOf_rolled rolls
    rw [entry, List.prefix_append_right_inj]
    exact List.take_prefix _ _

theorem entryOf_of_prefix {other : Bytes} (under : query.keyPrefix <+: key)
    (rolls : (query.entryOf key).2 = true) (begins : (query.entryOf key).1 <+: other) :
    query.entryOf other = query.entryOf key := by
  obtain ⟨rest, rfl⟩ := under
  obtain ⟨delimiter, i, delimited, filled, found, entry⟩ := entryOf_rolled rolls
  rw [entry] at begins ⊢
  obtain ⟨tail, rfl⟩ := begins
  have again := findText_take filled found tail
  have bound := findText_bound found
  rw [List.append_assoc]
  unfold entryOf
  rw [delimited]
  simp only [if_neg filled, List.length_append, Nat.min_eq_left (Nat.le_add_right _ _),
    List.drop_left, again]
  congr 2
  rw [List.take_append_of_le_length, List.take_take, Nat.min_self]
  rw [List.length_take]
  omega

end Query

/-- What a listing shows: a key with its value or a common prefix. -/
inductive ListEntry (ν : Type) where
  | object (key : String) (value : ν)
  | commonPrefix (text : Bytes)
deriving DecidableEq

section Entries

variable {ν : Type}

namespace ListEntry

def text : ListEntry ν → Bytes
  | object key _ => utf8 key
  | commonPrefix text => text

def rolls : ListEntry ν → Bool
  | object _ _ => false
  | commonPrefix _ => true

def object? : ListEntry ν → Option (String × ν)
  | object key value => some (key, value)
  | commonPrefix _ => none

def commonPrefix? : ListEntry ν → Option Bytes
  | object _ _ => none
  | commonPrefix text => some text

end ListEntry

def Query.listEntry (query : Query) (live : String × ν) : ListEntry ν :=
  if (query.entryOf (utf8 live.1)).2 then .commonPrefix (query.entryOf (utf8 live.1)).1
  else .object live.1 live.2

theorem Query.listEntry_text (query : Query) (live : String × ν) :
    (query.listEntry live).text = (query.entryOf (utf8 live.1)).1 := by
  unfold Query.listEntry
  cases rolls : (query.entryOf (utf8 live.1)).2 with
  | true => rfl
  | false => exact (Query.entryOf_key rolls).symm

theorem Query.entryOf_eq (query : Query) (live : String × ν) : query.entryOf (utf8 live.1) =
    ((query.listEntry live).text, (query.listEntry live).rolls) := by
  apply Prod.ext
  · exact (query.listEntry_text live).symm
  · unfold Query.listEntry
    cases rolls : (query.entryOf (utf8 live.1)).2 with
    | true => rfl
    | false => rfl

/-- Keys with values under the prefix of a query, in the order of their escaped texts. -/
structure Under (query : Query) (lives : List (String × ν)) : Prop where
  sorted : lives.Pairwise fun left right => escape (utf8 left.1) < escape (utf8 right.1)
  under : ∀ live ∈ lives, query.keyPrefix <+: utf8 live.1

namespace Under

variable {query : Query} {lives : List (String × ν)} (under : Under query lives)

include under

theorem text_prefix {live : String × ν} (inside : live ∈ lives) :
    (query.listEntry live).text <+: utf8 live.1 := by
  rw [Query.listEntry_text]
  exact Query.entryOf_prefix (under.under live inside)

variable {right left : String × ν}

theorem eq_of_key (leftIn : left ∈ lives) (rightIn : right ∈ lives) (same : left.1 = right.1) :
    left = right := by
  have nodup : (lives.map Prod.fst).Nodup := by
    rw [List.nodup_iff_pairwise_ne, List.pairwise_map]
    apply under.sorted.imp
    intro left right less equal
    exact less.ne (by rw [equal])
  exact List.inj_on_of_nodup_map nodup leftIn rightIn same

theorem eq_of_rolled (leftIn : left ∈ lives) (rolls : (query.entryOf (utf8 left.1)).2 = true)
    (begins : (query.listEntry left).text <+: utf8 right.1) :
    query.listEntry right = query.listEntry left := by
  rw [Query.listEntry_text] at begins
  have same := Query.entryOf_of_prefix (under.under left leftIn) rolls begins
  unfold Query.listEntry
  rw [same, rolls]
  rfl

theorem eq_of_text (leftIn : left ∈ lives) (rightIn : right ∈ lives)
    (same : (query.listEntry left).text = (query.listEntry right).text) :
    query.listEntry left = query.listEntry right := by
  cases rolls : (query.entryOf (utf8 left.1)).2 with
  | true => exact (under.eq_of_rolled leftIn rolls (same ▸ under.text_prefix rightIn)).symm
  | false =>
    cases rolls' : (query.entryOf (utf8 right.1)).2 with
    | true => exact under.eq_of_rolled rightIn rolls' (same ▸ under.text_prefix leftIn)
    | false =>
      rw [Query.listEntry_text, Query.listEntry_text, Query.entryOf_key rolls,
        Query.entryOf_key rolls'] at same
      rw [under.eq_of_key leftIn rightIn (utf8_injective same)]

theorem contiguous : Contiguous query.listEntry lives := by
  intro a b c inside same
  have ordered := under.sorted.sublist inside
  simp only [List.pairwise_cons, List.mem_cons, List.not_mem_nil, or_false, forall_eq_or_imp,
    forall_eq] at ordered
  obtain ⟨⟨first, outer⟩, second, _⟩ := ordered
  have aIn : a ∈ lives := inside.subset List.mem_cons_self
  have cIn : c ∈ lives := inside.subset (by simp)
  cases rolls : (query.entryOf (utf8 a.1)).2 with
  | false =>
    -- a single key is no other key
    have rolls' : (query.entryOf (utf8 c.1)).2 = false := by
      by_contra rolled
      have sameEntry := same
      unfold Query.listEntry at sameEntry
      rw [rolls, Bool.eq_true_of_not_eq_false rolled] at sameEntry
      cases sameEntry
    have texts := congrArg ListEntry.text same
    rw [Query.listEntry_text, Query.listEntry_text, Query.entryOf_key rolls,
      Query.entryOf_key rolls'] at texts
    rw [texts] at outer
    exact absurd outer (lt_irrefl _)
  | true =>
    have atFirst := (escape_prefix_iff _ _).mpr (under.text_prefix aIn)
    have atLast : escape (query.listEntry a).text <+: escape (utf8 c.1) := by
      rw [same]
      exact (escape_prefix_iff _ _).mpr (under.text_prefix cIn)
    have between := prefix_of_between atLast ((le_of_begins atFirst).trans first.le) second
    exact under.eq_of_rolled aIn rolls ((escape_prefix_iff _ _).mp between)

theorem grouped [DecidableEq ν] : Grouped query.listEntry lives (groupsOf query.listEntry lives) :=
  groupsOf_grouped under.contiguous

theorem single {groups : List (ListEntry ν × List (String × ν))}
    (grouped : Grouped query.listEntry lives groups) {group : ListEntry ν × List (String × ν)}
    (inside : group ∈ groups) {key : String} {value : ν} (entry : group.1 = .object key value) :
    group.2 = [(key, value)] := by
  have member : ∀ live ∈ group.2, live = (key, value) := by
    intro live here
    have named := grouped.keyed group inside live here
    unfold Query.listEntry at named
    rw [entry] at named
    split at named
    · cases named
    · cases named
      rfl
  have sorted : group.2.Pairwise fun left right =>
      escape (utf8 left.1) < escape (utf8 right.1) := by
    have related := under.sorted
    rw [← grouped.flat, List.pairwise_flatMap] at related
    exact related.1 group inside
  obtain ⟨first, others, cut⟩ := List.exists_cons_of_ne_nil (grouped.filled group inside)
  rw [cut] at sorted member
  obtain rfl : others = [] := by
    apply List.eq_nil_iff_forall_not_mem.mpr
    intro other later
    have below := (List.pairwise_cons.mp sorted).1 other later
    rw [member first List.mem_cons_self, member other (List.mem_cons_of_mem _ later)] at below
    exact lt_irrefl _ below
  rw [cut, member first List.mem_cons_self]

theorem texts_nodup [DecidableEq ν] : ((groupsOf query.listEntry lives).map fun group => group.1.text).Nodup := by
  have nodup := under.grouped.nodup
  rw [List.nodup_iff_pairwise_ne, List.pairwise_map] at nodup ⊢
  apply nodup.imp_of_mem
  intro first second firstIn secondIn differ same
  obtain ⟨live, _, liveIn, named⟩ := under.grouped.exists_row firstIn
  obtain ⟨live', _, liveIn', named'⟩ := under.grouped.exists_row secondIn
  rw [← named, ← named'] at same differ
  exact differ (under.eq_of_text liveIn liveIn' same)

theorem text_lt [DecidableEq ν] : (groupsOf query.listEntry lives).Pairwise fun first second =>
    ∀ live ∈ second.2, escape first.1.text < escape (utf8 live.1) := by
  apply (under.grouped.pairwise under.sorted).imp_of_mem
  intro first second firstIn _ below live member
  obtain ⟨row, rowOf, rowIn, named⟩ := under.grouped.exists_row firstIn
  have begins := (escape_prefix_iff _ _).mpr (under.text_prefix rowIn)
  rw [named] at begins
  exact (le_of_begins begins).trans_lt (below row rowOf live member)

theorem escape_lt (leftIn : left ∈ lives) (rightIn : right ∈ lives)
    (less : (query.listEntry left).text < (query.listEntry right).text)
    (whole : ¬ SplitsAtNul (query.listEntry left).text (query.listEntry right).text) :
    escape (utf8 left.1) < escape (utf8 right.1) := by
  obtain ⟨tail, leftText⟩ := under.text_prefix leftIn
  obtain ⟨tail', rightText⟩ := under.text_prefix rightIn
  by_cases part : (query.listEntry left).text <+: (query.listEntry right).text
  · have begins : (query.listEntry left).text <+: utf8 right.1 :=
      part.trans (under.text_prefix rightIn)
    cases rolls : (query.entryOf (utf8 left.1)).2 with
    | true =>
      rw [under.eq_of_rolled leftIn rolls begins] at less
      exact absurd less (lt_irrefl _)
    | false =>
      rw [Query.listEntry_text, Query.entryOf_key rolls] at begins
      apply lt_of_le_of_ne (le_of_begins ((escape_prefix_iff _ _).mpr begins))
      intro same
      rw [under.eq_of_key leftIn rightIn (utf8_injective (escape_injective same))] at less
      exact lt_irrefl _ less
  · have reverse : ¬ (query.listEntry right).text <+: (query.listEntry left).text :=
      fun begins => absurd less (not_lt.mpr (le_of_begins begins))
    rw [← leftText, ← rightText, escape_append, escape_append,
      append_lt_append_of_apart (mt (escape_prefix_iff _ _).mp part)
        (mt (escape_prefix_iff _ _).mp reverse)]
    exact escape_lt_of_lt less whole

/-- The entries are in the order of their texts if and only if none of them split at a NUL
byte. -/
theorem ordered_iff [DecidableEq ν] :
    (groupsOf query.listEntry lives).Pairwise (fun first second => first.1.text < second.1.text) ↔
      ∀ left ∈ lives, ∀ right ∈ lives,
        ¬ SplitsAtNul (query.listEntry left).text (query.listEntry right).text := by
  have order := under.grouped.pairwise under.sorted
  constructor
  · intro ordered left leftIn right rightIn splits
    obtain ⟨first, firstIn, member⟩ := under.grouped.mem_row.mp leftIn
    obtain ⟨second, secondIn, member'⟩ := under.grouped.mem_row.mp rightIn
    have named := under.grouped.keyed first firstIn left member
    have named' := under.grouped.keyed second secondIn right member'
    have less := (escape_lt_of_splits splits).1
    rw [named, named'] at less
    have below := PagedScan.related_of_pairwise (fun _ _ => lt_asymm) ordered order firstIn secondIn
      less left member right member'
    obtain ⟨tail, leftText⟩ := under.text_prefix leftIn
    obtain ⟨tail', rightText⟩ := under.text_prefix rightIn
    have reversed := (escape_lt_of_splits (splits.append tail tail')).2
    rw [leftText, rightText] at reversed
    exact lt_asymm below reversed
  · intro whole
    have texts := under.texts_nodup
    rw [List.nodup_iff_pairwise_ne, List.pairwise_map] at texts
    apply (order.and texts).imp_of_mem
    intro first second firstIn secondIn below
    obtain ⟨left, member, leftIn, named⟩ := under.grouped.exists_row firstIn
    obtain ⟨right, member', rightIn, named'⟩ := under.grouped.exists_row secondIn
    apply lt_of_le_of_ne _ below.2
    apply not_lt.mp
    intro reversed
    rw [← named, ← named'] at reversed
    exact lt_asymm (below.1 left member right member')
      (under.escape_lt rightIn leftIn reversed (whole right rightIn left leftIn))

end Under

end Entries

end FastS3.Meta
