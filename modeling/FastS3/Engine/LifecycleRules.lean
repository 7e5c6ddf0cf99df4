import FastS3.Data.Ranking
import FastS3.Engine.Lifecycle
import FastS3.Meta.Listing
import Mathlib.Order.WithBot

namespace FastS3.Engine

open Data
open FastS3.Core (VersioningState Vk d1aPickCurrent vkNull vkTimeUs)
open Meta (LifecycleRule ObjectMeta)

/-! What the evaluation of lifecycle rules guarantees: it does not depend on the order of versions and
rules, an action that is due stays due, and noncurrent versions are not removed early.
-/

def Distinct (entries : List GroupEntry) : Prop :=
  (entries.map Prod.fst).Nodup

instance : DecidablePred Distinct :=
  fun entries => inferInstanceAs (Decidable (entries.map Prod.fst).Nodup)

section Distinct

variable {entries other : List GroupEntry} {a b : GroupEntry}

theorem Distinct.eq (distinct : Distinct entries) (here : a ∈ entries) (there : b ∈ entries)
    (same : a.1 = b.1) : a = b :=
  List.inj_on_of_nodup_map distinct here there same

theorem Distinct.nodup (distinct : Distinct entries) : entries.Nodup :=
  List.Nodup.of_map Prod.fst distinct

theorem Distinct.perm (distinct : Distinct entries) (same : entries.Perm other) : Distinct other :=
  (same.map Prod.fst).nodup_iff.mp distinct

end Distinct

theorem getLast?_filter_iff {α : Type} {p : α → Bool} {list : List α} {a : α}
    (unique : ∀ b ∈ list, ∀ c ∈ list, p b = true → p c = true → b = c) :
    (list.filter p).getLast? = some a ↔ a ∈ list ∧ p a = true := by
  constructor
  · intro found
    exact List.mem_filter.mp (List.mem_of_getLast? found)
  · intro held
    have inside : a ∈ list.filter p := List.mem_filter.mpr held
    cases found : (list.filter p).getLast? with
    | none =>
      rw [List.getLast?_eq_none_iff] at found
      rw [found] at inside
      cases inside
    | some b =>
      obtain ⟨member, holds⟩ := List.mem_filter.mp (List.mem_of_getLast? found)
      rw [unique b member a held.1 holds held.2]

section Places

variable {entries : List GroupEntry} {entry : GroupEntry}

theorem isReal_iff : GroupEntry.isReal entry = true ↔ ∃ vk, entry.1 = some vk ∧ vk ≠ vkNull := by
  rw [GroupEntry.isReal]
  cases entry.1 with
  | none => simp
  | some vk => simp

theorem legacyOf_iff (distinct : Distinct entries) :
    legacyOf entries = some entry ↔ entry ∈ entries ∧ entry.1 = none := by
  rw [legacyOf, getLast?_filter_iff, decide_eq_true_eq]
  intro b here c there first second
  rw [decide_eq_true_eq] at first second
  exact distinct.eq here there (first.trans second.symm)

theorem nullSlotOf_iff (distinct : Distinct entries) :
    nullSlotOf entries = some entry ↔ entry ∈ entries ∧ entry.1 = some vkNull := by
  rw [nullSlotOf, getLast?_filter_iff, decide_eq_true_eq]
  intro b here c there first second
  rw [decide_eq_true_eq] at first second
  exact distinct.eq here there (first.trans second.symm)

theorem mem_realsOf : entry ∈ realsOf entries ↔ entry ∈ entries ∧ GroupEntry.isReal entry = true := by
  rw [realsOf, List.mem_insertionSort, List.mem_filter]

theorem addressed_compares :
    ComparesBy (fun a b : GroupEntry => GroupEntry.addressed a ≤ GroupEntry.addressed b)
      GroupEntry.addressed :=
  fun _ _ => Iff.rfl

theorem realsOf_sorted :
    (realsOf entries).Pairwise fun a b => GroupEntry.addressed a ≤ GroupEntry.addressed b :=
  addressed_compares.sorted _

theorem slot_of_isReal (real : GroupEntry.isReal entry = true) :
    entry.1 = some (GroupEntry.addressed entry) := by
  obtain ⟨vk, same, -⟩ := isReal_iff.mp real
  rw [GroupEntry.addressed, same]
  rfl

end Places

section Recency

def slotKey (vk : Option Vk) : WithBot Vk :=
  vk

/-- Noncurrent versions are counted by time, the real ones first among those of a second. -/
def recency (entry : GroupEntry) : Int ×ₗ Bool ×ₗ WithBot Vk :=
  toLex (GroupEntry.writeTime entry, toLex (GroupEntry.isReal entry, slotKey entry.1))

theorem slotAtMost_iff (a b : Option Vk) : slotAtMost a b = true ↔ slotKey a ≤ slotKey b := by
  cases a with
  | none => exact iff_of_true rfl (bot_le : (⊥ : WithBot Vk) ≤ slotKey b)
  | some v =>
    cases b with
    | none => exact iff_of_false Bool.false_ne_true (WithBot.not_coe_le_bot v)
    | some w =>
      rw [slotAtMost, decide_eq_true_eq]
      exact WithBot.coe_le_coe.symm

theorem newerEntry_iff (a b : GroupEntry) : newerEntry a b = true ↔ recency b ≤ recency a := by
  rw [newerEntry, recency, recency, Prod.Lex.toLex_le_toLex, Prod.Lex.toLex_le_toLex]
  split
  · next differ =>
      rw [decide_eq_true_eq]
      constructor
      · exact fun less => .inl less
      · exact fun either => either.resolve_right fun both => differ both.1.symm
  · next same =>
      rw [not_not] at same
      split
      · next differ =>
          constructor
          · intro real
            refine .inr ⟨same.symm, .inl ?_⟩
            cases other : GroupEntry.isReal b with
            | true => exact absurd (real.trans other.symm) differ
            | false =>
              rw [real]
              exact Bool.false_lt_true
          · intro either
            obtain less | both := either
            · exact absurd same less.ne'
            · obtain less | same' := both.2
              · cases real : GroupEntry.isReal a with
                | true => rfl
                | false =>
                  rw [real] at less
                  exact absurd less not_lt_bot
              · exact absurd same'.1.symm differ
      · next same' =>
          rw [not_not] at same'
          rw [slotAtMost_iff]
          constructor
          · exact fun atMost => .inr ⟨same.symm, .inr ⟨same'.symm, atMost⟩⟩
          · intro either
            obtain less | both := either
            · exact absurd same less.ne'
            · obtain less | slots := both.2
              · exact absurd same' less.ne'
              · exact slots.2

theorem recency_injective {a b : GroupEntry} (same : recency a = recency b) : a.1 = b.1 := by
  have pairs := congrArg (fun x => (ofLex (ofLex x).2).2) same
  exact pairs

theorem newerEntry_compares :
    ComparesBy (fun a b : GroupEntry => newerEntry a b = true)
      fun entry => OrderDual.toDual (recency entry) :=
  fun a b => newerEntry_iff a b

end Recency

section Perm

variable {entries other : List GroupEntry} (distinct : Distinct entries) (same : entries.Perm other)

include distinct same

theorem legacyOf_perm : legacyOf entries = legacyOf other := by
  refine Option.ext fun entry => ?_
  rw [legacyOf_iff distinct, legacyOf_iff (distinct.perm same), same.mem_iff]

theorem nullSlotOf_perm : nullSlotOf entries = nullSlotOf other := by
  refine Option.ext fun entry => ?_
  rw [nullSlotOf_iff distinct, nullSlotOf_iff (distinct.perm same), same.mem_iff]

theorem realsOf_perm : realsOf entries = realsOf other := by
  refine addressed_compares.perm_eq ?_ (same.filter _)
  intro a here b there key
  obtain ⟨here, real⟩ := List.mem_filter.mp here
  obtain ⟨there, real'⟩ := List.mem_filter.mp there
  refine distinct.eq here there ?_
  rw [slot_of_isReal real, slot_of_isReal real', key]

theorem nullPickOf_perm : nullPickOf entries = nullPickOf other := by
  rw [nullPickOf, nullPickOf, legacyOf_perm distinct same, nullSlotOf_perm distinct same]

theorem currentOf_perm : currentOf entries = currentOf other := by
  rw [currentOf, currentOf, nullPickOf_perm distinct same, realsOf_perm distinct same]

theorem sinceOf_perm (current entry : GroupEntry) :
    sinceOf entries current entry = sinceOf other current entry := by
  rw [sinceOf, sinceOf, realsOf_perm distinct same, nullSlotOf_perm distinct same,
    nullPickOf_perm distinct same]

theorem noncurrentOf_perm (current : GroupEntry) :
    noncurrentOf entries current = noncurrentOf other current := by
  refine newerEntry_compares.perm_eq ?_ (same.filter _)
  intro a here b there key
  refine distinct.eq (List.mem_filter.mp here).1 (List.mem_filter.mp there).1 ?_
  exact recency_injective (OrderDual.toDual.injective key)

theorem entryCtx_perm (key : String) (versioning : VersioningState) (current entry : GroupEntry) :
    entryCtx entries key versioning current entry = entryCtx other key versioning current entry := by
  rw [entryCtx, entryCtx, sinceOf_perm distinct same, rankOf, rankOf, noncurrentOf_perm distinct same,
    same.length_eq]

theorem skipped_perm (action : LifecycleAction) : skipped entries action = skipped other action := by
  cases action with
  | deleteNoncurrentVersion vk =>
    rw [skipped, skipped, legacyOf_perm distinct same, nullSlotOf_perm distinct same]
  | _ => rfl

end Perm

section Membership

theorem mem_pushAll {α : Type} [DecidableEq α] {list : List α} {out : List α} {a : α} :
    a ∈ list.foldl pushUnique out ↔ a ∈ out ∨ a ∈ list := by
  induction list generalizing out with
  | nil => simp
  | cons first rest ih =>
    rw [List.foldl_cons, ih, List.mem_cons, ← or_assoc]
    refine or_congr_left ?_
    rw [pushUnique]
    split
    · next held =>
        constructor
        · exact .inl
        · intro either
          obtain inside | rfl := either
          · exact inside
          · exact held
    · rw [List.mem_append, List.mem_singleton]

theorem mem_matchEntry {ctx : EntryCtx} {rules : List LifecycleRule} {now : Int}
    {action : LifecycleAction} :
    action ∈ matchEntry ctx rules now ↔
      ∃ rule ∈ rules, LifecycleRule.applies rule ctx = true ∧ action ∈ ruleActions ctx rule now := by
  rw [matchEntry, mem_pushAll, List.mem_flatMap]
  simp only [List.not_mem_nil, false_or]
  refine exists_congr fun rule => and_congr_right fun _ => ?_
  split
  · next applies => exact ⟨fun inside => ⟨applies, inside⟩, fun both => both.2⟩
  · next apart => exact iff_of_false (fun inside => nomatch inside) fun both => apart both.1

variable {key : String} {entries : List GroupEntry} {versioning : VersioningState}
  {rules : List LifecycleRule} {now : Int} {action : GroupAction}

theorem mem_entryActions {current entry : GroupEntry} :
    action ∈ entryActions key entries versioning rules now current entry ↔
      ∃ rule ∈ rules, ∃ inner,
        LifecycleRule.applies rule (entryCtx entries key versioning current entry) = true ∧
        inner ∈ ruleActions (entryCtx entries key versioning current entry) rule now ∧
        skipped entries inner = false ∧ groupAction current entry inner = action := by
  rw [entryActions, List.mem_map]
  constructor
  · intro held
    obtain ⟨inner, inside, made⟩ := held
    obtain ⟨inside, kept⟩ := List.mem_filter.mp inside
    obtain ⟨rule, member, applies, due⟩ := mem_matchEntry.mp inside
    rw [Bool.not_eq_true'] at kept
    exact ⟨rule, member, inner, applies, due, kept, made⟩
  · intro held
    obtain ⟨rule, member, inner, applies, due, kept, made⟩ := held
    refine ⟨inner, List.mem_filter.mpr ⟨mem_matchEntry.mpr ⟨rule, member, applies, due⟩, ?_⟩, made⟩
    rw [Bool.not_eq_true']
    exact kept

theorem mem_evalKeyGroup :
    action ∈ evalKeyGroup key entries versioning rules now ↔
      ∃ current, currentOf entries = some current ∧ ∃ entry ∈ entries,
        action ∈ entryActions key entries versioning rules now current entry := by
  rw [evalKeyGroup]
  cases found : currentOf entries with
  | none => exact iff_of_false (fun inside => nomatch inside) fun held => nomatch held.choose_spec.1
  | some current =>
    simp only [mem_pushAll, List.not_mem_nil, false_or, List.mem_flatMap, Option.some.injEq,
      exists_eq_left']

end Membership

section Order

variable {key : String} {entries other : List GroupEntry} {versioning : VersioningState}
  {rules otherRules : List LifecycleRule} {now later : Int} {action : GroupAction}

theorem evalKeyGroup_perm (distinct : Distinct entries) (same : entries.Perm other)
    (sameRules : rules.Perm otherRules) :
    action ∈ evalKeyGroup key entries versioning rules now ↔
      action ∈ evalKeyGroup key other versioning otherRules now := by
  rw [mem_evalKeyGroup, mem_evalKeyGroup, currentOf_perm distinct same]
  refine exists_congr fun current => and_congr_right fun _ => exists_congr fun entry => ?_
  rw [same.mem_iff, mem_entryActions, mem_entryActions, entryCtx_perm distinct same]
  refine and_congr_right fun _ => exists_congr fun rule => ?_
  rw [sameRules.mem_iff]
  refine and_congr_right fun _ => exists_congr fun inner => ?_
  rw [skipped_perm distinct same]

theorem dueBy_later {base : Int} {days : Option Nat} {date : Option Int} (after : now ≤ later)
    (due : dueBy base now days date = true) : dueBy base later days date = true := by
  rw [dueBy, Bool.or_eq_true, Option.any_eq_true, Option.any_eq_true] at due ⊢
  refine due.imp ?_ ?_
  · intro held
    obtain ⟨d, same, passed⟩ := held
    exact ⟨d, same, decide_eq_true ((of_decide_eq_true passed).trans after)⟩
  · intro held
    obtain ⟨d, same, passed⟩ := held
    exact ⟨d, same, decide_eq_true ((of_decide_eq_true passed).trans after)⟩

theorem daysHit_later {ctx : EntryCtx} {days : Option Nat} (after : now ≤ later)
    (hit : daysHit ctx days now = true) : daysHit ctx days later = true := by
  cases days with
  | none => exact hit
  | some d =>
    cases since : ctx.noncurrentSince with
    | none =>
      simp only [daysHit, since] at hit
      cases hit
    | some base =>
      simp only [daysHit, since] at hit ⊢
      exact decide_eq_true ((of_decide_eq_true hit).trans after)

theorem currentActions_later {ctx : EntryCtx} {rule : LifecycleRule} {inner : LifecycleAction}
    (after : now ≤ later) (due : inner ∈ currentActions ctx rule now) :
    inner ∈ currentActions ctx rule later := by
  rw [currentActions, List.mem_append] at due ⊢
  refine due.imp ?_ ?_
  · intro moved
    split at moved
    · split at moved
      · next held =>
          rw [Bool.and_eq_true] at held
          rw [held.1, dueBy_later after held.2]
          exact moved
      · cases moved
    · cases moved
  · intro expired
    split at expired
    · split at expired
      · next marker =>
          rw [if_pos marker]
          exact expired
      · next plain =>
          rw [if_neg plain]
          split at expired
          · next passed =>
              rw [if_pos (dueBy_later after passed)]
              exact expired
          · cases expired
    · cases expired

theorem noncurrentActions_later {ctx : EntryCtx} {rule : LifecycleRule} {inner : LifecycleAction}
    (after : now ≤ later) (due : inner ∈ noncurrentActions ctx rule now) :
    inner ∈ noncurrentActions ctx rule later := by
  rw [noncurrentActions] at due ⊢
  split at due
  · split at due
    · next held =>
        have either := (Bool.or_eq_true _ _).mp held.2
        have still := (Bool.or_eq_true _ _).mpr (either.imp_left (daysHit_later after))
        rw [if_pos ⟨held.1, still⟩]
        exact due
    · cases due
  · cases due

theorem evalKeyGroup_later (after : now ≤ later)
    (due : action ∈ evalKeyGroup key entries versioning rules now) :
    action ∈ evalKeyGroup key entries versioning rules later := by
  obtain ⟨current, found, entry, inside, due⟩ := mem_evalKeyGroup.mp due
  obtain ⟨rule, member, inner, applies, due, kept, made⟩ := mem_entryActions.mp due
  refine mem_evalKeyGroup.mpr ⟨current, found, entry, inside, mem_entryActions.mpr
    ⟨rule, member, inner, applies, ?_, kept, made⟩⟩
  rw [ruleActions] at due ⊢
  split at due
  · next first =>
      rw [if_pos first]
      exact currentActions_later after due
  · next behind =>
      rw [if_neg behind]
      exact noncurrentActions_later after due

end Order

/-- What point reads and a backward scan find of the rows of a key. -/
structure Scanned (entries : List GroupEntry) (legacy nullSlot : Option ObjectMeta)
    (maxReal : Option (Vk × ObjectMeta)) : Prop where
  legacy : ∀ m, legacy = some m ↔ (none, m) ∈ entries
  nullSlot : ∀ m, nullSlot = some m ↔ (some vkNull, m) ∈ entries
  real : ∀ vk m, maxReal = some (vk, m) ↔ (some vk, m) ∈ entries ∧ vk ≠ vkNull ∧
    ∀ entry ∈ entries, GroupEntry.isReal entry = true → GroupEntry.addressed entry ≤ vk

section Current

variable {entries : List GroupEntry} {entry current : GroupEntry} {legacy nullSlot : Option ObjectMeta}
  {maxReal : Option (Vk × ObjectMeta)}

theorem slot_scanned {slot : Option GroupEntry} {held : Option ObjectMeta} {vk : Option Vk}
    (found : ∀ entry, slot = some entry ↔ entry ∈ entries ∧ entry.1 = vk)
    (scanned : ∀ m, held = some m ↔ (vk, m) ∈ entries) : slot = held.map fun m => (vk, m) := by
  refine Option.ext fun entry => ?_
  rw [found, Option.map_eq_some_iff]
  constructor
  · rintro ⟨inside, rfl⟩
    exact ⟨entry.2, (scanned entry.2).mpr inside, rfl⟩
  · rintro ⟨m, same, rfl⟩
    exact ⟨(scanned m).mp same, rfl⟩

theorem legacyOf_scanned (distinct : Distinct entries) (scanned : Scanned entries legacy nullSlot maxReal) :
    legacyOf entries = legacy.map fun m => (none, m) :=
  slot_scanned (fun _ => legacyOf_iff distinct) scanned.legacy

theorem nullSlotOf_scanned (distinct : Distinct entries)
    (scanned : Scanned entries legacy nullSlot maxReal) :
    nullSlotOf entries = nullSlot.map fun m => (some vkNull, m) :=
  slot_scanned (fun _ => nullSlotOf_iff distinct) scanned.nullSlot

theorem lastReal_iff (distinct : Distinct entries) :
    (realsOf entries).getLast? = some entry ↔ entry ∈ realsOf entries ∧
      ∀ other ∈ entries, GroupEntry.isReal other = true →
        GroupEntry.addressed other ≤ GroupEntry.addressed entry := by
  constructor
  · intro found
    obtain ⟨inside, largest⟩ := getLast?_sorted realsOf_sorted found
    exact ⟨inside, fun other here real => largest other (mem_realsOf.mpr ⟨here, real⟩)⟩
  · intro held
    obtain ⟨inside, largest⟩ := held
    cases found : (realsOf entries).getLast? with
    | none =>
      rw [List.getLast?_eq_none_iff] at found
      rw [found] at inside
      cases inside
    | some last =>
      obtain ⟨member, above⟩ := getLast?_sorted realsOf_sorted found
      obtain ⟨here, real⟩ := mem_realsOf.mp inside
      obtain ⟨there, real'⟩ := mem_realsOf.mp member
      have key := le_antisymm (largest last there real') (above entry inside)
      rw [distinct.eq there here ((slot_of_isReal real').trans
        ((congrArg some key).trans (slot_of_isReal real).symm))]

theorem lastReal_scanned (distinct : Distinct entries)
    (scanned : Scanned entries legacy nullSlot maxReal) :
    (realsOf entries).getLast? = maxReal.map fun real => (some real.1, real.2) := by
  refine Option.ext fun entry => ?_
  rw [lastReal_iff distinct, Option.map_eq_some_iff, mem_realsOf]
  constructor
  · intro held
    obtain ⟨⟨inside, real⟩, largest⟩ := held
    have slot := slot_of_isReal real
    obtain ⟨vk, same, plain⟩ := isReal_iff.mp real
    have named : vk = GroupEntry.addressed entry := Option.some.inj (same.symm.trans slot)
    refine ⟨(GroupEntry.addressed entry, entry.2), (scanned.real _ _).mpr ⟨?_, ?_, largest⟩,
      Prod.ext slot.symm rfl⟩
    · rw [← slot]
      exact inside
    · rw [← named]
      exact plain
  · intro held
    obtain ⟨⟨vk, m⟩, same, rfl⟩ := held
    obtain ⟨inside, plain, largest⟩ := (scanned.real vk m).mp same
    exact ⟨⟨inside, isReal_iff.mpr ⟨vk, rfl, plain⟩⟩, largest⟩

theorem currentOf_scanned (distinct : Distinct entries)
    (scanned : Scanned entries legacy nullSlot maxReal) :
    (currentOf entries).map (fun entry => (GroupEntry.addressed entry, entry.2)) =
      d1aPickCurrent (·.mtime) legacy nullSlot maxReal := by
  have plain (vk : Vk) (m : ObjectMeta) (same : maxReal = some (vk, m)) :
      GroupEntry.writeTime (some vk, m) = (vkTimeUs vk / 1000000 : Nat) := by
    have differ := ((scanned.real vk m).mp same).2.1
    change (if vk ≠ vkNull then _ else _) = _
    rw [if_pos differ]
  rw [currentOf, nullPickOf, legacyOf_scanned distinct scanned, nullSlotOf_scanned distinct scanned,
    lastReal_scanned distinct scanned]
  cases maxReal with
  | none =>
    cases legacy with
    | none => cases nullSlot <;> rfl
    | some l =>
      cases nullSlot with
      | none => rfl
      | some n =>
        simp only [d1aPickCurrent, Option.map_none, Option.map_some]
        split <;> rfl
  | some real =>
    obtain ⟨vk, m⟩ := real
    have time := plain vk m rfl
    cases legacy with
    | none =>
      cases nullSlot with
      | none => rfl
      | some n =>
        simp only [d1aPickCurrent, Option.map_none, Option.map_some, time]
        split <;> rfl
    | some l =>
      cases nullSlot with
      | none =>
        simp only [d1aPickCurrent, Option.map_none, Option.map_some, time]
        split <;> rfl
      | some n =>
        simp only [d1aPickCurrent, Option.map_some, time]
        by_cases older : l.mtime ≥ n.mtime
        · simp only [if_pos older]
          split <;> rfl
        · simp only [if_neg older]
          split <;> rfl

theorem currentOf_mem (found : currentOf entries = some current) : current ∈ entries := by
  have null (n : GroupEntry) (pick : nullPickOf entries = some n) : n ∈ entries := by
    rw [nullPickOf] at pick
    have legacyIn {l : GroupEntry} (held : legacyOf entries = some l) : l ∈ entries :=
      (List.mem_filter.mp (List.mem_of_getLast? held)).1
    have nullIn {l : GroupEntry} (held : nullSlotOf entries = some l) : l ∈ entries :=
      (List.mem_filter.mp (List.mem_of_getLast? held)).1
    split at pick
    · next l n' first second =>
        cases pick
        split
        · exact legacyIn first
        · exact nullIn second
    · next l first _ =>
        cases pick
        exact legacyIn first
    · exact nullIn pick
  have last (r : GroupEntry) (found : (realsOf entries).getLast? = some r) : r ∈ entries :=
    (mem_realsOf.mp (List.mem_of_getLast? found)).1
  rw [currentOf] at found
  split at found
  · next n r pick real =>
      cases found
      split
      · exact null n pick
      · exact last r real
  · next n pick _ =>
      cases found
      exact null _ pick
  · exact last current found

end Current

def Outranks (f e : GroupEntry) : Prop :=
  match GroupEntry.isReal f, GroupEntry.isReal e with
  | true, true => GroupEntry.addressed e < GroupEntry.addressed f
  | true, false => e.2.mtime ≤ GroupEntry.writeTime f
  | false, true => GroupEntry.writeTime e < f.2.mtime
  | false, false => if f.1 = none then e.2.mtime ≤ f.2.mtime else e.2.mtime < f.2.mtime

/-- A row without a version key that was written again after the first version key, by then in a
suspended bucket. -/
def Rewritten (entries : List GroupEntry) (entry : GroupEntry) : Prop :=
  entry.1 = none ∧ ∃ real ∈ entries, GroupEntry.isReal real = true ∧
    GroupEntry.writeTime real < entry.2.mtime

section Since

variable {entries : List GroupEntry} {entry current : GroupEntry}

theorem writeTime_of_null (null : GroupEntry.isReal entry = false) :
    GroupEntry.writeTime entry = entry.2.mtime := by
  obtain ⟨slot, m⟩ := entry
  cases slot with
  | none => rfl
  | some vk =>
    change decide (vk ≠ vkNull) = false at null
    change (if vk ≠ vkNull then _ else _) = _
    rw [if_neg (of_decide_eq_false null)]

theorem isReal_of_slot {vk : Vk} (slot : entry.1 = some vk) (plain : vk ≠ vkNull) :
    GroupEntry.isReal entry = true :=
  isReal_iff.mpr ⟨vk, slot, plain⟩

theorem null_of_legacy (slot : entry.1 = none) : GroupEntry.isReal entry = false := by
  rw [GroupEntry.isReal, slot]

theorem null_of_nullSlot (slot : entry.1 = some vkNull) : GroupEntry.isReal entry = false := by
  rw [GroupEntry.isReal, slot]
  exact decide_eq_false (not_not.mpr rfl)

theorem slot_of_null (null : GroupEntry.isReal entry = false) :
    entry.1 = none ∨ entry.1 = some vkNull := by
  cases slot : entry.1 with
  | none => exact .inl rfl
  | some vk =>
    refine .inr (congrArg some ?_)
    by_contra plain
    rw [isReal_of_slot slot plain] at null
    cases null

theorem outranks_of_legacy {f : GroupEntry} (slot : f.1 = none) (null : GroupEntry.isReal entry = false)
    (older : entry.2.mtime ≤ f.2.mtime) : Outranks f entry := by
  rw [Outranks, null_of_legacy slot, null]
  exact (if_pos slot).mpr older

theorem outranks_of_nullSlot {f : GroupEntry} (slot : f.1 = some vkNull)
    (null : GroupEntry.isReal entry = false) (older : entry.2.mtime < f.2.mtime) :
    Outranks f entry := by
  rw [Outranks, null_of_nullSlot slot, null]
  refine (if_neg ?_).mpr older
  rw [slot]
  exact Option.some_ne_none vkNull

theorem nullPickOf_spec (distinct : Distinct entries) {n : GroupEntry}
    (pick : nullPickOf entries = some n) :
    n ∈ entries ∧ GroupEntry.isReal n = false ∧ ∀ other ∈ entries,
      GroupEntry.isReal other = false → other ≠ n → Outranks n other := by
  have other_legacy {l : GroupEntry} (first : legacyOf entries = some l) {other : GroupEntry}
      (inside : other ∈ entries) (differ : other ≠ l) : other.1 ≠ none := by
    intro slot
    have same := (legacyOf_iff distinct).mpr ⟨inside, slot⟩
    rw [first] at same
    exact differ (Option.some.inj same).symm
  have other_null {l : GroupEntry} (first : nullSlotOf entries = some l) {other : GroupEntry}
      (inside : other ∈ entries) (differ : other ≠ l) : other.1 ≠ some vkNull := by
    intro slot
    have same := (nullSlotOf_iff distinct).mpr ⟨inside, slot⟩
    rw [first] at same
    exact differ (Option.some.inj same).symm
  rw [nullPickOf] at pick
  split at pick
  · next l n' first second =>
      obtain ⟨legacyIn, legacySlot⟩ := (legacyOf_iff distinct).mp first
      obtain ⟨nullIn, nullSlot⟩ := (nullSlotOf_iff distinct).mp second
      split at pick
      · next younger =>
          cases pick
          refine ⟨legacyIn, null_of_legacy legacySlot, ?_⟩
          intro other inside null differ
          have slot := (slot_of_null null).resolve_left (other_legacy first inside differ)
          rw [distinct.eq inside nullIn (slot.trans nullSlot.symm)]
          exact outranks_of_legacy legacySlot (null_of_nullSlot nullSlot) younger
      · next older =>
          cases pick
          refine ⟨nullIn, null_of_nullSlot nullSlot, ?_⟩
          intro other inside null differ
          have slot := (slot_of_null null).resolve_right (other_null second inside differ)
          rw [distinct.eq inside legacyIn (slot.trans legacySlot.symm)]
          exact outranks_of_nullSlot nullSlot (null_of_legacy legacySlot) (not_le.mp older)
  · next l first none =>
      cases pick
      obtain ⟨legacyIn, legacySlot⟩ := (legacyOf_iff distinct).mp first
      refine ⟨legacyIn, null_of_legacy legacySlot, ?_⟩
      intro other inside null differ
      have slot := (slot_of_null null).resolve_left (other_legacy first inside differ)
      have held := (nullSlotOf_iff distinct).mpr ⟨inside, slot⟩
      exact absurd (held.symm.trans none) (Option.some_ne_none other)
  · next none =>
      obtain ⟨nullIn, nullSlot⟩ := (nullSlotOf_iff distinct).mp pick
      refine ⟨nullIn, null_of_nullSlot nullSlot, ?_⟩
      intro other inside null differ
      have slot := (slot_of_null null).resolve_right (other_null pick inside differ)
      have held := (legacyOf_iff distinct).mpr ⟨inside, slot⟩
      exact absurd (held.symm.trans none) (Option.some_ne_none other)

theorem currentOf_cases (found : currentOf entries = some current) :
    (nullPickOf entries = some current ∧ ∀ r, (realsOf entries).getLast? = some r →
      GroupEntry.writeTime r < current.2.mtime) ∨
    ((realsOf entries).getLast? = some current ∧ ∀ n, nullPickOf entries = some n →
      n.2.mtime ≤ GroupEntry.writeTime current) := by
  rw [currentOf] at found
  split at found
  · next n r pick last =>
      split at found
      · next younger =>
          cases found
          refine .inl ⟨pick, ?_⟩
          intro r' other
          rw [last] at other
          cases other
          exact younger
      · next older =>
          cases found
          refine .inr ⟨last, ?_⟩
          intro n' other
          rw [pick] at other
          cases other
          exact not_lt.mp older
  · next n pick none =>
      cases found
      refine .inl ⟨pick, ?_⟩
      intro r other
      rw [none] at other
      cases other
  · next none =>
      refine .inr ⟨found, ?_⟩
      intro n other
      rw [none] at other
      cases other

theorem sinceOf_outranked (distinct : Distinct entries) (found : currentOf entries = some current)
    (inside : entry ∈ entries) (behind : entry ≠ current) (once : ¬Rewritten entries entry) :
    ∃ since, sinceOf entries current entry = some since ∧
      ∃ f ∈ entries, Outranks f entry ∧ GroupEntry.writeTime f ≤ since := by
  rw [sinceOf, if_neg behind]
  cases slot : entry.1 with
  | none =>
    have null := null_of_legacy slot
    cases first : (realsOf entries).head? with
    | some r =>
      obtain ⟨here, real⟩ := mem_realsOf.mp (List.mem_of_head? first)
      refine ⟨_, rfl, r, here, ?_, le_refl _⟩
      rw [Outranks, real, null]
      by_contra younger
      exact once ⟨slot, r, here, real, not_le.mp younger⟩
    | none =>
      have noReals : realsOf entries = [] := List.head?_eq_none_iff.mp first
      obtain ⟨pick, -⟩ | ⟨last, -⟩ := currentOf_cases found
      · obtain ⟨here, nullCurrent, above⟩ := nullPickOf_spec distinct pick
        have outranks := above entry inside null behind
        have currentSlot : current.1 = some vkNull := by
          refine (slot_of_null nullCurrent).resolve_left fun same => behind ?_
          exact distinct.eq inside here (slot.trans same.symm)
        rw [(nullSlotOf_iff distinct).mpr ⟨here, currentSlot⟩]
        exact ⟨_, rfl, current, here, outranks, (writeTime_of_null nullCurrent).le⟩
      · rw [noReals] at last
        cases last
  | some vk =>
    by_cases plain : vk = vkNull
    · have null : GroupEntry.isReal entry = false := null_of_nullSlot (slot.trans (congrArg some plain))
      simp only [if_neg (not_not.mpr plain)]
      refine ⟨_, rfl, current, currentOf_mem found, ?_, le_refl _⟩
      obtain ⟨pick, -⟩ | ⟨last, below⟩ := currentOf_cases found
      · exact (nullPickOf_spec distinct pick).2.2 entry inside null behind
      · have real := (mem_realsOf.mp (List.mem_of_getLast? last)).2
        rw [Outranks, real, null]
        have picked : ∃ n, nullPickOf entries = some n ∧ entry.2.mtime ≤ n.2.mtime := by
          have held := (nullSlotOf_iff distinct).mpr ⟨inside, slot.trans (congrArg some plain)⟩
          rw [nullPickOf, held]
          cases legacyOf entries with
          | none => exact ⟨entry, rfl, le_refl _⟩
          | some l =>
            refine ⟨_, rfl, ?_⟩
            split
            · next younger => exact younger
            · exact le_refl _
        obtain ⟨n, pick, younger⟩ := picked
        exact younger.trans (below n pick)
    · have real := isReal_of_slot slot plain
      have named : GroupEntry.addressed entry = vk := by rw [GroupEntry.addressed, slot]; rfl
      simp only [if_pos (show vk ≠ vkNull from plain)]
      cases next : (realsOf entries).find? fun r => decide (vk < GroupEntry.addressed r) with
      | some r =>
        obtain ⟨member, above⟩ : r ∈ realsOf entries ∧ vk < GroupEntry.addressed r :=
          ⟨List.mem_of_find?_eq_some next, of_decide_eq_true (List.find?_some next :)⟩
        obtain ⟨here, real'⟩ := mem_realsOf.mp member
        refine ⟨_, rfl, r, here, ?_, le_refl _⟩
        rw [Outranks, real', real, named]
        exact above
      | none =>
        have largest : (realsOf entries).getLast? = some entry := by
          refine (lastReal_iff distinct).mpr ⟨mem_realsOf.mpr ⟨inside, real⟩, ?_⟩
          intro other here real'
          have none := List.find?_eq_none.mp next other (mem_realsOf.mpr ⟨here, real'⟩)
          rw [named]
          exact not_lt.mp fun above => none (decide_eq_true above)
        obtain ⟨pick, younger⟩ | ⟨last, -⟩ := currentOf_cases found
        · obtain ⟨here, null, -⟩ := nullPickOf_spec distinct pick
          rw [pick]
          refine ⟨_, rfl, current, here, ?_, (writeTime_of_null null).le⟩
          rw [Outranks, null, real]
          exact younger entry largest
        · rw [largest] at last
          exact absurd (Option.some.inj last) behind

end Since

theorem daysDeadline_mono {base other : Int} (days : Nat) (earlier : base ≤ other) :
    daysDeadline base days ≤ daysDeadline other days := by
  rw [daysDeadline, daysDeadline, nextMidnightUtc, nextMidnightUtc]
  omega

def newerCount (entries : List GroupEntry) (current entry : GroupEntry) : Nat :=
  (entries.filter fun other => other ≠ current).countP fun other => recency entry < recency other

/-- A rule lets a version go: its days are over since a version that outranks it was written, or there
are as many more recent ones as the rule keeps. -/
def Released (entries : List GroupEntry) (current entry : GroupEntry) (rule : LifecycleRule)
    (now : Int) : Prop :=
  ∃ nc, rule.noncurrentExpiration = some nc ∧
    ((∃ days, nc.noncurrentDays = some days ∧ (¬Rewritten entries entry →
        ∃ f ∈ entries, Outranks f entry ∧ daysDeadline (GroupEntry.writeTime f) days ≤ now)) ∨
      ∃ keep, nc.newerNoncurrentVersions = some keep ∧ keep ≤ newerCount entries current entry)

section Removal

variable {key : String} {entries : List GroupEntry} {versioning : VersioningState}
  {rules : List LifecycleRule} {now : Int} {action : GroupAction} {current entry : GroupEntry}

theorem rankOf_eq (distinct : Distinct entries) {rank : Nat}
    (ranked : rankOf entries current entry = some rank) : rank = newerCount entries current entry := by
  rw [rankOf] at ranked
  split at ranked
  · next inside =>
      cases ranked
      rw [noncurrentOf, List.mem_insertionSort] at inside
      refine newerEntry_compares.idxOf (distinct.nodup.filter _) ?_ inside
      intro a here b there same
      refine distinct.eq (List.mem_filter.mp here).1 (List.mem_filter.mp there).1 ?_
      exact recency_injective (OrderDual.toDual.injective same)
  · cases ranked

theorem addressed_unique (distinct : Distinct entries) (inside : entry ∈ entries)
    (kept : skipped entries (.deleteNoncurrentVersion (GroupEntry.addressed entry)) = false)
    {other : GroupEntry} (there : other ∈ entries)
    (same : GroupEntry.addressed other = GroupEntry.addressed entry) : other = entry := by
  have both {l n : GroupEntry} (legacyIn : l ∈ entries) (legacy : l.1 = none) (nullIn : n ∈ entries)
      (null : n.1 = some vkNull) (named : GroupEntry.addressed entry = vkNull) : False := by
    rw [skipped, (legacyOf_iff distinct).mpr ⟨legacyIn, legacy⟩,
      (nullSlotOf_iff distinct).mpr ⟨nullIn, null⟩, named] at kept
    cases kept
  refine distinct.eq there inside ?_
  cases slot : other.1 with
  | none =>
    cases slot' : entry.1 with
    | none => rfl
    | some vk =>
      have null : GroupEntry.addressed entry = vkNull := by
        rw [← same, GroupEntry.addressed, slot]
        rfl
      have named : vk = vkNull := by
        rw [← null, GroupEntry.addressed, slot']
        rfl
      exact (both there slot inside (slot'.trans (congrArg some named)) null).elim
  | some vk =>
    cases slot' : entry.1 with
    | none =>
      have null : GroupEntry.addressed entry = vkNull := by
        rw [GroupEntry.addressed, slot']
        rfl
      have named : vk = vkNull := by
        rw [← null, ← same, GroupEntry.addressed, slot]
        rfl
      exact (both inside slot' there (slot.trans (congrArg some named)) null).elim
    | some vk' =>
      rw [GroupEntry.addressed, GroupEntry.addressed, slot, slot'] at same
      exact congrArg some same

variable {vk : Vk} {ctx : EntryCtx}

theorem groupAction_noncurrent {inner : LifecycleAction}
    (made : (groupAction current entry inner).action = .deleteNoncurrentVersion vk) :
    inner = .deleteNoncurrentVersion vk := by
  cases inner <;> exact made

theorem currentActions_noncurrent {rule : LifecycleRule} :
    LifecycleAction.deleteNoncurrentVersion vk ∉ currentActions ctx rule now := by
  intro due
  rw [currentActions, List.mem_append] at due
  obtain moved | expired := due
  · split at moved
    · split at moved
      · cases List.mem_singleton.mp moved
      · cases moved
    · cases moved
  · split at expired
    · split at expired
      · split at expired
        · cases List.mem_singleton.mp expired
        · cases expired
      · split at expired
        · split at expired
          · cases List.mem_singleton.mp expired
          · cases List.mem_singleton.mp expired
        · cases expired
    · cases expired

theorem daysHit_iff {days : Option Nat} :
    daysHit ctx days now = true ↔
      ∃ d since, days = some d ∧ ctx.noncurrentSince = some since ∧ daysDeadline since d ≤ now := by
  cases days with
  | none => simp [daysHit]
  | some d =>
    cases since : ctx.noncurrentSince with
    | none => simp [daysHit, since]
    | some s => simp [daysHit, since]

theorem keepHit_iff {newer : Option Nat} :
    keepHit ctx newer = true ↔
      ∃ keep rank, newer = some keep ∧ ctx.noncurrentRank = some rank ∧ keep ≤ rank := by
  cases newer with
  | none => simp [keepHit]
  | some keep =>
    cases ranked : ctx.noncurrentRank with
    | none => simp [keepHit, ranked]
    | some rank => simp [keepHit, ranked]

theorem evalKeyGroup_target (asked : action ∈ evalKeyGroup key entries versioning rules now) :
    ∃ current, currentOf entries = some current ∧
      ((∀ vk, action.action ≠ .deleteNoncurrentVersion vk) →
        action.targetVk = GroupEntry.addressed current) ∧
      ∀ vk, action.action = .deleteNoncurrentVersion vk → action.targetVk = vk := by
  obtain ⟨current, found, entry, -, wanted⟩ := mem_evalKeyGroup.mp asked
  obtain ⟨rule, -, inner, -, -, -, rfl⟩ := mem_entryActions.mp wanted
  refine ⟨current, found, ?_⟩
  cases inner with
  | deleteNoncurrentVersion vk =>
    exact ⟨fun other => absurd rfl (other vk), fun _ same => LifecycleAction.deleteNoncurrentVersion.inj same⟩
  | deleteCurrent => exact ⟨fun _ => rfl, by rintro _ ⟨⟩⟩
  | insertDeleteMarker => exact ⟨fun _ => rfl, by rintro _ ⟨⟩⟩
  | expireDeleteMarker => exact ⟨fun _ => rfl, by rintro _ ⟨⟩⟩
  | transition storageClass => exact ⟨fun _ => rfl, by rintro _ ⟨⟩⟩

theorem evalKeyGroup_removal (distinct : Distinct entries)
    (asked : action ∈ evalKeyGroup key entries versioning rules now)
    (removal : action.action = .deleteNoncurrentVersion vk) :
    ∃ current, currentOf entries = some current ∧ ∃ entry ∈ entries, entry ≠ current ∧
      GroupEntry.addressed entry = vk ∧
      (∀ other ∈ entries, GroupEntry.addressed other = vk → other = entry) ∧
      ∃ rule ∈ rules, rule.status = .enabled ∧
        filterMatches rule.filter key entry.2.tags = true ∧ Released entries current entry rule now := by
  obtain ⟨current, found, entry, inside, wanted⟩ := mem_evalKeyGroup.mp asked
  obtain ⟨rule, member, inner, applies, due, kept, rfl⟩ := mem_entryActions.mp wanted
  have named := groupAction_noncurrent removal
  rw [named] at due kept
  rw [LifecycleRule.applies, Bool.and_eq_true, decide_eq_true_eq] at applies
  rw [ruleActions] at due
  split at due
  · exact absurd due currentActions_noncurrent
  · next behind =>
      have behind : entry ≠ current := fun same => behind (decide_eq_true same)
      rw [noncurrentActions] at due
      split at due
      · next nc expiration =>
          split at due
          · next hit =>
              have same : vk = GroupEntry.addressed entry :=
                LifecycleAction.deleteNoncurrentVersion.inj (List.mem_singleton.mp due)
              refine ⟨current, found, entry, inside, behind, same.symm, ?_, rule, member, applies.1,
                applies.2, nc, expiration, ?_⟩
              · rw [same] at kept ⊢
                intro other there
                exact addressed_unique distinct inside kept there
              · refine ((Bool.or_eq_true _ _).mp hit.2).imp ?_ ?_
                · intro excess
                  obtain ⟨d, since, days, timed, passed⟩ := daysHit_iff.mp excess
                  refine ⟨d, days, fun once => ?_⟩
                  obtain ⟨since', timed', f, there, outranks, earlier⟩ :=
                    sinceOf_outranked distinct found inside behind once
                  have same : since = since' := Option.some.inj (timed.symm.trans timed')
                  rw [same] at passed
                  exact ⟨f, there, outranks, (daysDeadline_mono d earlier).trans passed⟩
                · intro many
                  obtain ⟨keep, rank, newer, ranked, enough⟩ := keepHit_iff.mp many
                  rw [rankOf_eq distinct ranked] at enough
                  exact ⟨keep, newer, enough⟩
          · cases due
      · cases due

end Removal

/-- The version that a read resolves to is the current one, the actions depend on neither order, what
is due stays due, and what is removed is the current version or was let go by a rule. -/
theorem evalKeyGroup_semantics (key : String) (entries : List GroupEntry) (distinct : Distinct entries)
    (versioning : VersioningState) (rules : List LifecycleRule) :
    (∀ legacy nullSlot maxReal, Scanned entries legacy nullSlot maxReal →
      (currentOf entries).map (fun entry => (GroupEntry.addressed entry, entry.2)) =
        d1aPickCurrent (·.mtime) legacy nullSlot maxReal) ∧
    (∀ other otherRules now action, entries.Perm other → rules.Perm otherRules →
      (action ∈ evalKeyGroup key entries versioning rules now ↔
        action ∈ evalKeyGroup key other versioning otherRules now)) ∧
    (∀ now later action, now ≤ later → action ∈ evalKeyGroup key entries versioning rules now →
      action ∈ evalKeyGroup key entries versioning rules later) ∧
    ∀ now action, action ∈ evalKeyGroup key entries versioning rules now →
      ∃ current, currentOf entries = some current ∧
        ((∀ vk, action.action ≠ .deleteNoncurrentVersion vk) →
          action.targetVk = GroupEntry.addressed current) ∧
        ∀ vk, action.action = .deleteNoncurrentVersion vk → action.targetVk = vk ∧
          ∃ entry ∈ entries, entry ≠ current ∧
            (∀ other ∈ entries, GroupEntry.addressed other = vk ↔ other = entry) ∧
            ∃ rule ∈ rules, rule.status = .enabled ∧
              filterMatches rule.filter key entry.2.tags = true ∧
              Released entries current entry rule now := by
  refine ⟨fun _ _ _ => currentOf_scanned distinct, ?_, ?_, ?_⟩
  · intro other otherRules now action same sameRules
    exact evalKeyGroup_perm distinct same sameRules
  · intro now later action after due
    exact evalKeyGroup_later after due
  · intro now action asked
    obtain ⟨current, found, kept, removed⟩ := evalKeyGroup_target asked
    refine ⟨current, found, kept, fun vk removal => ⟨removed vk removal, ?_⟩⟩
    obtain ⟨_, again, entry, inside, behind, named, unique, released⟩ :=
      evalKeyGroup_removal distinct asked removal
    cases again.symm.trans found
    refine ⟨entry, inside, behind, fun other there => ⟨unique other there, ?_⟩, released⟩
    intro same
    rw [same]
    exact named

def versionKey (hour : UInt8) : Vk :=
  [0, 0, 0, hour] ++ List.replicate 12 0

def writtenVersion (hour : UInt8) : GroupEntry :=
  (some (versionKey hour),
    { size := 0, mtime := 0, extents := [], inline := none, parts := [],
      versionId := some (versionKey hour), isDeleteMarker := false, sse := none, compressed := none,
      storageClass := none, restoreState := none, tags := [], retention := none, legalHold := false })

def writtenVersions : List GroupEntry :=
  [writtenVersion 1, writtenVersion 2, writtenVersion 3]

def monthOrNewer : LifecycleRule where
  id := "month-or-newer"
  status := .enabled
  noncurrentExpiration := some { noncurrentDays := some 30, newerNoncurrentVersions := some 1 }

/-- The evaluation of three versions. -/
theorem writtenVersions_semantics :
    currentOf writtenVersions = some (writtenVersion 3) ∧
      ∀ action ∈ evalKeyGroup "photo" writtenVersions .enabled [monthOrNewer] 2678400,
        action ∈ evalKeyGroup "photo" writtenVersions.reverse .enabled [monthOrNewer] 2678401 := by
  obtain ⟨-, permuted, later, -⟩ := evalKeyGroup_semantics "photo" writtenVersions
    (by decide +kernel) .enabled [monthOrNewer]
  refine ⟨by decide +kernel, fun action due => ?_⟩
  refine (permuted _ _ _ _ (List.reverse_perm _).symm (List.Perm.refl _)).mp ?_
  exact later _ _ _ (by decide) due

/-- A version is removed within its thirty days when another one is more recent, and the most recent
one is removed behind them. -/
theorem retained_version_removed :
    (evalKeyGroup "photo" writtenVersions .enabled [monthOrNewer] 20000).map (·.action) =
        [.deleteNoncurrentVersion (versionKey 1)] ∧
      sinceOf writtenVersions (writtenVersion 3) (writtenVersion 1) = some 8589 ∧
      20000 < daysDeadline 8589 30 ∧
      (evalKeyGroup "photo" writtenVersions .enabled [monthOrNewer] 2678400).map (·.action) =
        [.deleteNoncurrentVersion (versionKey 1), .deleteNoncurrentVersion (versionKey 2)] ∧
      rankOf writtenVersions (writtenVersion 3) (writtenVersion 2) = some 0 := by
  decide +kernel

end FastS3.Engine
