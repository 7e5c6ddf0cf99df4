import FastS3.Meta.Op
import Mathlib.Data.String.Basic

namespace FastS3.Meta

open FastS3.Core Data

/-! Truncation of the binlog.

The records that downstreams may still pull are kept by the slots' confirmed positions; the
soft limits stop at them and the hard limit does not.
-/

structure Slot where
  name : String
  consumerNodeId : String
  confirmedGtid : Gtid
  filters : BucketFilter
  createdAt : Int
  lastAckAt : Int
  stale : Bool := false
deriving Repr, DecidableEq

/-- The check of `repl_slot_key`. -/
def replSlotKey (name : String) : Except Error Unit :=
  if name.isEmpty || name.toList.contains (Char.ofNat 0) then
    let quoted := name.quote
    .error (.invalidArgument s!"repl slot name {quoted} invalid (empty or contains NUL)")
  else .ok ()

/-- The rows under `s:repl_slot`: each slot under its own name. -/
structure SlotTable where
  slots : BTreeMap String Slot
  keyed : ∀ name slot, slots.get? name = some slot → slot.name = name ∧ replSlotKey name = .ok ()

/-- What the database does with a write: it refuses it, it keeps it but the flush of the log
fails, or it keeps it. -/
inductive WriteFate where
  | refused (message : String)
  | unflushed (message : String)
  | kept
deriving Repr, DecidableEq

def WriteFate.settle {α σ : Type} (fate : WriteFate) (answer : α) (before after : σ) :
    Except Error α × σ :=
  match fate with
  | .refused message => (.error (.metaError message), before)
  | .unflushed message => (.error (.metaError message), after)
  | .kept => (.ok answer, after)

namespace SlotTable

def listReplSlots (table : SlotTable) : List Slot :=
  table.slots.values

def replace (table : SlotTable) {slot : Slot} (next : Slot)
    (held : table.slots.get? slot.name = some slot) (same : next.name = slot.name) : SlotTable where
  slots := table.slots.insert slot.name next
  keyed := by
    intro name found inside
    rw [BTreeMap.insert, BTreeMap.get?_alter] at inside
    split at inside
    · next here =>
        cases inside
        rw [here]
        exact ⟨same, (table.keyed _ _ held).2⟩
    · exact table.keyed name found inside

theorem held_own {table : SlotTable} {name : String} {slot : Slot}
    (held : table.slots.get? name = some slot) : table.slots.get? slot.name = some slot := by
  rw [(table.keyed name slot held).1]
  exact held

def ackReplSlot (table : SlotTable) (fate : WriteFate) (name : String) (confirmed : Gtid)
    (now : Int) : Except Error Slot × SlotTable :=
  match replSlotKey name with
  | .error e => (.error e, table)
  | .ok () =>
    match held : table.slots.get? name with
    | none => (.error (.notFound s!"repl slot {name}"), table)
    | some slot =>
      if slot.stale then (.error (.invalidArgument "slot stale"), table)
      else if confirmed < slot.confirmedGtid then
        (.error (.invalidArgument "confirmed_gtid must not regress"), table)
      else
        let next := { slot with confirmedGtid := confirmed, lastAckAt := now }
        fate.settle next table (table.replace next (held_own held) rfl)

def markReplSlotStaleIfBehind (table : SlotTable) (fate : WriteFate) (name : String)
    (cutThrough : Gtid) : Except Error Bool × SlotTable :=
  match replSlotKey name with
  | .error e => (.error e, table)
  | .ok () =>
    match held : table.slots.get? name with
    | none => (.ok false, table)
    | some slot =>
      if slot.stale || cutThrough ≤ slot.confirmedGtid then (.ok false, table)
      else
        let next := { slot with stale := true }
        fate.settle true table (table.replace next (held_own held) rfl)

end SlotTable

structure ReplRetainConfig where
  retainHours : Nat := 24
  retainBytes : Nat := 8 * 1024 * 1024 * 1024
  retainBytesHard : Nat := 32 * 1024 * 1024 * 1024
deriving Repr, DecidableEq

structure BinlogTruncateStats where
  truncated : Nat := 0
  truncatedBytes : Nat := 0
  softCapped : Bool := false
  staleMarked : Nat := 0
  rmapDeleted : Nat := 0
deriving Repr, DecidableEq

/-- `as i64` of a `u64`. -/
def asI64 (value : Nat) : Int :=
  if value < 2 ^ 63 then value else value - 2 ^ 64

/-- `i64::saturating_sub`. -/
def saturatingSubI64 (left right : Int) : Int :=
  max (-2 ^ 63) (min (2 ^ 63 - 1) (left - right))

def maxAgeSecs (retain : ReplRetainConfig) : Int :=
  asI64 (min (retain.retainHours * 3600) u64Max)

/-- One record of the binlog as it is weighed.  The number of bytes is the length of its
encoding, so that sums stay below the bounds of a `u64`. -/
structure BinlogEntry where
  gtid : Gtid
  bytes : Nat
  ts : Option Int
  refs : List DataRef
deriving Repr, DecidableEq

def overAge (now : Int) (retain : ReplRetainConfig) (entry : BinlogEntry) : Bool :=
  entry.ts.any fun ts => saturatingSubI64 now ts > maxAgeSecs retain

def retainedTail (now : Int) (retain : ReplRetainConfig) : List BinlogEntry → Nat → Nat
  | [], _ => 0
  | entry :: older, tailBytes =>
    if tailBytes + entry.bytes > retain.retainBytes || overAge now retain entry then 0
    else retainedTail now retain older (tailBytes + entry.bytes) + 1

def wantedCut (now : Int) (retain : ReplRetainConfig) (entries : List BinlogEntry) : Nat :=
  entries.length - retainedTail now retain entries.reverse 0

def allowedCut (slots : List Slot) (entries : List BinlogEntry) : Nat :=
  match (slots.map Slot.confirmedGtid).min? with
  | some floor => (entries.takeWhile fun entry => entry.gtid ≤ floor).length
  | none => entries.length

def totalBytes (entries : List BinlogEntry) : Nat :=
  (entries.map BinlogEntry.bytes).sum

def forceCut (retain : ReplRetainConfig) : List BinlogEntry → Nat → Nat
  | [], _ => 0
  | entry :: newer, retained =>
    if retained > retain.retainBytesHard then
      forceCut retain newer (retained - entry.bytes) + 1
    else 0

/-- The key of an entry of `s:repl_rmap`: the epoch of the record and the place. -/
abbrev RmapId := Nat × DataRef

def entryIds (entry : BinlogEntry) : List RmapId :=
  entry.refs.map fun place => (entry.gtid.epoch, place)

def droppedIds (removed kept : List BinlogEntry) : List RmapId :=
  ((removed.flatMap entryIds).filter fun id => !(kept.flatMap entryIds).contains id).dedup

/-- The rows that truncation reads and writes: `bl:`, `s:repl_rmap` and `s:repl_slot`. -/
structure BinlogRows where
  binlog : BTreeMap Gtid ReplRecord
  rmap : RmapId → Option (List Segment)
  slots : SlotTable

/-- An acknowledgement that arrives between the removal and the marking of slots. -/
structure SlotAck where
  fate : WriteFate
  name : String
  confirmed : Gtid
  now : Int

/-- What the database does with the writes of a call, and what arrives between them. -/
structure TruncateFates where
  delete : WriteFate
  acks : List SlotAck
  mark : String → WriteFate

def receive (table : SlotTable) (ack : SlotAck) : SlotTable :=
  (table.ackReplSlot ack.fate ack.name ack.confirmed ack.now).2

def markStale (fates : TruncateFates) (cutThrough : Gtid) :
    List Slot → SlotTable → Nat → Except Error Nat × SlotTable
  | [], table, marked => (.ok marked, table)
  | slot :: rest, table, marked =>
    if slot.confirmedGtid < cutThrough then
      match table.markReplSlotStaleIfBehind (fates.mark slot.name) slot.name cutThrough with
      | (.error e, table) => (.error e, table)
      | (.ok true, table) => markStale fates cutThrough rest table (marked + 1)
      | (.ok false, table) => markStale fates cutThrough rest table marked
    else markStale fates cutThrough rest table marked

def BinlogRows.cutAt (rows : BinlogRows) (entries : List BinlogEntry) (cut : Nat) : BinlogRows :=
  { rows with
    binlog := rows.binlog.dropFirst cut
    rmap := fun id =>
      if (droppedIds (entries.take cut) (entries.drop cut)).contains id then none
      else rows.rmap id }

def BinlogRows.markBehind (rows : BinlogRows) (fates : TruncateFates) (cutThrough : Gtid)
    (slots : List Slot) (stats : BinlogTruncateStats) :
    Except Error BinlogTruncateStats × BinlogRows :=
  match markStale fates cutThrough slots (fates.acks.foldl receive rows.slots) 0 with
  | (.error e, table) => (.error e, { rows with slots := table })
  | (.ok marked, table) =>
    (.ok { stats with staleMarked := marked }, { rows with slots := table })

section Call

variable (encodedLen : ReplRecord → Nat)

def binlogEntry (row : Gtid × ReplRecord) : Except Error BinlogEntry :=
  let keyEpoch := row.1.epoch
  let recordEpoch := row.2.epoch
  if recordEpoch ≠ keyEpoch then
    .error (.corrupt
      s!"binlog key epoch {keyEpoch} != record epoch {recordEpoch} (bl: 键即 GTID,E3)")
  else .ok ⟨row.1, encodedLen row.2, row.2.ts, row.2.dataRefs⟩

def truncateBinlog (replBinlog : Bool) (now : Int) (retain : ReplRetainConfig)
    (fates : TruncateFates) (rows : BinlogRows) : Except Error BinlogTruncateStats × BinlogRows :=
  if !replBinlog then (.ok {}, rows)
  else
    let slots := rows.slots.listReplSlots.filter fun slot => !slot.stale
    match rows.binlog.entries.mapM (binlogEntry encodedLen) with
    | .error e => (.error e, rows)
    | .ok entries =>
      let wanted := wantedCut now retain entries
      let allowed := allowedCut slots entries
      let stats : BinlogTruncateStats := { softCapped := decide (wanted > allowed) }
      let soft := min wanted allowed
      let more := forceCut retain (entries.drop soft) (totalBytes (entries.drop soft))
      let cut := soft + more
      match (entries.take cut).getLast? with
      | none => (.ok stats, rows)
      | some final =>
        let stats := { stats with
          truncated := cut
          truncatedBytes := totalBytes (entries.take cut)
          rmapDeleted := (droppedIds (entries.take cut) (entries.drop cut)).length }
        match fates.delete.settle () rows (rows.cutAt entries cut) with
        | (.error e, rows) => (.error e, rows)
        | (.ok (), rows) =>
          if more = 0 then (.ok stats, rows)
          else rows.markBehind fates final.gtid slots stats

end Call

section Limits

variable {now : Int} {retain : ReplRetainConfig}

theorem le_retainedTail {newest older : List BinlogEntry} {tailBytes : Nat}
    (fits : tailBytes + totalBytes newest ≤ retain.retainBytes)
    (young : ∀ entry ∈ newest, overAge now retain entry = false) :
    newest.length ≤ retainedTail now retain (newest ++ older) tailBytes := by
  induction newest generalizing tailBytes with
  | nil => exact Nat.zero_le _
  | cons entry newest ih =>
    rw [totalBytes, List.map_cons, List.sum_cons, ← totalBytes] at fits
    have light : ¬tailBytes + entry.bytes > retain.retainBytes := by omega
    have rest : tailBytes + entry.bytes + totalBytes newest ≤ retain.retainBytes := by omega
    have held := ih rest (fun other inside => young other (List.mem_cons_of_mem _ inside))
    rw [List.cons_append, retainedTail, young entry (List.mem_cons_self ..)]
    simp only [light, decide_false, Bool.or_self, Bool.false_eq_true, if_false, List.length_cons]
    omega

theorem wantedCut_le {older tail : List BinlogEntry} (fits : totalBytes tail ≤ retain.retainBytes)
    (young : ∀ entry ∈ tail, overAge now retain entry = false) :
    wantedCut now retain (older ++ tail) ≤ older.length := by
  have same : totalBytes tail.reverse = totalBytes tail := by
    rw [totalBytes, totalBytes, List.map_reverse, List.sum_reverse]
  have kept : tail.reverse.length ≤ retainedTail now retain (tail.reverse ++ older.reverse) 0 :=
    le_retainedTail (by omega) (by simpa using young)
  rw [List.length_reverse, ← List.reverse_append] at kept
  rw [wantedCut, List.length_append]
  omega

theorem overAge_eq_false {entry : BinlogEntry} (small : retain.retainHours * 3600 < 2 ^ 63)
    (young : ∀ ts, entry.ts = some ts → now - ts ≤ retain.retainHours * 3600) :
    overAge now retain entry = false := by
  have age : maxAgeSecs retain = retain.retainHours * 3600 := by
    have below : min (retain.retainHours * 3600) u64Max = retain.retainHours * 3600 :=
      Nat.min_eq_left (by rw [u64Max]; omega)
    rw [maxAgeSecs, below, asI64, if_pos small]
    exact Int.natCast_mul _ _
  rw [overAge, age]
  cases stamped : entry.ts with
  | none => rfl
  | some ts =>
    have bound := young ts stamped
    have clamped : saturatingSubI64 now ts ≤ retain.retainHours * 3600 := by
      unfold saturatingSubI64
      omega
    exact decide_eq_false (not_lt.mpr clamped)

variable {entries : List BinlogEntry}

theorem le_of_mem_allowed {slots : List Slot} {entry : BinlogEntry} {slot : Slot}
    (inside : entry ∈ entries.take (allowedCut slots entries)) (listed : slot ∈ slots) :
    entry.gtid ≤ slot.confirmedGtid := by
  have some : (slots.map Slot.confirmedGtid).min? ≠ none := by
    rw [ne_eq, List.min?_eq_none_iff, List.map_eq_nil_iff]
    exact List.ne_nil_of_mem listed
  obtain ⟨floor, least⟩ := Option.ne_none_iff_exists'.mp some
  rw [allowedCut, least] at inside
  have taken : entries.take (entries.takeWhile fun entry => entry.gtid ≤ floor).length =
      entries.takeWhile fun entry => entry.gtid ≤ floor :=
    List.prefix_iff_eq_take.mp (List.takeWhile_prefix _) |>.symm
  rw [taken] at inside
  have holds := List.mem_takeWhile_imp inside
  have below : entry.gtid ≤ floor := of_decide_eq_true holds
  exact below.trans ((List.min?_eq_some_iff.mp least).2 _ (List.mem_map_of_mem listed))

theorem forceCut_eq_zero {retained : Nat} (fits : retained ≤ retain.retainBytesHard) :
    forceCut retain entries retained = 0 := by
  cases entries with
  | nil => rfl
  | cons entry newer => exact if_neg (Nat.not_lt.mpr fits)

theorem forceCut_ne_zero (excess : totalBytes entries > retain.retainBytesHard) :
    forceCut retain entries (totalBytes entries) ≠ 0 := by
  cases entries with
  | nil => exact absurd excess (Nat.not_lt_zero _)
  | cons entry newer =>
    rw [forceCut, if_pos excess]
    exact Nat.succ_ne_zero _

end Limits

section Marking

variable {table : SlotTable} {cutThrough : Gtid} {name other : String}

def SlotTable.Settled (table : SlotTable) (cutThrough : Gtid) (name : String) : Prop :=
  ∃ slot, table.slots.get? name = some slot ∧
    (slot.stale = true ∨ cutThrough ≤ slot.confirmedGtid)

def SlotTable.Holds (table : SlotTable) (name : String) : Prop :=
  ∃ slot, table.slots.get? name = some slot

variable {slot next : Slot}

theorem get?_replace (held : table.slots.get? slot.name = some slot) (same : next.name = slot.name)
    (other : String) :
    (table.replace next held same).slots.get? other =
      if other = slot.name then some next else table.slots.get? other :=
  BTreeMap.get?_alter _ _ _ _

theorem replace_holds (held : table.slots.get? slot.name = some slot) (same : next.name = slot.name)
    (holds : table.Holds other) : (table.replace next held same).Holds other := by
  obtain ⟨found, inside⟩ := holds
  rw [SlotTable.Holds, get?_replace]
  split
  · exact ⟨next, rfl⟩
  · exact ⟨found, inside⟩

theorem replace_settled (held : table.slots.get? slot.name = some slot)
    (same : next.name = slot.name) (stale : next.stale = true)
    (settled : table.Settled cutThrough other) :
    (table.replace next held same).Settled cutThrough other := by
  rw [SlotTable.Settled, get?_replace]
  split
  · exact ⟨next, rfl, .inl stale⟩
  · exact settled

theorem markReplSlotStaleIfBehind_cases {fate : WriteFate} {answer : Except Error Bool}
    {after : SlotTable}
    (run : table.markReplSlotStaleIfBehind fate name cutThrough = (answer, after)) :
    (after = table ∧ (∀ marked, answer = .ok marked → table.Holds name →
        table.Settled cutThrough name)) ∨
      ∃ slot, ∃ held : table.slots.get? slot.name = some slot, slot.name = name ∧
        after = table.replace { slot with stale := true } held rfl := by
  unfold SlotTable.markReplSlotStaleIfBehind at run
  split at run
  · cases run
    exact .inl ⟨rfl, nofun⟩
  · split at run
    · next absent =>
        cases run
        refine .inl ⟨rfl, ?_⟩
        rintro _ _ ⟨slot, held⟩
        rw [absent] at held
        cases held
    · next slot held =>
        split at run
        · next settled =>
            cases run
            refine .inl ⟨rfl, fun _ _ _ => ⟨slot, held, ?_⟩⟩
            simpa using settled
        · cases fate with
          | refused message =>
            cases run
            exact .inl ⟨rfl, nofun⟩
          | unflushed message =>
            cases run
            exact .inr ⟨slot, SlotTable.held_own held, (table.keyed _ _ held).1, rfl⟩
          | kept =>
            cases run
            exact .inr ⟨slot, SlotTable.held_own held, (table.keyed _ _ held).1, rfl⟩

theorem receive_holds (ack : SlotAck) (holds : table.Holds other) :
    (receive table ack).Holds other := by
  unfold receive SlotTable.ackReplSlot
  split
  · exact holds
  · split
    · exact holds
    · next slot held =>
        split
        · exact holds
        · split
          · exact holds
          · cases ack.fate with
            | refused message => exact holds
            | unflushed message => exact replace_holds (SlotTable.held_own held) (by rfl) holds
            | kept => exact replace_holds (SlotTable.held_own held) (by rfl) holds

theorem foldl_receive_holds (acks : List SlotAck) (holds : table.Holds other) :
    (acks.foldl receive table).Holds other := by
  induction acks generalizing table with
  | nil => exact holds
  | cons ack acks ih => exact ih (receive_holds ack holds)

theorem markStale_settles {fates : TruncateFates} {slots : List Slot} {marked total : Nat}
    {after : SlotTable} (run : markStale fates cutThrough slots table marked = (.ok total, after)) :
    (∀ other, table.Settled cutThrough other → after.Settled cutThrough other) ∧
      ∀ slot ∈ slots, slot.confirmedGtid < cutThrough → table.Holds slot.name →
        after.Settled cutThrough slot.name := by
  induction slots generalizing table marked with
  | nil =>
    cases run
    exact ⟨fun _ settled => settled, fun _ inside => absurd inside List.not_mem_nil⟩
  | cons slot slots ih =>
    rw [markStale] at run
    by_cases behind : slot.confirmedGtid < cutThrough
    · rw [if_pos behind] at run
      generalize step : table.markReplSlotStaleIfBehind (fates.mark slot.name) slot.name
        cutThrough = outcome at run
      obtain ⟨answer, next⟩ := outcome
      cases answer with
      | error e => cases run
      | ok found =>
        have rest : ∃ marked, markStale fates cutThrough slots next marked = (.ok total, after) := by
          cases found with
          | true => exact ⟨_, run⟩
          | false => exact ⟨_, run⟩
        obtain ⟨_, rest⟩ := rest
        obtain ⟨stays, settles⟩ := ih rest
        rcases markReplSlotStaleIfBehind_cases step with ⟨rfl, own⟩ | ⟨held, inside, same, rfl⟩
        · refine ⟨stays, ?_⟩
          intro listed member less holds
          rcases List.mem_cons.mp member with rfl | later
          · exact stays _ (own found rfl holds)
          · exact settles listed later less holds
        · have keeps : ∀ other, table.Settled cutThrough other →
              (table.replace { held with stale := true } inside rfl).Settled cutThrough other :=
            fun other settled => replace_settled inside _ rfl settled
          refine ⟨fun other settled => stays other (keeps other settled), ?_⟩
          intro listed member less holds
          rcases List.mem_cons.mp member with rfl | later
          · apply stays
            rw [← same]
            exact ⟨{ held with stale := true }, by rw [get?_replace, if_pos rfl], .inl rfl⟩
          · exact settles listed later less (replace_holds inside _ holds)
    · rw [if_neg behind] at run
      obtain ⟨stays, settles⟩ := ih run
      refine ⟨stays, ?_⟩
      intro listed member less holds
      rcases List.mem_cons.mp member with rfl | later
      · exact absurd less behind
      · exact settles listed later less holds

theorem holds_of_listed (listed : slot ∈ table.listReplSlots) : table.Holds slot.name := by
  rw [SlotTable.listReplSlots, BTreeMap.values, List.mem_map] at listed
  obtain ⟨⟨name, found⟩, inside, rfl⟩ := listed
  have held := BTreeMap.get?_eq_some_iff.mpr inside
  exact ⟨found, SlotTable.held_own held⟩

end Marking

section Removal

variable (encodedLen : ReplRecord → Nat)

def weigh (row : Gtid × ReplRecord) : BinlogEntry :=
  ⟨row.1, encodedLen row.2, row.2.ts, row.2.dataRefs⟩

def activeSlots (rows : BinlogRows) : List Slot :=
  rows.slots.listReplSlots.filter fun slot => !slot.stale

def softCut (now : Int) (retain : ReplRetainConfig) (rows : BinlogRows) : Nat :=
  let entries := rows.binlog.entries.map (weigh encodedLen)
  min (wantedCut now retain entries) (allowedCut (activeSlots rows) entries)

def HardCapForces (now : Int) (retain : ReplRetainConfig) (rows : BinlogRows) : Prop :=
  totalBytes ((rows.binlog.entries.map (weigh encodedLen)).drop (softCut encodedLen now retain rows)) >
    retain.retainBytesHard

instance (now : Int) (retain : ReplRetainConfig) (rows : BinlogRows) :
    Decidable (HardCapForces encodedLen now retain rows) :=
  inferInstanceAs (Decidable (_ > _))

/-- Records that fit the byte tail, none of them older than the hours that are kept. -/
def FitsTail (now : Int) (retain : ReplRetainConfig) (tail : List (Gtid × ReplRecord)) : Prop :=
  totalBytes (tail.map (weigh encodedLen)) ≤ retain.retainBytes ∧
    ∀ row ∈ tail, ∀ ts, row.2.ts = some ts → now - ts ≤ retain.retainHours * 3600

variable {encodedLen}

theorem mapM_binlogEntry {rows : List (Gtid × ReplRecord)} {entries : List BinlogEntry}
    (scanned : rows.mapM (binlogEntry encodedLen) = .ok entries) :
    entries = rows.map (weigh encodedLen) := by
  induction rows generalizing entries with
  | nil =>
    cases scanned
    rfl
  | cons row rows ih =>
    rw [List.mapM_cons] at scanned
    cases first : binlogEntry encodedLen row with
    | error e =>
      rw [first] at scanned
      cases scanned
    | ok entry =>
      cases rest : rows.mapM (binlogEntry encodedLen) with
      | error e =>
        rw [first, rest] at scanned
        cases scanned
      | ok others =>
        rw [first, rest] at scanned
        cases scanned
        simp only [binlogEntry] at first
        split at first
        · cases first
        · cases first
          rw [List.map_cons, ih rest]
          rfl

/-- What a call leaves: a part of the binlog from some record on, with its relay map. -/
structure Leaves (before after : BinlogRows) (removed kept : List (Gtid × ReplRecord)) : Prop where
  split : before.binlog.entries = removed ++ kept
  binlog : after.binlog.entries = kept
  rmap : ∀ row ∈ kept, ∀ place ∈ row.2.dataRefs,
    after.rmap (row.1.epoch, place) = before.rmap (row.1.epoch, place)

theorem leaves_all (rows : BinlogRows) : Leaves rows rows [] rows.binlog.entries :=
  ⟨rfl, rfl, fun _ _ _ _ => rfl⟩

theorem cutAt_leaves (before : BinlogRows) (cut : Nat) (table : SlotTable) :
    Leaves before
      { before.cutAt (before.binlog.entries.map (weigh encodedLen)) cut with slots := table }
      (before.binlog.entries.take cut) (before.binlog.entries.drop cut) := by
  refine ⟨(List.take_append_drop _ _).symm, rfl, ?_⟩
  intro row inside place member
  apply if_neg
  rw [List.contains_iff_mem, droppedIds, List.mem_dedup, List.mem_filter]
  rintro ⟨_, unused⟩
  rw [Bool.not_eq_true', ← Bool.not_eq_true, List.contains_iff_mem, List.mem_flatMap] at unused
  apply unused
  rw [← List.map_drop]
  exact ⟨weigh encodedLen row, List.mem_map_of_mem inside, List.mem_map_of_mem member⟩

variable {replBinlog : Bool} {now : Int} {retain : ReplRetainConfig} {fates : TruncateFates}
  {before after : BinlogRows} {answer : Except Error BinlogTruncateStats}

theorem markBehind_slots {rows : BinlogRows} {cutThrough : Gtid} {slots : List Slot}
    {stats : BinlogTruncateStats}
    (run : rows.markBehind fates cutThrough slots stats = (answer, after)) :
    ∃ table, after = { rows with slots := table } ∧ ∀ stats', answer = .ok stats' → ∃ marked,
      markStale fates cutThrough slots (fates.acks.foldl receive rows.slots) 0 =
        (.ok marked, table) := by
  unfold BinlogRows.markBehind at run
  generalize marking : markStale fates cutThrough slots (fates.acks.foldl receive rows.slots) 0 =
    outcome at run
  obtain ⟨result, table⟩ := outcome
  cases result with
  | error e =>
    cases run
    exact ⟨table, rfl, nofun⟩
  | ok marked =>
    cases run
    exact ⟨table, rfl, fun _ _ => ⟨marked, rfl⟩⟩

theorem truncateBinlog_cases
    (run : truncateBinlog encodedLen replBinlog now retain fates before = (answer, after)) :
    after = before ∨ ∃ more final table,
      let entries := before.binlog.entries.map (weigh encodedLen)
      let soft := softCut encodedLen now retain before
      more = forceCut retain (entries.drop soft) (totalBytes (entries.drop soft)) ∧
        (entries.take (soft + more)).getLast? = some final ∧
        after = { before.cutAt entries (soft + more) with slots := table } ∧
        ∀ stats, answer = .ok stats → more ≠ 0 → ∃ marked,
          markStale fates final.gtid (activeSlots before) (fates.acks.foldl receive before.slots) 0 =
            (.ok marked, table) := by
  unfold truncateBinlog at run
  split at run
  · cases run
    exact .inl rfl
  · cases scanned : before.binlog.entries.mapM (binlogEntry encodedLen) with
    | error e =>
      simp only [scanned] at run
      cases run
      exact .inl rfl
    | ok entries =>
      simp only [scanned] at run
      obtain rfl := mapM_binlogEntry scanned
      rw [← activeSlots] at run
      split at run
      · cases run
        exact .inl rfl
      · next final isFinal =>
          rw [← softCut] at run isFinal
          generalize counted : forceCut retain _ _ = more at run isFinal
          cases fated : fates.delete with
          | refused message =>
            simp only [fated, WriteFate.settle] at run
            cases run
            exact .inl rfl
          | unflushed message =>
            simp only [fated, WriteFate.settle] at run
            cases run
            exact .inr ⟨more, final, before.slots, counted.symm, isFinal, rfl, nofun⟩
          | kept =>
            simp only [fated, WriteFate.settle] at run
            split at run
            · next unforced =>
                cases run
                exact .inr ⟨more, final, before.slots, counted.symm, isFinal, rfl,
                  fun _ _ forced => absurd unforced forced⟩
            · obtain ⟨table, rfl, marks⟩ := markBehind_slots run
              exact .inr ⟨more, final, table, counted.symm, isFinal, rfl,
                fun stats answered _ => marks stats answered⟩

theorem le_final {rows : BTreeMap Gtid ReplRecord} {cut : Nat} {final : BinlogEntry}
    (isFinal : ((rows.entries.map (weigh encodedLen)).take cut).getLast? = some final)
    {row : Gtid × ReplRecord} (inside : row ∈ rows.entries.take cut) : row.1 ≤ final.gtid := by
  rw [← List.map_take, List.getLast?_map, Option.map_eq_some_iff] at isFinal
  obtain ⟨last, isLast, rfl⟩ := isFinal
  have sorted := rows.sorted.sublist (List.take_sublist cut rows.entries)
  obtain ⟨init, split⟩ := List.getLast?_eq_some_iff.mp isLast
  rw [split] at sorted inside
  rcases List.mem_append.mp inside with earlier | same
  · exact ((List.pairwise_append.mp sorted).2.2 row earlier last (List.mem_singleton_self last)).le
  · rw [List.mem_singleton.mp same]
    exact le_rfl

end Removal

/-- Truncation removes the oldest records.  The soft limits neither take a record that an
active slot has not confirmed nor one of a tail that fits; when the hard limit takes more, the
slots that lose a record are marked unless they confirm it first.  The relay map keeps what
the remaining records refer to. -/
theorem truncateBinlog_safe (encodedLen : ReplRecord → Nat) (replBinlog : Bool) (now : Int)
    (retain : ReplRetainConfig) (fates : TruncateFates) (before : BinlogRows) :
    ∃ removed kept,
      Leaves before (truncateBinlog encodedLen replBinlog now retain fates before).2 removed kept ∧
      (¬HardCapForces encodedLen now retain before →
        (∀ row ∈ removed, ∀ slot ∈ activeSlots before, row.1 ≤ slot.confirmedGtid) ∧
        (retain.retainHours * 3600 < 2 ^ 63 → ∀ older tail,
          before.binlog.entries = older ++ tail → FitsTail encodedLen now retain tail →
          removed.length ≤ older.length)) ∧
      (HardCapForces encodedLen now retain before → ∀ stats,
        (truncateBinlog encodedLen replBinlog now retain fates before).1 = .ok stats →
        ∀ slot ∈ activeSlots before, (∃ row ∈ removed, slot.confirmedGtid < row.1) →
        ∃ final, (truncateBinlog encodedLen replBinlog now retain fates before).2.slots.slots.get?
            slot.name = some final ∧
          (final.stale = true ∨ ∀ row ∈ removed, row.1 ≤ final.confirmedGtid)) := by
  generalize run : truncateBinlog encodedLen replBinlog now retain fates before = result
  obtain ⟨answer, after⟩ := result
  rcases truncateBinlog_cases run with rfl | ⟨more, final, table, counted, isFinal, rfl, marks⟩
  · refine ⟨[], _, leaves_all after, ?_, ?_⟩
    · intro _
      exact ⟨fun _ inside => absurd inside List.not_mem_nil, fun _ _ _ _ _ => Nat.zero_le _⟩
    · rintro _ _ _ _ _ ⟨_, inside, _⟩
      exact absurd inside List.not_mem_nil
  · refine ⟨_, _, cutAt_leaves before _ table, ?_, ?_⟩
    · intro unforced
      have none : more = 0 := counted.trans (forceCut_eq_zero (Nat.not_lt.mp unforced))
      rw [none, Nat.add_zero]
      constructor
      · intro row inside slot active
        have entry : weigh encodedLen row ∈ (before.binlog.entries.map (weigh encodedLen)).take
            (allowedCut (activeSlots before) (before.binlog.entries.map (weigh encodedLen))) := by
          rw [← List.map_take]
          apply List.mem_map_of_mem
          exact (List.take_subset_take_left _ (Nat.min_le_right _ _)) inside
        exact le_of_mem_allowed entry active
      · intro small older tail split fits
        have wanted : wantedCut now retain (before.binlog.entries.map (weigh encodedLen)) ≤
            (older.map (weigh encodedLen)).length := by
          rw [split, List.map_append]
          apply wantedCut_le fits.1
          intro entry inside
          obtain ⟨row, member, rfl⟩ := List.mem_map.mp inside
          exact overAge_eq_false small (fits.2 row member)
        rw [List.length_map] at wanted
        rw [List.length_take]
        exact (Nat.min_le_left _ _).trans ((Nat.min_le_left _ _).trans wanted)
    · rintro forced stats answered slot active ⟨row, inside, behind⟩
      have some : more ≠ 0 := by
        rw [counted]
        exact forceCut_ne_zero forced
      obtain ⟨marked, marking⟩ := marks stats answered some
      have less : slot.confirmedGtid < final.gtid := behind.trans_le (le_final isFinal inside)
      have held := foldl_receive_holds fates.acks
        (holds_of_listed (List.mem_filter.mp active).1)
      obtain ⟨found, here, settled⟩ := (markStale_settles marking).2 slot active less held
      refine ⟨found, here, settled.imp_right ?_⟩
      intro confirmed row inside
      exact (le_final isFinal inside).trans confirmed

def emptyRecord (rawSeq : Nat) : ReplRecord :=
  { ReplRecord.new 1 [] with ts := some 0, rawSeq := some rawSeq }

def laggingSlot : Slot :=
  { name := "a", consumerNodeId := "n", confirmedGtid := ⟨0, 0⟩, filters := .all, createdAt := 0,
    lastAckAt := 0 }

def noSlots : SlotTable :=
  ⟨BTreeMap.empty, nofun⟩

def oneSlot : SlotTable where
  slots := ⟨[("a", laggingSlot)], List.pairwise_singleton _ _⟩
  keyed := by
    intro name slot held
    have inside := BTreeMap.get?_eq_some_iff.mp held
    obtain ⟨rfl, rfl⟩ := Prod.mk.inj (List.mem_singleton.mp inside)
    exact ⟨rfl, by decide⟩

def twoRecords (slots : SlotTable) : BinlogRows where
  binlog := ⟨[(⟨1, 1⟩, emptyRecord 1), (⟨1, 2⟩, emptyRecord 2)],
    List.pairwise_pair.mpr (by decide)⟩
  rmap := fun _ => none
  slots := slots

def markingFails : TruncateFates :=
  ⟨.kept, [], fun _ => .refused "rocksdb: IO error"⟩

/-- A record of the last minute goes although a day is kept, since the bytes do not fit; and
when the hard limit takes both records, the slot that needs them is not marked in their batch. -/
theorem truncateBinlog_takes_young :
    (let retain : ReplRetainConfig := { retainBytes := 16, retainBytesHard := 1000 }
     ¬HardCapForces (fun _ => 11) 60 retain (twoRecords noSlots) ∧
      ((truncateBinlog (fun _ => 11) true 60 retain markingFails (twoRecords noSlots)).2.binlog.entries.map
        Prod.fst) = [⟨1, 2⟩]) ∧
    (let retain : ReplRetainConfig := { retainBytesHard := 0 }
     let result := truncateBinlog (fun _ => 11) true 60 retain markingFails (twoRecords oneSlot)
     HardCapForces (fun _ => 11) 60 retain (twoRecords oneSlot) ∧
      result.2.binlog.entries.map Prod.fst = [] ∧
      (result.2.slots.slots.get? "a").map Slot.stale = some false) := by
  decide +kernel

end FastS3.Meta
