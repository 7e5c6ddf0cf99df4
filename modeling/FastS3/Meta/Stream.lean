import FastS3.Data.Redelivery
import FastS3.Meta.Applied

namespace FastS3.Meta

open FastS3.Core Data

/-! The stream of records that a standby pulls from its upstream.

Each connection starts at the standby's cursor or before it and ends with the first record that
fails, so records are delivered again and again until they are applied.
-/

/-- The binlog of an upstream: `u64` numbers in ascending order. -/
structure Upstream where
  records : List (Gtid × ReplRecord)
  ascending : records.Pairwise fun row row' => row.1 < row'.1
  inRange : ∀ row ∈ records, row.1.seq ≤ u64Max

structure Delivery where
  gtid : Gtid
  record : ReplRecord
  fate : Fate

/-- A connection: how many records before the cursor it starts, and what happens to each record
that it delivers. -/
structure Connection where
  back : Nat
  fates : List Fate

section Pull

variable (config : MetaConfig) (upstream : Upstream)

def MetaStore.deliver (store : MetaStore) (delivery : Delivery) :
    Except Error ReplApplyOutcome × MetaStore :=
  store.applyReplRecord config delivery.fate delivery.gtid delivery.record

def MetaStore.receive (store : MetaStore) (delivered : List Delivery) : MetaStore :=
  delivered.foldl (fun store delivery => (store.deliver config delivery).2) store

def pullBatch : List (Gtid × ReplRecord) → List Fate → MetaStore → List Delivery
  | row :: rows, fate :: fates, store =>
    let delivery : Delivery := ⟨row.1, row.2, fate⟩
    match store.deliver config delivery with
    | (.error _, _) => [delivery]
    | (.ok _, store) => delivery :: pullBatch rows fates store
  | _, _, _ => []

def Upstream.position (store : MetaStore) : Nat :=
  (upstream.records.takeWhile fun row => row.1 ≤ store.cursor).length

def deliveries : List Connection → MetaStore → List Delivery
  | [], _ => []
  | connection :: rest, store =>
    let start := upstream.position store - connection.back
    let pulled := pullBatch config (upstream.records.drop start) connection.fates store
    pulled ++ deliveries rest (store.receive config pulled)

def landings : MetaStore → List Delivery → List Delivery
  | _, [] => []
  | store, delivery :: rest =>
    let next := (store.deliver config delivery).2
    if store.cursor < next.cursor then delivery :: landings next rest else landings next rest

end Pull

section Standby

variable {config : MetaConfig} {upstream : Upstream}

theorem deliver_cases (store : MetaStore) (delivery : Delivery) :
    (store.deliver config delivery).2 = store ∨
      store.cursor < delivery.gtid ∧ (store.deliver config delivery).2.cursor = delivery.gtid := by
  rcases store.applyReplRecord_cases config delivery.fate delivery.gtid delivery.record with
    ⟨same, _⟩ | ⟨after, run, frame⟩
  · exact .inl same
  · obtain ⟨ahead, _, _, _, _, landed⟩ := replApplyTx_applied run
    refine .inr ⟨Gtid.le_eq_false_iff.mp ahead, ?_⟩
    rw [MetaStore.cursor, MetaStore.deliver, frame _ Key.noConfusion, landed.cursor]
    rfl

def standby (config : MetaConfig) : Consumer MetaStore Delivery Gtid where
  step store delivery := (store.deliver config delivery).2
  cursor := MetaStore.cursor
  rank := Delivery.gtid
  step_cases := deliver_cases

theorem deliver_ok {store : MetaStore} {delivery : Delivery} {outcome : ReplApplyOutcome}
    (answered : (store.deliver config delivery).1 = .ok outcome) :
    delivery.gtid ≤ (store.deliver config delivery).2.cursor := by
  rcases store.applyReplRecord_cases config delivery.fate delivery.gtid delivery.record with
    ⟨same, passed⟩ | ⟨after, run, frame⟩
  · rw [MetaStore.deliver, same]
    exact Gtid.le_iff.mp (passed outcome answered)
  · obtain ⟨_, _, _, _, _, landed⟩ := replApplyTx_applied run
    rw [MetaStore.cursor, MetaStore.deliver, frame _ Key.noConfusion, landed.cursor]
    exact le_rfl

theorem pullBatch_cons (row : Gtid × ReplRecord) (rows : List (Gtid × ReplRecord)) (fate : Fate)
    (fates : List Fate) (store : MetaStore) :
    let delivery : Delivery := ⟨row.1, row.2, fate⟩
    pullBatch config (row :: rows) (fate :: fates) store = [delivery] ∨
      delivery.gtid ≤ (store.deliver config delivery).2.cursor ∧
        pullBatch config (row :: rows) (fate :: fates) store =
          delivery :: pullBatch config rows fates (store.deliver config delivery).2 := by
  intro delivery
  cases answered : store.deliver config delivery with
  | mk answer next =>
    cases answer with
    | error e => exact .inl (by simp only [pullBatch, delivery, answered])
    | ok outcome =>
      refine .inr ⟨?_, by simp only [pullBatch, delivery, answered]⟩
      have reached := deliver_ok (congrArg Prod.fst answered)
      rwa [answered] at reached

theorem pullBatch_gapless {before rows : List (Gtid × ReplRecord)} {fates : List Fate}
    {store : MetaStore} (split : upstream.records = before ++ rows)
    (passed : ∀ row ∈ before, row.1 ≤ store.cursor) :
    (standby config).Gapless (upstream.records.map Prod.fst) store
        (pullBatch config rows fates store) ∧
      ∀ delivery ∈ pullBatch config rows fates store,
        (delivery.gtid, delivery.record) ∈ upstream.records := by
  induction rows generalizing before fates store with
  | nil => exact ⟨by simp [pullBatch, Consumer.Gapless], by simp [pullBatch]⟩
  | cons row rows ih =>
    cases fates with
    | nil => exact ⟨by simp [pullBatch, Consumer.Gapless], by simp [pullBatch]⟩
    | cons fate fates =>
      have sorted := upstream.ascending
      rw [split, List.pairwise_append, List.pairwise_cons] at sorted
      obtain ⟨_, ⟨above, _⟩, below⟩ := sorted
      have member : row ∈ upstream.records := by
        rw [split]
        exact List.mem_append_right _ List.mem_cons_self
      have front : ∀ g ∈ upstream.records.map Prod.fst, g < row.1 → g ≤ store.cursor := by
        intro g listed less
        obtain ⟨other, inside, rfl⟩ := List.mem_map.mp listed
        rw [split] at inside
        rcases List.mem_append.mp inside with earlier | later
        · exact passed other earlier
        · rcases List.mem_cons.mp later with rfl | behind
          · exact absurd less (lt_irrefl _)
          · exact absurd less (not_lt.mpr (above other behind).le)
      have start : ∀ delivery ∈ [(⟨row.1, row.2, fate⟩ : Delivery)],
          (delivery.gtid, delivery.record) ∈ upstream.records := by
        intro delivery inside
        rw [List.mem_singleton.mp inside]
        exact member
      rcases pullBatch_cons row rows fate fates store with failed | ⟨reached, pulled⟩
      · rw [failed]
        exact ⟨⟨front, List.mem_map_of_mem member, trivial⟩, start⟩
      · have passed' : ∀ other ∈ before ++ [row],
            other.1 ≤ (store.deliver config ⟨row.1, row.2, fate⟩).2.cursor := by
          intro other inside
          rcases List.mem_append.mp inside with earlier | same
          · exact (passed other earlier).trans ((standby config).cursor_le_step store _)
          · rw [List.mem_singleton.mp same]
            exact reached
        have split' : upstream.records = (before ++ [row]) ++ rows := by
          rw [split, List.append_assoc, List.singleton_append]
        obtain ⟨gapless, listed⟩ := ih split' passed'
        rw [pulled]
        refine ⟨⟨front, List.mem_map_of_mem member, gapless⟩, ?_⟩
        intro delivery inside
        rcases List.mem_cons.mp inside with same | later
        · exact start delivery (List.mem_singleton.mpr same)
        · exact listed delivery later

theorem receive_append (store : MetaStore) (delivered later : List Delivery) :
    store.receive config (delivered ++ later) = (store.receive config delivered).receive config later :=
  List.foldl_append ..

theorem deliveries_gapless (connections : List Connection) (store : MetaStore) :
    (standby config).Gapless (upstream.records.map Prod.fst) store
        (deliveries config upstream connections store) ∧
      ∀ delivery ∈ deliveries config upstream connections store,
        (delivery.gtid, delivery.record) ∈ upstream.records := by
  induction connections generalizing store with
  | nil => exact ⟨trivial, fun _ inside => absurd inside List.not_mem_nil⟩
  | cons connection rest ih =>
    have passed : ∀ row ∈ upstream.records.take (upstream.position store - connection.back),
        row.1 ≤ store.cursor := by
      intro row inside
      have shorter := List.take_subset_take_left upstream.records
        (Nat.sub_le (upstream.position store) connection.back) inside
      rw [Upstream.position, ← List.prefix_iff_eq_take.mp (List.takeWhile_prefix _)] at shorter
      have holds := List.mem_takeWhile_imp shorter
      exact of_decide_eq_true holds
    obtain ⟨gapless, listed⟩ := pullBatch_gapless
      (List.take_append_drop (upstream.position store - connection.back) upstream.records).symm
      passed
    obtain ⟨later, listedLater⟩ := ih (store.receive config _)
    refine ⟨Consumer.gapless_append.mpr ⟨gapless, later⟩, ?_⟩
    intro delivery inside
    rcases List.mem_append.mp inside with here | behind
    · exact listed delivery here
    · exact listedLater delivery behind

theorem record_unique {delivery delivery' : Delivery}
    (listed : (delivery.gtid, delivery.record) ∈ upstream.records)
    (listed' : (delivery'.gtid, delivery'.record) ∈ upstream.records)
    (same : delivery.gtid = delivery'.gtid) : delivery.record = delivery'.record := by
  have distinct : (upstream.records.map Prod.fst).Nodup := by
    rw [List.Nodup, List.pairwise_map]
    exact upstream.ascending.imp fun less => ne_of_lt less
  exact (Prod.mk.inj (List.inj_on_of_nodup_map distinct listed listed' same)).2

end Standby

section Executed

variable {config : MetaConfig}

def MetaStore.executed (store : MetaStore) : GtidSet :=
  (store.rows .replExecuted).getD GtidSet.new

theorem adds_insert (g other : Gtid) :
    (GtidSet.Insertion.insert g).Adds other ↔ other = g := by
  cases g
  cases other
  simp only [GtidSet.Insertion.Adds, GtidSet.Insertion.epoch, GtidSet.Insertion.start,
    GtidSet.Insertion.stop, Gtid.mk.injEq]
  omega

theorem deliver_executed {store : MetaStore} {delivery : Delivery}
    (canonical : store.executed.Canonical) (bounded : delivery.gtid.seq ≤ u64Max) :
    (store.deliver config delivery).2.executed.Canonical ∧
      ∀ g, (store.deliver config delivery).2.executed.Holds g ↔ store.executed.Holds g ∨
        store.cursor < (store.deliver config delivery).2.cursor ∧ delivery.gtid = g := by
  rcases store.applyReplRecord_cases config delivery.fate delivery.gtid delivery.record with
    ⟨same, _⟩ | ⟨after, run, frame⟩
  · rw [MetaStore.deliver, same]
    exact ⟨canonical, fun g => by simp⟩
  · obtain ⟨set, inserted, stored⟩ := replApplyTx_executed run
    obtain ⟨ahead, _, _, _, _, landed⟩ := replApplyTx_applied run
    have moved : store.cursor < (store.deliver config delivery).2.cursor := by
      rw [MetaStore.cursor, MetaStore.cursor, MetaStore.deliver, frame _ Key.noConfusion,
        landed.cursor]
      exact Gtid.le_eq_false_iff.mp ahead
    have now : (store.deliver config delivery).2.executed = set := by
      rw [MetaStore.executed, MetaStore.deliver, frame _ Key.noConfusion, stored]
      rfl
    have positive : 1 ≤ delivery.gtid.seq := by
      by_contra zero
      rw [GtidSet.insert, GtidSet.insertRange, if_neg (fun range => zero range.1)] at inserted
      cases inserted
    obtain ⟨next, added, canonical', holds, _⟩ := GtidSet.apply_valid
      (i := .insert delivery.gtid) canonical ⟨positive, Nat.le_refl _, bounded⟩
    obtain rfl : next = set := Option.some.inj (added.symm.trans inserted)
    rw [now]
    refine ⟨canonical', fun g => ?_⟩
    rw [holds]
    apply or_congr_right
    rw [adds_insert, eq_comm]
    exact (and_iff_right moved).symm

theorem receive_executed {delivered : List Delivery} {store : MetaStore}
    (canonical : store.executed.Canonical)
    (bounded : ∀ delivery ∈ delivered, delivery.gtid.seq ≤ u64Max) (g : Gtid) :
    (store.receive config delivered).executed.Holds g ↔ store.executed.Holds g ∨
      ∃ delivery ∈ landings config store delivered, delivery.gtid = g := by
  induction delivered generalizing store with
  | nil => simp [MetaStore.receive, landings]
  | cons delivery rest ih =>
    have step : (store.deliver config delivery).2.executed.Canonical ∧ _ :=
      deliver_executed canonical (bounded delivery List.mem_cons_self)
    obtain ⟨canonical', holds⟩ := step
    have later := ih canonical' fun other inside => bounded other (List.mem_cons_of_mem _ inside)
    rw [show store.receive config (delivery :: rest) =
      (store.deliver config delivery).2.receive config rest from rfl, later, holds, landings]
    split
    · next moved =>
        simp only [moved, true_and, List.mem_cons, exists_eq_or_imp, or_assoc]
    · next stayed => simp only [stayed, false_and, or_false]

end Executed

/-- However records are delivered again, the standby ends where it would be if each had been
delivered once, in order; its cursor never decreases and its executed set grows by exactly the
records that it applied. -/
theorem deliveries_exactly_once (config : MetaConfig) (upstream : Upstream)
    (connections : List Connection) (store : MetaStore) (canonical : store.executed.Canonical) :
    let delivered := deliveries config upstream connections store
    (∃ once : List Delivery, (once.Pairwise fun x y => x.gtid < y.gtid) ∧
      (∀ x ∈ once, x ∈ delivered) ∧
      (∀ y ∈ delivered, ∃ x ∈ once, x.gtid = y.gtid ∧ x.record = y.record) ∧
      store.receive config delivered = store.receive config once) ∧
    (∀ earlier later, delivered = earlier ++ later →
      (store.receive config earlier).cursor ≤ (store.receive config delivered).cursor) ∧
    ∀ g, (store.receive config delivered).executed.Holds g ↔ store.executed.Holds g ∨
      ∃ delivery ∈ landings config store delivered, delivery.gtid = g := by
  intro delivered
  have orderly : (standby config).Gapless (upstream.records.map Prod.fst) store delivered ∧ _ :=
    deliveries_gapless connections store
  obtain ⟨gapless, listed⟩ := orderly
  refine ⟨?_, ?_, ?_⟩
  · obtain ⟨once, ascending, picked, complete, same⟩ := Consumer.exactly_once gapless
    refine ⟨once, ascending, picked, ?_, same.symm⟩
    intro y inside
    obtain ⟨x, member, equal⟩ := complete y inside
    exact ⟨x, member, equal, record_unique (listed x (picked x member)) (listed y inside) equal⟩
  · intro earlier later split
    rw [split, receive_append]
    exact (standby config).cursor_le_run (store.receive config earlier) later
  · intro g
    apply receive_executed canonical
    intro delivery inside
    exact upstream.inRange _ (listed delivery inside)

def heartbeats : Upstream where
  records := [(⟨1, 1⟩, ReplRecord.new 1 []), (⟨1, 2⟩, ReplRecord.new 1 [])]
  ascending := List.pairwise_pair.mpr (by decide)
  inRange := by decide

theorem deliveries_exactly_once_heartbeats :
    let config : MetaConfig := ⟨true, 100⟩
    let store := MetaStore.opened Store.empty
    let delivered := deliveries config heartbeats
      [⟨0, [.unflushed "IO error"]⟩, ⟨1, [.kept true, .kept true]⟩] store
    delivered.map Delivery.gtid = [⟨1, 1⟩, ⟨1, 1⟩, ⟨1, 2⟩] ∧
      (landings config store delivered).map Delivery.gtid = [⟨1, 1⟩, ⟨1, 2⟩] ∧
      ∀ g, (store.receive config delivered).executed.Holds g ↔ store.executed.Holds g ∨
        ∃ delivery ∈ landings config store delivered, delivery.gtid = g := by
  intro config store delivered
  exact ⟨by decide +kernel, by decide +kernel,
    (deliveries_exactly_once config heartbeats _ store GtidSet.new_canonical).2.2⟩

end FastS3.Meta
