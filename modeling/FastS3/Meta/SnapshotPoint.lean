import FastS3.Meta.Backfill
import FastS3.Meta.Bootstrap

namespace FastS3.Meta

open FastS3.Core Data

/-! The point of a snapshot along the history of a node.

The point is computed from the local commit sequence, whatever brought the sequence there.
-/

/-- What changes the metadata of a node: its own steps, commits while the binlog is disabled,
records of an upstream, the epoch in the upstream's answer to a handshake, and the exchange of
places for local ones. -/
inductive HistoryStep where
  | own (step : NodeStep)
  | unlogged (fate : Fate) (now : Int) (ops : List Op)
  | record (fate : Fate) (g : Gtid) (record : ReplRecord)
  | hello (fate : WriteFate) (epoch : Nat)
  | localize (fate : LocalizeFate) (items : List ReplLocalizeItem) (consumed : List (Gtid × DataRef))
      (alloc : Option AllocDraft) (allocSeq : Nat) (clearMarkers : List (String × String))

namespace ReplNode

def setReplEpoch (node : ReplNode) (epoch : Nat) : ReplNode :=
  { node with
    store := { node.store with rows := Function.update node.store.rows .replEpoch (some epoch) } }

section Histories

variable (queueMax : Nat)

def evolve (node : ReplNode) : HistoryStep → ReplNode
  | .own next => node.step queueMax next
  | .unlogged fate now ops =>
    { node with store := (node.store.commit ⟨false, queueMax⟩ fate now ops).2 }
  | .record fate g record =>
    { node with store := (node.store.applyReplRecord (config queueMax) fate g record).2 }
  | .hello fate epoch =>
    if epoch > node.epoch then (fate.settle () node (node.setReplEpoch epoch)).2 else node
  | .localize fate items consumed alloc allocSeq clearMarkers =>
    { node with
      store := (node.store.replLocalizeSegments fate items consumed alloc allocSeq clearMarkers).2 }

def appends (node : ReplNode) : HistoryStep → List (Gtid × ReplRecord)
  | .own next => node.writes next
  | .record fate g record => if Standby.lands node.store.rows fate g record then [(g, record)] else []
  | .unlogged _ _ _ | .hello _ _ | .localize _ _ _ _ _ _ => []

def history (node : ReplNode) (steps : List HistoryStep) : ReplNode :=
  steps.foldl (evolve queueMax) node

def records : ReplNode → List HistoryStep → List (Gtid × ReplRecord)
  | _, [] => []
  | node, next :: steps => node.appends next ++ records (node.evolve queueMax next) steps

end Histories

/-- An applied record is numbered from the base of the node, behind its commit sequence; and no
handshake advances the epoch ahead of the records. -/
def Steady (node : ReplNode) : HistoryStep → Prop
  | .record fate g record => Standby.lands node.store.rows fate g record = true →
      node.epoch ≤ g.epoch ∧ record.rawSeq.getD g.seq = node.ebase + g.seq ∧
        node.seq < node.ebase + g.seq
  | .hello fate epoch => (∃ message, fate = .refused message) ∨ epoch ≤ node.epoch
  | _ => True

/-- No exported row changes beside the records: what is committed without the binlog concerns
queues, and no promotion discards objects. -/
def Recorded (node : ReplNode) : HistoryStep → Prop
  | .unlogged fate _ ops => (∃ message, fate = .refused message) ∨ ∀ op ∈ ops, op.aside = true
  | .own (.promote _ force _ scan) =>
    node.Admits force scan → scan.pending = [] ∨ scan.markers = []
  | _ => True

def Throughout (queueMax : Nat) (condition : ReplNode → HistoryStep → Prop) :
    ReplNode → List HistoryStep → Prop
  | _, [] => True
  | node, next :: steps =>
    condition node next ∧ Throughout queueMax condition (node.evolve queueMax next) steps

/-- A node that can be exported, with an epoch that a downstream accepts. -/
structure Based (node : ReplNode) : Prop where
  base : node.ebase ≤ node.seq
  initial : replInitialEpoch ≤ node.epoch

/-- A step writes nothing, or one record at the new watermark. -/
inductive Advance (before after : ReplNode) : List (Gtid × ReplRecord) → Prop where
  | silent : before.watermark ≤ after.watermark → Advance before after []
  | recorded (record : ReplRecord) : before.watermark < after.watermark → 1 ≤ after.watermark.seq →
      record.epoch = after.watermark.epoch → Advance before after [(after.watermark, record)]

namespace Advance

variable {before after : ReplNode}

theorem unmoved (epoch : after.epoch = before.epoch) (ebase : after.ebase = before.ebase)
    (seq : before.seq ≤ after.seq) (based : before.Based) : after.Based ∧ Advance before after [] := by
  have base := based.base
  refine ⟨⟨?_, ?_⟩, .silent ?_⟩
  · rw [ebase]
    exact base.trans seq
  · rw [epoch]
    exact based.initial
  · rw [← not_lt, Gtid.lt_iff, watermark, watermark, epoch, ebase]
    simp only [Nat.lt_irrefl, false_or, true_and]
    omega

theorem moved {g : Gtid} {record : ReplRecord} (place : after.watermark = g)
    (behind : before.watermark < g) (positive : 1 ≤ g.seq) (epoch : record.epoch = g.epoch) :
    Advance before after [(g, record)] := by
  subst place
  exact .recorded record behind positive epoch

end Advance

theorem localize_cases (store : MetaStore) (fate : LocalizeFate) (items : List ReplLocalizeItem)
    (consumed : List (Gtid × DataRef)) (alloc : Option AllocDraft) (allocSeq : Nat)
    (clearMarkers : List (String × String)) :
    (store.replLocalizeSegments fate items consumed alloc allocSeq clearMarkers).2 = store ∨
      ∃ count, replLocalizeTx items consumed alloc allocSeq clearMarkers store.rows =
        .ok (count,
          (store.replLocalizeSegments fate items consumed alloc allocSeq clearMarkers).2.rows) := by
  unfold MetaStore.replLocalizeSegments
  cases replLocalizeTx items consumed alloc allocSeq clearMarkers store.rows with
  | error e => exact .inl rfl
  | ok result =>
    cases fate with
    | busy message => exact .inl rfl
    | failed message => exact .inl rfl
    | unflushed message => exact .inr ⟨result.1, rfl⟩
    | kept => exact .inr ⟨result.1, rfl⟩

theorem evolve_advances {queueMax : Nat} {node : ReplNode} (based : node.Based) {next : HistoryStep}
    (steady : node.Steady next) :
    (node.evolve queueMax next).Based ∧
      Advance node (node.evolve queueMax next) (node.appends next) := by
  have base := based.base
  have initial := based.initial
  cases next with
  | own next =>
    cases next with
    | commit fate now ops =>
      rcases commit_cases queueMax node fate now ops with
        ⟨same, none⟩ | ⟨seq, rows, ran, wrote, kept⟩
      · rw [evolve, appends, same, none]
        exact Advance.unmoved rfl rfl (Nat.le_refl _) based
      · obtain ⟨epoch, ebase, number, isNext⟩ := commit_numbers ran kept
        rw [evolve, appends, wrote]
        generalize node.step queueMax (.commit fate now ops) = after at epoch ebase number
        refine ⟨⟨?_, ?_⟩, Advance.moved ?_ ?_ ?_ rfl⟩
        · rw [ebase, number]
          omega
        · rw [epoch]
          exact initial
        · rw [watermark, epoch, ebase, number, isNext]
        · rw [Gtid.lt_iff, watermark, isNext]
          right
          refine ⟨rfl, ?_⟩
          show node.seq - node.ebase < node.seq + 1 - node.ebase
          omega
        · show 1 ≤ seq - node.ebase
          omega
    | promote fate force now scan =>
      rcases promote_cases node fate force now scan with
        ⟨same, _, none⟩ | ⟨opened, rows, ran, kept, wrote, _⟩
      · rw [evolve, appends, step, same, none]
        exact Advance.unmoved rfl rfl (Nat.le_refl _) based
      · obtain ⟨epoch, ebase, number, later⟩ := promote_numbers ran kept
        rw [evolve, appends, step, wrote]
        generalize (node.promote fate force now scan).2 = after at epoch ebase number
        refine ⟨⟨?_, ?_⟩, Advance.moved ?_ ?_ (Nat.le_refl 1) later.symm⟩
        · rw [ebase, number]
          omega
        · rw [epoch, later]
          omega
        · rw [watermark, epoch, ebase, number, Nat.add_sub_cancel_left]
        · rw [Gtid.lt_iff, later]
          exact .inl (Nat.lt_succ_self _)
    | setReplRole fate role =>
      cases fate <;> exact Advance.unmoved rfl rfl (Nat.le_refl _) based
    | setReplBucketScoped fate bucketScoped =>
      cases fate <;> exact Advance.unmoved rfl rfl (Nat.le_refl _) based
  | unlogged fate now ops =>
    rw [evolve, appends]
    rcases MetaStore.commit_cases ⟨false, queueMax⟩ node.store fate now ops with
      ⟨same, _⟩ | ⟨_, seq, rows, ran, kept⟩
    · rw [same]
      exact Advance.unmoved rfl rfl (Nat.le_refl _) based
    · generalize (node.store.commit ⟨false, queueMax⟩ fate now ops).2 = store at kept
      have moved : ∀ after : ReplNode, after.store = store → after.epoch = node.epoch ∧
          after.ebase = node.ebase ∧ after.seq = node.seq + 1 ∧ seq = node.seq + 1 := by
        intro after same
        subst same
        exact commit_numbers ran kept
      obtain ⟨epoch, ebase, number, _⟩ := moved { node with store := store } rfl
      apply Advance.unmoved epoch ebase _ based
      rw [number]
      exact Nat.le_succ _
  | record fate g record =>
    rw [evolve, appends]
    rcases Standby.lands_cases (config queueMax) node.store fate g record with
      ⟨idle, same⟩ | ⟨landed, named, rows, run, kept⟩
    · rw [same, if_neg (by rw [idle]; exact Bool.noConfusion)]
      exact Advance.unmoved rfl rfl (Nat.le_refl _) based
    · obtain ⟨forward, raw, ahead⟩ := steady landed
      obtain ⟨epochRow, seqRow, ebaseRow⟩ := replApplyTx_numbers run
      rw [if_pos landed]
      generalize (node.store.applyReplRecord (config queueMax) fate g record).2 = store at kept
      have epoch : ReplNode.epoch { node with store := store } = g.epoch := by
        rw [ReplNode.epoch, kept _ Key.noConfusion, epochRow, ← named]
        exact max_eq_right forward
      have ebase : ReplNode.ebase { node with store := store } = node.ebase := by
        rw [ReplNode.ebase, kept _ Key.noConfusion, ebaseRow]
        rfl
      have number : ReplNode.seq { node with store := store } = node.ebase + g.seq := by
        rw [ReplNode.seq, kept _ Key.noConfusion, seqRow, raw]
        exact max_eq_right ahead.le
      refine ⟨⟨?_, ?_⟩, Advance.moved ?_ ?_ ?_ named.symm⟩
      · rw [ebase, number]
        omega
      · rw [epoch]
        omega
      · rw [watermark, epoch, ebase, number, Nat.add_sub_cancel_left]
      · rw [Gtid.lt_iff, watermark]
        dsimp only
        omega
      · omega
  | hello fate epoch =>
    rw [evolve, appends]
    split
    · next later =>
        rcases steady with ⟨message, rfl⟩ | known
        · exact Advance.unmoved rfl rfl (Nat.le_refl _) based
        · exact absurd later (Nat.not_lt.mpr known)
    · exact Advance.unmoved rfl rfl (Nat.le_refl _) based
  | localize fate items consumed alloc allocSeq clearMarkers =>
    rw [evolve, appends]
    rcases localize_cases node.store fate items consumed alloc allocSeq clearMarkers with
      same | ⟨count, run⟩
    · rw [same]
      exact Advance.unmoved rfl rfl (Nat.le_refl _) based
    · obtain ⟨_, seqRow, epochRow, ebaseRow⟩ := replLocalizeTx_alike run
      apply Advance.unmoved _ _ _ based
      · rw [ReplNode.epoch, epochRow]
        rfl
      · rw [ReplNode.ebase, ebaseRow]
        rfl
      · rw [ReplNode.seq, ReplNode.seq, seqRow]

theorem exported_plain {key : Key} (exported : key.exported = true) :
    key.progress = false ∧ key ≠ .events := by
  cases key <;> first | exact ⟨rfl, Key.noConfusion⟩ | cases exported

/-- The record of a step, if there is one, takes a store that is alike to the one before the step
to a store that is alike to the one behind it. -/
structure Carries (rows : List (Gtid × ReplRecord)) (before after : Store) : Prop where
  silent : rows = [] → Alike before after
  recorded : ∀ row ∈ rows, ∀ replica, Alike before replica →
    MarksQueued (row.2.rawSeq.getD row.1.seq) (replica .events) row.2.ops →
    ∃ next, row.2.ops.forM (applyOp true (row.2.rawSeq.getD row.1.seq)) replica = .ok ((), next) ∧
      Alike after next

theorem Carries.nothing {before after : Store} (alike : Alike before after) : Carries [] before after :=
  ⟨fun _ => alike, nofun⟩

theorem Carries.replayed {before start middle after : Store} {g : Gtid} {record : ReplRecord}
    {replay : Bool} (begun : Alike start before)
    (ran : record.ops.forM (applyOp replay (record.rawSeq.getD g.seq)) start = .ok ((), middle))
    (kept : ∀ key, key.exported = true → after key = middle key) :
    Carries [(g, record)] before after := by
  refine ⟨fun impossible => absurd impossible (List.cons_ne_nil _ _), ?_⟩
  intro row member replica alike queued
  cases List.mem_singleton.mp member
  obtain ⟨next, replayed, same⟩ := (begun.trans alike).ops queued ran
  exact ⟨next, replayed, ((Alike.of_frame kept).symm).trans same⟩

theorem evolve_carries {queueMax : Nat} {node : ReplNode} {next : HistoryStep}
    (recorded : node.Recorded next) :
    Carries (node.appends next) node.store.rows (node.evolve queueMax next).store.rows := by
  cases next with
  | own next =>
    cases next with
    | commit fate now ops =>
      rcases commit_cases queueMax node fate now ops with
        ⟨same, none⟩ | ⟨seq, rows, ran, wrote, kept⟩
      · rw [evolve, appends, same, none]
        exact Carries.nothing (Alike.refl _)
      · rw [evolve, appends, wrote]
        obtain ⟨middle, body, rest⟩ := applyOps_rows ran
        obtain ⟨isNext, _⟩ := applyOps_numbers ran
        have replays : ops.forM (applyOp false seq) node.store.rows = .ok ((), middle) := by
          rw [isNext]
          exact body
        apply Carries.replayed (Alike.refl _) replays
        intro key exported
        obtain ⟨plain, other⟩ := exported_plain exported
        rw [kept key other, rest key plain]
    | promote fate force now scan =>
      rcases promote_cases node fate force now scan with
        ⟨same, _, none⟩ | ⟨opened, rows, ran, kept, wrote, _⟩
      · rw [evolve, appends, step, same, none]
        exact Carries.nothing (Alike.refl _)
      · rw [evolve, appends, step, wrote, kept]
        have none : (epochBarrier node.epoch (node.seq + 1) now).ops.forM (applyOp true
            ((epochBarrier node.epoch (node.seq + 1) now).rawSeq.getD (⟨opened, 1⟩ : Gtid).seq))
              node.store.rows = .ok ((), node.store.rows) := rfl
        have admitted : node.Admits force scan := by
          by_contra refused
          rw [writes_refused refused] at wrote
          cases wrote
        apply Carries.replayed (Alike.refl _) none
        intro key exported
        obtain ⟨plain, _⟩ := exported_plain exported
        obtain ⟨cleared, discarded, rest⟩ := promoteTx_rows ran
        rw [rest key plain]
        apply (PromoteScan.discard_queue (recorded admitted)).frame discarded
        rintro ⟨g, rfl⟩
        cases exported
    | setReplRole fate role => cases fate <;> exact Carries.nothing (Alike.refl _)
    | setReplBucketScoped fate bucketScoped => cases fate <;> exact Carries.nothing (Alike.refl _)
  | unlogged fate now ops =>
    rw [evolve, appends]
    rcases MetaStore.commit_cases ⟨false, queueMax⟩ node.store fate now ops with
      ⟨same, _⟩ | ⟨passed, seq, rows, ran, kept⟩
    · rw [same]
      exact Carries.nothing (Alike.refl _)
    · rcases recorded with ⟨message, refused⟩ | aside
      · exact absurd refused (passed message)
      · obtain ⟨middle, body, rest⟩ := applyOps_rows ran
        apply Carries.nothing
        apply (Alike.ops_aside aside body).trans
        apply Alike.of_frame
        intro key exported
        obtain ⟨plain, other⟩ := exported_plain exported
        rw [kept key other, rest key plain]
  | record fate g record =>
    rw [evolve, appends]
    rcases Standby.lands_cases (config queueMax) node.store fate g record with
      ⟨idle, same⟩ | ⟨landed, _, rows, run, kept⟩
    · rw [same, if_neg (by rw [idle]; exact Bool.noConfusion)]
      exact Carries.nothing (Alike.refl _)
    · rw [if_pos landed]
      obtain ⟨_, start, middle, advanced, body, behind⟩ := replApplyTx_applied run
      have begun : Alike start node.store.rows := by
        apply Alike.symm
        apply Alike.of_frame
        intro key exported
        apply advanceEpoch_frame advanced
        rintro rfl
        cases exported
      apply Carries.replayed begun body
      intro key exported
      obtain ⟨plain, other⟩ := exported_plain exported
      rw [kept key other, behind.rows key plain]
  | hello fate epoch =>
    rw [evolve, appends]
    apply Carries.nothing
    split
    · have advanced : Alike node.store.rows (node.setReplEpoch epoch).store.rows := by
        apply Alike.of_frame
        intro key exported
        apply Function.update_of_ne
        rintro rfl
        cases exported
      cases fate with
      | refused message => exact Alike.refl _
      | unflushed message => exact advanced
      | kept => exact advanced
    · exact Alike.refl _
  | localize fate items consumed alloc allocSeq clearMarkers =>
    rw [evolve, appends]
    apply Carries.nothing
    rcases localize_cases node.store fate items consumed alloc allocSeq clearMarkers with
      same | ⟨count, run⟩
    · rw [same]
      exact Alike.refl _
    · exact (replLocalizeTx_alike run).1

theorem records_between {queueMax : Nat} {node : ReplNode} {steps : List HistoryStep}
    (based : node.Based) (steady : Throughout queueMax Steady node steps) :
    (node.history queueMax steps).Based ∧
      node.watermark ≤ (node.history queueMax steps).watermark ∧
      ∀ row ∈ node.records queueMax steps,
        node.watermark < row.1 ∧ row.1 ≤ (node.history queueMax steps).watermark := by
  induction steps generalizing node with
  | nil => exact ⟨based, le_rfl, nofun⟩
  | cons next steps ih =>
    have first : (node.evolve queueMax next).Based ∧
        Advance node (node.evolve queueMax next) (node.appends next) :=
      evolve_advances based steady.1
    obtain ⟨stepped, advance⟩ := first
    obtain ⟨last, forward, between⟩ := ih stepped steady.2
    rw [records, history, List.foldl_cons, ← history]
    generalize node.appends next = rows at advance
    cases advance with
    | silent later =>
      refine ⟨last, later.trans forward, ?_⟩
      intro row inside
      obtain ⟨above, below⟩ := between row inside
      exact ⟨later.trans_lt above, below⟩
    | recorded record later positive epoch =>
      refine ⟨last, later.le.trans forward, ?_⟩
      intro row inside
      rcases List.mem_cons.mp inside with rfl | behind
      · exact ⟨later, forward⟩
      · obtain ⟨above, below⟩ := between row behind
        exact ⟨later.trans above, below⟩

theorem throughout_append {queueMax : Nat} {condition : ReplNode → HistoryStep → Prop}
    {node : ReplNode} {before after : List HistoryStep}
    (holds : Throughout queueMax condition node (before ++ after)) :
    Throughout queueMax condition node before ∧
      Throughout queueMax condition (node.history queueMax before) after := by
  induction before generalizing node with
  | nil => exact ⟨trivial, holds⟩
  | cons next before ih =>
    obtain ⟨first, rest⟩ := ih holds.2
    exact ⟨⟨holds.1, first⟩, rest⟩

end ReplNode

namespace MetaStore

section Receiving

variable (config : MetaConfig) (trims : Gtid → Bool)

def applyRecords : MetaStore → List (Gtid × ReplRecord) →
    List (Except Error ReplApplyOutcome) × MetaStore
  | store, [] => ([], store)
  | store, (g, record) :: rest =>
    let (answer, next) := store.applyReplRecord config (.kept (trims g)) g record
    let (answers, last) := applyRecords next rest
    (answer :: answers, last)

def MarksFound : MetaStore → List (Gtid × ReplRecord) → Prop
  | _, [] => True
  | store, (g, record) :: rest =>
    MarksQueued (record.rawSeq.getD g.seq) (store.rows .events) record.ops ∧
      MarksFound (store.applyReplRecord config (.kept (trims g)) g record).2 rest

end Receiving

end MetaStore

namespace ReplNode

/-- A downstream has what the node has, and stands nowhere ahead of it. -/
structure Followed (node : ReplNode) (standby : MetaStore) : Prop where
  rows : Alike node.store.rows standby.rows
  behind : standby.cursor ≤ node.watermark

section Following

variable {queueMax : Nat} {config : MetaConfig} {trims : Gtid → Bool} {node after : ReplNode}
  {standby : MetaStore}

theorem Followed.receive (followed : node.Followed standby) {record : ReplRecord}
    (initial : replInitialEpoch ≤ after.epoch) (later : node.watermark < after.watermark)
    (positive : 1 ≤ after.watermark.seq) (epoch : record.epoch = after.watermark.epoch)
    (carries : Carries [(after.watermark, record)] node.store.rows after.store.rows)
    (queued : MarksQueued (record.rawSeq.getD after.watermark.seq) (standby.rows .events) record.ops) :
    (standby.applyReplRecord config (.kept (trims after.watermark)) after.watermark record).1 =
        .ok .applied ∧
      after.Followed
        (standby.applyReplRecord config (.kept (trims after.watermark)) after.watermark record).2 := by
  have ahead : standby.cursor < after.watermark := followed.behind.trans_lt later
  obtain ⟨start, advanced⟩ := advanceEpoch_succeeds record.epoch standby.rows
  have begun : Alike node.store.rows start := by
    apply followed.rows.trans
    apply Alike.of_frame
    intro key exported
    apply advanceEpoch_frame advanced
    rintro rfl
    cases exported
  obtain ⟨middle, body, same⟩ := carries.recorded _ List.mem_cons_self start begun (by
    rw [advanceEpoch_frame advanced Key.noConfusion]
    exact queued)
  have unfenced : max standby.cursor.epoch replInitialEpoch ≤ record.epoch := by
    rw [epoch]
    apply max_le _ initial
    rcases Gtid.lt_iff.mp ahead with less | ⟨equal, _⟩
    · exact less.le
    · exact equal.le
  obtain ⟨rows, run, landed⟩ := replApplyTx_lands (Gtid.le_eq_false_iff.mpr ahead) unfenced advanced
    positive body
  have applies : standby.applyReplRecord config (.kept (trims after.watermark)) after.watermark record =
      (.ok .applied, MetaStore.settle config { standby with rows := rows } record.ops
        (trims after.watermark)) := by
    simp only [MetaStore.applyReplRecord, epoch, ne_eq, not_true_eq_false, if_false, run]
  rw [applies]
  refine ⟨rfl, ?_, ?_⟩
  · apply same.trans
    apply Alike.of_frame
    intro key exported
    obtain ⟨plain, other⟩ := exported_plain exported
    rw [MetaStore.settle_frame _ _ _ _ other]
    exact landed.rows key plain
  · rw [MetaStore.cursor, MetaStore.settle_frame _ _ _ _ Key.noConfusion]
    show (rows .replCursor).getD ⟨0, 0⟩ ≤ after.watermark
    rw [landed.cursor]
    exact le_rfl

theorem Followed.history {steps : List HistoryStep} (followed : node.Followed standby)
    (based : node.Based) (steady : Throughout queueMax Steady node steps)
    (recorded : Throughout queueMax Recorded node steps)
    (found : standby.MarksFound config trims (node.records queueMax steps)) :
    (standby.applyRecords config trims (node.records queueMax steps)).1 =
        (node.records queueMax steps).map (fun _ => .ok .applied) ∧
      (node.history queueMax steps).Followed
        (standby.applyRecords config trims (node.records queueMax steps)).2 := by
  induction steps generalizing node standby with
  | nil => exact ⟨rfl, followed⟩
  | cons next steps ih =>
    have first : (node.evolve queueMax next).Based ∧
        Advance node (node.evolve queueMax next) (node.appends next) :=
      evolve_advances based steady.1
    obtain ⟨stepped, advance⟩ := first
    have carries : Carries (node.appends next) node.store.rows
        (node.evolve queueMax next).store.rows := evolve_carries recorded.1
    rw [records] at found ⊢
    rw [ReplNode.history, List.foldl_cons, ← ReplNode.history]
    generalize node.appends next = rows at advance carries found
    cases advance with
    | silent later =>
      apply ih _ stepped steady.2 recorded.2 found
      exact ⟨(carries.silent rfl).symm.trans followed.rows, followed.behind.trans later⟩
    | recorded record later positive epoch =>
      have received : (standby.applyReplRecord config (.kept (trims
          (node.evolve queueMax next).watermark)) (node.evolve queueMax next).watermark record).1 =
            .ok .applied ∧
          (node.evolve queueMax next).Followed (standby.applyReplRecord config (.kept (trims
            (node.evolve queueMax next).watermark)) (node.evolve queueMax next).watermark record).2 :=
        followed.receive stepped.initial later positive epoch carries found.1
      obtain ⟨answered, follows⟩ := received
      obtain ⟨answers, last⟩ := ih follows stepped steady.2 recorded.2 found.2
      refine ⟨?_, last⟩
      simp only [List.cons_append, List.nil_append, MetaStore.applyRecords, List.map_cons, answered,
        answers]

end Following

end ReplNode

/-- How a node began: with a new database, or with the import of a snapshot. -/
inductive Origin where
  | created
  | imported (there : Store) (pages : List ImportPage) (exported : ReplExportPoint)

namespace Origin

def node (role : ReplRole) (bucketScoped : Bool) (slots : SlotTable) : Origin → ReplNode
  | .created => ReplNode.fresh role bucketScoped slots
  | .imported there pages exported =>
    { ReplNode.fresh role bucketScoped slots with
      store := (MetaStore.opened there).bootstrap pages exported }

def point : Origin → Gtid
  | .created => ⟨0, 0⟩
  | .imported _ _ exported => exported.point

def Initial : Origin → Prop
  | .created => True
  | .imported _ _ exported => replInitialEpoch ≤ exported.point.epoch

theorem node_based {origin : Origin} (initial : origin.Initial) (role : ReplRole)
    (bucketScoped : Bool) (slots : SlotTable) :
    (origin.node role bucketScoped slots).Based ∧
      origin.point ≤ (origin.node role bucketScoped slots).watermark := by
  cases origin with
  | created =>
    have first : (⟨0, 0⟩ : Gtid) ≤ ⟨replInitialEpoch, 0⟩ := by decide
    exact ⟨⟨Nat.le_refl _, Nat.le_refl _⟩, first⟩
  | imported there pages exported =>
    obtain ⟨_, epochRow, seqRow, ebaseRow⟩ :=
      MetaStore.bootstrap_numbers (MetaStore.opened there) pages exported
    have epoch : (node role bucketScoped slots (.imported there pages exported)).epoch =
        max (((MetaStore.opened there).rows .replEpoch).getD 0) exported.point.epoch := by
      rw [ReplNode.epoch, node, epochRow]
      rfl
    have seq : (node role bucketScoped slots (.imported there pages exported)).seq =
        max (((MetaStore.opened there).rows .seq).getD 0) exported.rawSeq := by
      rw [ReplNode.seq, node, seqRow]
      rfl
    have ebase : (node role bucketScoped slots (.imported there pages exported)).ebase =
        exported.ebase := by
      rw [ReplNode.ebase, node, ebaseRow]
      rfl
    have aligned := exported.aligned
    refine ⟨⟨?_, ?_⟩, ?_⟩
    · rw [ebase, seq]
      omega
    · rw [epoch]
      exact le_max_of_le_right initial
    · rw [← not_lt, Gtid.lt_iff, ReplNode.watermark, epoch, seq, ebase, point]
      dsimp only
      omega

end Origin

namespace ReplNode

theorem exportPoint_ok {node : ReplNode} (based : node.ebase ≤ node.seq) (binlog : List Gtid) :
    ∃ exported, node.exportPoint binlog = .ok exported ∧ exported.point = node.watermark :=
  ⟨_, dif_pos based, rfl⟩

theorem history_append (queueMax : Nat) (node : ReplNode) (before after : List HistoryStep) :
    node.history queueMax (before ++ after) =
      (node.history queueMax before).history queueMax after :=
  List.foldl_append

/-- Along a steady history every export names the point up to which the node has the records.  A
downstream that imports the export goes on with the records behind the point: it skips none, and
has in the end what the node has. -/
theorem snapshot_point_exact {queueMax : Nat} {origin : Origin} {role : ReplRole}
    {bucketScoped : Bool} {slots : SlotTable} {before after : List HistoryStep}
    (initial : origin.Initial)
    (steady : Throughout queueMax Steady (origin.node role bucketScoped slots) (before ++ after))
    (binlog : List Gtid) :
    let start := origin.node role bucketScoped slots
    let node := start.history queueMax before
    ∃ exported, node.exportPoint binlog = .ok exported ∧ origin.point ≤ exported.point ∧
      (∀ row ∈ start.records queueMax before, origin.point < row.1 ∧ row.1 ≤ exported.point) ∧
      (∀ row ∈ node.records queueMax after, exported.point < row.1) ∧
      ∀ config trims there pages, Exports node.store.rows (pages.flatMap ImportPage.entries) →
        Blank there (pages.flatMap ImportPage.entries) →
        Throughout queueMax Recorded node after →
        ((MetaStore.opened there).bootstrap pages exported).MarksFound config trims
          (node.records queueMax after) →
        let received := ((MetaStore.opened there).bootstrap pages exported).applyRecords config trims
          (node.records queueMax after)
        received.1 = (node.records queueMax after).map (fun _ => .ok .applied) ∧
          Alike (start.history queueMax (before ++ after)).store.rows received.2.rows := by
  intro start node
  obtain ⟨steadyBefore, steadyAfter⟩ := throughout_append steady
  obtain ⟨started, pointed⟩ := Origin.node_based initial role bucketScoped slots
  obtain ⟨based, grown, between⟩ := records_between started steadyBefore
  obtain ⟨_, _, behind⟩ := records_between based steadyAfter
  obtain ⟨exported, answer, isPoint⟩ := exportPoint_ok based.base binlog
  refine ⟨exported, answer, ?_, ?_, ?_, ?_⟩
  · rw [isPoint]
    exact pointed.trans grown
  · intro row inside
    obtain ⟨above, below⟩ := between row inside
    rw [isPoint]
    exact ⟨pointed.trans_lt above, below⟩
  · intro row inside
    rw [isPoint]
    exact (behind row inside).1
  · intro config trims there pages exports blank recorded found received
    have followed : node.Followed ((MetaStore.opened there).bootstrap pages exported) := by
      refine ⟨MetaStore.bootstrap_alike exports blank exported, ?_⟩
      rw [MetaStore.cursor, (MetaStore.bootstrap_numbers _ pages exported).1, Option.getD_some, isPoint]
    obtain ⟨answers, last⟩ := followed.history based steadyAfter recorded found
    refine ⟨answers, ?_⟩
    rw [history_append]
    exact last.rows

def samplePromotion : HistoryStep :=
  .own (.promote .kept false 0 ⟨[], [], fun _ _ => []⟩)

def sampleCommit (name : String) : HistoryStep :=
  .own (.commit (.kept true) 0 [.bucketPut name .created none])

def sampleNode : ReplNode :=
  (Origin.created.node .standby false noSlots).history 8 [samplePromotion, sampleCommit "photos"]

def samplePage : ImportPage :=
  ⟨[.bucket "photos" .created], none⟩

theorem sampleNode_entryAt {slot : Key × String} (other : slot ≠ (.bucket "photos", "")) :
    entryAt sampleNode.store.rows slot = none := by
  obtain ⟨key, id⟩ := slot
  cases key with
  | bucket name =>
    show single id ((Function.update Store.empty (.bucket "photos") (some .created)
      (.bucket name)).map (.bucket name)) = none
    rw [single]
    split
    · next plain =>
      rw [Function.update_of_ne fun key => other (by rw [key, plain])]
      rfl
    · rfl
  | location name =>
    show single id ((Function.update Store.empty (.location "photos")
      (Store.empty (.location "photos")) (.location name)).map (.location name)) = none
    rw [Function.update_eq_self]
    exact ite_self none
  | _ => first | rfl | exact ite_self none

theorem sampleNode_exports : Exports sampleNode.store.rows samplePage.entries := by
  constructor
  · intro entry member
    cases List.mem_singleton.mp member
    rfl
  · intro slot held
    refine ⟨_, List.mem_singleton_self _, ?_⟩
    by_contra other
    rw [sampleNode_entryAt (Ne.symm other)] at held
    cases held

theorem empty_blank (entries : List ImportEntry) : Blank Store.empty entries := by
  intro slot some
  have bare : entryAt Store.empty slot = none := by
    obtain ⟨key, id⟩ := slot
    cases key <;> first | rfl | exact ite_self none
  rw [bare] at some
  cases some

/-- A standby is promoted, writes, and is exported; the downstream applies the commit that follows. -/
theorem snapshot_point_exact_promoted :
    let start := Origin.created.node .standby false noSlots
    let before := [samplePromotion, sampleCommit "photos"]
    ∃ exported, sampleNode.exportPoint [] = .ok exported ∧ (start.records 8 before).length = 2 ∧
      (∀ row ∈ start.records 8 before, row.1 ≤ exported.point) ∧
      let received := ((MetaStore.opened Store.empty).bootstrap [samplePage] exported).applyRecords
        ⟨true, 8⟩ (fun _ => true) (sampleNode.records 8 [sampleCommit "logs"])
      received.1 = [.ok .applied] ∧
        Alike (start.history 8 (before ++ [sampleCommit "logs"])).store.rows received.2.rows := by
  intro start before
  have initial : Origin.created.Initial := trivial
  have steady : Throughout 8 Steady start (before ++ [sampleCommit "logs"]) :=
    ⟨trivial, trivial, trivial, trivial⟩
  obtain ⟨exported, answer, _, contained, _, follow⟩ := snapshot_point_exact initial steady []
  refine ⟨exported, answer, rfl, fun row inside => (contained row inside).2, ?_⟩
  apply follow ⟨true, 8⟩ (fun _ => true) Store.empty [samplePage] sampleNode_exports
    (empty_blank _)
  · exact ⟨trivial, trivial⟩
  · exact ⟨⟨nofun, trivial⟩, trivial⟩

/-- A standby that follows its upstream into a new epoch keeps its base, and reports a point ahead
of what it has: a downstream that starts from there takes the next record for a duplicate. -/
theorem snapshot_point_ahead :
    let upstream := fresh .standby false noSlots
    let rows := upstream.records 8 [sampleCommit "photos", samplePromotion, sampleCommit "logs"]
    let node := (fresh .standby false noSlots).history 8
      ((rows.take 2).map fun row => .record (.kept true) row.1 row.2)
    let exported := (node.exportPoint []).toOption
    let received := exported.map fun exported =>
      ((MetaStore.opened Store.empty).bootstrap [⟨[.bucket "photos" .created], none⟩] exported).applyRecords
        ⟨true, 8⟩ (fun _ => true) (rows.drop 2)
    rows.map Prod.fst = [⟨1, 1⟩, ⟨2, 1⟩, ⟨2, 2⟩] ∧ exported.map (·.point) = some ⟨2, 2⟩ ∧
      node.store.rows (.bucket "photos") = some .created ∧ node.store.rows (.bucket "logs") = none ∧
      received.map (fun result => result.1.map Except.toOption) = some [some .skippedDuplicate] ∧
      received.map (fun result => result.2.rows (.bucket "logs")) = some none ∧
      (node.history 8 ((rows.drop 2).map fun row => .record (.kept true) row.1 row.2)).store.rows
        (.bucket "logs") = some .created := by
  decide +kernel

end ReplNode

end FastS3.Meta
