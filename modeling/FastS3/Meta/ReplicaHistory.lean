import FastS3.Meta.SnapshotPoint
import FastS3.Meta.Stream

namespace FastS3.Meta

open FastS3.Core Data

/-! What a standby shows while it pulls the records of a node.

Connections break anywhere, and records come again.  The standby applies the next record of the
node's history or none, so what it shows is always a state that the node went through.
-/

theorem marksQueued_of_run {seq : Nat} {ops : List Op} {start after : Store}
    (run : ops.forM (applyOp true seq) start = .ok ((), after)) :
    MarksQueued seq (start .events) ops := by
  induction ops generalizing start with
  | nil => trivial
  | cons op rest ih =>
    obtain ⟨_, middle, ran, remaining⟩ := Tx.bind_eq_ok.mp run
    have events := applyOp_events true ran
    refine ⟨?_, events ▸ ih remaining⟩
    intro target marks
    subst marks
    have rest := tget_bind_ok.mp ran
    cases found : (start .events).get? target with
    | none =>
      simp only [found] at rest
      exact absurd rest Tx.throw_ne_ok
    | some record => rfl

namespace ReplNode

section Shown

variable {queueMax : Nat} {config : MetaConfig} {node after : ReplNode} {standby last : MetaStore}

theorem records_append (before later : List HistoryStep) :
    node.records queueMax (before ++ later) =
      node.records queueMax before ++ (node.history queueMax before).records queueMax later := by
  induction before generalizing node with
  | nil => rfl
  | cons next before ih =>
    rw [List.cons_append, records, records, ih, List.append_assoc]
    rfl

theorem Followed.landed (followed : node.Followed standby) {record : ReplRecord} {rows : Store}
    (carries : Carries [(after.watermark, record)] node.store.rows after.store.rows)
    (run : replApplyTx after.watermark record standby.rows = .ok (.applied, rows))
    (kept : ∀ key, key ≠ .events → last.rows key = rows key) : after.Followed last := by
  obtain ⟨_, start, middle, advanced, body, landed⟩ := replApplyTx_applied run
  have begun : Alike node.store.rows start := by
    apply followed.rows.trans
    apply Alike.of_frame
    intro key exported
    apply advanceEpoch_frame advanced
    rintro rfl
    cases exported
  obtain ⟨again, repeated, same⟩ :=
    carries.recorded _ List.mem_cons_self start begun (marksQueued_of_run body)
  rw [body] at repeated
  cases repeated
  constructor
  · apply same.trans
    apply Alike.of_frame
    intro key exported
    obtain ⟨plain, other⟩ := exported_plain exported
    rw [kept key other]
    exact landed.rows key plain
  · rw [MetaStore.cursor, kept _ Key.noConfusion, landed.cursor]
    exact le_rfl

/-- Of the steps of the node, `done` are those that the standby shows. -/
structure Shows (queueMax : Nat) (node : ReplNode) (steps : List HistoryStep) (standby : MetaStore)
    (done rest : List HistoryStep) : Prop where
  split : steps = done ++ rest
  followed : (node.history queueMax done).Followed standby
  passed : ∀ row ∈ node.records queueMax done, row.1 ≤ standby.cursor

theorem Followed.next {steps : List HistoryStep} (followed : node.Followed standby)
    (based : node.Based) (steady : Throughout queueMax Steady node steps)
    (recorded : Throughout queueMax Recorded node steps) {g : Gtid} {record : ReplRecord} {rows : Store}
    (inside : (g, record) ∈ node.records queueMax steps)
    (first : ∀ row ∈ node.records queueMax steps, row.1 < g → row.1 ≤ standby.cursor)
    (run : replApplyTx g record standby.rows = .ok (.applied, rows))
    (kept : ∀ key, key ≠ .events → last.rows key = rows key) :
    ∃ done rest, steps = done ++ rest ∧ (node.history queueMax done).Followed last ∧
      ∀ row ∈ node.records queueMax done, row.1 = g := by
  induction steps generalizing node with
  | nil => cases inside
  | cons next steps ih =>
    have step : (node.evolve queueMax next).Based ∧
        Advance node (node.evolve queueMax next) (node.appends next) :=
      evolve_advances based steady.1
    obtain ⟨stepped, advance⟩ := step
    have carries : Carries (node.appends next) node.store.rows
        (node.evolve queueMax next).store.rows := evolve_carries recorded.1
    obtain ⟨_, _, between⟩ := records_between stepped steady.2
    rw [records] at inside first
    generalize written : node.appends next = mine at advance carries inside first
    cases advance with
    | silent later =>
      have quiet : (node.evolve queueMax next).Followed standby :=
        ⟨(carries.silent rfl).symm.trans followed.rows, followed.behind.trans later⟩
      obtain ⟨done, rest, split, shown, only⟩ :=
        ih quiet stepped steady.2 recorded.2 inside first
      refine ⟨next :: done, rest, by rw [split, List.cons_append], shown, ?_⟩
      rw [records, written]
      exact only
    | recorded record' later positive epoch =>
      rcases List.mem_cons.mp inside with here | behind
      · cases here
        refine ⟨[next], steps, rfl, followed.landed carries run kept, ?_⟩
        intro row member
        rw [records, written, records, List.append_nil, List.mem_singleton] at member
        rw [member]
      · have passed := first _ List.mem_cons_self (between _ behind).1
        exact absurd (followed.behind.trans_lt later) (not_lt.mpr passed)

theorem alike_of_silent {steps : List HistoryStep}
    (recorded : Throughout queueMax Recorded node steps) (silent : node.records queueMax steps = []) :
    Alike node.store.rows (node.history queueMax steps).store.rows := by
  induction steps generalizing node with
  | nil => exact Alike.refl _
  | cons next steps ih =>
    rw [records, List.append_eq_nil_iff] at silent
    exact ((evolve_carries recorded.1).silent silent.1).trans (ih recorded.2 silent.2)

variable {upstream : Upstream} {steps : List HistoryStep}

theorem Shows.deliver {point : Gtid} {done rest : List HistoryStep}
    (shows : Shows queueMax node steps standby done rest) (based : node.Based)
    (steady : Throughout queueMax Steady node steps)
    (recorded : Throughout queueMax Recorded node steps) (imported : point ≤ standby.cursor)
    (listed : upstream.records.filter (fun row => point < row.1) = node.records queueMax steps)
    {delivery : Delivery} (member : (delivery.gtid, delivery.record) ∈ upstream.records)
    (gapless : ∀ row ∈ upstream.records, row.1 < delivery.gtid → row.1 ≤ standby.cursor) :
    ∃ done rest, Shows queueMax node steps (standby.deliver config delivery).2 done rest := by
  rcases standby.applyReplRecord_cases config delivery.fate delivery.gtid delivery.record with
    ⟨same, _⟩ | ⟨rows, run, kept⟩
  · refine ⟨done, rest, ?_⟩
    rw [MetaStore.deliver, same]
    exact shows
  · obtain ⟨split, followed, passed⟩ := shows
    subst split
    obtain ⟨steadyDone, steadyRest⟩ := throughout_append steady
    obtain ⟨_, recordedRest⟩ := throughout_append recorded
    obtain ⟨basedDone, _, _⟩ := records_between based steadyDone
    obtain ⟨ahead, _, _, _, _, landed⟩ := replApplyTx_applied run
    have forward : standby.cursor < delivery.gtid := Gtid.le_eq_false_iff.mp ahead
    have cursor : (standby.deliver config delivery).2.cursor = delivery.gtid := by
      rw [MetaStore.cursor, MetaStore.deliver, kept _ Key.noConfusion, landed.cursor]
      rfl
    rw [records_append] at listed
    have known : ∀ row ∈ (node.history queueMax done).records queueMax rest,
        row ∈ upstream.records := by
      intro row inside
      exact List.mem_of_mem_filter (listed ▸ List.mem_append_right _ inside)
    have inside : (delivery.gtid, delivery.record) ∈
        (node.history queueMax done).records queueMax rest := by
      have beyond : (delivery.gtid, delivery.record) ∈
          upstream.records.filter fun row => point < row.1 := by
        rw [List.mem_filter]
        exact ⟨member, decide_eq_true (imported.trans_lt forward)⟩
      rw [listed] at beyond
      exact (List.mem_append.mp beyond).resolve_left fun before =>
        absurd forward (not_lt.mpr (passed _ before))
    obtain ⟨more, left, parted, shown, only⟩ := followed.next basedDone steadyRest recordedRest
      inside (fun row held => gapless row (known row held)) run kept
    refine ⟨done ++ more, left, ?_, ?_, ?_⟩
    · rw [parted, List.append_assoc]
    · rw [history_append]
      exact shown
    · intro row held
      rw [records_append] at held
      rw [cursor]
      rcases List.mem_append.mp held with before | fresh
      · exact (passed row before).trans forward.le
      · exact (only row fresh).le

theorem Shows.receive {point : Gtid} {done rest : List HistoryStep} {delivered : List Delivery}
    (shows : Shows queueMax node steps standby done rest) (based : node.Based)
    (steady : Throughout queueMax Steady node steps)
    (recorded : Throughout queueMax Recorded node steps) (imported : point ≤ standby.cursor)
    (listed : upstream.records.filter (fun row => point < row.1) = node.records queueMax steps)
    (members : ∀ delivery ∈ delivered, (delivery.gtid, delivery.record) ∈ upstream.records)
    (gapless : (Meta.standby config).Gapless (upstream.records.map Prod.fst) standby delivered) :
    ∃ done rest, Shows queueMax node steps (standby.receive config delivered) done rest := by
  induction delivered generalizing standby done rest with
  | nil => exact ⟨done, rest, shows⟩
  | cons delivery delivered ih =>
    obtain ⟨passed, _, later⟩ := gapless
    have front : ∀ row ∈ upstream.records, row.1 < delivery.gtid → row.1 ≤ standby.cursor :=
      fun row inside => passed row.1 (List.mem_map_of_mem inside)
    have next : ∃ done rest, Shows queueMax node steps (standby.deliver config delivery).2 done rest :=
      shows.deliver based steady recorded imported listed (members delivery List.mem_cons_self) front
    obtain ⟨done, rest, shown⟩ := next
    have grown : standby.cursor ≤ (standby.deliver config delivery).2.cursor :=
      (Meta.standby config).cursor_le_step standby delivery
    exact ih shown (imported.trans grown)
      (fun other inside => members other (List.mem_cons_of_mem _ inside)) later

end Shown

/-- A downstream that imported an export and pulls what the node has written since, over connections
that break and repeat, always shows a state that the node went through, and its cursor tells which;
behind the last record it has what the node has. -/
theorem replica_shows_history {queueMax : Nat} {origin : Origin} {role : ReplRole}
    {bucketScoped : Bool} {slots : SlotTable} {before after : List HistoryStep}
    (initial : origin.Initial)
    (steady : Throughout queueMax Steady (origin.node role bucketScoped slots) (before ++ after)) :
    let node := (origin.node role bucketScoped slots).history queueMax before
    Throughout queueMax Recorded node after →
    ∀ binlog exported, node.exportPoint binlog = .ok exported →
    ∀ there pages, Exports node.store.rows (pages.flatMap ImportPage.entries) →
      Blank there (pages.flatMap ImportPage.entries) →
    ∀ upstream : Upstream,
      upstream.records.filter (fun row => exported.point < row.1) = node.records queueMax after →
    ∀ config connections,
      let start := (MetaStore.opened there).bootstrap pages exported
      let replica := start.receive config (deliveries config upstream connections start)
      ∃ done rest, after = done ++ rest ∧
        Alike (node.history queueMax done).store.rows replica.rows ∧
        (∀ row ∈ node.records queueMax done, row.1 ≤ replica.cursor) ∧
        (∀ row ∈ (node.history queueMax done).records queueMax rest, replica.cursor < row.1) ∧
        ((∀ row ∈ node.records queueMax after, row.1 ≤ replica.cursor) →
          Alike (node.history queueMax after).store.rows replica.rows) := by
  intro node recorded binlog exported answer there pages exports blank upstream listed config
    connections start replica
  obtain ⟨steadyBefore, steadyAfter⟩ := throughout_append steady
  obtain ⟨started, _⟩ := Origin.node_based initial role bucketScoped slots
  obtain ⟨based, _, _⟩ := records_between started steadyBefore
  obtain ⟨exported', answer', isPoint⟩ := exportPoint_ok based.base binlog
  have cursor : start.cursor = exported.point := by
    rw [MetaStore.cursor, (MetaStore.bootstrap_numbers _ pages exported).1, Option.getD_some]
  have point : exported.point = node.watermark := by
    have same : exported = exported' := Except.ok.inj (answer.symm.trans answer')
    rw [same, isPoint]
  have shows : Shows queueMax node after start [] after := by
    refine ⟨rfl, ⟨MetaStore.bootstrap_alike exports blank exported, ?_⟩,
      fun _ inside => absurd inside List.not_mem_nil⟩
    rw [cursor, point]
    exact le_rfl
  have orderly : (Meta.standby config).Gapless (upstream.records.map Prod.fst) start
      (deliveries config upstream connections start) ∧ _ := deliveries_gapless connections start
  obtain ⟨gapless, members⟩ := orderly
  obtain ⟨done, rest, shown⟩ := shows.receive based steadyAfter recorded (by rw [cursor]) listed
    members gapless
  obtain ⟨split, followed, passed⟩ := shown
  subst split
  obtain ⟨steadyDone, steadyRest⟩ := throughout_append steadyAfter
  obtain ⟨basedDone, _, _⟩ := records_between based steadyDone
  obtain ⟨_, _, between⟩ := records_between basedDone steadyRest
  have ahead : ∀ row ∈ (node.history queueMax done).records queueMax rest, replica.cursor < row.1 := by
    intro row inside
    exact followed.behind.trans_lt (between row inside).1
  refine ⟨done, rest, rfl, followed.rows, passed, ahead, ?_⟩
  intro all
  have silent : (node.history queueMax done).records queueMax rest = [] := by
    rw [List.eq_nil_iff_forall_not_mem]
    intro row inside
    have reached := all row (records_append done rest ▸ List.mem_append_right _ inside)
    exact absurd (ahead row inside) (not_lt.mpr reached)
  rw [history_append]
  exact (alike_of_silent (throughout_append recorded).2 silent).symm.trans followed.rows

theorem replica_shows_history_photos :
    let later := [sampleCommit "logs", sampleCommit "tmp"]
    ∃ exported upstream, sampleNode.exportPoint [] = .ok exported ∧
      upstream.records = sampleNode.records 8 later ∧
      let start := (MetaStore.opened Store.empty).bootstrap [samplePage] exported
      let replica := start.receive ⟨true, 8⟩ (deliveries ⟨true, 8⟩ upstream
        [⟨0, [.refused "IO error"]⟩, ⟨1, [.kept true]⟩] start)
      ∃ done rest, later = done ++ rest ∧
        Alike (sampleNode.history 8 done).store.rows replica.rows := by
  intro later
  have steady : Throughout 8 Steady (Origin.created.node .standby false noSlots)
      ([samplePromotion, sampleCommit "photos"] ++ later) := ⟨trivial, trivial, trivial, trivial, trivial⟩
  have initial : Origin.created.Initial := trivial
  obtain ⟨started, _⟩ := Origin.node_based initial .standby false noSlots
  obtain ⟨based, _, _⟩ := records_between started (throughout_append steady).1
  obtain ⟨exported, answer, isPoint⟩ := exportPoint_ok based.base []
  let upstream : Upstream := ⟨sampleNode.records 8 later, by decide +kernel, by decide +kernel⟩
  have listed : upstream.records.filter (fun row => exported.point < row.1) =
      sampleNode.records 8 later := by
    rw [isPoint]
    rfl
  obtain ⟨done, rest, split, shown, _⟩ := replica_shows_history initial steady
    ⟨trivial, trivial, trivial⟩ [] exported answer Store.empty [samplePage] sampleNode_exports
    (empty_blank _) upstream listed ⟨true, 8⟩ [⟨0, [.refused "IO error"]⟩, ⟨1, [.kept true]⟩]
  exact ⟨exported, upstream, answer, rfl, done, rest, split, shown⟩

end ReplNode

end FastS3.Meta
