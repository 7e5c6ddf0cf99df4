import FastS3.Repl.Stream

namespace FastS3.Repl

open FastS3.Core FastS3.Data FastS3.Meta

/-! The numbers of what an upstream writes.

A primary numbers its commits behind its watermark, and a standby takes records behind its cursor.  A
promotion leads from the one to the other with the first number of a new epoch.
-/

def standing (node : ReplNode) : Gtid :=
  match node.role with
  | .primary => node.watermark
  | .standby => node.store.cursor

structure Numbered (node : ReplNode) (written : List (Gtid × ReplRecord)) : Prop where
  base : node.ebase ≤ node.seq
  epochs : ∀ row ∈ written, row.1.epoch ≤ node.epoch
  behind : ∀ row ∈ written, row.1 ≤ standing node

inductive Writes (node after : ReplNode) : List (Gtid × ReplRecord) → Prop where
  | silent : after.ebase ≤ after.seq → node.epoch ≤ after.epoch → standing node ≤ standing after →
      Writes node after []
  | logged (row : Gtid × ReplRecord) : after.ebase ≤ after.seq → node.epoch ≤ after.epoch →
      row.1.epoch ≤ after.epoch → standing node < row.1 ∨ node.epoch < row.1.epoch →
      row.1 ≤ standing after → Writes node after [row]

section Nodes

variable {node after : ReplNode} {written rows : List (Gtid × ReplRecord)} {fate : Fate} {now : Int}
  {ops : List Op}

theorem Writes.newest (numbered : Numbered node written) (writes : Writes node after rows) :
    ∀ row ∈ rows, ∀ old ∈ written, old.1 < row.1 := by
  intro row inside old wrote
  cases writes with
  | silent base epoch stands => cases inside
  | logged other base epoch within ahead stands =>
    rw [List.mem_singleton.mp inside]
    obtain later | next := ahead
    · exact lt_of_le_of_lt (numbered.behind old wrote) later
    · rw [Gtid.lt_iff]
      exact .inl (lt_of_le_of_lt (numbered.epochs old wrote) next)

theorem Writes.numbered (numbered : Numbered node written) (writes : Writes node after rows) :
    Numbered after (written ++ rows) := by
  have newest := writes.newest numbered
  cases writes with
  | silent base epoch stands =>
    rw [List.append_nil]
    refine ⟨base, ?_, ?_⟩
    · intro row wrote
      exact (numbered.epochs row wrote).trans epoch
    · intro row wrote
      exact (numbered.behind row wrote).trans stands
  | logged other base epoch within ahead stands =>
    refine ⟨base, ?_, ?_⟩
    · intro row wrote
      obtain old | new := List.mem_append.mp wrote
      · exact (numbered.epochs row old).trans epoch
      · rw [List.mem_singleton.mp new]
        exact within
    · intro row wrote
      obtain old | new := List.mem_append.mp wrote
      · exact (newest other List.mem_cons_self row old).le.trans stands
      · rw [List.mem_singleton.mp new]
        exact stands

theorem Writes.unmoved (base : node.ebase ≤ node.seq) (role : after.role = node.role)
    (epoch : node.epoch ≤ after.epoch) (ebase : after.ebase = node.ebase) (seq : node.seq ≤ after.seq)
    (cursor : after.store.cursor = node.store.cursor) : Writes node after [] := by
  apply Writes.silent _ epoch
  · rw [standing, standing, role]
    cases node.role with
    | standby => exact cursor.ge
    | primary =>
      show node.watermark ≤ after.watermark
      rw [← not_lt, Gtid.lt_iff, ReplNode.watermark, ReplNode.watermark, ebase]
      dsimp only
      omega
  · rw [ebase]
    exact base.trans seq

theorem applyOps_cursor {replBinlog : Bool} {before rows : Store} {seq : Nat}
    (ran : applyOps (.commit replBinlog now) ops before = .ok (seq, rows)) :
    rows .replCursor = before .replCursor := by
  obtain ⟨middle, written, body, logged, updated, _⟩ := applyOps_ok ran
  rw [updated, Function.update_of_ne Key.noConfusion,
    writeBinlog_frame logged fun _ => Key.noConfusion, forM_progress body rfl]

variable (queueMax : Nat)

theorem commit_writes (base : node.ebase ≤ node.seq) (primary : node.role = .primary) :
    Writes node (node.evolve queueMax (.own (.commit fate now ops)))
      (node.appends (.own (.commit fate now ops))) := by
  rw [ReplNode.evolve, ReplNode.appends]
  obtain ⟨same, none⟩ | ⟨seq, rows, ran, wrote, kept⟩ := ReplNode.commit_cases queueMax node fate now ops
  · rw [same, none]
    exact .unmoved base rfl le_rfl rfl le_rfl rfl
  · obtain ⟨epoch, ebase, number, isNext⟩ := ReplNode.commit_numbers ran kept
    have role : (node.step queueMax (.commit fate now ops)).role = .primary := primary
    rw [wrote]
    generalize node.step queueMax (.commit fate now ops) = after at epoch ebase number role
    have stands : standing after = ⟨node.epoch, seq - node.ebase⟩ := by
      rw [standing, role]
      show after.watermark = _
      rw [ReplNode.watermark, epoch, ebase, number, isNext]
    apply Writes.logged
    · omega
    · exact epoch.ge
    · exact epoch.ge
    · left
      rw [standing, primary]
      show node.watermark < _
      rw [Gtid.lt_iff, ReplNode.watermark]
      dsimp only
      omega
    · exact stands.ge

theorem unlogged_writes (base : node.ebase ≤ node.seq) :
    Writes node (node.evolve queueMax (.unlogged fate now ops)) [] := by
  rw [ReplNode.evolve]
  obtain ⟨same, _⟩ | ⟨_, seq, rows, ran, kept⟩ :=
    MetaStore.commit_cases ⟨false, queueMax⟩ node.store fate now ops
  · rw [same]
    exact .unmoved base rfl le_rfl rfl le_rfl rfl
  · generalize (node.store.commit ⟨false, queueMax⟩ fate now ops).2 = store at kept
    have moved : ∀ other : ReplNode, other.store = store → other.epoch = node.epoch ∧
        other.ebase = node.ebase ∧ other.seq = node.seq + 1 ∧ seq = node.seq + 1 := by
      intro other same
      subst same
      exact ReplNode.commit_numbers ran kept
    obtain ⟨epoch, ebase, number, _⟩ := moved { node with store := store } rfl
    apply Writes.unmoved base (by rfl) epoch.ge ebase
    · rw [number]
      exact Nat.le_succ _
    · show store.cursor = node.store.cursor
      rw [MetaStore.cursor, MetaStore.cursor, kept _ Key.noConfusion, applyOps_cursor ran]

theorem promote_role (fate : WriteFate) (force : Bool) (scan : PromoteScan) :
    (node.promote fate force now scan).2 = node ∨ (node.promote fate force now scan).2.role = .primary := by
  unfold ReplNode.promote
  split
  · exact .inl rfl
  · split
    · exact .inl rfl
    · split
      · exact .inl rfl
      · cases promoteTx scan now node.store.rows with
        | error e => exact .inl rfl
        | ok result =>
          cases fate with
          | refused message => exact .inl rfl
          | unflushed message => exact .inr rfl
          | kept => exact .inr rfl

theorem promote_writes (base : node.ebase ≤ node.seq) (fate : WriteFate) (force : Bool)
    (scan : PromoteScan) :
    Writes node (node.evolve queueMax (.own (.promote fate force now scan)))
      (node.appends (.own (.promote fate force now scan))) := by
  rw [ReplNode.evolve, ReplNode.appends, ReplNode.step]
  obtain ⟨same, _, none⟩ | ⟨opened, rows, ran, kept, wrote, _⟩ :=
    ReplNode.promote_cases node fate force now scan
  · rw [same, none]
    exact .unmoved base rfl le_rfl rfl le_rfl rfl
  · obtain ⟨epoch, ebase, number, isNext⟩ := ReplNode.promote_numbers ran kept
    have role : (node.promote fate force now scan).2 = node ∨
        (node.promote fate force now scan).2.role = .primary :=
      promote_role fate force scan
    rw [wrote]
    generalize (node.promote fate force now scan).2 = after at epoch ebase number role
    have primary : after.role = .primary := by
      obtain same | primary := role
      · rw [same] at epoch
        omega
      · exact primary
    have stands : standing after = ⟨opened, 1⟩ := by
      rw [standing, primary]
      show after.watermark = _
      rw [ReplNode.watermark, epoch, ebase, number, Nat.add_sub_cancel_left]
    apply Writes.logged
    · omega
    · omega
    · exact epoch.ge
    · right
      show node.epoch < opened
      omega
    · exact stands.ge

theorem record_writes (base : node.ebase ≤ node.seq) (standby : node.role = .standby) (g : Gtid)
    (record : ReplRecord) :
    Writes node (node.evolve queueMax (.record fate g record)) (node.appends (.record fate g record)) := by
  rw [ReplNode.evolve, ReplNode.appends]
  obtain ⟨idle, same⟩ | ⟨landed, named, rows, run, kept⟩ :=
    Standby.lands_cases (ReplNode.config queueMax) node.store fate g record
  · rw [same, if_neg (by rw [idle]; exact Bool.noConfusion)]
    exact .unmoved base rfl le_rfl rfl le_rfl rfl
  · obtain ⟨epochRow, seqRow, ebaseRow⟩ := replApplyTx_numbers run
    obtain ⟨ahead, _, _, _, _, moved⟩ := replApplyTx_applied run
    rw [if_pos landed]
    generalize (node.store.applyReplRecord (ReplNode.config queueMax) fate g record).2 = store at kept
    have epoch : ReplNode.epoch { node with store := store } = max node.epoch g.epoch := by
      rw [ReplNode.epoch, kept _ Key.noConfusion, epochRow, ← named]
      rfl
    have ebase : ReplNode.ebase { node with store := store } = node.ebase := by
      rw [ReplNode.ebase, kept _ Key.noConfusion, ebaseRow]
      rfl
    have number : ReplNode.seq { node with store := store } =
        max node.seq (record.rawSeq.getD g.seq) := by
      rw [ReplNode.seq, kept _ Key.noConfusion, seqRow]
      rfl
    have stands : standing { node with store := store } = g := by
      rw [standing, standby]
      show store.cursor = g
      rw [MetaStore.cursor, kept _ Key.noConfusion, moved.cursor]
      rfl
    apply Writes.logged
    · rw [ebase, number]
      exact base.trans (le_max_left _ _)
    · rw [epoch]
      exact le_max_left _ _
    · rw [epoch]
      exact le_max_right _ _
    · left
      rw [standing, standby]
      exact Gtid.le_eq_false_iff.mp ahead
    · exact stands.ge

theorem localizeTx_cursor {items : List ReplLocalizeItem} {consumed : List (Gtid × DataRef)}
    {alloc : Option AllocDraft} {allocSeq count : Nat} {clearMarkers : List (String × String)}
    {before rows : Store}
    (run : replLocalizeTx items consumed alloc allocSeq clearMarkers before = .ok (count, rows)) :
    rows .replCursor = before .replCursor := by
  obtain ⟨_, exchanged, _, ran, _, _, behind⟩ := replLocalizeTx_stages run
  rw [behind _ (fun _ => Key.noConfusion) (fun _ _ => Key.noConfusion)
    (fun _ => ⟨Key.noConfusion, Key.noConfusion⟩), localizeItems_progress ran rfl]

theorem localize_writes (base : node.ebase ≤ node.seq) (fate : LocalizeFate)
    (items : List ReplLocalizeItem) (consumed : List (Gtid × DataRef)) (alloc : Option AllocDraft)
    (allocSeq : Nat) (clearMarkers : List (String × String)) :
    Writes node (node.evolve queueMax (.localize fate items consumed alloc allocSeq clearMarkers)) [] := by
  rw [ReplNode.evolve]
  obtain same | ⟨count, run⟩ :=
    ReplNode.localize_cases node.store fate items consumed alloc allocSeq clearMarkers
  · rw [same]
    exact .unmoved base rfl le_rfl rfl le_rfl rfl
  · obtain ⟨_, seqRow, epochRow, ebaseRow⟩ := replLocalizeTx_alike run
    have cursorRow := localizeTx_cursor run
    generalize (node.store.replLocalizeSegments fate items consumed alloc allocSeq clearMarkers).2 =
      store at seqRow epochRow ebaseRow cursorRow
    apply Writes.unmoved base (by rfl)
    · rw [ReplNode.epoch, ReplNode.epoch, epochRow]
    · rw [ReplNode.ebase, ReplNode.ebase, ebaseRow]
    · rw [ReplNode.seq, ReplNode.seq, seqRow]
    · rw [MetaStore.cursor, MetaStore.cursor, cursorRow]

theorem hello_writes (base : node.ebase ≤ node.seq) (fate : WriteFate) (epoch : Nat) :
    Writes node (node.evolve queueMax (.hello fate epoch)) [] := by
  rw [ReplNode.evolve]
  split
  · next later =>
      have known : node.epoch ≤ (node.setReplEpoch epoch).epoch := by
        show node.epoch ≤ epoch
        exact later.le
      cases fate with
      | refused message => exact .unmoved base rfl le_rfl rfl le_rfl rfl
      | unflushed message => exact .unmoved base rfl known rfl le_rfl rfl
      | kept => exact .unmoved base rfl known rfl le_rfl rfl
  · exact .unmoved base rfl le_rfl rfl le_rfl rfl

end Nodes

theorem advance_writes (queueMax : Nat) (server : ReplServer) (base : server.node.ebase ≤ server.node.seq)
    (next : UpstreamStep) :
    Writes server.node (server.advance queueMax next).node (server.logs next) := by
  have idle : Writes server.node server.node [] := .unmoved base rfl le_rfl rfl le_rfl rfl
  cases next with
  | commit fate now ops =>
    rw [ReplServer.advance, ReplServer.logs, UpstreamStep.ofRole]
    split
    · next primary => exact commit_writes queueMax base primary
    · exact idle
  | unlogged fate now ops => exact unlogged_writes queueMax base
  | promote fate force now scan => exact promote_writes queueMax base fate force scan
  | record fate g record =>
    rw [ReplServer.advance, ReplServer.logs, UpstreamStep.ofRole]
    split
    · next standby => exact record_writes queueMax base standby g record
    · exact idle
  | hello fate epoch => exact hello_writes queueMax base fate epoch
  | localize fate items consumed alloc allocSeq clearMarkers =>
    exact localize_writes queueMax base fate items consumed alloc allocSeq clearMarkers
  | setBucketScoped fate bucketScoped =>
    show Writes server.node (fate.settle () server.node
      { server.node with bucketScoped := bucketScoped }).2 []
    cases fate with
    | refused message => exact idle
    | unflushed message => exact .unmoved base rfl le_rfl rfl le_rfl rfl
    | kept => exact .unmoved base rfl le_rfl rfl le_rfl rfl

end FastS3.Repl
