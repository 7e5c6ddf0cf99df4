import FastS3.Meta.Commit

namespace FastS3.Meta

open FastS3.Core Data

/-! What a transaction leaves behind besides the rows of its operations. -/

variable {before after middle : Store} {key : Key} {name : String} {op : Op} {seq : Nat}
  {ops : List Op} {mode : ApplyMode} {record : ReplRecord} {gtid : Gtid}

theorem tget_eq_ok {result : Value key × Store} :
    tget key before = .ok result ↔ result = (before key, before) :=
  Tx.read_eq_ok

theorem tget_bind_ok {α : Type} {next : Value key → MetaTx α} {result : α × Store} :
    (tget key >>= next) before = .ok result ↔ next (before key) before = .ok result :=
  Tx.read_bind_eq_ok

theorem tinsert_bind_ok {α : Type} {value : Value key} {next : Unit → MetaTx α}
    {result : α × Store} :
    (tinsert key value >>= next) before = .ok result ↔
      next () (Function.update before key value) = .ok result :=
  Tx.write_bind_eq_ok

theorem tinsert_eq_ok {value : Value key} {result : Unit × Store} :
    tinsert key value before = .ok result ↔ result = ((), Function.update before key value) :=
  Tx.write_eq_ok

theorem tremove_eq_ok {result : Unit × Store} :
    tremove key before = .ok result ↔
      result = ((), Function.update before key (Value.absent key)) :=
  Tx.write_eq_ok

theorem requireBucket_ok {value : BucketMeta} :
    requireBucket name before = .ok (value, after) ↔
      before (.bucket name) = some value ∧ after = before := by
  have read : tget (.bucket name) before = .ok (some value, after) ↔
      before (.bucket name) = some value ∧ after = before := by
    rw [tget_eq_ok, Prod.mk.injEq, eq_comm (b := before (.bucket name))]
  rw [← read, ← Tx.required_eq_ok (e := .notFound s!"bucket {name}"), requireBucket]
  congr! 3 with found
  cases found <;> rfl

theorem requireSession_ok {uploadId : String} {session : MultipartSession} :
    requireSession uploadId before = .ok (session, after) ↔
      before (.session uploadId) = some session ∧ after = before := by
  have read : tget (.session uploadId) before = .ok (some session, after) ↔
      before (.session uploadId) = some session ∧ after = before := by
    rw [tget_eq_ok, Prod.mk.injEq, eq_comm (b := before (.session uploadId))]
  rw [← read, ← Tx.required_eq_ok (e := .notFound s!"upload {uploadId}"), requireSession]
  congr! 3 with found
  cases found <;> rfl

theorem importEntry_within (entry : ImportEntry) :
    Within (fun key => key = importKey entry) (importEntry entry) := by
  cases entry with
  | bucket | location | conf | object | session | sessionIndex | part | tenant | sseKekSeed
  | sseKekGen => exact tinsert_within _ rfl
  | lifecycleRule | notificationRule | inventoryRule | accessKey | iamUser | iamGroup | iamPolicy
  | iamRole =>
    refine Within.bind (tget_within (by rfl)) ?_
    intro table
    exact tinsert_within _ rfl

def Key.progress : Key → Bool
  | .seq | .replEpoch | .replEbase | .replExecuted | .replCursor | .binlog _ | .replPending _
  | .replPendingObj _ _ => true
  | _ => false

theorem not_touches_progress (progress : key.progress = true) : ¬ op.touches seq key := by
  intro touched
  cases op <;> simp only [Op.touches] at touched <;> grind [Key.progress]

theorem forM_progress {replay : Bool} (run : ops.forM (applyOp replay seq) before = .ok ((), after))
    (progress : key.progress = true) : after key = before key := by
  apply Tx.forM_keeps (P := fun rows => rows key = before key) _ run rfl
  intro op _ start middle ran held
  rw [(applyOp_within replay seq op).frame ran key (not_touches_progress progress)]
  exact held

theorem applyOps_ok {newSeq : Nat} (run : applyOps mode ops before = .ok (newSeq, after)) :
    ∃ middle written,
      ops.forM (applyOp mode.isReplay (mode.numbers ((before .seq).getD 0)).1) before =
        .ok ((), middle) ∧
      writeBinlog mode (mode.numbers ((before .seq).getD 0)).1 ops middle = .ok ((), written) ∧
      after = Function.update written .seq (some (mode.numbers ((before .seq).getD 0)).2) ∧
      newSeq = (mode.numbers ((before .seq).getD 0)).2 := by
  have rest := tget_bind_ok.mp run
  obtain ⟨_, middle, ran, rest⟩ := Tx.bind_eq_ok.mp rest
  obtain ⟨_, written, logged, rest⟩ := Tx.bind_eq_ok.mp rest
  replace rest := tinsert_bind_ok.mp rest
  cases Tx.pure_eq_ok.mp rest
  exact ⟨middle, written, ran, logged, rfl, rfl⟩

theorem writeBinlog_frame (run : writeBinlog mode seq ops before = .ok ((), after))
    (unlogged : ∀ g, key ≠ .binlog g) : after key = before key := by
  cases mode with
  | replay gtid record =>
    cases tinsert_eq_ok.mp run
    exact Function.update_of_ne (unlogged _) _ _
  | commit replBinlog now =>
    cases replBinlog with
    | false =>
      cases Tx.pure_eq_ok.mp run
      rfl
    | true =>
      have rest := tget_bind_ok.mp run
      replace rest := tget_bind_ok.mp rest
      split at rest
      · exact absurd rest Tx.throw_ne_ok
      · cases tinsert_eq_ok.mp rest
        exact Function.update_of_ne (unlogged _) _ _

theorem applyOps_rows {newSeq : Nat} (run : applyOps mode ops before = .ok (newSeq, after)) :
    ∃ middle, ops.forM (applyOp mode.isReplay (mode.numbers ((before .seq).getD 0)).1) before =
        .ok ((), middle) ∧
      ∀ key, key.progress = false → after key = middle key := by
  obtain ⟨middle, written, ran, logged, updated, _⟩ := applyOps_ok run
  refine ⟨middle, ran, ?_⟩
  intro key plain
  have other : ∀ row : Key, row.progress = true → key ≠ row := by
    intro row progress same
    rw [same, progress] at plain
    cases plain
  rw [updated, Function.update_of_ne (other _ rfl), writeBinlog_frame logged fun _ => other _ rfl]

theorem applyOps_numbers {replBinlog : Bool} {now : Int}
    (run : applyOps (.commit replBinlog now) ops before = .ok (seq, after)) :
    seq = (before .seq).getD 0 + 1 ∧ after .seq = some seq ∧
      after .replEpoch = before .replEpoch ∧ after .replEbase = before .replEbase := by
  obtain ⟨middle, written, ran, logged, updated, same⟩ := applyOps_ok run
  have frame : ∀ key : Key, key.progress = true → key ≠ .seq → (∀ g, key ≠ .binlog g) →
      after key = before key := by
    intro key progress other unlogged
    rw [updated, Function.update_of_ne other, writeBinlog_frame logged unlogged,
      forM_progress ran progress]
  refine ⟨same, ?_, frame _ rfl Key.noConfusion fun _ => Key.noConfusion,
    frame _ rfl Key.noConfusion fun _ => Key.noConfusion⟩
  rw [updated, Function.update_self, same]

theorem markPending_ok (run : markPending op before = .ok ((), after)) :
    after = before ∧ pendingTarget op = none ∨
      ∃ bucket name, pendingTarget op = some (bucket, name) ∧
        after = Function.update before (.replPendingObj bucket name) (some ()) := by
  cases target : pendingTarget op with
  | none =>
    simp only [markPending, target] at run
    cases Tx.pure_eq_ok.mp run
    exact .inl ⟨rfl, rfl⟩
  | some object =>
    simp only [markPending, target] at run
    cases tinsert_eq_ok.mp run
    exact .inr ⟨object.1, object.2, rfl, rfl⟩

theorem markPending_succeeds (op : Op) (before : Store) :
    ∃ after, markPending op before = .ok ((), after) := by
  cases target : pendingTarget op with
  | none =>
    simp only [markPending, target]
    exact ⟨before, rfl⟩
  | some object =>
    simp only [markPending, target]
    exact ⟨_, rfl⟩

theorem markPending_keeps (run : markPending op before = .ok ((), after)) {bucket : String}
    (marked : before (.replPendingObj bucket name) = some ()) :
    after (.replPendingObj bucket name) = some () := by
  rcases markPending_ok run with ⟨same, _⟩ | ⟨other, key, _, updated⟩
  · rw [same]
    exact marked
  · rw [updated]
    by_cases same : Key.replPendingObj bucket name = Key.replPendingObj other key
    · cases same
      exact Function.update_self _ _ _
    · rw [Function.update_of_ne same]
      exact marked

theorem forM_markPending_marks (run : ops.forM markPending before = .ok ((), after))
    (member : op ∈ ops) {bucket : String} (target : pendingTarget op = some (bucket, name)) :
    after (.replPendingObj bucket name) = some () := by
  induction ops generalizing before with
  | nil => cases member
  | cons first rest ih =>
    obtain ⟨_, middle, ran, remaining⟩ := Tx.bind_eq_ok.mp run
    rcases List.mem_cons.mp member with rfl | later
    · apply Tx.forM_keeps (P := fun rows => rows (.replPendingObj bucket name) = some ()) _ remaining
      · rcases markPending_ok ran with ⟨_, none⟩ | ⟨other, key, found, updated⟩
        · rw [none] at target
          cases target
        · rw [found] at target
          cases target
          rw [updated]
          exact Function.update_self _ _ _
      · intro op _ before after ran held
        exact markPending_keeps ran held
    · exact ih remaining later

theorem forM_markPending_frame (run : ops.forM markPending before = .ok ((), after))
    (other : ∀ bucket name, key ≠ .replPendingObj bucket name) : after key = before key := by
  apply Tx.forM_keeps (P := fun rows => rows key = before key) _ run rfl
  intro op _ start middle ran held
  rcases markPending_ok ran with ⟨same, _⟩ | ⟨bucket, name, _, updated⟩
  · rw [same]
    exact held
  · rw [updated, Function.update_of_ne (other bucket name)]
    exact held

structure Recorded (gtid : Gtid) (record : ReplRecord) (before after : Store) : Prop where
  cursor : after .replCursor = some gtid
  logged : after (.binlog gtid) = some record
  binlog : ∀ other, other ≠ gtid → after (.binlog other) = before (.binlog other)
  queued : record.dataRefs ≠ [] → after (.replPending gtid) = some record.dataRefs
  pending : ∀ other, other ≠ gtid ∨ record.dataRefs = [] →
    after (.replPending other) = before (.replPending other)
  marked : record.dataRefs ≠ [] → ∀ op ∈ record.ops, ∀ bucket name,
    pendingTarget op = some (bucket, name) → after (.replPendingObj bucket name) = some ()
  markers : ∀ bucket name, before (.replPendingObj bucket name) = some () →
    after (.replPendingObj bucket name) = some ()

structure Landed (gtid : Gtid) (record : ReplRecord) (middle after : Store) : Prop
    extends Recorded gtid record middle after where
  rows : ∀ key, key.progress = false → after key = middle key
  epoch : after .replEpoch = middle .replEpoch

theorem enqueuePending_landed {start : Store}
    (rows : ∀ key, key.progress = false → start key = middle key)
    (epoch : start .replEpoch = middle .replEpoch) (cursor : start .replCursor = some gtid)
    (logged : start (.binlog gtid) = some record)
    (binlog : ∀ other, other ≠ gtid → start (.binlog other) = middle (.binlog other))
    (pending : ∀ other, start (.replPending other) = middle (.replPending other))
    (markers : ∀ bucket name,
      start (.replPendingObj bucket name) = middle (.replPendingObj bucket name))
    (run : enqueuePending gtid record start = .ok ((), after)) :
    Landed gtid record middle after := by
  unfold enqueuePending at run
  split at run
  · next none =>
      cases Tx.pure_eq_ok.mp run
      exact ⟨⟨cursor, logged, binlog, fun some => absurd none some, fun other _ => pending other,
        fun some => absurd none some, fun bucket name held => by rw [markers]; exact held⟩, rows, epoch⟩
  · next some =>
      have rest := tinsert_bind_ok.mp run
      have frame : ∀ key, (∀ bucket name, key ≠ .replPendingObj bucket name) →
          key ≠ .replPending gtid → after key = start key := by
        intro key unmarked unqueued
        rw [forM_markPending_frame rest unmarked, Function.update_of_ne unqueued]
      refine ⟨⟨?_, ?_, ?_, ?_, ?_, ?_, ?_⟩, ?_, ?_⟩
      · rw [frame _ (fun _ _ => Key.noConfusion) Key.noConfusion]
        exact cursor
      · rw [frame _ (fun _ _ => Key.noConfusion) Key.noConfusion]
        exact logged
      · intro other different
        rw [frame _ (fun _ _ => Key.noConfusion) Key.noConfusion]
        exact binlog other different
      · intro _
        rw [forM_markPending_frame rest fun _ _ => Key.noConfusion]
        exact Function.update_self _ _ _
      · intro other different
        rcases different with apart | none
        · rw [frame _ (fun _ _ => Key.noConfusion) fun same => apart (Key.replPending.inj same)]
          exact pending other
        · exact absurd none some
      · intro _ op member bucket name target
        exact forM_markPending_marks rest member target
      · intro bucket name held
        apply Tx.forM_keeps (P := fun rows => rows (.replPendingObj bucket name) = .some ()) _ rest
        · rw [Function.update_of_ne Key.noConfusion, markers]
          exact held
        · intro op _ before after ran kept
          exact markPending_keeps ran kept
      · intro key plain
        rw [frame key (fun _ _ same => by rw [same] at plain; cases plain)
          (fun same => by rw [same] at plain; cases plain)]
        exact rows key plain
      · rw [frame _ (fun _ _ => Key.noConfusion) Key.noConfusion]
        exact epoch

theorem advanceEpoch_frame {epoch : Nat} (run : advanceEpoch epoch before = .ok ((), after))
    (other : key ≠ .replEpoch) : after key = before key := by
  have rest := tget_bind_ok.mp run
  split at rest
  · cases tinsert_eq_ok.mp rest
    exact Function.update_of_ne other _ _
  · cases Tx.pure_eq_ok.mp rest
    rfl

theorem insertExecuted_frame (run : insertExecuted gtid before = .ok ((), after))
    (other : key ≠ .replExecuted) : after key = before key := by
  have rest := tget_bind_ok.mp run
  cases outcome : GtidSet.insert ((before .replExecuted).getD GtidSet.new) gtid with
  | none =>
    simp only [outcome] at rest
    exact absurd rest Tx.throw_ne_ok
  | some executed =>
    simp only [outcome] at rest
    cases tinsert_eq_ok.mp rest
    exact Function.update_of_ne other _ _

theorem insertExecuted_succeeds (positive : 1 ≤ gtid.seq) (before : Store) :
    ∃ after, insertExecuted gtid before = .ok ((), after) := by
  have within : (GtidSet.insert ((before .replExecuted).getD GtidSet.new) gtid).isSome := by
    rw [GtidSet.insert, GtidSet.insertRange, if_pos ⟨positive, Nat.le_refl _⟩]
    rfl
  obtain ⟨set, found⟩ := Option.isSome_iff_exists.mp within
  refine ⟨Function.update before .replExecuted (some set), ?_⟩
  apply Tx.bind_eq_ok.mpr ⟨before .replExecuted, before, rfl, ?_⟩
  simp only [found]
  rfl

theorem enqueuePending_frame (run : enqueuePending gtid record before = .ok ((), after))
    (unqueued : key ≠ .replPending gtid)
    (unmarked : ∀ bucket name, key ≠ .replPendingObj bucket name) : after key = before key := by
  unfold enqueuePending at run
  split at run
  · cases Tx.pure_eq_ok.mp run
    rfl
  · have rest := tinsert_bind_ok.mp run
    rw [forM_markPending_frame rest unmarked, Function.update_of_ne unqueued]

theorem replApplyTx_stages (run : replApplyTx gtid record before = .ok (.applied, after)) :
    gtid.le ((before .replCursor).getD ⟨0, 0⟩) = false ∧
      ∃ start newSeq applied executed, advanceEpoch record.epoch before = .ok ((), start) ∧
        applyOps (.replay gtid record) record.ops start = .ok (newSeq, applied) ∧
        insertExecuted gtid applied = .ok ((), executed) ∧
        enqueuePending gtid record (Function.update executed .replCursor (some gtid)) =
          .ok ((), after) := by
  have rest := tget_bind_ok.mp run
  dsimp only at rest
  split at rest
  · cases Tx.pure_eq_ok.mp rest
  · next ahead =>
      split at rest
      · exact absurd rest Tx.throw_ne_ok
      · obtain ⟨_, start, advanced, rest⟩ := Tx.bind_eq_ok.mp rest
        obtain ⟨newSeq, applied, ran, rest⟩ := Tx.bind_eq_ok.mp rest
        obtain ⟨_, executed, inserted, rest⟩ := Tx.bind_eq_ok.mp rest
        obtain ⟨_, moved, stored, rest⟩ := Tx.bind_eq_ok.mp rest
        obtain ⟨_, last, queued, rest⟩ := Tx.bind_eq_ok.mp rest
        cases Tx.pure_eq_ok.mp rest
        cases tinsert_eq_ok.mp stored
        exact ⟨by simpa using ahead, start, newSeq, applied, executed, advanced, ran, inserted, queued⟩

theorem replApplyTx_applied (run : replApplyTx gtid record before = .ok (.applied, after)) :
    gtid.le ((before .replCursor).getD ⟨0, 0⟩) = false ∧
      ∃ start middle, advanceEpoch record.epoch before = .ok ((), start) ∧
        record.ops.forM (applyOp true (record.rawSeq.getD gtid.seq)) start = .ok ((), middle) ∧
        Landed gtid record middle after := by
  obtain ⟨ahead, start, newSeq, applied, executed, advanced, ran, inserted, queued⟩ :=
    replApplyTx_stages run
  obtain ⟨middle, written, body, logged, updated, _⟩ := applyOps_ok ran
  cases tinsert_eq_ok.mp logged
  have frame : ∀ key, key ≠ .replCursor → key ≠ .replExecuted → key ≠ .seq →
      key ≠ .binlog gtid →
      Function.update executed .replCursor (some gtid) key = middle key := by
    intro key one two three four
    rw [Function.update_of_ne one, insertExecuted_frame inserted two, updated,
      Function.update_of_ne three, Function.update_of_ne four]
  refine ⟨ahead, start, middle, advanced, body,
    enqueuePending_landed ?_ ?_ ?_ ?_ ?_ ?_ ?_ queued⟩
  · intro key plain
    apply frame <;> intro same <;> rw [same] at plain <;> cases plain
  · exact frame _ Key.noConfusion Key.noConfusion Key.noConfusion Key.noConfusion
  · exact Function.update_self _ _ _
  · rw [Function.update_of_ne Key.noConfusion, insertExecuted_frame inserted Key.noConfusion,
      updated, Function.update_of_ne Key.noConfusion]
    exact Function.update_self _ _ _
  · intro other different
    exact frame _ Key.noConfusion Key.noConfusion Key.noConfusion
      fun same => different (Key.binlog.inj same)
  · intro other
    exact frame _ Key.noConfusion Key.noConfusion Key.noConfusion Key.noConfusion
  · intro bucket name
    exact frame _ Key.noConfusion Key.noConfusion Key.noConfusion Key.noConfusion

theorem replApplyTx_executed (run : replApplyTx gtid record before = .ok (.applied, after)) :
    ∃ set, GtidSet.insert ((before .replExecuted).getD GtidSet.new) gtid = some set ∧
      after .replExecuted = some set := by
  obtain ⟨_, start, newSeq, applied, executed, advanced, ran, inserted, queued⟩ :=
    replApplyTx_stages run
  have untouched : applied .replExecuted = before .replExecuted := by
    obtain ⟨middle, written, body, logged, updated, _⟩ := applyOps_ok ran
    cases tinsert_eq_ok.mp logged
    rw [updated, Function.update_of_ne Key.noConfusion, Function.update_of_ne Key.noConfusion,
      forM_progress body rfl, advanceEpoch_frame advanced Key.noConfusion]
  rw [enqueuePending_frame queued Key.noConfusion (fun _ _ => Key.noConfusion),
    Function.update_of_ne Key.noConfusion, ← untouched]
  have rest := tget_bind_ok.mp inserted
  cases outcome : GtidSet.insert ((applied .replExecuted).getD GtidSet.new) gtid with
  | none =>
    simp only [outcome] at rest
    exact absurd rest Tx.throw_ne_ok
  | some set =>
    simp only [outcome] at rest
    cases tinsert_eq_ok.mp rest
    exact ⟨set, rfl, Function.update_self _ _ _⟩

theorem advanceEpoch_succeeds (epoch : Nat) (before : Store) :
    ∃ after, advanceEpoch epoch before = .ok ((), after) := by
  by_cases later : epoch > (before .replEpoch).getD replInitialEpoch
  · exact ⟨_, Tx.bind_eq_ok.mpr ⟨_, before, rfl, by rw [if_pos later]; rfl⟩⟩
  · exact ⟨_, Tx.bind_eq_ok.mpr ⟨_, before, rfl, by rw [if_neg later]; rfl⟩⟩

theorem advanceEpoch_epoch {epoch : Nat} (run : advanceEpoch epoch before = .ok ((), after)) :
    (after .replEpoch).getD replInitialEpoch =
      max ((before .replEpoch).getD replInitialEpoch) epoch := by
  have rest := tget_bind_ok.mp run
  split at rest
  · next later =>
      cases tinsert_eq_ok.mp rest
      rw [Function.update_self, max_eq_right (le_of_lt later)]
      rfl
  · next known =>
      cases Tx.pure_eq_ok.mp rest
      exact (max_eq_left (not_lt.mp known)).symm

theorem replApplyTx_numbers (run : replApplyTx gtid record before = .ok (.applied, after)) :
    (after .replEpoch).getD replInitialEpoch =
        max ((before .replEpoch).getD replInitialEpoch) record.epoch ∧
      after .seq = some (max ((before .seq).getD 0) (record.rawSeq.getD gtid.seq)) ∧
      after .replEbase = before .replEbase := by
  obtain ⟨_, start, newSeq, applied, executed, advanced, ran, inserted, queued⟩ :=
    replApplyTx_stages run
  obtain ⟨middle, written, body, logged, updated, _⟩ := applyOps_ok ran
  cases tinsert_eq_ok.mp logged
  have behind : ∀ key, key ≠ .replExecuted → key ≠ .replCursor → key ≠ .replPending gtid →
      (∀ bucket name, key ≠ .replPendingObj bucket name) → after key = applied key := by
    intro key one two three four
    rw [enqueuePending_frame queued three four, Function.update_of_ne two,
      insertExecuted_frame inserted one]
  refine ⟨?_, ?_, ?_⟩
  · rw [behind _ Key.noConfusion Key.noConfusion Key.noConfusion fun _ _ => Key.noConfusion, updated,
      Function.update_of_ne Key.noConfusion, Function.update_of_ne Key.noConfusion,
      forM_progress body rfl]
    exact advanceEpoch_epoch advanced
  · rw [behind _ Key.noConfusion Key.noConfusion Key.noConfusion fun _ _ => Key.noConfusion, updated,
      Function.update_self, advanceEpoch_frame advanced Key.noConfusion]
    rfl
  · rw [behind _ Key.noConfusion Key.noConfusion Key.noConfusion fun _ _ => Key.noConfusion, updated,
      Function.update_of_ne Key.noConfusion, Function.update_of_ne Key.noConfusion,
      forM_progress body rfl, advanceEpoch_frame advanced Key.noConfusion]

theorem replApplyTx_lands {start : Store}
    (ahead : gtid.le ((before .replCursor).getD ⟨0, 0⟩) = false)
    (unfenced : max ((before .replCursor).getD ⟨0, 0⟩).epoch replInitialEpoch ≤ record.epoch)
    (advanced : advanceEpoch record.epoch before = .ok ((), start)) (positive : 1 ≤ gtid.seq)
    (body : record.ops.forM (applyOp true (record.rawSeq.getD gtid.seq)) start = .ok ((), middle)) :
    ∃ after, replApplyTx gtid record before = .ok (.applied, after) ∧
      Landed gtid record middle after := by
  have ran : applyOps (.replay gtid record) record.ops start =
      .ok (max ((start .seq).getD 0) (record.rawSeq.getD gtid.seq),
        Function.update (Function.update middle (.binlog gtid) (some record)) .seq
          (some (max ((start .seq).getD 0) (record.rawSeq.getD gtid.seq)))) := by
    apply Tx.bind_eq_ok.mpr ⟨start .seq, start, rfl, ?_⟩
    exact Tx.bind_eq_ok.mpr ⟨(), middle, body, rfl⟩
  generalize Function.update (Function.update middle (.binlog gtid) (some record)) .seq
    (some (max ((start .seq).getD 0) (record.rawSeq.getD gtid.seq))) = applied at ran
  obtain ⟨executed, inserted⟩ := insertExecuted_succeeds positive applied
  have queued : ∃ after, enqueuePending gtid record
      (Function.update executed .replCursor (some gtid)) = .ok ((), after) := by
    unfold enqueuePending
    split
    · exact ⟨_, rfl⟩
    · have marks : ∀ rows, ∃ after, record.ops.forM markPending rows = .ok ((), after) :=
        Tx.forM_succeeds markPending_succeeds
      obtain ⟨after, marked⟩ := marks (Function.update
        (Function.update executed .replCursor (some gtid)) (.replPending gtid) (some record.dataRefs))
      exact ⟨after, Tx.bind_eq_ok.mpr ⟨(), _, rfl, marked⟩⟩
  obtain ⟨after, queued⟩ := queued
  have run : replApplyTx gtid record before = .ok (.applied, after) := by
    apply Tx.bind_eq_ok.mpr ⟨before .replCursor, before, rfl, ?_⟩
    rw [if_neg (by rw [ahead]; exact Bool.noConfusion), if_neg (Nat.not_lt.mpr unfenced)]
    apply Tx.bind_eq_ok.mpr ⟨(), start, advanced, ?_⟩
    apply Tx.bind_eq_ok.mpr ⟨_, applied, ran, ?_⟩
    apply Tx.bind_eq_ok.mpr ⟨(), executed, inserted, ?_⟩
    apply Tx.bind_eq_ok.mpr ⟨(), _, rfl, ?_⟩
    exact Tx.bind_eq_ok.mpr ⟨(), after, queued, rfl⟩
  refine ⟨after, run, ?_⟩
  obtain ⟨_, began, last, again, repeated, landed⟩ := replApplyTx_applied run
  rw [advanced] at again
  cases again
  rw [body] at repeated
  cases repeated
  exact landed

theorem replApplyTx_succeeds (ahead : gtid.le ((before .replCursor).getD ⟨0, 0⟩) = false)
    (unfenced : max ((before .replCursor).getD ⟨0, 0⟩).epoch replInitialEpoch ≤ record.epoch)
    (known : record.epoch ≤ (before .replEpoch).getD replInitialEpoch) (positive : 1 ≤ gtid.seq)
    (body : record.ops.forM (applyOp true (record.rawSeq.getD gtid.seq)) before = .ok ((), middle)) :
    ∃ after, replApplyTx gtid record before = .ok (.applied, after) ∧
      Landed gtid record middle after := by
  have stays : advanceEpoch record.epoch before = .ok ((), before) := by
    apply Tx.bind_eq_ok.mpr ⟨before .replEpoch, before, rfl, ?_⟩
    rw [if_neg (Nat.not_lt.mpr known)]
    rfl
  exact replApplyTx_lands ahead unfenced stays positive body

namespace MetaStore

theorem invalidateConfCaches_rows (store : MetaStore) (ops : List Op) :
    (store.invalidateConfCaches ops).rows = store.rows := by
  unfold invalidateConfCaches
  induction ops generalizing store with
  | nil => rfl
  | cons op rest ih =>
    rw [List.foldl_cons, ih]
    cases op <;> rfl

variable (config : MetaConfig)

theorem settle_frame (store : MetaStore) (ops : List Op) (trimmed : Bool) {key : Key}
    (other : key ≠ .events) : (store.settle config ops trimmed).rows key = store.rows key := by
  unfold settle
  dsimp only
  split
  · dsimp only
    rw [Function.update_of_ne other, invalidateConfCaches_rows]
  · rw [invalidateConfCaches_rows]

theorem commit_cases (store : MetaStore) (fate : Fate) (now : Int) (ops : List Op) :
    (store.commit config fate now ops).2 = store ∧
        ((∃ message, fate = .refused message) ∨
          ∃ e, applyOps (.commit config.replBinlog now) ops store.rows = .error e) ∨
      (∀ message, fate ≠ .refused message) ∧
        ∃ seq rows, applyOps (.commit config.replBinlog now) ops store.rows = .ok (seq, rows) ∧
          ∀ key, key ≠ .events → (store.commit config fate now ops).2.rows key = rows key := by
  unfold commit
  cases ran : applyOps (.commit config.replBinlog now) ops store.rows with
  | error e => exact .inl ⟨rfl, .inr ⟨e, rfl⟩⟩
  | ok result =>
    obtain ⟨seq, rows⟩ := result
    cases fate with
    | refused message => exact .inl ⟨rfl, .inl ⟨message, rfl⟩⟩
    | unflushed message => exact .inr ⟨nofun, seq, rows, rfl, fun _ _ => rfl⟩
    | kept trimmed =>
      exact .inr ⟨nofun, seq, rows, rfl, fun _ other => settle_frame config _ _ _ other⟩

def cursor (store : MetaStore) : Gtid :=
  (store.rows .replCursor).getD ⟨0, 0⟩

/-- A call changes nothing, or the record is applied.  It succeeds without a change only for a
record that the cursor is past. -/
theorem applyReplRecord_cases (store : MetaStore) (fate : Fate) (gtid : Gtid)
    (record : ReplRecord) :
    (store.applyReplRecord config fate gtid record).2 = store ∧
        (∀ outcome, (store.applyReplRecord config fate gtid record).1 = .ok outcome →
          gtid.le store.cursor = true) ∨
      ∃ after, replApplyTx gtid record store.rows = .ok (.applied, after) ∧
        ∀ key, key ≠ .events →
          (store.applyReplRecord config fate gtid record).2.rows key = after key := by
  unfold applyReplRecord
  dsimp only
  split
  · exact .inl ⟨rfl, nofun⟩
  · cases decided : replApplyTx gtid record store.rows with
    | error e => exact .inl ⟨rfl, nofun⟩
    | ok result =>
      obtain ⟨decision, after⟩ := result
      cases decision with
      | skippedDuplicate =>
        refine .inl ⟨rfl, fun _ _ => ?_⟩
        have rest := tget_bind_ok.mp decided
        dsimp only at rest
        split at rest
        · next passed => exact passed
        · split at rest
          · exact absurd rest Tx.throw_ne_ok
          · obtain ⟨_, _, _, rest⟩ := Tx.bind_eq_ok.mp rest
            obtain ⟨_, _, _, rest⟩ := Tx.bind_eq_ok.mp rest
            obtain ⟨_, _, _, rest⟩ := Tx.bind_eq_ok.mp rest
            obtain ⟨_, _, _, rest⟩ := Tx.bind_eq_ok.mp rest
            obtain ⟨_, _, _, rest⟩ := Tx.bind_eq_ok.mp rest
            cases Tx.pure_eq_ok.mp rest
      | applied =>
        cases fate with
        | refused message => exact .inl ⟨rfl, nofun⟩
        | unflushed message => exact .inr ⟨after, rfl, fun _ _ => rfl⟩
        | kept trimmed =>
          exact .inr ⟨after, rfl, fun _ other => settle_frame config _ _ _ other⟩

end MetaStore

end FastS3.Meta
