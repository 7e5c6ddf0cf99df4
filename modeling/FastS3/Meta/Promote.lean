import FastS3.Meta.Applied
import FastS3.Meta.Truncate

namespace FastS3.Meta

open FastS3.Core Data

/-! Numbers of transactions and the promotion of a standby.

A local commit is numbered by the commit sequence less the base of its epoch.  A promotion
starts the next epoch at the sequence it finds, and its barrier takes the first number.
-/

inductive ReplRole where
  | primary
  | standby
deriving Repr, DecidableEq

/-- A node with the rows that decide about its role.  An absent role is `primary`. -/
structure ReplNode where
  store : MetaStore
  role : ReplRole
  bucketScoped : Bool
  everPrimary : Bool
  upchain : List String
  slots : SlotTable

/-- What the scans of a promotion list: the queued records, the marked objects and the
versions of an object. -/
structure PromoteScan where
  pending : List Gtid
  markers : List (String × String)
  versions : String → String → List Vk

structure PromoteDiscardReport where
  pendingTxns : Nat := 0
  gtidRange : Option (Gtid × Gtid) := none
  objects : List (String × String) := []
  buckets : List String := []
  downstreamSlots : List Slot := []
deriving Repr, DecidableEq

inductive PromoteError where
  | notStandby
  | bucketScoped
  | pendingDiscards (report : PromoteDiscardReport)
  | store (reason : Error)
deriving Repr, DecidableEq

structure PromoteOutcome where
  epoch : Nat
  barrier : Gtid
  discarded : PromoteDiscardReport
deriving Repr, DecidableEq

namespace PromoteScan

variable (scan : PromoteScan)

def objects : List (String × String) :=
  (scan.markers.mergeSort fun left right =>
    left.1 < right.1 || (left.1 == right.1 && left.2 ≤ right.2)).dedup

/-- `promote_discard_report`, and the report of a forced promotion. -/
def report (slots : List Slot) : PromoteDiscardReport where
  pendingTxns := scan.pending.length
  gtidRange := scan.pending.head?.bind fun first => scan.pending.getLast?.map fun last => (first, last)
  objects := scan.objects
  buckets := ((scan.objects.map Prod.fst).mergeSort fun left right => left ≤ right).dedup
  downstreamSlots := slots

def discard : MetaTx Unit := do
  if scan.pending = [] then return ()
  else
    scan.objects.forM fun object => do
      tremove (.object object.1 object.2 none)
      (scan.versions object.1 object.2).forM fun vk => tremove (.object object.1 object.2 (some vk))
    scan.pending.forM fun g => tremove (.replPending g)
    scan.markers.forM fun object => tremove (.replPendingObj object.1 object.2)

end PromoteScan

def epochBarrier (oldEpoch seq : Nat) (now : Int) : ReplRecord :=
  let record := ReplRecord.new (oldEpoch + 1) []
  { record with
    bucketScope := { record.bucketScope with hasUnscoped := true }
    ts := some now
    epochBarrier := some oldEpoch
    rawSeq := some seq }

/-- The transaction of `promote`: the new epoch. -/
def promoteTx (scan : PromoteScan) (now : Int) : MetaTx Nat := do
  let oldEpoch := (← tget .replEpoch).getD replInitialEpoch
  let curSeq := (← tget .seq).getD 0
  scan.discard
  if oldEpoch + 1 > u64Max then throw (.corrupt "s:repl_epoch overflow on promote")
  else
    tinsert .replEpoch (some (oldEpoch + 1))
    tinsert .replEbase (some curSeq)
    tinsert .seq (some (curSeq + 1))
    tinsert (.binlog ⟨oldEpoch + 1, 1⟩) (some (epochBarrier oldEpoch (curSeq + 1) now))
    insertExecuted ⟨oldEpoch + 1, 1⟩
    return oldEpoch + 1

namespace ReplNode

def promote (node : ReplNode) (fate : WriteFate) (force : Bool) (now : Int) (scan : PromoteScan) :
    Except PromoteError PromoteOutcome × ReplNode :=
  if node.role ≠ .standby then (.error .notStandby, node)
  else if node.bucketScoped then (.error .bucketScoped, node)
  else if scan.pending ≠ [] ∧ !force then
    (.error (.pendingDiscards (scan.report node.slots.listReplSlots)), node)
  else
    match promoteTx scan now node.store.rows with
    | .error e => (.error (.store e), node)
    | .ok (epoch, rows) =>
      let discarded :=
        if scan.pending = [] then {} else scan.report node.slots.listReplSlots
      let promoted := { node with
        store := { node.store with rows := rows }
        role := .primary
        everPrimary := true
        upchain := [] }
      -- the log is flushed whatever the sync mode is
      let settled := fate.settle ⟨epoch, ⟨epoch, 1⟩, discarded⟩ node promoted
      (settled.1.mapError .store, settled.2)

end ReplNode

/-- What a node without an upstream does: commits, promotions, and changes of its role. -/
inductive NodeStep where
  | commit (fate : Fate) (now : Int) (ops : List Op)
  | promote (fate : WriteFate) (force : Bool) (now : Int) (scan : PromoteScan)
  | setReplRole (fate : WriteFate) (role : ReplRole)
  | setReplBucketScoped (fate : WriteFate) (bucketScoped : Bool)

namespace ReplNode

variable (queueMax : Nat)

def config : MetaConfig :=
  ⟨true, queueMax⟩

def step (node : ReplNode) : NodeStep → ReplNode
  | .commit fate now ops => { node with store := (node.store.commit (config queueMax) fate now ops).2 }
  | .promote fate force now scan => (node.promote fate force now scan).2
  | .setReplRole fate role => (fate.settle () node { node with role := role }).2
  | .setReplBucketScoped fate bucketScoped =>
    (fate.settle () node { node with bucketScoped := bucketScoped }).2

def epoch (node : ReplNode) : Nat :=
  (node.store.rows .replEpoch).getD replInitialEpoch

def ebase (node : ReplNode) : Nat :=
  (node.store.rows .replEbase).getD 0

def seq (node : ReplNode) : Nat :=
  (node.store.rows .seq).getD 0

def Admits (node : ReplNode) (force : Bool) (scan : PromoteScan) : Prop :=
  node.role = .standby ∧ node.bucketScoped = false ∧ (scan.pending = [] ∨ force = true)

instance (node : ReplNode) (force : Bool) (scan : PromoteScan) : Decidable (node.Admits force scan) :=
  inferInstanceAs (Decidable (_ ∧ _ ∧ _))

/-- The row that a step puts under `bl:`, if the database keeps its transaction. -/
def writes (node : ReplNode) : NodeStep → List (Gtid × ReplRecord)
  | .commit fate now ops =>
    match applyOps (.commit true now) ops node.store.rows, fate with
    | .error _, _ | _, .refused _ => []
    | .ok (seq, _), _ =>
      [(⟨node.epoch, seq - node.ebase⟩,
        { ReplRecord.new node.epoch ops with ts := some now, rawSeq := some seq })]
  | .promote fate force now scan =>
    match fate, promoteTx scan now node.store.rows with
    | .refused _, _ | _, .error _ => []
    | _, .ok (epoch, _) =>
      if node.Admits force scan then
        [(⟨epoch, 1⟩, epochBarrier node.epoch (node.seq + 1) now)]
      else []
  | .setReplRole _ _ | .setReplBucketScoped _ _ => []

def run (node : ReplNode) (steps : List NodeStep) : ReplNode :=
  steps.foldl (step queueMax) node

/-- The rows that a run puts under `bl:`, in the order of its transactions. -/
def log : ReplNode → List NodeStep → List (Gtid × ReplRecord)
  | _, [] => []
  | node, next :: steps => node.writes next ++ log (node.step queueMax next) steps

def fresh (role : ReplRole) (bucketScoped : Bool) (slots : SlotTable) : ReplNode :=
  ⟨.opened Store.empty, role, bucketScoped, false, [], slots⟩

end ReplNode

/-- A log in ascending order whose numbers in each epoch are those up to the last. -/
structure Numbering (log : List (Gtid × ReplRecord)) (last : Nat → Nat) : Prop where
  ascending : log.Pairwise fun row row' => row.1 < row'.1
  numbers : ∀ epoch, ((log.filter fun row => row.1.epoch = epoch).map fun row => row.1.seq) =
    List.range' 1 (last epoch)

namespace Numbering

variable {log : List (Gtid × ReplRecord)} {last : Nat → Nat} {epoch : Nat}

theorem seq_le (numbering : Numbering log last) {row : Gtid × ReplRecord} (inside : row ∈ log) :
    1 ≤ row.1.seq ∧ row.1.seq ≤ last row.1.epoch := by
  have member : row.1.seq ∈ List.range' 1 (last row.1.epoch) := by
    rw [← numbering.numbers]
    exact List.mem_map_of_mem (List.mem_filter.mpr ⟨inside, decide_eq_true rfl⟩)
  rw [List.mem_range'_1] at member
  omega

theorem append (numbering : Numbering log last) (top : ∀ later, epoch < later → last later = 0)
    (record : ReplRecord) :
    Numbering (log ++ [(⟨epoch, last epoch + 1⟩, record)])
      (Function.update last epoch (last epoch + 1)) where
  ascending := by
    refine List.pairwise_append.mpr ⟨numbering.ascending, List.pairwise_singleton _ _, ?_⟩
    intro row inside row' final
    rw [List.mem_singleton.mp final, Gtid.lt_iff]
    obtain ⟨positive, bounded⟩ := numbering.seq_le inside
    rcases lt_trichotomy row.1.epoch epoch with below | same | above
    · exact .inl below
    · exact .inr ⟨same, by rw [same] at bounded; exact Nat.lt_succ_of_le bounded⟩
    · rw [top _ above] at bounded
      omega
  numbers := by
    intro other
    rw [List.filter_append, List.map_append, numbering.numbers]
    by_cases same : other = epoch
    · subst same
      simp [List.range'_concat, Nat.add_comm]
    · rw [Function.update_of_ne same]
      simp [Ne.symm same]

end Numbering

theorem applyOps_commit {now : Int} {ops : List Op} {before after : Store} {seq : Nat}
    (run : applyOps (.commit true now) ops before = .ok (seq, after)) (g : Gtid) :
    after (.binlog g) =
      if g = ⟨(before .replEpoch).getD replInitialEpoch, seq - (before .replEbase).getD 0⟩ then
        some { ReplRecord.new ((before .replEpoch).getD replInitialEpoch) ops with
          ts := some now, rawSeq := some seq }
      else before (.binlog g) := by
  obtain ⟨middle, written, ran, logged, updated, same⟩ := applyOps_ok run
  have epoch : middle .replEpoch = before .replEpoch := forM_progress ran rfl
  have ebase : middle .replEbase = before .replEbase := forM_progress ran rfl
  have binlog : middle (.binlog g) = before (.binlog g) := forM_progress ran rfl
  have next : seq = (before .seq).getD 0 + 1 := same
  have rest := tget_bind_ok.mp logged
  replace rest := tget_bind_ok.mp rest
  split at rest
  · exact absurd rest Tx.throw_ne_ok
  · cases tinsert_eq_ok.mp rest
    rw [updated, Function.update_of_ne Key.noConfusion, epoch, ebase, next]
    split
    · next here =>
        rw [here]
        exact Function.update_self _ _ _
    · next other =>
        rw [← binlog]
        exact Function.update_of_ne (fun equal => other (Key.binlog.inj equal)) _ _

namespace PromoteScan

def discards : Key → Prop
  | .object _ _ _ | .replPending _ | .replPendingObj _ _ => True
  | _ => False

theorem discard_within (scan : PromoteScan) : Within discards scan.discard := by
  unfold discard
  split
  · exact Within.pure _
  · apply Within.bind
    · apply Within.forM
      intro object _
      apply Within.bind (tremove_within trivial)
      intro _
      apply Within.forM
      intro vk _
      exact tremove_within trivial
    · intro _
      apply Within.bind
      · apply Within.forM
        intro g _
        exact tremove_within trivial
      · intro _
        apply Within.forM
        intro object _
        exact tremove_within trivial

theorem discard_queue {scan : PromoteScan} (unmarked : scan.pending = [] ∨ scan.markers = []) :
    Within (fun key => ∃ g, key = .replPending g) scan.discard := by
  unfold discard
  split
  · exact Within.pure _
  · next some =>
      have empty : scan.markers = [] := unmarked.resolve_left some
      have none : scan.objects = [] := by
        rw [objects, empty, List.mergeSort_nil, List.dedup_nil]
      rw [none, empty]
      apply Within.bind (Within.forM nofun)
      intro _
      apply Within.bind
      · apply Within.forM
        intro g _
        exact tremove_within ⟨g, rfl⟩
      · intro _
        exact Within.forM nofun

theorem discard_succeeds (scan : PromoteScan) (before : Store) :
    ∃ after, scan.discard before = .ok ((), after) := by
  have removes : ∀ (key : Key) (rows : Store), ∃ after, tremove key rows = .ok ((), after) :=
    fun _ _ => ⟨_, rfl⟩
  have objects : ∀ (object : String × String) (rows : Store), ∃ after,
      (do tremove (.object object.1 object.2 none)
          (scan.versions object.1 object.2).forM fun vk =>
            tremove (.object object.1 object.2 (some vk)) : MetaTx Unit) rows = .ok ((), after) := by
    intro object rows
    obtain ⟨after, ran⟩ := Tx.forM_succeeds
      (fun vk rows => removes (.object object.1 object.2 (some vk)) rows) _
    exact ⟨after, Tx.bind_eq_ok.mpr ⟨(), _, rfl, ran⟩⟩
  unfold discard
  split
  · exact ⟨before, rfl⟩
  · obtain ⟨first, ran⟩ := Tx.forM_succeeds objects before
    obtain ⟨second, ran'⟩ := Tx.forM_succeeds (fun g rows => removes (.replPending g) rows) first
    obtain ⟨third, last⟩ := Tx.forM_succeeds
      (fun (object : String × String) rows => removes (.replPendingObj object.1 object.2) rows) second
    exact ⟨third, Tx.bind_eq_ok.mpr ⟨(), first, ran, Tx.bind_eq_ok.mpr ⟨(), second, ran', last⟩⟩⟩

end PromoteScan

def promotedRows (before cleared : Store) (now : Int) : Store :=
  let oldEpoch := (before .replEpoch).getD replInitialEpoch
  let curSeq := (before .seq).getD 0
  Function.update (Function.update (Function.update (Function.update cleared
    .replEpoch (some (oldEpoch + 1))) .replEbase (some curSeq)) .seq (some (curSeq + 1)))
    (.binlog ⟨oldEpoch + 1, 1⟩) (some (epochBarrier oldEpoch (curSeq + 1) now))

theorem promoteTx_stages {scan : PromoteScan} {now : Int} {before after : Store} {epoch : Nat}
    (run : promoteTx scan now before = .ok (epoch, after)) :
    epoch = (before .replEpoch).getD replInitialEpoch + 1 ∧
      (before .replEpoch).getD replInitialEpoch < u64Max ∧
      ∃ cleared, scan.discard before = .ok ((), cleared) ∧
        insertExecuted ⟨epoch, 1⟩ (promotedRows before cleared now) = .ok ((), after) := by
  have rest := tget_bind_ok.mp run
  replace rest := tget_bind_ok.mp rest
  obtain ⟨_, cleared, discarded, rest⟩ := Tx.bind_eq_ok.mp rest
  split at rest
  · exact absurd rest Tx.throw_ne_ok
  · next room =>
      replace rest := tinsert_bind_ok.mp rest
      replace rest := tinsert_bind_ok.mp rest
      replace rest := tinsert_bind_ok.mp rest
      replace rest := tinsert_bind_ok.mp rest
      obtain ⟨_, executed, inserted, rest⟩ := Tx.bind_eq_ok.mp rest
      cases Tx.pure_eq_ok.mp rest
      exact ⟨rfl, Nat.lt_of_succ_le (Nat.not_lt.mp room), cleared, discarded, inserted⟩

theorem promoteTx_ok {scan : PromoteScan} {now : Int} {before after : Store} {epoch : Nat}
    (run : promoteTx scan now before = .ok (epoch, after)) :
    epoch = (before .replEpoch).getD replInitialEpoch + 1 ∧ after .replEpoch = some epoch ∧
      after .replEbase = some ((before .seq).getD 0) ∧
      after .seq = some ((before .seq).getD 0 + 1) ∧
      ∀ g, after (.binlog g) =
        if g = ⟨epoch, 1⟩ then
          some (epochBarrier ((before .replEpoch).getD replInitialEpoch) ((before .seq).getD 0 + 1) now)
        else before (.binlog g) := by
  obtain ⟨rfl, _, cleared, discarded, inserted⟩ := promoteTx_stages run
  have frame := fun {key} (other : key ≠ Key.replExecuted) => insertExecuted_frame inserted other
  simp only [promotedRows] at frame
  refine ⟨rfl, ?_, ?_, ?_, ?_⟩
  · rw [frame Key.noConfusion, Function.update_of_ne Key.noConfusion,
      Function.update_of_ne Key.noConfusion, Function.update_of_ne Key.noConfusion,
      Function.update_self]
  · rw [frame Key.noConfusion, Function.update_of_ne Key.noConfusion,
      Function.update_of_ne Key.noConfusion, Function.update_self]
  · rw [frame Key.noConfusion, Function.update_of_ne Key.noConfusion, Function.update_self]
  · intro g
    rw [frame Key.noConfusion]
    split
    · next here =>
        rw [here]
        exact Function.update_self _ _ _
    · next other =>
        rw [Function.update_of_ne (fun equal => other (Key.binlog.inj equal)),
          Function.update_of_ne Key.noConfusion, Function.update_of_ne Key.noConfusion,
          Function.update_of_ne Key.noConfusion]
        exact scan.discard_within.frame discarded _ (fun inside => inside)

theorem promoteTx_rows {scan : PromoteScan} {now : Int} {before after : Store} {epoch : Nat}
    (run : promoteTx scan now before = .ok (epoch, after)) :
    ∃ cleared, scan.discard before = .ok ((), cleared) ∧
      ∀ key, key.progress = false → after key = cleared key := by
  obtain ⟨_, _, cleared, discarded, inserted⟩ := promoteTx_stages run
  refine ⟨cleared, discarded, ?_⟩
  intro key plain
  have other : ∀ row : Key, row.progress = true → key ≠ row := by
    intro row progress same
    rw [same, progress] at plain
    cases plain
  rw [insertExecuted_frame inserted (other _ rfl), promotedRows, Function.update_of_ne (other _ rfl),
    Function.update_of_ne (other _ rfl), Function.update_of_ne (other _ rfl),
    Function.update_of_ne (other _ rfl)]

theorem promoteTx_succeeds (scan : PromoteScan) (now : Int) (before : Store)
    (room : (before .replEpoch).getD replInitialEpoch < u64Max) :
    ∃ epoch after, promoteTx scan now before = .ok (epoch, after) := by
  obtain ⟨cleared, discarded⟩ := scan.discard_succeeds before
  have numbered : ∃ after, insertExecuted ⟨(before .replEpoch).getD replInitialEpoch + 1, 1⟩
      (promotedRows before cleared now) = .ok ((), after) :=
    insertExecuted_succeeds (Nat.le_refl 1) _
  obtain ⟨after, inserted⟩ := numbered
  refine ⟨(before .replEpoch).getD replInitialEpoch + 1, after, ?_⟩
  apply Tx.bind_eq_ok.mpr ⟨_, before, rfl, ?_⟩
  apply Tx.bind_eq_ok.mpr ⟨_, before, rfl, ?_⟩
  apply Tx.bind_eq_ok.mpr ⟨(), cleared, discarded, ?_⟩
  rw [if_neg (Nat.not_lt.mpr room)]
  apply Tx.bind_eq_ok.mpr ⟨(), _, rfl, ?_⟩
  apply Tx.bind_eq_ok.mpr ⟨(), _, rfl, ?_⟩
  apply Tx.bind_eq_ok.mpr ⟨(), _, rfl, ?_⟩
  apply Tx.bind_eq_ok.mpr ⟨(), promotedRows before cleared now, rfl, ?_⟩
  exact Tx.bind_eq_ok.mpr ⟨(), after, inserted, rfl⟩

namespace ReplNode

/-- The binlog of a node is its log, and the last number of its epoch is the commit sequence
less the base. -/
structure Numbered (node : ReplNode) (log : List (Gtid × ReplRecord)) (last : Nat → Nat) : Prop where
  numbering : Numbering log last
  rows : ∀ g record, node.store.rows (.binlog g) = some record ↔ (g, record) ∈ log
  base : node.ebase ≤ node.seq
  current : last node.epoch = node.seq - node.ebase
  top : ∀ later, node.epoch < later → last later = 0

namespace Numbered

variable {node after : ReplNode} {log : List (Gtid × ReplRecord)} {last : Nat → Nat}

theorem fresh (role : ReplRole) (bucketScoped : Bool) (slots : SlotTable) :
    Numbered (ReplNode.fresh role bucketScoped slots) [] fun _ => 0 where
  numbering := ⟨List.Pairwise.nil, fun _ => rfl⟩
  rows := fun _ _ => ⟨nofun, nofun⟩
  base := Nat.le_refl _
  current := rfl
  top := fun _ _ => rfl

theorem congr (numbered : node.Numbered log last) (seq : after.seq = node.seq)
    (epoch : after.epoch = node.epoch) (ebase : after.ebase = node.ebase)
    (binlog : ∀ g, after.store.rows (.binlog g) = node.store.rows (.binlog g)) :
    after.Numbered log last where
  numbering := numbered.numbering
  rows := fun g record => by rw [binlog, numbered.rows]
  base := by rw [ebase, seq]; exact numbered.base
  current := by rw [epoch, ebase, seq]; exact numbered.current
  top := by rw [epoch]; exact numbered.top

theorem wrote (numbered : node.Numbered log last) {record : ReplRecord}
    (forward : node.epoch ≤ after.epoch) (base : after.ebase ≤ after.seq)
    (current : after.seq - after.ebase = last after.epoch + 1)
    (binlog : ∀ g, after.store.rows (.binlog g) =
      if g = ⟨after.epoch, last after.epoch + 1⟩ then some record
      else node.store.rows (.binlog g)) :
    after.Numbered (log ++ [(⟨after.epoch, last after.epoch + 1⟩, record)])
      (Function.update last after.epoch (last after.epoch + 1)) where
  numbering := by
    apply numbered.numbering.append
    intro later above
    exact numbered.top later (forward.trans_lt above)
  rows := by
    intro g value
    rw [binlog, List.mem_append, List.mem_singleton]
    split
    · next here =>
        have absent : (g, value) ∉ log := by
          intro inside
          have bounded := (numbered.numbering.seq_le inside).2
          rw [here] at bounded
          exact absurd bounded (Nat.not_succ_le_self _)
        rw [here] at absent ⊢
        simp only [absent, false_or, Prod.mk.injEq, true_and, Option.some.injEq]
        exact eq_comm
    · next other =>
        rw [numbered.rows]
        simp only [Prod.mk.injEq, other, false_and, or_false]
  base := base
  current := by rw [Function.update_self, current]
  top := by
    intro later above
    rw [Function.update_of_ne (Nat.ne_of_gt above)]
    exact numbered.top later (forward.trans_lt above)

end Numbered

theorem commit_cases (queueMax : Nat) (node : ReplNode) (fate : Fate) (now : Int) (ops : List Op) :
    node.step queueMax (.commit fate now ops) = node ∧ node.writes (.commit fate now ops) = [] ∨
      ∃ seq rows, applyOps (.commit true now) ops node.store.rows = .ok (seq, rows) ∧
        node.writes (.commit fate now ops) = [(⟨node.epoch, seq - node.ebase⟩,
          { ReplRecord.new node.epoch ops with ts := some now, rawSeq := some seq })] ∧
        ∀ key, key ≠ .events →
          (node.step queueMax (.commit fate now ops)).store.rows key = rows key := by
  rcases MetaStore.commit_cases (config queueMax) node.store fate now ops with
    ⟨same, failed⟩ | ⟨passed, seq, rows, ran, kept⟩
  · refine .inl ⟨by rw [step, same], ?_⟩
    rcases failed with ⟨message, rfl⟩ | ⟨e, ran⟩
    · cases ran : applyOps (.commit true now) ops node.store.rows <;> simp only [writes, ran]
    · rw [config] at ran
      simp only [writes, ran]
  · rw [config] at ran
    refine .inr ⟨seq, rows, ran, ?_, kept⟩
    cases fate with
    | refused message => exact absurd rfl (passed message)
    | unflushed message => simp only [writes, ran]
    | kept trimmed => simp only [writes, ran]

theorem commit_numbers {replBinlog : Bool} {node after : ReplNode} {now : Int} {ops : List Op}
    {seq : Nat} {rows : Store}
    (ran : applyOps (.commit replBinlog now) ops node.store.rows = .ok (seq, rows))
    (kept : ∀ key, key ≠ .events → after.store.rows key = rows key) :
    after.epoch = node.epoch ∧ after.ebase = node.ebase ∧ after.seq = node.seq + 1 ∧
      seq = node.seq + 1 := by
  obtain ⟨isNext, seqRow, epochRow, ebaseRow⟩ := applyOps_numbers ran
  refine ⟨?_, ?_, ?_, isNext⟩
  · rw [ReplNode.epoch, kept _ Key.noConfusion, epochRow]
    rfl
  · rw [ReplNode.ebase, kept _ Key.noConfusion, ebaseRow]
    rfl
  · rw [ReplNode.seq, kept _ Key.noConfusion, seqRow]
    exact isNext

theorem promote_numbers {node after : ReplNode} {scan : PromoteScan} {now : Int} {opened : Nat}
    {rows : Store} (ran : promoteTx scan now node.store.rows = .ok (opened, rows))
    (kept : after.store.rows = rows) :
    after.epoch = opened ∧ after.ebase = node.seq ∧ after.seq = node.seq + 1 ∧
      opened = node.epoch + 1 := by
  obtain ⟨isNext, epochRow, ebaseRow, seqRow, _⟩ := promoteTx_ok ran
  refine ⟨?_, ?_, ?_, isNext⟩
  · rw [ReplNode.epoch, kept, epochRow]
    rfl
  · rw [ReplNode.ebase, kept, ebaseRow]
    rfl
  · rw [ReplNode.seq, kept, seqRow]
    rfl

def FlushFails (node : ReplNode) (fate : WriteFate) (force : Bool) (scan : PromoteScan) : Prop :=
  node.Admits force scan ∧ node.epoch < u64Max ∧ ∃ message, fate = .unflushed message

theorem promote_refused {node : ReplNode} {force : Bool} {scan : PromoteScan}
    (refused : ¬node.Admits force scan) (fate : WriteFate) (now : Int) :
    (node.promote fate force now scan).2 = node := by
  unfold promote
  split
  · rfl
  · next standby =>
      split
      · rfl
      · next whole =>
          split
          · rfl
          · next free =>
              apply absurd _ refused
              refine ⟨by simpa using standby, by simpa using whole, ?_⟩
              by_cases empty : scan.pending = []
              · exact .inl empty
              · simpa [empty] using free

theorem writes_refused {node : ReplNode} {force : Bool} {scan : PromoteScan}
    (refused : ¬node.Admits force scan) (fate : WriteFate) (now : Int) :
    node.writes (.promote fate force now scan) = [] := by
  simp only [writes, if_neg refused]
  split
  · rfl
  · rfl
  · rfl

theorem promote_admitted {node : ReplNode} {force : Bool} {scan : PromoteScan}
    (admitted : node.Admits force scan) (fate : WriteFate) (now : Int) :
    (∃ e, promoteTx scan now node.store.rows = .error e ∧
        node.promote fate force now scan = (.error (.store e), node)) ∨
      ∃ epoch rows outcome promoted, promoteTx scan now node.store.rows = .ok (epoch, rows) ∧
        promoted.store.rows = rows ∧
        node.promote fate force now scan = ((fate.settle outcome node promoted).1.mapError .store,
          (fate.settle outcome node promoted).2) := by
  obtain ⟨standby, whole, free⟩ := admitted
  unfold promote
  rw [if_neg (not_not_intro standby), if_neg (by rw [whole]; exact Bool.false_ne_true), if_neg]
  · cases ran : promoteTx scan now node.store.rows with
    | error e => exact .inl ⟨e, rfl, rfl⟩
    | ok result => exact .inr ⟨result.1, result.2, _, _, rfl, rfl, rfl⟩
  · rintro ⟨pending, unforced⟩
    rcases free with none | forced
    · exact pending none
    · rw [forced] at unforced
      cases unforced

theorem promote_cases (node : ReplNode) (fate : WriteFate) (force : Bool) (now : Int)
    (scan : PromoteScan) :
    (node.promote fate force now scan).2 = node ∧ ¬node.FlushFails fate force scan ∧
        node.writes (.promote fate force now scan) = [] ∨
      ∃ epoch rows, promoteTx scan now node.store.rows = .ok (epoch, rows) ∧
        (node.promote fate force now scan).2.store.rows = rows ∧
        node.writes (.promote fate force now scan) =
          [(⟨epoch, 1⟩, epochBarrier node.epoch (node.seq + 1) now)] ∧
        (node.FlushFails fate force scan ↔
          ∃ reason, (node.promote fate force now scan).1 = .error reason) := by
  by_cases admitted : node.Admits force scan
  · rcases promote_admitted admitted fate now with
      ⟨e, ran, failed⟩ | ⟨epoch, rows, outcome, promoted, ran, same, done⟩
    · left
      refine ⟨by rw [failed], ?_, ?_⟩
      · rintro ⟨_, room, _⟩
        obtain ⟨_, _, succeeds⟩ := promoteTx_succeeds scan now node.store.rows room
        rw [ran] at succeeds
        cases succeeds
      · cases fate <;> simp only [writes, ran]
    · obtain ⟨_, room, _⟩ := promoteTx_stages ran
      cases fate with
      | refused message =>
        refine .inl ⟨by rw [done]; rfl, ?_, by simp only [writes]⟩
        rintro ⟨_, _, _, unflushed⟩
        cases unflushed
      | unflushed message =>
        refine .inr ⟨epoch, rows, ran, by rw [done]; exact same,
          by simp only [writes, ran, if_pos admitted], ?_⟩
        rw [done]
        exact iff_of_true ⟨admitted, room, message, rfl⟩ ⟨_, rfl⟩
      | kept =>
        refine .inr ⟨epoch, rows, ran, by rw [done]; exact same,
          by simp only [writes, ran, if_pos admitted], ?_⟩
        rw [done]
        apply iff_of_false
        · rintro ⟨_, _, _, unflushed⟩
          cases unflushed
        · rintro ⟨_, failed⟩
          cases failed
  · exact .inl ⟨promote_refused admitted fate now, fun fails => admitted fails.1,
      writes_refused admitted fate now⟩

theorem step_numbered {queueMax : Nat} {node : ReplNode} {log : List (Gtid × ReplRecord)}
    {last : Nat → Nat} (numbered : node.Numbered log last) (next : NodeStep) :
    ∃ last', (node.step queueMax next).Numbered (log ++ node.writes next) last' := by
  cases next with
  | commit fate now ops =>
    rcases commit_cases queueMax node fate now ops with ⟨same, none⟩ | ⟨seq, rows, ran, wrote, kept⟩
    · rw [same, none, List.append_nil]
      exact ⟨last, numbered⟩
    · have binlog := applyOps_commit ran
      obtain ⟨epoch, ebase, number, isNext⟩ := commit_numbers ran kept
      generalize node.step queueMax (.commit fate now ops) = after at kept epoch ebase number
      have base := numbered.base
      have current := numbered.current
      have place : seq - node.ebase = last after.epoch + 1 := by
        rw [epoch, current, isNext]
        omega
      rw [wrote, ← epoch, place]
      refine ⟨_, numbered.wrote (le_of_eq epoch.symm) ?_ ?_ ?_⟩
      · rw [ebase, number]
        omega
      · rw [ebase, number, epoch, current]
        omega
      · intro g
        rw [kept _ Key.noConfusion, binlog, ← place, epoch]
        rfl
  | promote fate force now scan =>
    rcases promote_cases node fate force now scan with
      ⟨same, _, none⟩ | ⟨opened, rows, ran, kept, wrote, _⟩
    · rw [step, same, none, List.append_nil]
      exact ⟨last, numbered⟩
    · obtain ⟨_, _, _, _, binlog⟩ := promoteTx_ok ran
      obtain ⟨epoch, ebase, number, later⟩ := promote_numbers ran kept
      rw [step]
      generalize (node.promote fate force now scan).2 = after at kept epoch ebase number
      have unused : last after.epoch = 0 := by
        apply numbered.top
        rw [epoch, later]
        exact Nat.lt_succ_self _
      have place : (⟨opened, 1⟩ : Gtid) = ⟨after.epoch, last after.epoch + 1⟩ := by
        rw [unused, epoch]
      rw [wrote, place]
      refine ⟨_, numbered.wrote ?_ ?_ ?_ ?_⟩
      · rw [epoch, later]
        exact Nat.le_succ _
      · rw [ebase, number]
        exact Nat.le_succ _
      · rw [ebase, number, unused]
        omega
      · intro g
        rw [kept, binlog, place]
        rfl
  | setReplRole fate role =>
    rw [writes, List.append_nil]
    cases fate <;> exact ⟨last, numbered.congr rfl rfl rfl fun _ => rfl⟩
  | setReplBucketScoped fate bucketScoped =>
    rw [writes, List.append_nil]
    cases fate <;> exact ⟨last, numbered.congr rfl rfl rfl fun _ => rfl⟩

theorem run_numbered {queueMax : Nat} {node : ReplNode} {log : List (Gtid × ReplRecord)}
    {last : Nat → Nat} (numbered : node.Numbered log last) (steps : List NodeStep) :
    ∃ last', (node.run queueMax steps).Numbered (log ++ node.log queueMax steps) last' := by
  induction steps generalizing node log last with
  | nil =>
    rw [ReplNode.log, List.append_nil]
    exact ⟨last, numbered⟩
  | cons next steps ih =>
    have first : ∃ last', (node.step queueMax next).Numbered (log ++ node.writes next) last' :=
      step_numbered numbered next
    obtain ⟨_, stepped⟩ := first
    obtain ⟨last', ran⟩ := ih stepped
    rw [ReplNode.log, ← List.append_assoc]
    exact ⟨last', ran⟩

/-- The binlog holds what was written, each key once; keys are in the order of commits, and
the numbers of every epoch are those from one on. -/
def InOrder (node : ReplNode) (log : List (Gtid × ReplRecord)) : Prop :=
  (∀ g record, node.store.rows (.binlog g) = some record ↔ (g, record) ∈ log) ∧
    (log.map Prod.fst).Nodup ∧ (log.Pairwise fun row row' => row.1 < row'.1) ∧
    ∀ epoch, ∃ count,
      ((log.filter fun row => row.1.epoch = epoch).map fun row => row.1.seq) = List.range' 1 count

def SameNumbers (before after : ReplNode) : Prop :=
  after.epoch = before.epoch ∧ after.ebase = before.ebase ∧
    ∀ g, after.store.rows (.binlog g) = before.store.rows (.binlog g)

def FailuresClean (queueMax : Nat) (node : ReplNode) (steps : List NodeStep) : Prop :=
  ∀ earlier fate force now scan later, steps = earlier ++ .promote fate force now scan :: later →
    ∀ reason, ((node.run queueMax earlier).promote fate force now scan).1 = .error reason →
      SameNumbers (node.run queueMax earlier)
        ((node.run queueMax earlier).promote fate force now scan).2

def PromotionsFlushed (queueMax : Nat) (node : ReplNode) (steps : List NodeStep) : Prop :=
  ∀ earlier fate force now scan later, steps = earlier ++ .promote fate force now scan :: later →
    ¬(node.run queueMax earlier).FlushFails fate force scan

theorem failuresClean_iff (queueMax : Nat) (node : ReplNode) (steps : List NodeStep) :
    FailuresClean queueMax node steps ↔ PromotionsFlushed queueMax node steps := by
  constructor
  · intro clean earlier fate force now scan later split fails
    rcases promote_cases (node.run queueMax earlier) fate force now scan with
      ⟨_, flushed, _⟩ | ⟨opened, rows, ran, kept, _, failing⟩
    · exact flushed fails
    · obtain ⟨reason, failed⟩ := failing.mp fails
      obtain ⟨same, _, _⟩ := clean earlier fate force now scan later split reason failed
      obtain ⟨isNext, epochRow, _⟩ := promoteTx_ok ran
      rw [ReplNode.epoch, kept, epochRow, isNext] at same
      exact absurd same (Nat.succ_ne_self _)
  · intro flushed earlier fate force now scan later split reason failed
    rcases promote_cases (node.run queueMax earlier) fate force now scan with
      ⟨same, _, _⟩ | ⟨_, _, _, _, _, failing⟩
    · rw [same]
      exact ⟨rfl, rfl, fun _ => rfl⟩
    · exact absurd (failing.mpr ⟨reason, failed⟩)
        (flushed earlier fate force now scan later split)

/-- Along every run from a new database the records are numbered in the order of their commits,
without gaps; and the promotions that fail leave epoch, base and binlog as they were if and only
if none is kept without its flush. -/
theorem gtids_in_order (queueMax : Nat) (role : ReplRole) (bucketScoped : Bool) (slots : SlotTable)
    (steps : List NodeStep) :
    ((∀ earlier later, steps = earlier ++ later →
        InOrder ((fresh role bucketScoped slots).run queueMax earlier)
          ((fresh role bucketScoped slots).log queueMax earlier)) ∧
      FailuresClean queueMax (fresh role bucketScoped slots) steps) ↔
      PromotionsFlushed queueMax (fresh role bucketScoped slots) steps := by
  rw [← failuresClean_iff]
  apply and_iff_right
  intro earlier later _
  have ran : ∃ last, ((fresh role bucketScoped slots).run queueMax earlier).Numbered
      ([] ++ (fresh role bucketScoped slots).log queueMax earlier) last :=
    run_numbered (Numbered.fresh role bucketScoped slots) earlier
  obtain ⟨last, numbered⟩ := ran
  rw [List.nil_append] at numbered
  refine ⟨numbered.rows, ?_, numbered.numbering.ascending,
    fun epoch => ⟨last epoch, numbered.numbering.numbers epoch⟩⟩
  rw [List.Nodup, List.pairwise_map]
  exact numbered.numbering.ascending.imp fun less => ne_of_lt less

/-- The flush behind a promotion fails: the call reports an error, and the next epoch is open. -/
theorem unflushed_promotion_opens :
    let node := fresh .standby false noSlots
    let result := node.promote (.unflushed "rocksdb: IO error") false 0 ⟨[], [], fun _ _ => []⟩
    result.1 = .error (.store (.metaError "rocksdb: IO error")) ∧ node.epoch = 1 ∧
      result.2.epoch = 2 ∧ node.store.rows (.binlog ⟨2, 1⟩) = none ∧
      result.2.store.rows (.binlog ⟨2, 1⟩) = some (epochBarrier 1 1 0) :=
  ⟨rfl, rfl, rfl, rfl, rfl⟩

end ReplNode

end FastS3.Meta
