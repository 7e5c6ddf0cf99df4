import FastS3.Meta.Membership

namespace FastS3.Engine

open Data
open FastS3.Core (Bytes Error SseInfo SseKind Vk)
open Meta (Fate Key MetaConfig ObjectMeta Op SseKekGenState Store)

/-! The background rewrapping of data keys, next to all other transactions.

A pass reads every record at once and writes them back one by one.  Between the two other transactions
commit, and a record is written back as it was read.
-/

/-- The wrapping of data keys under the key of a generation. -/
structure Wrapping where
  unwrapDek : Nat → Bytes → Option Bytes
  wrapDek : Nat → Bytes → Option Bytes
  roundTrip : ∀ gen dek wrapped, wrapDek gen dek = some wrapped → unwrapDek gen wrapped = some dek

/-- `rewrap_sse_s3_dek`. -/
def Wrapping.rewrap (wrapping : Wrapping) (fromGen toGen : Nat) (wrapped : Bytes) : Option Bytes :=
  (wrapping.unwrapDek fromGen wrapped).bind (wrapping.wrapDek toGen)

structure ObjectRow where
  bucket : String
  key : String
  vk : Option Vk
deriving Repr, DecidableEq

def ObjectRow.at (row : ObjectRow) (rows : Store) : Option ObjectMeta :=
  rows (.object row.bucket row.key row.vk)

structure RewrapPass where
  gen : Nat
  /-- What is left of `snapshot_all_objects_raw`. -/
  todo : List (ObjectRow × ObjectMeta)
  errors : Nat
deriving DecidableEq

structure RewrapWorld where
  store : Meta.MetaStore
  pass : Option RewrapPass

/-- `sse_kek_gen_state`. -/
def kekGenState (rows : Store) : SseKekGenState :=
  (rows .sseKekGen).getD ⟨1, 0, 1⟩

/-- The record with its data key under a generation; nothing where there is nothing to do. -/
def rewrapTarget (gen : Nat) (m : ObjectMeta) : Option SseInfo :=
  m.sse.filter fun s => s.kind = .sseS3 ∧ s.kekId < gen

def ObjectMeta.rewrapped (m : ObjectMeta) (s : SseInfo) (gen : Nat) (wrapped : Bytes) : ObjectMeta :=
  { m with sse := some { s with kekId := gen, wrappedDek := wrapped } }

inductive RewrapAction where
  /-- Any transaction of a request, of the lifecycle or of the compaction. -/
  | commit (fate : Fate) (now : Int) (ops : List Op)
  | start (listed : List ObjectRow)
  | next (fate : Fate) (now : Int)
  | finish (fate : Fate) (now : Int)
  | stop

namespace RewrapWorld

variable (config : MetaConfig) (wrapping : Wrapping) (w : RewrapWorld)

/-- The record of a row is written back with its data key under the generation of the pass. -/
def rewrapOne (fate : Fate) (now : Int) (gen : Nat) (row : ObjectRow) (m : ObjectMeta) : Bool × Meta.MetaStore :=
  match rewrapTarget gen m with
  | none => (true, w.store)
  | some s =>
    match wrapping.rewrap s.kekId gen s.wrappedDek with
    | none => (false, w.store)
    | some wrapped =>
      match w.store.commit config fate now
          [.objectMetaRewrite row.bucket row.key row.vk (ObjectMeta.rewrapped m s gen wrapped)] with
      | (.ok _, after) => (true, after)
      | (.error _, after) => (false, after)

/-- `run_sse_s3_rewrap`, in steps. -/
def step : RewrapAction → RewrapWorld
  | .commit fate now ops => { w with store := (w.store.commit config fate now ops).2 }
  | .start listed =>
    match w.pass with
    | some _ => w
    | none =>
      let st := kekGenState w.store.rows
      if st.rewrapDoneGen ≥ st.gen then w
      else
        let entries := listed.filterMap fun row =>
          (row.at w.store.rows).map fun m => (row, m)
        { w with pass := some ⟨st.gen, entries, 0⟩ }
  | .next fate now =>
    match w.pass with
    | some ⟨gen, (row, m) :: rest, errors⟩ =>
      let (done, after) := w.rewrapOne config wrapping fate now gen row m
      ⟨after, some ⟨gen, rest, if done then errors else errors + 1⟩⟩
    | _ => w
  | .finish fate now =>
    match w.pass with
    | some ⟨gen, [], errors⟩ =>
      if errors > 0 then { w with pass := none }
      else
        let cur := kekGenState w.store.rows
        ⟨(w.store.commit config fate now [.sseKekGenPut { cur with rewrapDoneGen := gen }]).2, none⟩
    | _ => w
  | .stop => { w with pass := none }

end RewrapWorld

namespace RewrapAction

def background : RewrapAction → Bool
  | .commit _ _ _ => false
  | _ => true

end RewrapAction

def Wrapping.opened (wrapping : Wrapping) (m : ObjectMeta) : ObjectMeta × Option (Option Bytes) :=
  ({ m with sse := m.sse.map fun s => if s.kind = .sseS3 then { s with kekId := 0, wrappedDek := [] } else s },
    m.sse.map fun s => if s.kind = .sseS3 then wrapping.unwrapDek s.kekId s.wrappedDek else none)

def SameRecords (wrapping : Wrapping) (before after : Store) : Prop :=
  ∀ row : ObjectRow, (row.at after).map wrapping.opened = (row.at before).map wrapping.opened

/-- The worker undoes nothing: behind every transaction its steps leave the records as they are. -/
def UndoesNothing (config : MetaConfig) (wrapping : Wrapping) (start : RewrapWorld)
    (actions : List RewrapAction) : Prop :=
  ∀ earlier between later, actions = earlier ++ between ++ later →
    (∀ action ∈ between, action.background = true) →
    SameRecords wrapping (earlier.foldl (RewrapWorld.step config wrapping) start).store.rows
      ((earlier ++ between).foldl (RewrapWorld.step config wrapping) start).store.rows

/-- A record that is due is still the one that was read, or its row is gone, or the write does not
reach the store. -/
def StillCurrent (config : MetaConfig) (wrapping : Wrapping) (w : RewrapWorld) : RewrapAction → Prop
  | .next fate _ => ∀ gen row m rest errors, w.pass = some ⟨gen, (row, m) :: rest, errors⟩ →
      ∀ s, rewrapTarget gen m = some s → wrapping.rewrap s.kekId gen s.wrappedDek ≠ none →
        (∀ message, fate ≠ .refused message) → Meta.LogOpen config w.store.rows →
        row.at w.store.rows = none ∨
          (row.at w.store.rows).map wrapping.opened = some (wrapping.opened m)
  | _ => True

section Write

variable {config : MetaConfig} {wrapping : Wrapping} {store : Meta.MetaStore} {fate : Fate} {now : Int}
  {row : ObjectRow} {m : ObjectMeta} {gen : Nat}

theorem rewrapTarget_eq_some {s : SseInfo} (target : rewrapTarget gen m = some s) :
    m.sse = some s ∧ s.kind = .sseS3 := by
  obtain ⟨encrypted, due⟩ := Option.filter_eq_some_iff.mp target
  have due := of_decide_eq_true due
  exact ⟨encrypted, due.1⟩

theorem opened_rewrapped {s : SseInfo} {wrapped : Bytes} (target : rewrapTarget gen m = some s)
    (rewraps : wrapping.rewrap s.kekId gen s.wrappedDek = some wrapped) :
    wrapping.opened (ObjectMeta.rewrapped m s gen wrapped) = wrapping.opened m := by
  obtain ⟨encrypted, kind⟩ := rewrapTarget_eq_some target
  obtain ⟨dek, unwraps, wraps⟩ := Option.bind_eq_some_iff.mp rewraps
  have back := wrapping.roundTrip gen dek wrapped wraps
  simp [Wrapping.opened, ObjectMeta.rewrapped, encrypted, kind, unwraps, back]

theorem ObjectRow.key_injective {row other : ObjectRow}
    (equal : Key.object other.bucket other.key other.vk = Key.object row.bucket row.key row.vk) :
    other = row := by
  cases other
  cases row
  injection equal with buckets keys vks
  cases buckets
  cases keys
  cases vks
  rfl

theorem applyOps_rewrite {mode : Meta.ApplyMode} {rows after : Store} {seq : Nat}
    (run : Meta.applyOps mode [.objectMetaRewrite row.bucket row.key row.vk m] rows = .ok (seq, after)) :
    row.at rows ≠ none ∧
      ∀ other : ObjectRow, other.at after = if other = row then some m else other.at rows := by
  obtain ⟨middle, ran, frame⟩ := Meta.applyOps_rows run
  obtain ⟨_, written, ran, rest⟩ := Tx.bind_eq_ok.mp ran
  cases Tx.pure_eq_ok.mp rest
  obtain ⟨found, _, read, rest⟩ := Tx.bind_eq_ok.mp ran
  cases Meta.tget_eq_ok.mp read
  cases held : rows (.object row.bucket row.key row.vk) with
  | none =>
    rw [held] at rest
    exact absurd rest Tx.throw_ne_ok
  | some old =>
    simp only [held] at rest
    cases Meta.tinsert_eq_ok.mp rest
    have there : row.at rows ≠ none := by
      simp [ObjectRow.at, held]
    refine ⟨there, ?_⟩
    intro other
    rw [ObjectRow.at, frame _ rfl]
    by_cases same : other = row
    · rw [same, Function.update_self, if_pos rfl]
    · rw [if_neg same, Function.update_of_ne, ObjectRow.at]
      intro equal
      exact same (ObjectRow.key_injective equal)

theorem applyOps_rewrite_succeeds {rows : Store} (there : row.at rows ≠ none)
    (logged : Meta.LogOpen config rows) :
    ∃ result, Meta.applyOps (.commit config.replBinlog now)
      [.objectMetaRewrite row.bucket row.key row.vk m] rows = .ok result := by
  obtain ⟨old, held⟩ := Option.ne_none_iff_exists'.mp there
  have held : rows (.object row.bucket row.key row.vk) = some old := held
  have written : Meta.applyOp false ((rows .seq).getD 0 + 1)
      (.objectMetaRewrite row.bucket row.key row.vk m) rows =
        .ok ((), Function.update rows (.object row.bucket row.key row.vk) (some m)) := by
    refine Tx.bind_eq_ok.mpr ⟨some old, rows, ?_, Meta.tinsert_eq_ok.mpr rfl⟩
    exact Meta.tget_eq_ok.mpr (by rw [held])
  exact Meta.applyOps_single.mpr ⟨⟨_, written⟩, logged⟩

theorem applyOps_kekGen {mode : Meta.ApplyMode} {state : SseKekGenState} {rows after : Store} {seq : Nat}
    (run : Meta.applyOps mode [.sseKekGenPut state] rows = .ok (seq, after)) (row : ObjectRow) :
    row.at after = row.at rows := by
  obtain ⟨middle, ran, frame⟩ := Meta.applyOps_rows run
  obtain ⟨_, written, ran, rest⟩ := Tx.bind_eq_ok.mp ran
  cases Tx.pure_eq_ok.mp rest
  cases Meta.tinsert_eq_ok.mp ran
  rw [ObjectRow.at, frame _ rfl]
  exact Function.update_of_ne Key.noConfusion _ _

end Write

section Steps

variable {config : MetaConfig} {wrapping : Wrapping} {before middle after : Store} {store : Meta.MetaStore}
  {fate : Fate} {now : Int} {row : ObjectRow} {m : ObjectMeta} {gen : Nat} {w : RewrapWorld}
  {action : RewrapAction}

theorem SameRecords.refl : SameRecords wrapping before before :=
  fun _ => rfl

theorem SameRecords.trans (first : SameRecords wrapping before middle)
    (second : SameRecords wrapping middle after) : SameRecords wrapping before after :=
  fun row => (second row).trans (first row)

/-- The write of a record with its data key under a new generation changes nothing else exactly if
the record is the one that is in its row, or the row is gone, or the write does not reach the store. -/
theorem commit_rewrapped {s : SseInfo} {wrapped : Bytes} (target : rewrapTarget gen m = some s)
    (rewraps : wrapping.rewrap s.kekId gen s.wrappedDek = some wrapped) :
    SameRecords wrapping store.rows (store.commit config fate now
        [.objectMetaRewrite row.bucket row.key row.vk (ObjectMeta.rewrapped m s gen wrapped)]).2.rows ↔
      ((∀ message, fate ≠ .refused message) → Meta.LogOpen config store.rows →
        row.at store.rows = none ∨
          (row.at store.rows).map wrapping.opened = some (wrapping.opened m)) := by
  have same := opened_rewrapped target rewraps
  rcases Meta.MetaStore.commit_cases config store fate now
      [.objectMetaRewrite row.bucket row.key row.vk (ObjectMeta.rewrapped m s gen wrapped)] with
    ⟨unchanged, stopped⟩ | ⟨kept, seq, rows, ran, settled⟩
  · rw [unchanged]
    refine iff_of_true SameRecords.refl ?_
    intro kept logged
    by_cases gone : row.at store.rows = none
    · exact .inl gone
    · obtain ⟨message, refused⟩ | ⟨e, failed⟩ := stopped
      · exact absurd refused (kept message)
      · have succeeds : ∃ result, Meta.applyOps (.commit config.replBinlog now)
            [.objectMetaRewrite row.bucket row.key row.vk (ObjectMeta.rewrapped m s gen wrapped)]
            store.rows = .ok result :=
          applyOps_rewrite_succeeds gone logged
        obtain ⟨result, ran⟩ := succeeds
        rw [ran] at failed
        cases failed
  · obtain ⟨there, frame⟩ := applyOps_rewrite ran
    obtain ⟨_, logged⟩ := Meta.applyOps_single.mp ⟨_, ran⟩
    have found : ∀ other : ObjectRow, other.at (store.commit config fate now
        [.objectMetaRewrite row.bucket row.key row.vk (ObjectMeta.rewrapped m s gen wrapped)]).2.rows =
          if other = row then some (ObjectMeta.rewrapped m s gen wrapped) else other.at store.rows := by
      intro other
      rw [← frame other]
      exact settled _ Key.noConfusion
    constructor
    · intro records _ _
      have here := records row
      rw [found row, if_pos rfl, Option.map_some, same] at here
      exact .inr here.symm
    · intro current other
      rw [found other]
      by_cases due : other = row
      · obtain gone | here := current kept logged
        · exact absurd gone there
        · rw [if_pos due, due, here, Option.map_some, same]
      · rw [if_neg due]

theorem rewrapOne_sameRecords (errors : Nat) (rest : List (ObjectRow × ObjectMeta)) :
    SameRecords wrapping store.rows
        (RewrapWorld.rewrapOne config wrapping ⟨store, some ⟨gen, (row, m) :: rest, errors⟩⟩
          fate now gen row m).2.rows ↔
      StillCurrent config wrapping ⟨store, some ⟨gen, (row, m) :: rest, errors⟩⟩ (.next fate now) := by
  rw [RewrapWorld.rewrapOne]
  cases target : rewrapTarget gen m with
  | none =>
    refine iff_of_true SameRecords.refl ?_
    intro _ _ _ _ _ due s found
    cases due
    rw [target] at found
    cases found
  | some s =>
    dsimp only
    cases rewraps : wrapping.rewrap s.kekId gen s.wrappedDek with
    | none =>
      refine iff_of_true SameRecords.refl ?_
      intro _ _ _ _ _ due s' found wraps
      cases due
      rw [target] at found
      cases found
      exact absurd rewraps wraps
    | some wrapped =>
      have written : SameRecords wrapping store.rows (store.commit config fate now
          [.objectMetaRewrite row.bucket row.key row.vk (ObjectMeta.rewrapped m s gen wrapped)]).2.rows ↔
            ((∀ message, fate ≠ .refused message) → Meta.LogOpen config store.rows →
              row.at store.rows = none ∨
                (row.at store.rows).map wrapping.opened = some (wrapping.opened m)) :=
        commit_rewrapped target rewraps
      dsimp only
      split
      all_goals
        next outcome =>
          rw [outcome] at written
          rw [written]
          constructor
          · intro current _ _ _ _ _ due s' found _
            cases due
            exact current
          · intro current
            exact current gen row m rest errors rfl s target (by rw [rewraps]; nofun)

/-- A step of the worker leaves the records as they are exactly if the record that is due is
current. -/
theorem step_sameRecords (background : action.background = true) :
    SameRecords wrapping w.store.rows (w.step config wrapping action).store.rows ↔
      StillCurrent config wrapping w action := by
  obtain ⟨store, pass⟩ := w
  cases action with
  | commit fate now ops => exact absurd background Bool.false_ne_true
  | start listed =>
    refine iff_of_true ?_ trivial
    intro row
    rw [RewrapWorld.step]
    cases pass with
    | some pass => rfl
    | none =>
      dsimp only
      split <;> rfl
  | next fate now =>
    rcases pass with _ | ⟨gen, _ | ⟨⟨row, m⟩, rest⟩, errors⟩
    · refine iff_of_true SameRecords.refl ?_
      intro _ _ _ _ _ due
      cases due
    · refine iff_of_true SameRecords.refl ?_
      intro _ _ _ _ _ due
      cases due
    · exact rewrapOne_sameRecords errors rest
  | finish fate now =>
    refine iff_of_true ?_ trivial
    intro row
    rcases pass with _ | ⟨gen, _ | ⟨due, rest⟩, errors⟩
    · rfl
    · rw [RewrapWorld.step]
      dsimp only
      split
      · rfl
      · rcases Meta.MetaStore.commit_cases config store fate now
            [.sseKekGenPut { kekGenState store.rows with rewrapDoneGen := gen }] with
          ⟨unchanged, _⟩ | ⟨_, seq, rows, ran, settled⟩
        · rw [unchanged]
        · have same := applyOps_kekGen ran row
          have here := settled (.object row.bucket row.key row.vk) Key.noConfusion
          rw [ObjectRow.at, here]
          exact congrArg (Option.map wrapping.opened) same
    · rfl
  | stop => exact iff_of_true SameRecords.refl trivial

end Steps

/-- The worker undoes nothing in a run exactly if every record it writes back is still the one it
read. -/
theorem rewrap_undoes_nothing_iff (config : MetaConfig) (wrapping : Wrapping) (start : RewrapWorld)
    (actions : List RewrapAction) :
    UndoesNothing config wrapping start actions ↔
      EveryStep (RewrapWorld.step config wrapping) (StillCurrent config wrapping) start actions := by
  constructor
  · intro kept earlier next later split
    cases background : next.background with
    | false =>
      cases next with
      | commit fate now ops => trivial
      | _ => cases background
    | true =>
      apply (step_sameRecords background).mp
      have stretch := kept earlier [next] later (by simp [split])
        (by simpa using background)
      rw [List.foldl_append] at stretch
      exact stretch
  · intro every earlier between later split background
    induction between generalizing earlier with
    | nil =>
      rw [List.append_nil]
      exact SameRecords.refl
    | cons next between ih =>
      have due := every earlier next (between ++ later) (by simp [split])
      have first := (step_sameRecords (background next List.mem_cons_self)).mpr due
      have rest := ih (earlier ++ [next]) (by simp [split])
        (fun action member => background action (List.mem_cons_of_mem _ member))
      rw [List.foldl_append] at rest
      have joined : earlier ++ [next] ++ between = earlier ++ next :: between := by simp
      rw [joined] at rest
      exact first.trans rest

def plainWrapping : Wrapping where
  unwrapDek gen wrapped :=
    match wrapped with
    | first :: dek => if first = UInt8.ofNat gen then some dek else none
    | [] => none
  wrapDek gen dek := some (UInt8.ofNat gen :: dek)
  roundTrip := by
    intro gen dek wrapped wraps
    cases wraps
    simp

def keptObject (wrappedDek : Bytes) (legalHold : Bool) : ObjectMeta where
  size := 1
  mtime := 100
  extents := []
  inline := some [7]
  parts := []
  versionId := none
  isDeleteMarker := false
  sse := some ⟨.sseS3, 1, wrappedDek, [], [], []⟩
  compressed := none
  storageClass := none
  restoreState := none
  tags := []
  retention := none
  legalHold := legalHold

def rotatedRows : Store :=
  Function.update (Function.update Store.empty .sseKekGen (some ⟨2, 0, 1⟩))
    (.object "bucket" "key" none) (some (keptObject [1, 9] false))

/-- A legal hold that is set between the scan and the write-back is gone after it. -/
theorem rewrap_undoes_legal_hold :
    ¬∀ config wrapping start actions, UndoesNothing config wrapping start actions := by
  intro kept
  have records := kept ⟨false, 8⟩ plainWrapping ⟨.opened rotatedRows, none⟩
    [.start [⟨"bucket", "key", none⟩],
      .commit (.kept true) 0 [.objectMetaRewrite "bucket" "key" none (keptObject [1, 9] true)],
      .next (.kept true) 0]
    [.start [⟨"bucket", "key", none⟩],
      .commit (.kept true) 0 [.objectMetaRewrite "bucket" "key" none (keptObject [1, 9] true)]]
    [.next (.kept true) 0] [] rfl (by simp [RewrapAction.background]) ⟨"bucket", "key", none⟩
  revert records
  decide +kernel

end FastS3.Engine
