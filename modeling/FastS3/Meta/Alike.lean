import FastS3.Meta.Export
import FastS3.Meta.Localize
import FastS3.Meta.Scoped

namespace FastS3.Meta

open FastS3.Core Data

/-! Stores with the same exported rows.

A downstream keeps the data of an object at places of its own, so the places of segments are
not compared.
-/

def Key.exported : Key → Bool
  | .bucket _ | .location _ | .conf _ _ | .lifecycleRules _ | .notificationRules _
  | .inventoryRules _ | .object _ _ _ | .session _ | .sessionIndex _ _ | .part _ _ | .accessKeys
  | .tenant _ | .iamUsers _ | .iamGroups _ | .iamPolicies _ | .iamRoles _ | .sseKekSeed
  | .sseKekGen => true
  | _ => false

def Key.placed : Key → Bool
  | .object _ _ _ | .part _ _ => true
  | _ => false

def ObjectMeta.unplaced (m : ObjectMeta) : ObjectMeta :=
  { m with
    extents := []
    restoreState := m.restoreState.map fun st => { st with restoredExtents := [] } }

def unplacedPart (part : PartMeta) : PartMeta :=
  { part with extents := [] }

def Value.unplaced : (key : Key) → Value key → Value key
  | .object _ _ _, value => Option.map ObjectMeta.unplaced value
  | .part _ _, value => Option.map unplacedPart value
  | _, value => value

theorem Value.unplaced_of_not_placed {key : Key} (plain : key.placed = false) (value : Value key) :
    Value.unplaced key value = value := by
  cases key <;> first | rfl | cases plain

def Alike (left right : Store) : Prop :=
  ∀ key, key.exported = true → Value.unplaced key (left key) = Value.unplaced key (right key)

namespace Alike

variable {left right other : Store}

theorem refl (rows : Store) : Alike rows rows :=
  fun _ _ => rfl

theorem symm (alike : Alike left right) : Alike right left :=
  fun key exported => (alike key exported).symm

theorem trans (first : Alike left right) (second : Alike right other) : Alike left other :=
  fun key exported => (first key exported).trans (second key exported)

theorem of_frame (frame : ∀ key, key.exported = true → right key = left key) : Alike left right := by
  intro key exported
  rw [frame key exported]

theorem row (alike : Alike left right) {key : Key} (exported : key.exported = true)
    (plain : key.placed = false) : left key = right key := by
  have same := alike key exported
  rw [Value.unplaced_of_not_placed plain, Value.unplaced_of_not_placed plain] at same
  exact same

theorem object (alike : Alike left right) {bucket name : String} {vk : Option Vk} {m : ObjectMeta}
    (found : left (.object bucket name vk) = some m) :
    ∃ m', right (.object bucket name vk) = some m' ∧ m.unplaced = m'.unplaced := by
  have same : Option.map ObjectMeta.unplaced (left (.object bucket name vk)) =
      Option.map ObjectMeta.unplaced (right (.object bucket name vk)) :=
    alike (.object bucket name vk) rfl
  rw [found, Option.map_some, eq_comm, Option.map_eq_some_iff] at same
  obtain ⟨m', there, equal⟩ := same
  exact ⟨m', there, equal.symm⟩

theorem part (alike : Alike left right) {uploadId : String} {partNo : Nat} {value : PartMeta}
    (found : left (.part uploadId partNo) = some value) :
    ∃ value', right (.part uploadId partNo) = some value' ∧
      unplacedPart value = unplacedPart value' := by
  have same : Option.map unplacedPart (left (.part uploadId partNo)) =
      Option.map unplacedPart (right (.part uploadId partNo)) :=
    alike (.part uploadId partNo) rfl
  rw [found, Option.map_some, eq_comm, Option.map_eq_some_iff] at same
  obtain ⟨value', there, equal⟩ := same
  exact ⟨value', there, equal.symm⟩

theorem write (alike : Alike left right) {key : Key} {value value' : Value key}
    (same : Value.unplaced key value = Value.unplaced key value') :
    Alike (Function.update left key value) (Function.update right key value') := by
  intro row exported
  by_cases here : row = key
  · subst here
    rw [Function.update_self, Function.update_self]
    exact same
  · rw [Function.update_of_ne here, Function.update_of_ne here]
    exact alike row exported

end Alike

/-- The operations on queues, jobs, sessions and allocations, whose rows are not exported. -/
def Op.aside : Op → Bool
  | .eventEnqueue _ | .eventMarkDead _ | .eventDelete _ | .restoreJobPut _ | .restoreJobDelete _
  | .sessionPut _ | .sessionDelete _ | .ingestJobPut _ | .ingestJobDelete _ | .batchJobPut _
  | .batchJobDelete _ | .alloc _ => true
  | _ => false

def Op.places : Op → Bool
  | .objectPut _ _ _ | .objectMigrate _ _ _ _ _ | .partMigrate _ _ _ _ | .objectSetTags _ _ _ _
  | .objectSetRetention _ _ _ _ | .objectSetLegalHold _ _ _ _ | .objectDelete _ _
  | .objectDeleteCurrent _ _ _ _ | .objectDeleteVersion _ _ _ | .objectPutVersion _ _ _ _
  | .objectMetaRewrite _ _ _ _ | .partPut _ _ _ | .partDelete _ _ => true
  | _ => false

def Op.onEvents (seq : Nat) (events : BTreeMap Nat EventRecord) : Op → BTreeMap Nat EventRecord
  | .eventEnqueue record => events.insert seq { record with seq := seq }
  | .eventMarkDead target =>
    match events.get? target with
    | some record => events.insert target { record with dead := true }
    | none => events
  | .eventDelete target => events.erase target
  | _ => events

def MarksQueued (seq : Nat) : BTreeMap Nat EventRecord → List Op → Prop
  | _, [] => True
  | events, op :: ops =>
    (∀ target, op = .eventMarkDead target → (events.get? target).isSome = true) ∧
      MarksQueued seq (op.onEvents seq events) ops

section Operations

variable {seq : Nat} {op : Op} {left right after : Store} {key : Key}

theorem touches_aside (aside : op.aside = true) (touched : op.touches seq key) :
    key.exported = false := by
  cases op <;> simp only [Op.aside, reduceCtorEq, Op.touches] at aside touched <;>
    grind [Key.exported]

theorem touches_whole (inside : op.aside = false) (whole : op.places = false)
    (touched : op.touches seq key) : key.exported = true ∧ key.placed = false := by
  cases op <;> simp only [Op.aside, Op.places, reduceCtorEq, Op.touches] at inside whole touched <;>
    grind [Key.exported, Key.placed]

theorem applyOp_events (replay : Bool) (run : applyOp replay seq op left = .ok ((), after)) :
    after .events = op.onEvents seq (left .events) := by
  cases op with
  | eventEnqueue record =>
    have rest := tget_bind_ok.mp run
    cases tinsert_eq_ok.mp rest
    exact Function.update_self _ _ _
  | eventDelete target =>
    have rest := tget_bind_ok.mp run
    cases tinsert_eq_ok.mp rest
    exact Function.update_self _ _ _
  | eventMarkDead target =>
    have rest := tget_bind_ok.mp run
    dsimp only [Op.onEvents]
    cases found : (left .events).get? target with
    | none =>
      simp only [found] at rest
      exact absurd rest Tx.throw_ne_ok
    | some record =>
      simp only [found] at rest
      cases tinsert_eq_ok.mp rest
      exact Function.update_self _ _ _
  | _ =>
    apply (applyOp_within replay seq _).frame run
    simp [Op.touches]

theorem aside_succeeds {replay : Bool} (aside : op.aside = true)
    (queued : ∀ target, op = .eventMarkDead target → ((right .events).get? target).isSome = true)
    (run : applyOp replay seq op left = .ok ((), after)) :
    ∃ next, applyOp true seq op right = .ok ((), next) := by
  cases queues : op.queues with
  | true => exact queues_succeeds queues queued run
  | false =>
    cases op with
    | sessionPut record => exact ⟨_, rfl⟩
    | sessionDelete id => exact ⟨_, rfl⟩
    | batchJobPut job => exact checked_succeeds run
    | batchJobDelete id => exact checked_succeeds run
    | _ => simp [Op.aside, Op.queues] at aside queues

end Operations

namespace Alike

variable {seq : Nat} {left right after : Store} {bucket name uploadId : String} {vk : Option Vk}
  {partNo : Nat}

theorem inserted (alike : Alike left right) {key : Key} {value : Value key}
    (run : tinsert key value left = .ok ((), after)) :
    ∃ next, tinsert key value right = .ok ((), next) ∧ Alike after next := by
  cases tinsert_eq_ok.mp run
  exact ⟨_, rfl, alike.write rfl⟩

theorem inBucket (alike : Alike left right) {next : MetaTx Unit}
    (run : (do let _ ← requireBucket bucket; next) left = .ok ((), after))
    (rest : next left = .ok ((), after) → ∃ last, next right = .ok ((), last) ∧ Alike after last) :
    ∃ last, (do let _ ← requireBucket bucket; next) right = .ok ((), last) ∧ Alike after last := by
  obtain ⟨found, _, required, ran⟩ := Tx.bind_eq_ok.mp run
  obtain ⟨held, rfl⟩ := requireBucket_ok.mp required
  obtain ⟨last, finished, kept⟩ := rest ran
  have there : right (.bucket bucket) = some found := by
    rw [← alike.row rfl rfl]
    exact held
  exact ⟨last, Tx.bind_eq_ok.mpr ⟨found, right, requireBucket_ok.mpr ⟨there, rfl⟩, finished⟩, kept⟩

theorem modifyObject (alike : Alike left right) {change : ObjectMeta → ObjectMeta}
    (commutes : ∀ m, (change m).unplaced = change m.unplaced)
    (run : Meta.modifyObject bucket name vk change left = .ok ((), after)) :
    ∃ next, Meta.modifyObject bucket name vk change right = .ok ((), next) ∧ Alike after next := by
  have rest := tget_bind_ok.mp run
  cases held : left (.object bucket name vk) with
  | none =>
    simp only [held] at rest
    exact absurd rest Tx.throw_ne_ok
  | some m =>
    simp only [held] at rest
    cases tinsert_eq_ok.mp rest
    obtain ⟨m', there, same⟩ := alike.object held
    refine ⟨_, Tx.bind_eq_ok.mpr ⟨some m', right, by rw [← there]; rfl, rfl⟩, alike.write ?_⟩
    show some (change m).unplaced = some (change m').unplaced
    rw [commutes, commutes, same]

theorem migrated_unplaced (m : ObjectMeta) (oldSegments newSegments : List Segment) :
    (m.migrated oldSegments newSegments).unplaced = m.unplaced := by
  cases held : m.restoreState with
  | none => simp [ObjectMeta.migrated, ObjectMeta.unplaced, held]
  | some st => simp [ObjectMeta.migrated, ObjectMeta.unplaced, held]

theorem objectMigrate (alike : Alike left right) {oldSegments newSegments : List Segment}
    (run : Meta.objectMigrate true bucket name vk oldSegments newSegments left = .ok ((), after)) :
    ∃ next, Meta.objectMigrate true bucket name vk oldSegments newSegments right = .ok ((), next) ∧
      Alike after next := by
  have rest := tget_bind_ok.mp run
  cases held : left (.object bucket name vk) with
  | none =>
    simp only [held] at rest
    exact absurd rest Tx.throw_ne_ok
  | some m =>
    simp only [held] at rest
    obtain ⟨m', there, same⟩ := alike.object held
    split at rest
    · exact absurd rest Tx.throw_ne_ok
    · next lengths =>
        rw [if_neg fun both => Bool.noConfusion both.2] at rest
        cases tinsert_eq_ok.mp rest
        refine ⟨Function.update right (.object bucket name vk)
          (some (m'.migrated oldSegments newSegments)),
          Tx.bind_eq_ok.mpr ⟨some m', right, by rw [← there]; rfl, ?_⟩, alike.write ?_⟩
        · simp only
          rw [if_neg lengths, if_neg fun both => Bool.noConfusion both.2]
          rfl
        · show some (m.migrated oldSegments newSegments).unplaced =
            some (m'.migrated oldSegments newSegments).unplaced
          rw [migrated_unplaced, migrated_unplaced, same]

theorem partMigrate (alike : Alike left right) {oldSegments newSegments : List Segment}
    (run : Meta.partMigrate true uploadId partNo oldSegments newSegments left = .ok ((), after)) :
    ∃ next, Meta.partMigrate true uploadId partNo oldSegments newSegments right = .ok ((), next) ∧
      Alike after next := by
  have rest := tget_bind_ok.mp run
  cases held : left (.part uploadId partNo) with
  | none =>
    simp only [held] at rest
    exact absurd rest Tx.throw_ne_ok
  | some part =>
    simp only [held] at rest
    obtain ⟨part', there, same⟩ := alike.part held
    split at rest
    · exact absurd rest Tx.throw_ne_ok
    · next lengths =>
        rw [if_neg fun both => Bool.noConfusion both.2] at rest
        cases tinsert_eq_ok.mp rest
        refine ⟨Function.update right (.part uploadId partNo)
          (some { part' with extents := (remapInOrder newSegments oldSegments part'.extents).1 }),
          Tx.bind_eq_ok.mpr ⟨some part', right, by rw [← there]; rfl, ?_⟩, alike.write ?_⟩
        · simp only
          rw [if_neg lengths, if_neg fun both => Bool.noConfusion both.2]
          rfl
        · exact congrArg some same

theorem behindObject (alike : Alike left right) {body : Option ObjectMeta → MetaTx Unit}
    {next : MetaTx Unit} (absent : ∀ rows result, body none rows ≠ .ok result)
    (present : ∀ m, body (some m) = next)
    (run : (tget (.object bucket name vk) >>= body) left = .ok ((), after))
    (rest : next left = .ok ((), after) → ∃ last, next right = .ok ((), last) ∧ Alike after last) :
    ∃ last, (tget (.object bucket name vk) >>= body) right = .ok ((), last) ∧ Alike after last := by
  have ran := tget_bind_ok.mp run
  cases held : left (.object bucket name vk) with
  | none =>
    rw [held] at ran
    exact absurd ran (absent _ _)
  | some m =>
    rw [held, present] at ran
    obtain ⟨m', there, _⟩ := alike.object held
    obtain ⟨last, finished, kept⟩ := rest ran
    refine ⟨last, Tx.bind_eq_ok.mpr ⟨some m', right, by rw [← there]; rfl, ?_⟩, kept⟩
    rw [present]
    exact finished

theorem placed (alike : Alike left right) {op : Op} (places : op.places = true)
    (run : applyOp true seq op left = .ok ((), after)) :
    ∃ next, applyOp true seq op right = .ok ((), next) ∧ Alike after next := by
  cases op with
  | objectPut bucket name value => exact alike.inBucket run fun ran => alike.inserted ran
  | objectMigrate bucket name vk oldSegments newSegments => exact alike.objectMigrate run
  | partMigrate uploadId partNo oldSegments newSegments => exact alike.partMigrate run
  | objectSetTags bucket name vk tags => exact alike.modifyObject (fun _ => rfl) run
  | objectSetRetention bucket name vk retention => exact alike.modifyObject (fun _ => rfl) run
  | objectSetLegalHold bucket name vk legalHold => exact alike.modifyObject (fun _ => rfl) run
  | objectDelete bucket name =>
    exact alike.behindObject (fun _ _ => Tx.throw_ne_ok) (fun _ => rfl) run fun ran =>
      alike.inserted ran
  | objectDeleteVersion bucket name vk =>
    exact alike.behindObject (fun _ _ => Tx.throw_ne_ok) (fun _ => rfl) run fun ran =>
      alike.inserted ran
  | objectMetaRewrite bucket name vk value =>
    exact alike.behindObject (fun _ _ => Tx.throw_ne_ok) (fun _ => rfl) run fun ran =>
      alike.inserted ran
  | objectDeleteCurrent bucket name vk marker =>
    apply alike.inBucket run
    intro ran
    split at ran
    · exact absurd ran Tx.throw_ne_ok
    · next formed =>
        rw [if_neg formed]
        exact alike.inserted ran
  | objectPutVersion bucket name vk value =>
    apply alike.inBucket run
    intro ran
    split at ran
    · exact absurd ran Tx.throw_ne_ok
    · next data =>
        rw [if_neg data]
        exact alike.inserted ran
  | partPut uploadId partNo value =>
    obtain ⟨session, _, required, rest⟩ := Tx.bind_eq_ok.mp run
    obtain ⟨held, rfl⟩ := requireSession_ok.mp required
    obtain ⟨next, ran, kept⟩ := alike.inserted rest
    have there : right (.session uploadId) = some session := by
      rw [← alike.row rfl rfl]
      exact held
    exact ⟨next, Tx.bind_eq_ok.mpr ⟨session, right, requireSession_ok.mpr ⟨there, rfl⟩, ran⟩, kept⟩
  | partDelete uploadId partNo => exact alike.inserted run
  | _ => cases places

/-- What an operation does, its replay does on a store that is alike, if that queues the event
which the operation marks. -/
theorem op (alike : Alike left right) {op : Op} {replay : Bool}
    (queued : ∀ target, op = .eventMarkDead target → ((right .events).get? target).isSome = true)
    (run : applyOp replay seq op left = .ok ((), after)) :
    ∃ next, applyOp true seq op right = .ok ((), next) ∧ Alike after next := by
  cases aside : op.aside with
  | true =>
    obtain ⟨next, ran⟩ := aside_succeeds aside queued run
    refine ⟨next, ran, ?_⟩
    have unread : ∀ {key : Key}, key.exported = true → ¬ op.touches seq key := by
      intro key exported touched
      rw [touches_aside aside touched] at exported
      cases exported
    have first : Alike left after :=
      of_frame fun key exported => (applyOp_within replay seq op).frame run key (unread exported)
    have second : Alike right next :=
      of_frame fun key exported => (applyOp_within true seq op).frame ran key (unread exported)
    exact (first.symm.trans alike).trans second
  | false =>
    have replayed : applyOp true seq op left = .ok ((), after) := by
      cases replay with
      | true => exact run
      | false => exact applyOp_replay (fun draft same => by rw [same] at aside; cases aside) run
    cases places : op.places with
    | true => exact alike.placed places replayed
    | false =>
      have within := applyOp_within true seq op
      have agree : AgreeOn (op.touches seq) left right := by
        intro key touched
        obtain ⟨exported, plain⟩ := touches_whole aside places touched
        exact alike.row exported plain
      obtain ⟨next, ran, agreed⟩ := within.transfer agree replayed
      refine ⟨next, ran, ?_⟩
      intro key exported
      by_cases touched : op.touches seq key
      · rw [agreed key touched]
      · rw [within.frame replayed key touched, within.frame ran key touched]
        exact alike key exported

theorem ops (alike : Alike left right) {ops : List Op} {replay : Bool}
    (queued : MarksQueued seq (right .events) ops)
    (run : ops.forM (applyOp replay seq) left = .ok ((), after)) :
    ∃ next, ops.forM (applyOp true seq) right = .ok ((), next) ∧ Alike after next := by
  induction ops generalizing left right with
  | nil =>
    cases Tx.pure_eq_ok.mp run
    exact ⟨right, rfl, alike⟩
  | cons op rest ih =>
    obtain ⟨_, middle, ran, remaining⟩ := Tx.bind_eq_ok.mp run
    obtain ⟨next, replayed, kept⟩ := alike.op queued.1 ran
    have behind : MarksQueued seq (next .events) rest := by
      rw [applyOp_events true replayed]
      exact queued.2
    obtain ⟨last, finished, held⟩ := ih kept behind remaining
    exact ⟨last, Tx.bind_eq_ok.mpr ⟨(), next, replayed, finished⟩, held⟩

theorem ops_aside {ops : List Op} {replay : Bool} (aside : ∀ op ∈ ops, op.aside = true)
    (run : ops.forM (applyOp replay seq) left = .ok ((), after)) : Alike left after := by
  apply Tx.forM_keeps (P := fun rows => Alike left rows) _ run (refl left)
  intro op member start next ran held
  apply held.trans
  apply of_frame
  intro key exported
  apply (applyOp_within replay seq op).frame ran
  intro touched
  rw [touches_aside (aside op member) touched] at exported
  cases exported

end Alike

section Places

variable {before after : Store} {count : Nat}

theorem localizeItem_alike {item : ReplLocalizeItem}
    (run : localizeItem item before = .ok (count, after)) : Alike before after := by
  intro key exported
  by_cases here : key = item.key.row
  · subst here
    obtain ⟨target, subs⟩ := item
    cases target with
    | object bucket name vk =>
      obtain ⟨found, held, ⟨_, same⟩ | ⟨extents, _, restored, _, _, _, same⟩⟩ := localizeObject_ok run
      · rw [same]
      · show Option.map ObjectMeta.unplaced (before (.object bucket name vk)) =
          Option.map ObjectMeta.unplaced (after (.object bucket name vk))
        rw [held, same]
        cases state : found.restoreState <;> simp [ObjectMeta.unplaced, state]
    | part uploadId partNo =>
      obtain ⟨found, held, ⟨_, same⟩ | ⟨extents, _, _, same⟩⟩ := localizePart_ok run
      · rw [same]
      · show Option.map unplacedPart (before (.part uploadId partNo)) =
          Option.map unplacedPart (after (.part uploadId partNo))
        rw [held, same]
        rfl
  · rw [(localizeItem_within item).frame run key]
    rintro (same | ⟨_, _, _, _, rfl⟩)
    · exact here same
    · cases exported

theorem localizeItems_alike {items : List ReplLocalizeItem}
    (run : localizeItems items before = .ok (count, after)) : Alike before after := by
  induction items generalizing before count with
  | nil =>
    cases Tx.pure_eq_ok.mp run
    exact Alike.refl _
  | cons item rest ih =>
    obtain ⟨_, middle, ran, remaining⟩ := Tx.bind_eq_ok.mp run
    obtain ⟨_, last, later, returned⟩ := Tx.bind_eq_ok.mp remaining
    cases Tx.pure_eq_ok.mp returned
    exact (localizeItem_alike ran).trans (ih later)

/-- `repl_localize_segments` changes nothing but places, and leaves the numbers alone. -/
theorem replLocalizeTx_alike {items : List ReplLocalizeItem} {consumed : List (Gtid × DataRef)}
    {alloc : Option AllocDraft} {allocSeq : Nat} {clearMarkers : List (String × String)}
    (run : replLocalizeTx items consumed alloc allocSeq clearMarkers before = .ok (count, after)) :
    Alike before after ∧ after .seq = before .seq ∧ after .replEpoch = before .replEpoch ∧
      after .replEbase = before .replEbase := by
  obtain ⟨_, exchanged, settled, items_run, _, _, behind⟩ := replLocalizeTx_stages run
  have kept : ∀ key : Key, (∀ g, key ≠ .replPending g) → (∀ bucket name, key ≠ .replPendingObj bucket name) →
      (∀ seq, key ≠ .alloc seq ∧ key ≠ .txn seq) → after key = exchanged key :=
    fun key queue marker allocs => behind key queue (fun _ _ => marker _ _) allocs
  have number : ∀ key : Key, key.progress = true → (∀ g, key ≠ .replPending g) →
      (∀ bucket name, key ≠ .replPendingObj bucket name) →
      (∀ seq, key ≠ .alloc seq ∧ key ≠ .txn seq) → after key = before key := by
    intro key progress queue marker allocs
    rw [kept key queue marker allocs, localizeItems_progress items_run progress]
  refine ⟨(localizeItems_alike items_run).trans (Alike.of_frame ?_), ?_, ?_, ?_⟩
  · intro key exported
    apply kept
    · rintro g rfl
      cases exported
    · rintro bucket name rfl
      cases exported
    · intro seq
      constructor
      · rintro rfl
        cases exported
      · rintro rfl
        cases exported
  · exact number _ rfl (fun _ => Key.noConfusion) (fun _ _ => Key.noConfusion)
      fun _ => ⟨Key.noConfusion, Key.noConfusion⟩
  · exact number _ rfl (fun _ => Key.noConfusion) (fun _ _ => Key.noConfusion)
      fun _ => ⟨Key.noConfusion, Key.noConfusion⟩
  · exact number _ rfl (fun _ => Key.noConfusion) (fun _ _ => Key.noConfusion)
      fun _ => ⟨Key.noConfusion, Key.noConfusion⟩

end Places

end FastS3.Meta
