import FastS3.Meta.Localize

namespace FastS3.Meta

open FastS3.Core Data

/-! The backfill of a replica: tasks that fetch the data of applied records, and reads
that fetch the data of one object, next to the stream of records. -/

def targetOf (key : SegmentKey) (segments : List Segment) :
    Option (SegmentKey × List DataRef) :=
  if segments = [] then none else some (key, segments.map Segment.key)

/-- An arm of `process_record`: the key whose value got references, and these. -/
def opTarget : Op → Option (SegmentKey × List DataRef)
  | .objectPut bucket key value => targetOf (.object bucket key none) value.segments
  | .objectPutVersion bucket key vk value => targetOf (.object bucket key (some vk)) value.segments
  | .objectMigrate bucket key vk _ newSegments => targetOf (.object bucket key vk) newSegments
  | .partPut uploadId partNo value => targetOf (.part uploadId partNo) value.extents
  | .partMigrate uploadId partNo _ newSegments => targetOf (.part uploadId partNo) newSegments
  | _ => none

def targetsOf (ops : List Op) : List (SegmentKey × List DataRef) :=
  ops.filterMap opTarget

def Op.puts : Op → Option SegmentKey
  | .objectPut bucket key _ => some (.object bucket key none)
  | .objectPutVersion bucket key vk _ => some (.object bucket key (some vk))
  | .partPut uploadId partNo _ => some (.part uploadId partNo)
  | _ => none

def Op.Carried (rows : Store) : Op → Prop
  | .objectMetaRewrite bucket key vk value | .objectDeleteCurrent bucket key vk value =>
    ∀ s ∈ value.segments, s ∈ segmentsAt rows (.object bucket key vk)
  | _ => True

section Segments

variable {seq : Nat} {op : Op} {before after : Store} {key : SegmentKey} {s : Segment}

theorem mem_targetOf {segments : List Segment} (member : s ∈ segments) :
    ∃ refs, targetOf key segments = some (key, refs) ∧ s.key ∈ refs :=
  ⟨_, if_neg (List.ne_nil_of_mem member), List.mem_map_of_mem member⟩

variable {oldSegments newSegments : List Segment} {name bucket : String} {vk : Option Vk}

theorem mem_remap {list : List Segment} (member : s ∈ (remap oldSegments newSegments list).1) :
    s ∈ list ∨ s ∈ newSegments := by
  obtain ⟨held, listed, same⟩ := List.mem_map.mp member
  cases found : oldSegments.idxOf? held with
  | none =>
    simp only [found] at same
    exact .inl (same ▸ listed)
  | some i =>
    simp only [found, List.getD_eq_getElem?_getD] at same
    cases line : newSegments[i]? with
    | none =>
      simp only [line, Option.getD_none] at same
      exact .inl (same ▸ listed)
    | some moved =>
      simp only [line, Option.getD_some] at same
      exact .inr (same ▸ List.mem_of_getElem? line)

theorem mem_migrated {m : ObjectMeta} (member : s ∈ (m.migrated oldSegments newSegments).segments) :
    s ∈ m.segments ∨ s ∈ newSegments := by
  rcases List.mem_append.mp member with inside | inside
  · exact (mem_remap inside).imp_left (List.mem_append_left _)
  · simp only [ObjectMeta.migrated, Core.ObjectMeta.restoredExtents] at inside
    cases state : m.restoreState with
    | none =>
      simp only [state, Option.map_none] at inside
      cases inside
    | some st =>
      simp only [state, Option.map_some] at inside
      refine (mem_remap inside).imp_left fun held => List.mem_append_right _ ?_
      simp only [Core.ObjectMeta.restoredExtents, state]
      exact held

theorem mem_remapInOrder {news olds list : List Segment}
    (member : s ∈ (remapInOrder news olds list).1) : s ∈ list ∨ s ∈ news := by
  fun_induction remapInOrder news olds list with
  | case1 => cases member
  | case2 new news olds first rest out left run ih =>
    simp only [run] at ih
    rcases List.mem_cons.mp member with rfl | inside
    · exact .inr List.mem_cons_self
    · exact (ih inside).imp (List.mem_cons_of_mem _) (List.mem_cons_of_mem _)
  | case3 new news old olds first rest _ out left run ih =>
    simp only [run] at ih
    rcases List.mem_cons.mp member with rfl | inside
    · exact .inl List.mem_cons_self
    · exact (ih inside).imp_left (List.mem_cons_of_mem _)
  | case4 news olds first rest _ out left run ih =>
    simp only [run] at ih
    rcases List.mem_cons.mp member with rfl | inside
    · exact .inl List.mem_cons_self
    · exact (ih inside).imp_left (List.mem_cons_of_mem _)

theorem segmentsAt_setObject {value : Option ObjectMeta} :
    segmentsAt (Function.update before (.object bucket name vk) value) key =
      if key = .object bucket name vk then value.elim [] ObjectMeta.segments
      else segmentsAt before key := by
  split
  · next same =>
      subst same
      simp only [segmentsAt, Function.update_self]
      cases value <;> rfl
  · next other =>
      apply segmentsAt_congr
      apply Function.update_of_ne
      intro same
      exact other (SegmentKey.row_injective same)

theorem segmentsAt_setPart {uploadId : String} {partNo : Nat} {value : Option PartMeta} :
    segmentsAt (Function.update before (.part uploadId partNo) value) key =
      if key = .part uploadId partNo then value.elim [] PartMeta.extents
      else segmentsAt before key := by
  split
  · next same =>
      subst same
      simp only [segmentsAt, Function.update_self]
      cases value <;> rfl
  · next other =>
      apply segmentsAt_congr
      apply Function.update_of_ne
      intro same
      exact other (SegmentKey.row_injective same)

theorem modifyObject_segments {change : ObjectMeta → ObjectMeta}
    (same : ∀ m, (change m).segments = m.segments)
    (run : modifyObject bucket name vk change before = .ok ((), after)) :
    segmentsAt after key = segmentsAt before key := by
  have rest := tget_bind_ok.mp run
  cases held : before (.object bucket name vk) with
  | none =>
    simp only [held] at rest
    exact absurd rest Tx.throw_ne_ok
  | some found =>
    simp only [held] at rest
    cases tinsert_eq_ok.mp rest
    rw [segmentsAt_setObject]
    split
    · next here =>
        rw [here]
        simp only [Option.elim_some, segmentsAt, held]
        exact same found
    · rfl

theorem objectMigrate_segments
    (run : objectMigrate true bucket name vk oldSegments newSegments before = .ok ((), after))
    (member : s ∈ segmentsAt after key) :
    s ∈ segmentsAt before key ∨ key = .object bucket name vk ∧ s ∈ newSegments := by
  have rest := tget_bind_ok.mp run
  cases held : before (.object bucket name vk) with
  | none =>
    simp only [held] at rest
    exact absurd rest Tx.throw_ne_ok
  | some found =>
    simp only [held] at rest
    split at rest
    · exact absurd rest Tx.throw_ne_ok
    · rw [if_neg fun both => Bool.noConfusion both.2] at rest
      cases tinsert_eq_ok.mp rest
      rw [segmentsAt_setObject] at member
      split at member
      · next here =>
          rw [here]
          simp only [segmentsAt, held]
          exact (mem_migrated member).imp_right fun moved => ⟨trivial, moved⟩
      · exact .inl member

theorem partMigrate_segments {uploadId : String} {partNo : Nat}
    (run : partMigrate true uploadId partNo oldSegments newSegments before = .ok ((), after))
    (member : s ∈ segmentsAt after key) :
    s ∈ segmentsAt before key ∨ key = .part uploadId partNo ∧ s ∈ newSegments := by
  have rest := tget_bind_ok.mp run
  cases held : before (.part uploadId partNo) with
  | none =>
    simp only [held] at rest
    exact absurd rest Tx.throw_ne_ok
  | some found =>
    simp only [held] at rest
    split at rest
    · exact absurd rest Tx.throw_ne_ok
    · rw [if_neg fun both => Bool.noConfusion both.2] at rest
      cases tinsert_eq_ok.mp rest
      rw [segmentsAt_setPart] at member
      split at member
      · next here =>
          rw [here]
          simp only [segmentsAt, held]
          exact (mem_remapInOrder member).imp_right fun moved => ⟨trivial, moved⟩
      · exact .inl member

theorem mem_setObject {value : ObjectMeta}
    (member : s ∈ segmentsAt (Function.update before (.object bucket name vk) (some value)) key) :
    s ∈ segmentsAt before key ∧ some (SegmentKey.object bucket name vk) ≠ some key ∨
      key = .object bucket name vk ∧ s ∈ value.segments := by
  rw [segmentsAt_setObject] at member
  split at member
  · next here => exact .inr ⟨here, member⟩
  · next other =>
      refine .inl ⟨member, ?_⟩
      intro same
      exact other (Option.some.inj same).symm

theorem mem_removed {row : Key} (member :
    s ∈ segmentsAt (Function.update before row (Value.absent row)) key) :
    s ∈ segmentsAt before key := by
  by_cases same : row = key.row
  · subst same
    cases key with
    | object bucket name vk =>
      simp only [segmentsAt, SegmentKey.row, Function.update_self, Value.absent] at member
      cases member
    | part uploadId partNo =>
      simp only [segmentsAt, SegmentKey.row, Function.update_self, Value.absent] at member
      cases member
  · rw [segmentsAt_congr (Function.update_of_ne (Ne.symm same) _ _)] at member
    exact member

theorem applyOp_segments (carried : op.Carried before)
    (run : applyOp true seq op before = .ok ((), after)) (member : s ∈ segmentsAt after key) :
    s ∈ segmentsAt before key ∧ op.puts ≠ some key ∨
      ∃ refs, opTarget op = some (key, refs) ∧ s.key ∈ refs := by
  by_cases touched : op.touches seq key.row
  · cases op with
    | objectPut bucket name value =>
      obtain ⟨_, start, required, rest⟩ := Tx.bind_eq_ok.mp run
      obtain ⟨_, rfl⟩ := requireBucket_ok.mp required
      cases tinsert_eq_ok.mp rest
      rcases mem_setObject member with held | ⟨rfl, brought⟩
      · exact .inl held
      · exact .inr (mem_targetOf brought)
    | objectPutVersion bucket name vk value =>
      obtain ⟨_, start, required, rest⟩ := Tx.bind_eq_ok.mp run
      obtain ⟨_, rfl⟩ := requireBucket_ok.mp required
      split at rest
      · exact absurd rest Tx.throw_ne_ok
      · cases tinsert_eq_ok.mp rest
        rcases mem_setObject member with held | ⟨rfl, brought⟩
        · exact .inl held
        · exact .inr (mem_targetOf brought)
    | objectDelete bucket name =>
      have rest := tget_bind_ok.mp run
      cases held : before (.object bucket name none) with
      | none =>
        simp only [held] at rest
        exact absurd rest Tx.throw_ne_ok
      | some found =>
        simp only [held] at rest
        cases tremove_eq_ok.mp rest
        exact .inl ⟨mem_removed member, (Option.some_ne_none key).symm⟩
    | objectDeleteVersion bucket name vk =>
      have rest := tget_bind_ok.mp run
      cases held : before (.object bucket name (some vk)) with
      | none =>
        simp only [held] at rest
        exact absurd rest Tx.throw_ne_ok
      | some found =>
        simp only [held] at rest
        cases tremove_eq_ok.mp rest
        exact .inl ⟨mem_removed member, (Option.some_ne_none key).symm⟩
    | objectDeleteCurrent bucket name vk marker =>
      obtain ⟨_, start, required, rest⟩ := Tx.bind_eq_ok.mp run
      obtain ⟨_, rfl⟩ := requireBucket_ok.mp required
      split at rest
      · exact absurd rest Tx.throw_ne_ok
      · cases tinsert_eq_ok.mp rest
        rcases mem_setObject member with ⟨held, _⟩ | ⟨rfl, brought⟩
        · exact .inl ⟨held, (Option.some_ne_none key).symm⟩
        · exact .inl ⟨carried s brought, (Option.some_ne_none _).symm⟩
    | objectMetaRewrite bucket name vk value =>
      have rest := tget_bind_ok.mp run
      cases held : before (.object bucket name vk) with
      | none =>
        simp only [held] at rest
        exact absurd rest Tx.throw_ne_ok
      | some found =>
        simp only [held] at rest
        cases tinsert_eq_ok.mp rest
        rcases mem_setObject member with ⟨held, _⟩ | ⟨rfl, brought⟩
        · exact .inl ⟨held, (Option.some_ne_none key).symm⟩
        · exact .inl ⟨carried s brought, (Option.some_ne_none _).symm⟩
    | objectMigrate bucket name vk oldSegments newSegments =>
      rcases objectMigrate_segments run member with held | ⟨rfl, brought⟩
      · exact .inl ⟨held, (Option.some_ne_none key).symm⟩
      · exact .inr (mem_targetOf brought)
    | objectSetTags bucket name vk tags =>
      rw [modifyObject_segments (by intro m; rfl) run] at member
      exact .inl ⟨member, (Option.some_ne_none key).symm⟩
    | objectSetRetention bucket name vk retention =>
      rw [modifyObject_segments (by intro m; rfl) run] at member
      exact .inl ⟨member, (Option.some_ne_none key).symm⟩
    | objectSetLegalHold bucket name vk legalHold =>
      rw [modifyObject_segments (by intro m; rfl) run] at member
      exact .inl ⟨member, (Option.some_ne_none key).symm⟩
    | partPut uploadId partNo value =>
      obtain ⟨_, start, required, rest⟩ := Tx.bind_eq_ok.mp run
      obtain ⟨_, rfl⟩ := requireSession_ok.mp required
      cases tinsert_eq_ok.mp rest
      rw [segmentsAt_setPart] at member
      split at member
      · next here =>
          subst here
          exact .inr (mem_targetOf member)
      · next other =>
          refine .inl ⟨member, ?_⟩
          intro same
          exact other (Option.some.inj same).symm
    | partDelete uploadId partNo =>
      cases tremove_eq_ok.mp run
      exact .inl ⟨mem_removed member, (Option.some_ne_none key).symm⟩
    | partMigrate uploadId partNo oldSegments newSegments =>
      rcases partMigrate_segments run member with held | ⟨rfl, brought⟩
      · exact .inl ⟨held, (Option.some_ne_none key).symm⟩
      · exact .inr (mem_targetOf brought)
    | _ =>
      exfalso
      simp only [Op.touches] at touched
      cases key <;> simp [SegmentKey.row] at touched
  · have same : segmentsAt after key = segmentsAt before key :=
      segmentsAt_congr ((applyOp_within true seq op).frame run _ touched)
    refine .inl ⟨same ▸ member, ?_⟩
    intro put
    cases op <;> simp only [Op.puts, reduceCtorEq, Option.some.injEq] at put <;> subst put <;>
      simp [Op.touches, SegmentKey.row] at touched

def Carried (seq : Nat) : Store → List Op → Prop
  | _, [] => True
  | rows, op :: rest =>
    op.Carried rows ∧ ∀ after, applyOp true seq op rows = .ok ((), after) → Carried seq after rest

theorem forM_segments {ops : List Op} (carried : Carried seq before ops)
    (run : ops.forM (applyOp true seq) before = .ok ((), after)) (member : s ∈ segmentsAt after key) :
    s ∈ segmentsAt before key ∧ (∀ op ∈ ops, op.puts ≠ some key) ∨
      ∃ op ∈ ops, ∃ refs, opTarget op = some (key, refs) ∧ s.key ∈ refs := by
  induction ops generalizing before with
  | nil =>
    cases Tx.pure_eq_ok.mp run
    refine .inl ⟨member, ?_⟩
    intro op impossible
    cases impossible
  | cons op rest ih =>
    obtain ⟨_, middle, ran, remaining⟩ := Tx.bind_eq_ok.mp run
    rcases ih (carried.2 middle ran) remaining with ⟨held, later⟩ | ⟨other, listed, brought⟩
    · rcases applyOp_segments carried.1 ran held with ⟨first, here⟩ | brought
      · refine .inl ⟨first, ?_⟩
        intro other listed
        rcases List.mem_cons.mp listed with rfl | listed
        · exact here
        · exact later other listed
      · exact .inr ⟨op, List.mem_cons_self, brought⟩
    · exact .inr ⟨other, List.mem_cons_of_mem _ listed, brought⟩

theorem opTarget_refs {refs : List DataRef} (target : opTarget op = some (key, refs)) :
    opRefs op = refs := by
  have unfolded : ∀ {other : SegmentKey} {segments : List Segment},
      targetOf other segments = some (key, refs) → segments.map Segment.key = refs := by
    intro other segments found
    unfold targetOf at found
    split at found
    · cases found
    · cases found
      rfl
  cases op with
  | objectPut | objectPutVersion | objectMigrate | partPut | partMigrate => exact unfolded target
  | _ => cases target

theorem opTarget_marks {refs : List DataRef}
    (target : opTarget op = some (.object bucket name vk, refs)) :
    pendingTarget op = some (bucket, name) := by
  have unfolded : ∀ {other : SegmentKey} {segments : List Segment},
      targetOf other segments = some (.object bucket name vk, refs) →
        other = .object bucket name vk := by
    intro other segments found
    unfold targetOf at found
    split at found
    · cases found
    · cases found
      rfl
  cases op with
  | objectPut | objectPutVersion | objectMigrate =>
    cases unfolded target
    rfl
  | partPut | partMigrate => cases unfolded target
  | _ => cases target

end Segments

/-- A task of `process_record`.  `staged` holds what `localize_target` has fetched for
the first target. -/
structure Worker where
  remaining : List (SegmentKey × List DataRef)
  refs : List DataRef
  staged : Option (List Substitution × Option AllocDraft)

/-- A task of `fetch_object` between its look at the object and its transaction. -/
structure ReadFetch where
  bucket : String
  key : String
  items : List ReplLocalizeItem
  alloc : Option AllocDraft
  allocSeq : Nat

/-- A replica.  `written` logs the segments that were written locally into the value
under a key since it was last put. -/
structure Standby where
  store : MetaStore
  workers : Gtid → Option Worker
  fetches : Nat → Option ReadFetch
  written : SegmentKey → List Segment

namespace Standby

def empty : Standby :=
  ⟨.opened Store.empty, fun _ => none, fun _ => none, fun _ => []⟩

def lands (rows : Store) (fate : Fate) (gtid : Gtid) (record : ReplRecord) : Bool :=
  match replApplyTx gtid record rows, fate with
  | .ok (.applied, _), .unflushed _ | .ok (.applied, _), .kept _ => gtid.epoch = record.epoch
  | _, _ => false

theorem lands_cases (config : MetaConfig) (store : MetaStore) (fate : Fate) (gtid : Gtid)
    (record : ReplRecord) :
    lands store.rows fate gtid record = false ∧
        (store.applyReplRecord config fate gtid record).2 = store ∨
      lands store.rows fate gtid record = true ∧ gtid.epoch = record.epoch ∧
        ∃ after, replApplyTx gtid record store.rows = .ok (.applied, after) ∧
          ∀ key, key ≠ .events →
            (store.applyReplRecord config fate gtid record).2.rows key = after key := by
  by_cases sameEpoch : gtid.epoch = record.epoch
  · cases outcome : replApplyTx gtid record store.rows with
    | error e => exact .inl ⟨by simp only [lands, outcome],
        by simp only [MetaStore.applyReplRecord, sameEpoch, ne_eq, not_true_eq_false, if_false, outcome]⟩
    | ok result =>
      obtain ⟨decision, after⟩ := result
      cases decision with
      | skippedDuplicate => exact .inl ⟨by simp only [lands, outcome],
          by simp only [MetaStore.applyReplRecord, sameEpoch, ne_eq, not_true_eq_false, if_false,
            outcome]⟩
      | applied =>
        cases fate with
        | refused message => exact .inl ⟨by simp only [lands, outcome],
            by simp only [MetaStore.applyReplRecord, sameEpoch, ne_eq, not_true_eq_false,
              if_false, outcome]⟩
        | unflushed message =>
          refine .inr ⟨by simp only [lands, outcome, sameEpoch, decide_true], sameEpoch, after, rfl, ?_⟩
          intro key _
          simp only [MetaStore.applyReplRecord, sameEpoch, ne_eq, not_true_eq_false, if_false,
            outcome]
        | kept trimmed =>
          refine .inr ⟨by simp only [lands, outcome, sameEpoch, decide_true], sameEpoch, after, rfl, ?_⟩
          intro key other
          simp only [MetaStore.applyReplRecord, sameEpoch, ne_eq, not_true_eq_false, if_false,
            outcome]
          exact MetaStore.settle_frame config _ _ _ other
  · refine .inl ⟨?_, by simp only [MetaStore.applyReplRecord, ne_eq, sameEpoch, not_false_eq_true,
      if_true]⟩
    unfold lands
    split <;> simp only [sameEpoch, decide_false]

def apply (config : MetaConfig) (standby : Standby) (fate : Fate) (gtid : Gtid)
    (record : ReplRecord) : Standby :=
  { standby with
    store := (standby.store.applyReplRecord config fate gtid record).2
    written := fun key =>
      if lands standby.store.rows fate gtid record ∧
          record.ops.any fun op => op.puts = some key then []
      else standby.written key }

def start (standby : Standby) (gtid : Gtid) : Standby :=
  match standby.workers gtid, standby.store.rows (.binlog gtid),
      standby.store.rows (.replPending gtid) with
  | none, some record, some refs =>
    if record.epoch = gtid.epoch then
      { standby with
        workers := Function.update standby.workers gtid
          (some ⟨targetsOf record.ops, refs, none⟩) }
    else standby
  | _, _, _ => standby

/-- `localize_target` up to its transaction: the references that the value still holds
are fetched into local segments. -/
def look (standby : Standby) (gtid : Gtid) (locals : DataRef → List Segment)
    (alloc : Option AllocDraft) : Standby :=
  match standby.workers gtid with
  | some ⟨(key, refs) :: rest, all, none⟩ =>
    let segments := segmentsAt standby.store.rows key
    let found := refs.filter fun place => segments.any fun s => s.key = place
    let subs := found.map fun place => ⟨place, locals place, gtid.epoch⟩
    { standby with
      workers := Function.update standby.workers gtid
        (some ⟨(key, refs) :: rest, all, some (subs, alloc)⟩) }
  | _ => standby

def localizes (rows : Store) (fate : LocalizeFate) (items : List ReplLocalizeItem)
    (consumed : List (Gtid × DataRef)) (alloc : Option AllocDraft) (allocSeq : Nat)
    (clearMarkers : List (String × String)) : Bool :=
  match replLocalizeTx items consumed alloc allocSeq clearMarkers rows, fate with
  | .ok _, .unflushed _ | .ok _, .kept => true
  | _, _ => false

def localsOf (items : List ReplLocalizeItem) (key : SegmentKey) : List Segment :=
  (items.filter fun item => item.key = key).flatMap fun item =>
    item.subs.flatMap Substitution.segments

def localize (standby : Standby) (fate : LocalizeFate) (items : List ReplLocalizeItem)
    (consumed : List (Gtid × DataRef)) (alloc : Option AllocDraft) (allocSeq : Nat)
    (clearMarkers : List (String × String)) : Except Error Nat × Standby :=
  let (outcome, store) :=
    standby.store.replLocalizeSegments fate items consumed alloc allocSeq clearMarkers
  (outcome, { standby with
    store := store
    written := fun key =>
      if localizes standby.store.rows fate items consumed alloc allocSeq clearMarkers then
        standby.written key ++ localsOf items key
      else standby.written key })

def consumedOf (gtid : Gtid) (refs : List DataRef) (subs : List Substitution) :
    List (Gtid × DataRef) :=
  (refs.filter (fun place => subs.any fun sub => sub.place = place) ++
    refs.filter (fun place => !subs.any fun sub => sub.place = place)).map fun place => (gtid, place)

/-- The task after the transaction of its first target.  A value that changed in between
is looked at again. -/
def workerAfter (worker : Worker) (subs : List Substitution) : Except Error Nat → Option Worker
  | .ok _ => some ⟨worker.remaining.tail, worker.refs, none⟩
  | .error (.objectChanged _) =>
    if subs = [] then none else some ⟨worker.remaining, worker.refs, none⟩
  | .error _ => none

/-- The transaction of `localize_target`. -/
def land (standby : Standby) (gtid : Gtid) (fate : LocalizeFate) : Standby :=
  match standby.workers gtid with
  | some ⟨(key, refs) :: rest, all, some (subs, alloc)⟩ =>
    let (outcome, standby) := standby.localize fate (if subs = [] then [] else [⟨key, subs⟩])
      (consumedOf gtid refs subs) (if subs = [] then none else alloc) gtid.seq []
    { standby with
      workers := Function.update standby.workers gtid
        (workerAfter ⟨(key, refs) :: rest, all, none⟩ subs outcome) }
  | _ => standby

/-- The last transaction of `process_record`: every reference of the entry goes. -/
def finish (standby : Standby) (gtid : Gtid) (fate : LocalizeFate) : Standby :=
  match standby.workers gtid with
  | some ⟨[], refs, _⟩ =>
    let (_, standby) := standby.localize fate [] (refs.map fun place => (gtid, place)) none
      gtid.seq []
    { standby with workers := Function.update standby.workers gtid none }
  | _ => standby

def abandon (standby : Standby) (gtid : Gtid) : Standby :=
  { standby with workers := Function.update standby.workers gtid none }

def firstOf (found : List (Gtid × DataRef)) : List (Nat × DataRef) :=
  found.foldl (fun unique hit =>
    if unique.any fun known => known.2 = hit.2 then unique
    else unique ++ [(hit.1.epoch, hit.2)]) []

def queuedOf (rows : Store) (bucket key : String) (vks : List (Option Vk)) (gtids : List Gtid) :
    List (Gtid × DataRef) :=
  gtids.flatMap fun g =>
    (((rows (.replPending g)).getD []).filter fun place =>
      vks.any fun vk => (segmentsAt rows (.object bucket key vk)).any fun s => s.key = place).map
        fun place => (g, place)

def fetchItem (rows : Store) (bucket key : String) (locals : DataRef → List Segment)
    (unique : List (Nat × DataRef)) (vk : Option Vk) : Option ReplLocalizeItem :=
  let segments := segmentsAt rows (.object bucket key vk)
  let subs := (unique.filter fun hit => segments.any fun s => s.key = hit.2).map fun hit =>
    ⟨hit.2, locals hit.2, hit.1⟩
  if subs = [] then none else some ⟨.object bucket key vk, subs⟩

/-- `fetch_object` up to its transaction.  `vks` are the versions of the key and `gtids`
the entries of the queue, as the scans list them. -/
def lookFetch (standby : Standby) (task : Nat) (bucket key : String) (vks : List (Option Vk))
    (gtids : List Gtid) (locals : DataRef → List Segment) (alloc : Option AllocDraft) : Standby :=
  let found := queuedOf standby.store.rows bucket key vks gtids
  let items := vks.filterMap (fetchItem standby.store.rows bucket key locals (firstOf found))
  { standby with
    fetches := Function.update standby.fetches task (some
      { bucket := bucket
        key := key
        items := items
        alloc := if found = [] then none else alloc
        allocSeq := (found.map fun hit => hit.1.seq).foldl max 0 }) }

/-- The transaction of `fetch_object`, which leaves the queue alone. -/
def landFetch (standby : Standby) (task : Nat) (fate : LocalizeFate) : Standby :=
  match standby.fetches task with
  | none => standby
  | some fetch =>
    let (_, standby) := standby.localize fate fetch.items [] fetch.alloc fetch.allocSeq
      [(fetch.bucket, fetch.key)]
    { standby with fetches := Function.update standby.fetches task none }

def abandonFetch (standby : Standby) (task : Nat) : Standby :=
  { standby with fetches := Function.update standby.fetches task none }

end Standby

inductive BackfillEvent where
  | apply (fate : Fate) (gtid : Gtid) (record : ReplRecord)
  | start (gtid : Gtid)
  | look (gtid : Gtid) (locals : DataRef → List Segment) (alloc : Option AllocDraft)
  | land (gtid : Gtid) (fate : LocalizeFate)
  | finish (gtid : Gtid) (fate : LocalizeFate)
  | abandon (gtid : Gtid)
  | lookFetch (task : Nat) (bucket key : String) (vks : List (Option Vk)) (gtids : List Gtid)
      (locals : DataRef → List Segment) (alloc : Option AllocDraft)
  | landFetch (task : Nat) (fate : LocalizeFate)
  | abandonFetch (task : Nat)

namespace Standby

def step (config : MetaConfig) (standby : Standby) : BackfillEvent → Standby
  | .apply fate gtid record => standby.apply config fate gtid record
  | .start gtid => standby.start gtid
  | .look gtid locals alloc => standby.look gtid locals alloc
  | .land gtid fate => standby.land gtid fate
  | .finish gtid fate => standby.finish gtid fate
  | .abandon gtid => standby.abandon gtid
  | .lookFetch task bucket key vks gtids locals alloc =>
    standby.lookFetch task bucket key vks gtids locals alloc
  | .landFetch task fate => standby.landFetch task fate
  | .abandonFetch task => standby.abandonFetch task

def run (config : MetaConfig) (standby : Standby) (events : List BackfillEvent) : Standby :=
  events.foldl (step config) standby

end Standby

end FastS3.Meta
