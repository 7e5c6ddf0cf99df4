import FastS3.Meta.Backfill

namespace FastS3.Meta

open FastS3.Core Data

/-! Where the segments of a replica's records come from.

A segment that no localisation wrote is queued: an entry of the queue names its
place, the record of the entry brought it to this key, and the task of the entry,
if there is one, has still to look at it.
-/

def Marked (rows : Store) : SegmentKey → Prop
  | .object bucket name _ => rows (.replPendingObj bucket name) = some ()
  | .part _ _ => True

def TargetsApart (ops : List Op) : Prop :=
  ∀ left ∈ targetsOf ops, ∀ right ∈ targetsOf ops, left.1 ≠ right.1 →
    ∀ place ∈ left.2, place ∉ right.2

/-- The task has still to exchange the place under the key: it comes in a target that
is left, and when the first target has been looked at, it was found. -/
def Worker.Open (worker : Worker) (key : SegmentKey) (place : DataRef) : Prop :=
  (∃ target ∈ worker.remaining, target.1 = key ∧ place ∈ target.2) ∧
    ∀ subs alloc, worker.staged = some (subs, alloc) →
      ∀ target rest, worker.remaining = target :: rest → target.1 = key → place ∈ target.2 →
        ∃ sub ∈ subs, sub.place = place

namespace Standby

structure CoveredBy (standby : Standby) (g : Gtid) (key : SegmentKey) (place : DataRef) : Prop where
  queued : ∃ refs, standby.store.rows (.replPending g) = some refs ∧ place ∈ refs
  brought : ∃ record, standby.store.rows (.binlog g) = some record ∧
    ∃ target ∈ targetsOf record.ops, target.1 = key ∧ place ∈ target.2
  awaited : ∀ worker, standby.workers g = some worker → worker.Open key place

def cursor (standby : Standby) : Gtid :=
  (standby.store.rows .replCursor).getD ⟨0, 0⟩

structure Inv (standby : Standby) : Prop where
  segments : ∀ key s, s ∈ segmentsAt standby.store.rows key →
    s ∈ standby.written key ∨
      (∃ g, standby.CoveredBy g key s.key) ∧ Marked standby.store.rows key
  queued : ∀ g refs, standby.store.rows (.replPending g) = some refs → g.le standby.cursor = true
  apart : ∀ g record, standby.store.rows (.binlog g) = some record → TargetsApart record.ops
  working : ∀ g worker, standby.workers g = some worker → g.le standby.cursor = true
  assigned : ∀ g worker, standby.workers g = some worker →
    ∃ record, standby.store.rows (.binlog g) = some record ∧
      ∀ target ∈ worker.remaining, target ∈ targetsOf record.ops

theorem Inv.empty : Inv Standby.empty where
  segments := by
    intro key s member
    cases key <;> cases member
  queued := by
    intro g refs queued
    cases queued
  apart := by
    intro g record logged
    cases logged
  working := by
    intro g worker working
    cases working
  assigned := by
    intro g worker working
    cases working

theorem le_of_ahead {g cursor gtid : Gtid} (first : g.le cursor = true)
    (ahead : gtid.le cursor = false) : g.le gtid = true :=
  Gtid.le_iff.mpr ((Gtid.le_iff.mp first).trans (Gtid.le_eq_false_iff.mp ahead).le)

section Record

variable {config : MetaConfig} {standby : Standby} {fate : Fate} {gtid : Gtid} {record : ReplRecord}

/-- The rows of a replica after a record, by what it did to the ones before. -/
structure Applied (gtid : Gtid) (record : ReplRecord) (before after : Store) : Prop
    extends Recorded gtid record before after where
  segments : ∀ key s, s ∈ segmentsAt after key →
    s ∈ segmentsAt before key ∧ (∀ op ∈ record.ops, op.puts ≠ some key) ∨
      ∃ op ∈ record.ops, ∃ refs, opTarget op = some (key, refs) ∧ s.key ∈ refs
  ahead : gtid.le ((before .replCursor).getD ⟨0, 0⟩) = false

theorem applied_of_tx {before after last : Store}
    (carried : ∀ start, advanceEpoch record.epoch before = .ok ((), start) →
      Carried (record.rawSeq.getD gtid.seq) start record.ops)
    (run : replApplyTx gtid record before = .ok (.applied, after))
    (frame : ∀ key, key ≠ .events → last key = after key) : Applied gtid record before last := by
  obtain ⟨ahead, start, middle, advanced, ran, landed⟩ := replApplyTx_applied run
  have progress : ∀ key : Key, key.progress = true → key ≠ .replEpoch → middle key = before key := by
    intro key progress other
    rw [forM_progress ran progress, advanceEpoch_frame advanced other]
  refine ⟨⟨?_, ?_, ?_, ?_, ?_, ?_, ?_⟩, ?_, ahead⟩
  · rw [frame _ Key.noConfusion]
    exact landed.cursor
  · rw [frame _ Key.noConfusion]
    exact landed.logged
  · intro g other
    rw [frame _ Key.noConfusion, landed.binlog g other, progress _ rfl Key.noConfusion]
  · intro some_refs
    rw [frame _ Key.noConfusion]
    exact landed.queued some_refs
  · intro g other
    rw [frame _ Key.noConfusion, landed.pending g other, progress _ rfl Key.noConfusion]
  · intro some_refs op listed bucket name target
    rw [frame _ Key.noConfusion]
    exact landed.marked some_refs op listed bucket name target
  · intro bucket name marked
    rw [frame _ Key.noConfusion]
    apply landed.markers
    rw [progress _ rfl Key.noConfusion]
    exact marked
  · intro key s member
    have same : last key.row = middle key.row := by
      rw [frame _ (by cases key <;> exact Key.noConfusion),
        landed.rows _ (by cases key <;> rfl)]
    rw [segmentsAt_congr same] at member
    rcases forM_segments (carried start advanced) ran member with ⟨held, unput⟩ | brought
    · have first : start key.row = before key.row :=
        advanceEpoch_frame advanced (by cases key <;> exact Key.noConfusion)
      rw [segmentsAt_congr first] at held
      exact .inl ⟨held, unput⟩
    · exact .inr brought

theorem Applied.marks {before after : Store} {key : SegmentKey}
    (applied : Applied gtid record before after) (marked : Marked before key) : Marked after key := by
  cases key with
  | object bucket name vk => exact applied.markers bucket name marked
  | part uploadId partNo => trivial

theorem Applied.covers {after : Standby} {before : Store}
    (applied : Applied gtid record before after.store.rows)
    (sent : record.dataRefs = dataRefsOf record.ops) (idle : after.workers gtid = none) {op : Op}
    (listed : op ∈ record.ops) {key : SegmentKey} {refs : List DataRef} {place : DataRef}
    (target : opTarget op = some (key, refs)) (member : place ∈ refs) :
    after.CoveredBy gtid key place ∧ Marked after.store.rows key := by
  have inside : place ∈ record.dataRefs := by
    rw [sent]
    apply mem_dataRefsOf.mpr ⟨op, listed, ?_⟩
    rw [opTarget_refs target]
    exact member
  have some_refs : record.dataRefs ≠ [] := List.ne_nil_of_mem inside
  refine ⟨⟨⟨_, applied.queued some_refs, inside⟩, ⟨record, applied.logged, (key, refs), ?_, rfl, member⟩, ?_⟩, ?_⟩
  · exact List.mem_filterMap.mpr ⟨op, listed, target⟩
  · intro worker working
    rw [idle] at working
    cases working
  · cases key with
    | object bucket name vk =>
      exact applied.marked some_refs op listed bucket name (opTarget_marks target)
    | part uploadId partNo => trivial

theorem Inv.apply (inv : Inv standby) (sent : record.dataRefs = dataRefsOf record.ops)
    (apart : TargetsApart record.ops)
    (carried : ∀ start, advanceEpoch record.epoch standby.store.rows = .ok ((), start) →
      Carried (record.rawSeq.getD gtid.seq) start record.ops) :
    Inv (standby.apply config fate gtid record) := by
  rcases lands_cases config standby.store fate gtid record with
    ⟨idle, same⟩ | ⟨landed, _, after, run, frame⟩
  · have unchanged : standby.apply config fate gtid record = standby := by
      simp only [Standby.apply, idle, same, Bool.false_eq_true, false_and, if_false]
    rw [unchanged]
    exact inv
  · have applied : Applied gtid record standby.store.rows
        (standby.apply config fate gtid record).store.rows := applied_of_tx carried run frame
    have older : ∀ g, g.le standby.cursor = true → g ≠ gtid := by
      rintro g before rfl
      rw [cursor, applied.ahead] at before
      cases before
    have idle : standby.workers gtid = none := by
      cases working : standby.workers gtid with
      | none => rfl
      | some worker => exact absurd rfl (older gtid (inv.working gtid worker working))
    have moved : (standby.apply config fate gtid record).cursor = gtid := by
      rw [cursor, applied.cursor]
      rfl
    refine ⟨?_, ?_, ?_, ?_, ?_⟩
    · intro key s member
      rcases applied.segments key s member with ⟨held, unput⟩ | ⟨op, listed, refs, target, brought⟩
      · rcases inv.segments key s held with local_ | ⟨⟨g, covered⟩, marked⟩
        · left
          have kept : ¬ record.ops.any (fun op => op.puts = some key) = true := by
            rw [List.any_eq_true]
            rintro ⟨op, listed, put⟩
            exact unput op listed (of_decide_eq_true put)
          simp only [Standby.apply]
          rw [if_neg fun both => kept both.2]
          exact local_
        · right
          obtain ⟨refs, queued, inside⟩ := covered.queued
          have other := older g (inv.queued g refs queued)
          refine ⟨⟨g, ⟨refs, ?_, inside⟩, ?_, covered.awaited⟩, applied.marks marked⟩
          · rw [applied.pending g (.inl other)]
            exact queued
          · rw [applied.binlog g other]
            exact covered.brought
      · right
        obtain ⟨covered, marked⟩ := applied.covers sent idle listed target brought
        exact ⟨⟨gtid, covered⟩, marked⟩
    · intro g refs queued
      rw [moved]
      by_cases same : g = gtid
      · rw [same]
        exact Gtid.le_iff.mpr le_rfl
      · rw [applied.pending g (.inl same)] at queued
        exact le_of_ahead (inv.queued g refs queued) applied.ahead
    · intro g found logged
      by_cases same : g = gtid
      · rw [same, applied.logged] at logged
        cases logged
        exact apart
      · rw [applied.binlog g same] at logged
        exact inv.apart g found logged
    · intro g worker working
      rw [moved]
      exact le_of_ahead (inv.working g worker working) applied.ahead
    · intro g worker working
      rw [applied.binlog g (older g (inv.working g worker working))]
      exact inv.assigned g worker working

end Record

section Task

variable {standby : Standby} {gtid : Gtid}

theorem Inv.setWorker (inv : Inv standby) {next : Option Worker}
    (awaited : ∀ worker, next = some worker → ∀ key s, s ∈ segmentsAt standby.store.rows key →
      standby.CoveredBy gtid key s.key → worker.Open key s.key)
    (assigned : ∀ worker, next = some worker → gtid.le standby.cursor = true ∧
      ∃ record, standby.store.rows (.binlog gtid) = some record ∧
        ∀ target ∈ worker.remaining, target ∈ targetsOf record.ops) :
    Inv { standby with workers := Function.update standby.workers gtid next } := by
  have split : ∀ g worker, Function.update standby.workers gtid next g = some worker →
      g = gtid ∧ next = some worker ∨ standby.workers g = some worker := by
    intro g worker working
    by_cases same : g = gtid
    · rw [same, Function.update_self] at working
      exact .inl ⟨same, working⟩
    · rw [Function.update_of_ne same] at working
      exact .inr working
  refine ⟨?_, inv.queued, inv.apart, ?_, ?_⟩
  · intro key s member
    rcases inv.segments key s member with local_ | ⟨⟨g, covered⟩, marked⟩
    · exact .inl local_
    · refine .inr ⟨⟨g, covered.queued, covered.brought, ?_⟩, marked⟩
      intro worker working
      rcases split g worker working with ⟨rfl, started⟩ | busy
      · exact awaited worker started key s member covered
      · exact covered.awaited worker busy
  · intro g worker working
    rcases split g worker working with ⟨rfl, started⟩ | busy
    · exact (assigned worker started).1
    · exact inv.working g worker busy
  · intro g worker working
    rcases split g worker working with ⟨rfl, started⟩ | busy
    · exact (assigned worker started).2
    · exact inv.assigned g worker busy

theorem Inv.abandon (inv : Inv standby) : Inv (standby.abandon gtid) := by
  apply inv.setWorker
  · intro worker impossible
    cases impossible
  · intro worker impossible
    cases impossible

theorem Inv.start (inv : Inv standby) : Inv (standby.start gtid) := by
  unfold Standby.start
  split
  · next record refs idle logged queued =>
      split
      · apply inv.setWorker
        · intro worker started key s _ covered
          cases started
          obtain ⟨found, held, brought⟩ := covered.brought
          rw [logged] at held
          cases held
          refine ⟨brought, ?_⟩
          intro subs alloc staged
          cases staged
        · intro worker started
          cases started
          exact ⟨inv.queued gtid refs queued, record, logged, fun target listed => listed⟩
      · exact inv
  · exact inv

theorem Inv.look (inv : Inv standby) {locals : DataRef → List Segment}
    {alloc : Option AllocDraft} : Inv (standby.look gtid locals alloc) := by
  unfold Standby.look
  split
  · next key refs rest all working =>
      apply inv.setWorker
      · intro worker looked other s member covered
        cases looked
        refine ⟨(covered.awaited _ working).1, ?_⟩
        intro subs alloc staged target later remaining here inside
        cases staged
        cases remaining
        refine ⟨⟨s.key, locals s.key, gtid.epoch⟩, ?_, rfl⟩
        refine List.mem_map.mpr ⟨s.key, List.mem_filter.mpr ⟨inside, ?_⟩, rfl⟩
        rw [List.any_eq_true]
        dsimp only at here
        rw [here]
        exact ⟨s, member, decide_eq_true rfl⟩
      · intro worker looked
        cases looked
        have assigned := inv.assigned gtid _ working
        exact ⟨inv.working gtid _ working, assigned⟩
  · exact inv

theorem localize_cases (standby : Standby) (fate : LocalizeFate) (items : List ReplLocalizeItem)
    (consumed : List (Gtid × DataRef)) (alloc : Option AllocDraft) (allocSeq : Nat)
    (clearMarkers : List (String × String)) :
    (∃ e, standby.localize fate items consumed alloc allocSeq clearMarkers = (.error e, standby)) ∨
      ∃ outcome store,
        standby.localize fate items consumed alloc allocSeq clearMarkers =
          (outcome, { standby with
            store := store
            written := fun key => standby.written key ++ localsOf items key }) ∧
        Localized items consumed clearMarkers standby.store.rows store.rows ∧
        ∀ message, outcome ≠ .error (.objectChanged message) := by
  cases ran : replLocalizeTx items consumed alloc allocSeq clearMarkers standby.store.rows with
  | error e =>
    left
    refine ⟨e, ?_⟩
    simp only [localize, MetaStore.replLocalizeSegments, localizes, ran, Bool.false_eq_true,
      if_false]
  | ok result =>
    obtain ⟨count, rows⟩ := result
    cases fate with
    | busy message =>
      left
      refine ⟨.objectChanged s!"repl localize txn conflict: {message}", ?_⟩
      simp only [localize, MetaStore.replLocalizeSegments, localizes, ran, Bool.false_eq_true,
        if_false]
    | failed message =>
      left
      refine ⟨.metaError message, ?_⟩
      simp only [localize, MetaStore.replLocalizeSegments, localizes, ran, Bool.false_eq_true,
        if_false]
    | unflushed message =>
      right
      refine ⟨.error (.metaError message), { standby.store with rows := rows }, ?_,
        replLocalizeTx_localized ran, ?_⟩
      · simp only [localize, MetaStore.replLocalizeSegments, localizes, ran, if_true]
      · intro text impossible
        cases impossible
    | kept =>
      right
      refine ⟨.ok count, { standby.store with rows := rows }, ?_,
        replLocalizeTx_localized ran, ?_⟩
      · simp only [localize, MetaStore.replLocalizeSegments, localizes, ran, if_true]
      · intro text impossible
        cases impossible

theorem mem_localsOf {items : List ReplLocalizeItem} {key : SegmentKey} {s : Segment}
    {item : ReplLocalizeItem} (listed : item ∈ items) (here : item.key = key) {sub : Substitution}
    (line : sub ∈ item.subs) (member : s ∈ sub.segments) : s ∈ localsOf items key := by
  refine List.mem_flatMap.mpr ⟨item, List.mem_filter.mpr ⟨listed, decide_eq_true here⟩, ?_⟩
  exact List.mem_flatMap.mpr ⟨sub, line, member⟩

/-- A transaction that goes through: what it neither exchanges nor leaves as local keeps
its entry, its marker and its task. -/
theorem Inv.localized (inv : Inv standby) {after : Standby} {items : List ReplLocalizeItem}
    {consumed : List (Gtid × DataRef)} {clearMarkers : List (String × String)}
    (localised : Localized items consumed clearMarkers standby.store.rows after.store.rows)
    (written : ∀ key, after.written key = standby.written key ++ localsOf items key)
    (keep : ∀ key s, s ∈ segmentsAt standby.store.rows key → s ∉ standby.written key →
      (∀ item ∈ items, item.key = key → ∀ sub ∈ item.subs, sub.place ≠ s.key) →
      ∀ g, standby.CoveredBy g key s.key →
        (g, s.key) ∉ consumed ∧ (∀ worker, after.workers g = some worker → worker.Open key s.key) ∧
          ∀ bucket name vk, key = .object bucket name vk → (bucket, name) ∉ clearMarkers)
    (working : ∀ g worker, after.workers g = some worker → ∃ old, standby.workers g = some old ∧
      ∀ target ∈ worker.remaining, target ∈ old.remaining) : Inv after := by
  have moved : after.cursor = standby.cursor := by
    rw [cursor, cursor, localised.cursor]
  refine ⟨?_, ?_, ?_, ?_, ?_⟩
  · intro key s member
    rw [written, List.mem_append]
    rcases localised.segments key s member with ⟨held, unnamed⟩ | ⟨item, listed, here, sub, line, inside⟩
    · by_cases known : s ∈ standby.written key
      · exact .inl (.inl known)
      · rcases inv.segments key s held with local_ | ⟨⟨g, covered⟩, marked⟩
        · exact .inl (.inl local_)
        · obtain ⟨unconsumed, awaited, unmarked⟩ := keep key s held known unnamed g covered
          obtain ⟨refs, queued, inside⟩ := covered.queued
          obtain ⟨left, still, remains⟩ := localised.kept g refs s.key queued inside unconsumed
          refine .inr ⟨⟨g, ⟨left, still, remains⟩, ?_, awaited⟩, ?_⟩
          · rw [localised.binlog]
            exact covered.brought
          · cases key with
            | object bucket name vk =>
              simp only [Marked, localised.markers bucket name (unmarked bucket name vk rfl)]
              exact marked
            | part uploadId partNo => trivial
    · exact .inl (.inr (mem_localsOf listed here line inside))
  · intro g refs queued
    rw [moved]
    cases before : standby.store.rows (.replPending g) with
    | none =>
      rw [localised.gone g before] at queued
      cases queued
    | some old => exact inv.queued g old before
  · intro g record logged
    rw [localised.binlog] at logged
    exact inv.apart g record logged
  · intro g worker busy
    rw [moved]
    obtain ⟨old, worked, _⟩ := working g worker busy
    exact inv.working g old worked
  · intro g worker busy
    obtain ⟨old, worked, subset⟩ := working g worker busy
    obtain ⟨record, logged, listed⟩ := inv.assigned g old worked
    refine ⟨record, ?_, fun target member => listed target (subset target member)⟩
    rw [localised.binlog]
    exact logged

theorem mem_consumedOf {refs : List DataRef} {subs : List Substitution} {g : Gtid}
    {place : DataRef} (member : (g, place) ∈ consumedOf gtid refs subs) :
    g = gtid ∧ place ∈ refs := by
  obtain ⟨other, inside, same⟩ := List.mem_map.mp member
  cases same
  rcases List.mem_append.mp inside with found | dead
  · exact ⟨rfl, List.mem_of_mem_filter found⟩
  · exact ⟨rfl, List.mem_of_mem_filter dead⟩

theorem Inv.retried (inv : Inv standby) {worker : Worker}
    (working : standby.workers gtid = some worker) {after : Option Worker}
    (outcome : after = none ∨ after = some ⟨worker.remaining, worker.refs, none⟩) :
    Inv { standby with workers := Function.update standby.workers gtid after } := by
  apply inv.setWorker
  · intro started named key s member covered
    rcases outcome with rfl | rfl
    · cases named
    · cases named
      refine ⟨(covered.awaited worker working).1, ?_⟩
      intro subs alloc staged
      cases staged
  · intro started named
    rcases outcome with rfl | rfl
    · cases named
    · cases named
      exact ⟨inv.working gtid worker working, inv.assigned gtid worker working⟩

/-- When the first target of a task goes through, what the task has still to exchange
is in the targets behind it, and none of it is consumed. -/
theorem Inv.open_behind (inv : Inv standby) {key other : SegmentKey} {refs : List DataRef}
    {rest : List (SegmentKey × List DataRef)} {all : List DataRef} {subs : List Substitution}
    {alloc : Option AllocDraft}
    (working : standby.workers gtid = some ⟨(key, refs) :: rest, all, some (subs, alloc)⟩)
    {place : DataRef} (covered : standby.CoveredBy gtid other place)
    (unnamed : other = key → ∀ sub ∈ subs, sub.place ≠ place) :
    place ∉ refs ∧ ∃ target ∈ rest, target.1 = other ∧ place ∈ target.2 := by
  obtain ⟨⟨target, listed, here, inside⟩, found⟩ := covered.awaited _ working
  have apart : place ∉ refs := by
    intro consumed
    by_cases same : key = other
    · obtain ⟨sub, line, named⟩ := found subs alloc rfl (key, refs) rest rfl same consumed
      exact unnamed same.symm sub line named
    · obtain ⟨record, logged, assigned⟩ := inv.assigned gtid _ working
      exact inv.apart gtid record logged (key, refs) (assigned _ List.mem_cons_self) target
        (assigned target listed) (fun equal => same (equal.trans here)) place consumed inside
  refine ⟨apart, target, ?_, here, inside⟩
  rcases List.mem_cons.mp listed with rfl | later
  · exact absurd inside apart
  · exact later

theorem Inv.land (inv : Inv standby) {fate : LocalizeFate} : Inv (standby.land gtid fate) := by
  unfold Standby.land
  split
  · next key refs rest all subs alloc working =>
      rcases localize_cases standby fate (if subs = [] then [] else [⟨key, subs⟩])
        (consumedOf gtid refs subs) (if subs = [] then none else alloc) gtid.seq [] with
        ⟨e, failed⟩ | ⟨outcome, store, landed, localised, noRetry⟩
      · rw [failed]
        apply inv.retried working
        cases e with
        | objectChanged message =>
          dsimp only [workerAfter]
          split
          · exact .inl rfl
          · exact .inr rfl
        | _ => exact .inl rfl
      · rw [landed]
        have after : workerAfter ⟨(key, refs) :: rest, all, none⟩ subs outcome = none ∨
            workerAfter ⟨(key, refs) :: rest, all, none⟩ subs outcome = some ⟨rest, all, none⟩ := by
          cases outcome with
          | ok count => exact .inr rfl
          | error e =>
            cases e with
            | objectChanged message => exact absurd rfl (noRetry message)
            | _ => exact .inl rfl
        apply inv.localized localised (fun _ => rfl)
        · intro other s member unwritten unnamed g covered
          by_cases same : g = gtid
          · subst same
            obtain ⟨unconsumed, behind⟩ := inv.open_behind working covered (by
              rintro rfl sub line
              have nonempty : subs ≠ [] := List.ne_nil_of_mem line
              rw [if_neg nonempty] at unnamed
              exact unnamed _ List.mem_cons_self rfl sub line)
            refine ⟨fun consumed => unconsumed (mem_consumedOf consumed).2, ?_, ?_⟩
            · intro worker busy
              dsimp only at busy
              rw [Function.update_self] at busy
              rcases after with gone | next
              · rw [gone] at busy
                cases busy
              · rw [next] at busy
                cases busy
                refine ⟨behind, ?_⟩
                intro subs alloc staged
                cases staged
            · intros
              exact List.not_mem_nil
          · refine ⟨fun consumed => same (mem_consumedOf consumed).1, ?_, ?_⟩
            · intro worker busy
              dsimp only at busy
              rw [Function.update_of_ne same] at busy
              exact covered.awaited worker busy
            · intros
              exact List.not_mem_nil
        · intro g worker busy
          dsimp only at busy
          by_cases same : g = gtid
          · subst same
            rw [Function.update_self] at busy
            rcases after with gone | next
            · rw [gone] at busy
              cases busy
            · rw [next] at busy
              cases busy
              exact ⟨_, working, fun target listed => List.mem_cons_of_mem _ listed⟩
          · rw [Function.update_of_ne same] at busy
            exact ⟨worker, busy, fun target listed => listed⟩
  · exact inv

theorem Inv.finish (inv : Inv standby) {fate : LocalizeFate} :
    Inv (standby.finish gtid fate) := by
  unfold Standby.finish
  split
  · next refs staged working =>
      rcases localize_cases standby fate [] (refs.map fun place => (gtid, place)) none gtid.seq [] with
        ⟨e, failed⟩ | ⟨outcome, store, landed, localised, _⟩
      · rw [failed]
        exact inv.abandon
      · rw [landed]
        apply inv.localized localised (fun _ => rfl)
        · intro key s member unwritten unnamed g covered
          have other : g ≠ gtid := by
            rintro rfl
            obtain ⟨⟨target, listed, _⟩, _⟩ := covered.awaited _ working
            cases listed
          refine ⟨?_, ?_, fun _ _ _ _ => List.not_mem_nil⟩
          · intro consumed
            obtain ⟨place, _, same⟩ := List.mem_map.mp consumed
            cases same
            exact other rfl
          · intro worker busy
            dsimp only at busy
            rw [Function.update_of_ne other] at busy
            exact covered.awaited worker busy
        · intro g worker busy
          dsimp only at busy
          by_cases same : g = gtid
          · rw [same, Function.update_self] at busy
            cases busy
          · rw [Function.update_of_ne same] at busy
            exact ⟨worker, busy, fun target listed => listed⟩
  · exact inv

end Task

section Fetch

variable {standby : Standby}

/-- The fetch has a local segment for everything in the object that is not local yet. -/
def Ready (standby : Standby) (fetch : ReadFetch) : Prop :=
  ∀ vk s, s ∈ segmentsAt standby.store.rows (.object fetch.bucket fetch.key vk) →
    s ∈ standby.written (.object fetch.bucket fetch.key vk) ∨
      ∃ item ∈ fetch.items, item.key = .object fetch.bucket fetch.key vk ∧
        ∃ sub ∈ item.subs, sub.place = s.key

theorem Inv.setFetches (inv : Inv standby) (fetches : Nat → Option ReadFetch) :
    Inv { standby with fetches := fetches } := by
  refine ⟨?_, inv.queued, inv.apart, inv.working, inv.assigned⟩
  intro key s member
  rcases inv.segments key s member with local_ | ⟨⟨g, covered⟩, marked⟩
  · exact .inl local_
  · exact .inr ⟨⟨g, covered.queued, covered.brought, covered.awaited⟩, marked⟩

theorem Inv.landFetch (inv : Inv standby) {task : Nat} {fate : LocalizeFate}
    (ready : ∀ fetch, standby.fetches task = some fetch → standby.Ready fetch) :
    Inv (standby.landFetch task fate) := by
  unfold Standby.landFetch
  split
  · exact inv
  · next fetch found =>
      rcases localize_cases standby fate fetch.items [] fetch.alloc fetch.allocSeq
        [(fetch.bucket, fetch.key)] with ⟨e, failed⟩ | ⟨outcome, store, landed, localised, _⟩
      · rw [failed]
        exact inv.setFetches _
      · rw [landed]
        apply inv.localized localised (fun _ => rfl)
        · intro key s member unwritten unnamed g covered
          refine ⟨List.not_mem_nil, covered.awaited, ?_⟩
          rintro bucket name vk rfl marked
          cases List.mem_singleton.mp marked
          rcases ready fetch found vk s member with local_ | ⟨item, listed, here, sub, line, same⟩
          · exact unwritten local_
          · exact unnamed item listed here sub line same
        · intro g worker busy
          exact ⟨worker, busy, fun target listed => listed⟩

end Fetch

end Standby

/-- The references of a record are those of its operations, as every sender makes it. -/
def BackfillEvent.Sent : BackfillEvent → Prop
  | .apply _ _ record => record.dataRefs = dataRefsOf record.ops
  | _ => True

/-- A record brings a place to one key only, and rewrites a value with segments that the
row holds; a read has fetched all that the object holds when its transaction runs. -/
def BackfillEvent.Safe (standby : Standby) : BackfillEvent → Prop
  | .apply _ gtid record => TargetsApart record.ops ∧
      ∀ start, advanceEpoch record.epoch standby.store.rows = .ok ((), start) →
        Carried (record.rawSeq.getD gtid.seq) start record.ops
  | .landFetch task _ => ∀ fetch, standby.fetches task = some fetch → standby.Ready fetch
  | _ => True

namespace Standby

def SafeRun (config : MetaConfig) : Standby → List BackfillEvent → Prop
  | _, [] => True
  | standby, event :: rest => event.Safe standby ∧ SafeRun config (standby.step config event) rest

theorem Inv.step {config : MetaConfig} {standby : Standby} (inv : Inv standby)
    {event : BackfillEvent} (sent : event.Sent) (safe : event.Safe standby) :
    Inv (standby.step config event) := by
  cases event with
  | apply fate gtid record => exact inv.apply sent safe.1 safe.2
  | start gtid => exact inv.start
  | look gtid locals alloc => exact inv.look
  | land gtid fate => exact inv.land
  | finish gtid fate => exact inv.finish
  | abandon gtid => exact inv.abandon
  | lookFetch task bucket name vks gtids locals alloc => exact inv.setFetches _
  | landFetch task fate => exact inv.landFetch safe
  | abandonFetch task => exact inv.setFetches _

theorem Inv.run {config : MetaConfig} {standby : Standby} (inv : Inv standby)
    {events : List BackfillEvent} (sent : ∀ event ∈ events, event.Sent)
    (safe : SafeRun config standby events) : Inv (standby.run config events) := by
  induction events generalizing standby with
  | nil => exact inv
  | cons event rest ih =>
    exact ih (inv.step (sent event List.mem_cons_self) safe.1)
      (fun other listed => sent other (List.mem_cons_of_mem _ listed)) safe.2

/-- In a safe run of a new replica, every segment of every record was written by a
localisation or is queued with its object marked. -/
theorem segments_local_or_pending (config : MetaConfig) (events : List BackfillEvent)
    (sent : ∀ event ∈ events, event.Sent) (safe : SafeRun config empty events) (key : SegmentKey)
    (s : Segment) (member : s ∈ segmentsAt (empty.run config events).store.rows key) :
    s ∈ (empty.run config events).written key ∨
      (∃ g refs, (empty.run config events).store.rows (.replPending g) = some refs ∧
        s.key ∈ refs) ∧
      Marked (empty.run config events).store.rows key := by
  rcases (Inv.empty.run sent safe).segments key s member with local_ | ⟨⟨g, covered⟩, marked⟩
  · exact .inl local_
  · obtain ⟨refs, queued, inside⟩ := covered.queued
    exact .inr ⟨⟨g, refs, queued, inside⟩, marked⟩

def upstreamSegment : Segment := ⟨7, 0, 4096, [5]⟩

def movedSegment : Segment := ⟨8, 0, 4096, [5]⟩

def localSegment : Segment := ⟨3, 0, 4096, [5]⟩

def storedObject : ObjectMeta :=
  { size := 4096, mtime := 0, extents := [upstreamSegment], inline := none, parts := [],
    versionId := none, isDeleteMarker := false, sse := none, compressed := none,
    storageClass := none, restoreState := none, tags := [], retention := none, legalHold := false }

def backfillConfig : MetaConfig := { replBinlog := true, eventQueueMax := 100 }

def objectFetched : List BackfillEvent :=
  [.apply (.kept true) ⟨1, 1⟩
     (ReplRecord.new 1 [.bucketPut "photos" .created none, .objectPut "photos" "a" storedObject]),
   .start ⟨1, 1⟩, .look ⟨1, 1⟩ (fun _ => [localSegment]) none, .land ⟨1, 1⟩ .kept,
   .finish ⟨1, 1⟩ .kept]

def objectMigrated : List BackfillEvent :=
  objectFetched ++ [.apply (.kept true) ⟨1, 2⟩
    (ReplRecord.new 1 [.objectMigrate "photos" "a" none [upstreamSegment] [movedSegment]])]

def objectRewritten : List BackfillEvent :=
  objectFetched ++ [.lookFetch 0 "photos" "a" [none] [] (fun _ => []) none, .landFetch 0 .kept,
    .apply (.kept true) ⟨1, 2⟩
      (ReplRecord.new 1 [.objectMetaRewrite "photos" "a" none storedObject])]

/-- The compaction leaves the local segment in place. -/
theorem segments_local_or_pending_migrated :
    segmentsAt (empty.run backfillConfig objectMigrated).store.rows (.object "photos" "a" none) =
        [localSegment] ∧
      localSegment ∈ (empty.run backfillConfig objectMigrated).written
        (.object "photos" "a" none) := by
  have held : segmentsAt (empty.run backfillConfig objectMigrated).store.rows
      (.object "photos" "a" none) = [localSegment] := by
    decide +kernel
  have sent : ∀ event ∈ objectMigrated, event.Sent := by
    intro event listed
    simp only [objectMigrated, objectFetched, List.cons_append, List.nil_append, List.mem_cons,
      List.not_mem_nil, or_false] at listed
    rcases listed with rfl | rfl | rfl | rfl | rfl | rfl <;> first | rfl | trivial
  have safe : SafeRun backfillConfig empty objectMigrated := by
    refine ⟨⟨?_, fun _ _ => ⟨trivial, fun _ _ => ⟨trivial, fun _ _ => trivial⟩⟩⟩, trivial, trivial,
      trivial, trivial, ⟨?_, fun _ _ => ⟨trivial, fun _ _ => trivial⟩⟩, trivial⟩
    all_goals
      intro left first right second other
      cases List.mem_singleton.mp first
      cases List.mem_singleton.mp second
      exact absurd rfl other
  refine ⟨held, ?_⟩
  rcases segments_local_or_pending backfillConfig objectMigrated sent safe
    (.object "photos" "a" none) localSegment (by rw [held]; exact List.mem_cons_self) with
    local_ | _
  · exact local_
  · decide +kernel

/-- The rewritten record names the upstream place again, with no entry in the queue and
no marker. -/
theorem upstream_segment_exposed :
    upstreamSegment ∈ segmentsAt (empty.run backfillConfig objectRewritten).store.rows
        (.object "photos" "a" none) ∧
      (empty.run backfillConfig objectRewritten).store.rows (.replPending ⟨1, 1⟩) = none ∧
      ¬ (upstreamSegment ∈ (empty.run backfillConfig objectRewritten).written
          (.object "photos" "a" none) ∨
        (∃ g refs, (empty.run backfillConfig objectRewritten).store.rows (.replPending g) =
            some refs ∧ upstreamSegment.key ∈ refs) ∧
        Marked (empty.run backfillConfig objectRewritten).store.rows
          (.object "photos" "a" none)) := by
  refine ⟨by decide +kernel, by decide +kernel, ?_⟩
  rintro (local_ | ⟨_, marked⟩)
  · exact absurd local_ (by decide +kernel)
  · refine absurd marked ?_
    unfold Marked
    decide +kernel

end Standby

end FastS3.Meta
