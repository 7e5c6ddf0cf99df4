import FastS3.Batch.Worker

namespace FastS3.Batch

open Data
open FastS3.Core (Vk)

/-! A batch job accounts for its items.

The records, wherever a copy of one is kept, count a beginning of what was executed.  The stored one may
fall behind the worker, and the administrator may have revoked the job.
-/

def Execution.failure (execution : Execution) : Option BatchFailure :=
  execution.error.map fun e =>
    ⟨"item", itemKeyLabel execution.item, String.ofList (e.toList.take 300), execution.now⟩

def lastFailures (executed : List Execution) : List BatchFailure :=
  (executed.filterMap Execution.failure).rtake failureListCap

structure Tallied (executed : List Execution) (job : BatchJob) : Prop where
  within : job.cursor ≤ executed.length
  processed : job.processed = job.cursor
  succeeded : job.succeeded = (executed.take job.cursor).countP fun e => e.error.isNone
  failed : job.failed = (executed.take job.cursor).countP fun e => e.error.isSome

def Listed (executed : List Execution) (job : BatchJob) : Prop :=
  job.failures = lastFailures (executed.take job.cursor)

structure Current (executed : List Execution) (job : BatchJob) : Prop where
  tallied : Tallied executed job
  listed : Listed executed job
  cursor : job.cursor = executed.length

section Records

variable {executed : List Execution} {job : BatchJob}

theorem Tallied.processed_eq (tallied : Tallied executed job) :
    job.processed = job.succeeded + job.failed := by
  have split : (executed.take job.cursor).length = _ :=
    List.length_eq_countP_add_countP fun e : Execution => e.error.isNone
  have others : (executed.take job.cursor).countP (fun e => decide ¬e.error.isNone = true) =
      (executed.take job.cursor).countP fun e => e.error.isSome := by
    congr 1
    funext e
    cases e.error <;> rfl
  rw [others, ← tallied.succeeded, ← tallied.failed, List.length_take,
    Nat.min_eq_left tallied.within] at split
  rw [tallied.processed, split]

theorem Tallied.append (tallied : Tallied executed job) (next : Execution) :
    Tallied (executed ++ [next]) job := by
  have same : (executed ++ [next]).take job.cursor = executed.take job.cursor :=
    List.take_append_of_le_length tallied.within
  refine ⟨?_, tallied.processed, ?_, ?_⟩
  · rw [List.length_append]
    exact Nat.le_add_right_of_le tallied.within
  · rw [same]
    exact tallied.succeeded
  · rw [same]
    exact tallied.failed

theorem Listed.append (listed : Listed executed job) (within : job.cursor ≤ executed.length)
    (next : Execution) : Listed (executed ++ [next]) job := by
  rw [Listed, List.take_append_of_le_length within]
  exact listed

theorem rtake_rtake_append {α : Type} (l others : List α) (n : Nat) :
    (l.rtake n ++ others).rtake n = (l ++ others).rtake n := by
  simp only [List.rtake_eq_reverse_take_reverse, List.reverse_append, List.reverse_reverse,
    List.take_append, List.take_take]
  rw [Nat.min_eq_left (Nat.sub_le n others.reverse.length)]

theorem lastFailures_append (next : Execution) :
    lastFailures (executed ++ [next]) =
      (lastFailures executed ++ next.failure.toList).rtake failureListCap := by
  have single : [next].filterMap Execution.failure = next.failure.toList := by
    cases failure : next.failure <;> simp [failure]
  rw [lastFailures, lastFailures, List.filterMap_append, single, rtake_rtake_append]

theorem Current.afterItem (current : Current executed job) (item : BatchItem) (draw : Draw)
    {target : Target} :
    Current (executed ++ [⟨item, draw.current, target, draw.itemError, draw.now⟩])
      (BatchWorld.afterItem job item draw) := by
  have whole : executed.take job.cursor = executed := by
    rw [current.cursor, List.take_length]
  have next (e : Execution) : (executed ++ [e]).take (job.cursor + 1) = executed ++ [e] := by
    rw [current.cursor]
    exact List.take_of_length_le (by rw [List.length_append]; rfl)
  have longer (e : Execution) : job.cursor + 1 = (executed ++ [e]).length := by
    rw [current.cursor, List.length_append, List.length_singleton]
  have processed := current.tallied.processed
  have succeeded := current.tallied.succeeded
  have failed := current.tallied.failed
  have listed := current.listed
  rw [whole] at succeeded failed
  rw [Listed, whole] at listed
  cases error : draw.itemError with
  | none =>
    have after : BatchWorld.afterItem job item draw = { job with
        succeeded := job.succeeded + 1
        processed := job.processed + 1
        cursor := job.cursor + 1 } := by
      rw [BatchWorld.afterItem, error]
    rw [after]
    refine ⟨⟨Nat.le_of_eq (longer _), ?_, ?_, ?_⟩, ?_, longer _⟩
    · exact congrArg (· + 1) processed
    · simp [next, List.countP_append, succeeded]
    · simp [next, List.countP_append, failed]
    · rw [Listed, next, lastFailures_append]
      have kept : (lastFailures executed ++ []).rtake failureListCap = lastFailures executed := by
        rw [lastFailures, rtake_rtake_append, List.append_nil]
      exact listed.trans kept.symm
  | some e =>
    have after : BatchWorld.afterItem job item draw = { job with
        failed := job.failed + 1
        failures := List.rtake (job.failures ++
          [⟨"item", itemKeyLabel item, String.ofList (e.toList.take 300), draw.now⟩]) failureListCap
        updatedAt := draw.now
        processed := job.processed + 1
        cursor := job.cursor + 1 } := by
      rw [BatchWorld.afterItem, error]
      rfl
    rw [after]
    refine ⟨⟨Nat.le_of_eq (longer _), ?_, ?_, ?_⟩, ?_, longer _⟩
    · exact congrArg (· + 1) processed
    · simp [next, List.countP_append, succeeded]
    · simp [next, List.countP_append, failed]
    · rw [Listed, next, lastFailures_append, ← listed]
      rfl

end Records

namespace BatchWorld

variable (manifest : Except String (List BatchItem)) (w : BatchWorld)

/-- The job accounts for its items: the stored counters agree, and go forward while it runs; the items are
executed in the order of the manifest, each against what its line names; a job that was stored as cancelled
or deleted is not stored as running or completed; and the rows of a report are the items executed. -/
structure Truthful : Prop where
  counts : ∀ job, w.stored = some job →
    job.processed = job.succeeded + job.failed ∧ job.processed = job.cursor
  forward : ∀ job, w.stored = some job → job.state = .running → w.reached ≤ job.cursor
  lines : w.executed.map Execution.item = (items manifest).take w.executed.length
  targets : ∀ e ∈ w.executed, e.target = e.item.named e.current
  revoked : w.revoked = true → ∀ job, w.stored = some job →
    job.state ≠ .running ∧ job.state ≠ .completed
  reports : ∀ report ∈ w.reports, (report.rows.map fun row => (row.item, row.failed)) =
    report.executed.map fun e => (e.item, e.error.isSome)

/-- The record counts all that was executed, and an item failed exactly if one of the last hundred failures
has its label. -/
def Complete (job : BatchJob) : Prop :=
  job.cursor = w.executed.length ∧ ∀ e ∈ w.executed,
    (e.error.isSome = true ↔ itemKeyLabel e.item ∈ (lastFailures w.executed).map BatchFailure.key)

/-- No cancellation and no deletion comes between a look of the worker at the record and the storing of its
copy as running or completed; the worker copies no version but the current one, and reports from a complete
record. -/
def Careful : BatchStep → Prop
  | .work draw =>
    match w.worker with
    | .listed job => (materialize manifest draw).isOk → job.state = .submitted → w.unseen = false
    | .admitted job _ => ∀ item, (items manifest)[job.cursor]? = some item →
        (∃ bucket namePrefix, job.operation = .copy bucket namePrefix) →
          ∀ version, item.vk = some version → draw.current = some version
    | .looped job => exhausted manifest job ∨ job.state = .cancelled → draw.reportError = none →
        w.Complete job
    | .reported job => job.state = .running ∨ job.state = .completed → w.unseen = false
    | _ => True
  | _ => True

def WorkerKnows (executed : List Execution) : WorkerPhase → Prop
  | .idle => True
  | .listed job => Current executed job ∧ job.state.open
  | .looping job _ => Current executed job ∧ job.state = .running
  | .admitted job _ => Current executed job ∧ job.state = .running
  | .looped job => Tallied executed job ∧ Listed executed job ∧
      (job.state = .running ∧ job.cursor = executed.length ∨ job.state = .cancelled)
  | .reported job => Tallied executed job ∧
      (job.state = .running ∧ Current executed job ∨ job.state = .completed ∨ job.state = .cancelled)

/-- Every copy of the record counts a beginning of what was executed, and the stored one of an open job
without a worker all of it. -/
structure Consistent : Prop where
  within : w.executed.length ≤ (items manifest).length
  reached : w.reached ≤ w.executed.length
  stored : ∀ job, w.stored = some job → Tallied w.executed job
  listed : ∀ job, w.stored = some job → w.worker ≠ .idle ∨ job.state.open = true →
    Listed w.executed job
  waiting : ∀ job, w.stored = some job → w.worker = .idle → job.state.open = true →
    job.cursor = w.executed.length
  cancelling : ∀ handler job, w.cancelling handler = some job →
    Tallied w.executed job ∧ Listed w.executed job
  worker : WorkerKnows w.executed w.worker

def Stopped : WorkerPhase → Prop
  | .idle => True
  | .looped job => job.state = .cancelled
  | .reported job => job.state = .cancelled
  | _ => False

/-- A revoked job is not stored as open, and a worker that has looked at the record since has stopped. -/
structure Heeded : Prop where
  closed : w.revoked = true → ∀ job, w.stored = some job → job.state.open = false
  cancelled : w.revoked = true → w.worker ≠ .idle → ∀ job, w.stored = some job → job.state = .cancelled
  noticed : w.revoked = true → w.unseen = false → Stopped w.worker
  revoked : w.unseen = true → w.revoked = true

end BatchWorld

section Steps

open BatchWorld

variable {manifest : Except String (List BatchItem)} {batch : Nat} {w : BatchWorld} {job : BatchJob}

inductive WorkEffect (manifest : Except String (List BatchItem)) (w : BatchWorld) (draw : Draw) :
    BatchWorld → Prop where
  | rest (idle : w.worker = .idle) : WorkEffect manifest w draw w
  | list {job : BatchJob} (idle : w.worker = .idle) (stored : w.stored = some job)
      (todo : job.state.open = true) :
      WorkEffect manifest w draw { w with worker := .listed job, unseen := false }
  | unread {job : BatchJob} (phase : w.worker = .listed job)
      (fails : (materialize manifest draw).isOk = false) (problem : String) :
      WorkEffect manifest w draw
        { w.put { job with state := .failed, error := some problem } with worker := .idle }
  | start {job : BatchJob} (phase : w.worker = .listed job)
      (reads : (materialize manifest draw).isOk = true) (new : job.state = .submitted) (total left : Nat) :
      WorkEffect manifest w draw
        { w.put { job with total := total, state := .running, updatedAt := draw.now } with
          worker := .looping { job with
            total := total, state := .running, updatedAt := draw.now
            cursor := min job.cursor (items manifest).length } left }
  | resume {job : BatchJob} (phase : w.worker = .listed job)
      (reads : (materialize manifest draw).isOk = true) (old : job.state ≠ .submitted) (total left : Nat) :
      WorkEffect manifest w draw
        { w with worker := .looping { job with
            total := total
            cursor := min job.cursor (items manifest).length } left }
  | leave {job : BatchJob} {left : Nat} (phase : w.worker = .looping job left) :
      WorkEffect manifest w draw { w with worker := .looped job }
  | gone {job : BatchJob} {left : Nat} (phase : w.worker = .looping job left) (stored : w.stored = none) :
      WorkEffect manifest w draw { w with worker := .idle, unseen := false }
  | cancelled {job latest : BatchJob} {left : Nat} (phase : w.worker = .looping job left)
      (stored : w.stored = some latest) (cancelled : latest.state = .cancelled) :
      WorkEffect manifest w draw { w with worker := .looped latest, unseen := false }
  | letIn {job latest : BatchJob} {left : Nat} (phase : w.worker = .looping job left)
      (stored : w.stored = some latest) (goes : latest.state ≠ .cancelled) :
      WorkEffect manifest w draw { w with worker := .admitted job left, unseen := false }
  | short {job : BatchJob} {left : Nat} (phase : w.worker = .admitted job left)
      (none : (items manifest)[job.cursor]? = none) :
      WorkEffect manifest w draw { w with worker := .looped job }
  | execute {job : BatchJob} {left : Nat} {item : BatchItem} (phase : w.worker = .admitted job left)
      (found : (items manifest)[job.cursor]? = some item) :
      WorkEffect manifest w draw
        { w with
          executed := w.executed ++
            [⟨item, draw.current, item.executed job.operation draw.current, draw.itemError, draw.now⟩]
          worker := .looping (afterItem job item draw) (left - 1) }
  | report {job : BatchJob} (phase : w.worker = .looped job)
      (ends : exhausted manifest job = true ∨ job.state = .cancelled) (success : draw.reportError = none)
      {state : BatchJobState}
      (final : state = .completed ∧ job.state = .running ∨ state = .cancelled ∧ job.state = .cancelled)
      (reportKey text : String) :
      WorkEffect manifest w draw
        { w with
          reports := w.reports ++ [⟨reportKey, text, job.reportRows (items manifest), w.executed⟩]
          worker := .reported { job with state := state, reportKey := some reportKey } }
  | unreported {job : BatchJob} (phase : w.worker = .looped job)
      (ends : exhausted manifest job = true ∨ job.state = .cancelled) {problem : String}
      (failure : draw.reportError = some problem) {state : BatchJobState}
      (final : state = .completed ∧ job.state = .running ∨ state = .cancelled ∧ job.state = .cancelled) :
      WorkEffect manifest w draw
        { w with
          worker := .reported
            ({ job with state := state }.recordFailure "report" "<report>" problem draw.now) }
  | pass {job : BatchJob} (phase : w.worker = .looped job)
      (goes : ¬(exhausted manifest job = true ∨ job.state = .cancelled)) :
      WorkEffect manifest w draw { w with worker := .reported job }
  | store {job : BatchJob} (phase : w.worker = .reported job) :
      WorkEffect manifest w draw { w.put job with worker := .idle }

def Looping (w : BatchWorld) : Prop :=
  ∀ job, w.worker = .looped job → job.state = .running ∨ job.state = .cancelled

theorem work_effect (looping : Looping w) (draw : Draw) :
    WorkEffect manifest w draw (w.work manifest batch draw) := by
  have whole {found : List BatchItem} (reads : materialize manifest draw = .ok found) :
      (materialize manifest draw).isOk = true ∧ items manifest = found := by
    refine ⟨by rw [reads]; rfl, ?_⟩
    rw [materialize] at reads
    split at reads
    · cases reads
    · rw [reads]
      rfl
  have last {job : BatchJob} (phase : w.worker = .looped job)
      (ends : exhausted manifest job = true ∨ job.state = .cancelled) :
      ∃ state, (if exhausted manifest job = true ∧ job.state = .running then
          { job with state := .completed } else job) = { job with state := state } ∧
        (state = .completed ∧ job.state = .running ∨
          state = .cancelled ∧ job.state = .cancelled) := by
    split
    · next both => exact ⟨.completed, rfl, .inl ⟨rfl, both.2⟩⟩
    · next goes =>
        have cancelled : job.state = .cancelled := by
          rcases looping job phase with running | cancelled
          · exact ends.resolve_left fun used => goes ⟨used, running⟩
          · exact cancelled
        exact ⟨job.state, rfl, .inr ⟨cancelled, cancelled⟩⟩
  fun_cases BatchWorld.work manifest batch w draw with
  | case1 idle job stored todo => exact .list idle stored todo
  | case2 idle => exact .rest idle
  | case3 idle => exact .rest idle
  | case4 job phase e reads => exact .unread phase (by rw [reads]; rfl) _
  | case5 job phase found reads _ _ new =>
    obtain ⟨read, rfl⟩ := whole reads
    exact .start phase read new _ _
  | case6 job phase found reads _ _ old =>
    obtain ⟨read, rfl⟩ := whole reads
    exact .resume phase read old _ _
  | case7 job phase => exact .leave phase
  | case8 job left phase _ stored => exact .gone phase stored
  | case9 job left phase _ latest stored cancelled => exact .cancelled phase stored cancelled
  | case10 job left phase _ latest stored goes => exact .letIn phase stored goes
  | case11 job left phase none => exact .short phase none
  | case12 job left phase item found => exact .execute phase found
  | case13 job phase ends ended success report =>
    obtain ⟨state, same, final⟩ := last phase ends
    simp only [report, ended, same]
    exact .report phase ends success final _ _
  | case14 job phase ends ended e failure =>
    obtain ⟨state, same, final⟩ := last phase ends
    simp only [ended, same]
    exact .unreported phase ends failure final
  | case15 job phase goes => exact .pass phase goes
  | case16 job phase => exact .store phase

theorem BatchWorld.Consistent.looping (consistent : Consistent manifest w) : Looping w := by
  intro job phase
  have knows := consistent.worker
  rw [phase] at knows
  exact knows.2.2.imp And.left id

theorem BatchWorld.Consistent.put (consistent : Consistent manifest w) (tallied : Tallied w.executed job)
    (phase : WorkerPhase) (listed : phase ≠ .idle ∨ job.state.open = true → Listed w.executed job)
    (waiting : phase = .idle → job.state.open = true → job.cursor = w.executed.length)
    (knows : WorkerKnows w.executed phase) :
    Consistent manifest { w.put job with worker := phase } := by
  refine ⟨consistent.within, ?_, ?_, ?_, ?_, consistent.cancelling, knows⟩
  · exact Nat.max_le.mpr ⟨consistent.reached, tallied.within⟩
  · intro other same
    cases same
    exact tallied
  · intro other same
    cases same
    exact listed
  · intro other same
    cases same
    exact waiting

theorem BatchWorld.Consistent.goOn (consistent : Consistent manifest w) (busy : w.worker ≠ .idle)
    {phase : WorkerPhase} {unseen : Bool} (knows : WorkerKnows w.executed phase)
    (stays : phase = .idle → w.stored = none) :
    Consistent manifest { w with worker := phase, unseen := unseen } := by
  refine ⟨consistent.within, consistent.reached, consistent.stored, ?_, ?_, consistent.cancelling, knows⟩
  · intro job stored _
    exact consistent.listed job stored (.inl busy)
  · intro job stored idle
    cases (stays idle).symm.trans stored

theorem BatchWorld.Consistent.execute (consistent : Consistent manifest w) (busy : w.worker ≠ .idle)
    {next : Execution} (more : w.executed.length < (items manifest).length) {phase : WorkerPhase}
    (moving : phase ≠ .idle) (knows : WorkerKnows (w.executed ++ [next]) phase) :
    Consistent manifest { w with executed := w.executed ++ [next], worker := phase } := by
  refine ⟨?_, ?_, ?_, ?_, ?_, ?_, knows⟩
  · rw [List.length_append]
    exact more
  · rw [List.length_append]
    exact Nat.le_add_right_of_le consistent.reached
  · intro job stored
    exact (consistent.stored job stored).append next
  · intro job stored _
    exact (consistent.listed job stored (.inl busy)).append (consistent.stored job stored).within next
  · intro job _ idle
    exact absurd idle moving
  · intro handler job held
    obtain ⟨tallied, listed⟩ := consistent.cancelling handler job held
    exact ⟨tallied.append next, listed.append tallied.within next⟩

theorem not_idle {phase : WorkerPhase} (here : w.worker = phase) (moving : phase ≠ .idle) :
    w.worker ≠ .idle := by
  rw [here]
  exact moving

theorem Tallied.alike {executed : List Execution} {other : BatchJob} (tallied : Tallied executed job)
    (cursor : other.cursor = job.cursor) (processed : other.processed = job.processed)
    (succeeded : other.succeeded = job.succeeded) (failed : other.failed = job.failed) :
    Tallied executed other := by
  refine ⟨?_, ?_, ?_, ?_⟩
  · rw [cursor]
    exact tallied.within
  · rw [processed, cursor]
    exact tallied.processed
  · rw [succeeded, cursor]
    exact tallied.succeeded
  · rw [failed, cursor]
    exact tallied.failed

theorem Current.alike {executed : List Execution} {other : BatchJob} (current : Current executed job)
    (cursor : other.cursor = job.cursor) (processed : other.processed = job.processed)
    (succeeded : other.succeeded = job.succeeded) (failed : other.failed = job.failed)
    (failures : other.failures = job.failures) : Current executed other := by
  refine ⟨current.tallied.alike cursor processed succeeded failed, ?_, cursor.trans current.cursor⟩
  rw [Listed, failures, cursor]
  exact current.listed

theorem afterItem_state (job : BatchJob) (item : BatchItem) (draw : Draw) :
    (afterItem job item draw).state = job.state := by
  rw [afterItem]
  cases draw.itemError <;> rfl

theorem work_consistent (consistent : Consistent manifest w) (draw : Draw) :
    Consistent manifest (w.work manifest batch draw) := by
  have knows := consistent.worker
  have effect : WorkEffect manifest w draw (w.work manifest batch draw) :=
    work_effect consistent.looping draw
  generalize w.work manifest batch draw = after at effect ⊢
  cases effect with
  | rest idle => exact consistent
  | @list job idle stored todo =>
    have listed := consistent.listed job stored (.inr todo)
    refine ⟨consistent.within, consistent.reached, consistent.stored, ?_, ?_, consistent.cancelling,
      ⟨consistent.stored job stored, listed, consistent.waiting job stored idle todo⟩, todo⟩
    · intro other same _
      cases stored.symm.trans same
      exact listed
    · intro other _ idle
      cases idle
  | @unread job phase fails problem =>
    rw [phase] at knows
    have tallied : Tallied w.executed { job with state := .failed, error := some problem } :=
      knows.1.tallied.alike rfl rfl rfl rfl
    refine consistent.put tallied .idle ?_ ?_ trivial
    · rintro (moving | opened)
      · exact absurd rfl moving
      · cases opened
    · intro _ opened
      cases opened
  | @start job phase reads new total left =>
    rw [phase] at knows
    have current := knows.1
    have clamped : min job.cursor (items manifest).length = job.cursor := by
      rw [current.cursor, Nat.min_eq_left consistent.within]
    have tallied : Tallied w.executed
        { job with total := total, state := .running, updatedAt := draw.now } :=
      current.tallied.alike rfl rfl rfl rfl
    refine consistent.put tallied (.looping _ left) (fun _ => current.listed) nofun ⟨?_, rfl⟩
    exact current.alike clamped rfl rfl rfl rfl
  | @resume job phase reads old total left =>
    rw [phase] at knows
    obtain ⟨current, todo⟩ := knows
    have clamped : min job.cursor (items manifest).length = job.cursor := by
      rw [current.cursor, Nat.min_eq_left consistent.within]
    have running : job.state = .running := by
      cases state : job.state with
      | submitted => exact absurd state old
      | running => rfl
      | completed | failed | cancelled =>
        rw [state] at todo
        cases todo
    exact consistent.goOn (not_idle phase nofun) ⟨current.alike clamped rfl rfl rfl rfl, running⟩ nofun
  | leave phase =>
    rw [phase] at knows
    exact consistent.goOn (not_idle phase nofun)
      ⟨knows.1.tallied, knows.1.listed, .inl ⟨knows.2, knows.1.cursor⟩⟩ nofun
  | gone phase stored => exact consistent.goOn (not_idle phase nofun) trivial fun _ => stored
  | @cancelled job latest left phase stored cancelled =>
    exact consistent.goOn (not_idle phase nofun) ⟨consistent.stored latest stored,
      consistent.listed latest stored (.inl (not_idle phase nofun)), .inr cancelled⟩ nofun
  | letIn phase stored goes =>
    rw [phase] at knows
    exact consistent.goOn (not_idle phase nofun) knows nofun
  | short phase none =>
    rw [phase] at knows
    exact consistent.goOn (not_idle phase nofun)
      ⟨knows.1.tallied, knows.1.listed, .inl ⟨knows.2, knows.1.cursor⟩⟩ nofun
  | @execute job left item phase found =>
    rw [phase] at knows
    obtain ⟨current, running⟩ := knows
    obtain ⟨more, -⟩ := List.getElem?_eq_some_iff.mp found
    rw [current.cursor] at more
    refine consistent.execute (not_idle phase nofun) more nofun ⟨current.afterItem item draw, ?_⟩
    rw [afterItem_state]
    exact running
  | @report job phase ends success state final reportKey text =>
    rw [phase] at knows
    have reported : Consistent manifest { w with
        worker := .reported { job with state := state, reportKey := some reportKey } } :=
      consistent.goOn (not_idle phase nofun)
        ⟨knows.1.alike rfl rfl rfl rfl, .inr (final.imp And.left And.left)⟩ nofun
    exact ⟨reported.within, reported.reached, reported.stored, reported.listed, reported.waiting,
      reported.cancelling, reported.worker⟩
  | unreported phase ends failure final =>
    rw [phase] at knows
    exact consistent.goOn (not_idle phase nofun) ⟨knows.1.alike rfl rfl rfl rfl,
      .inr (final.imp And.left And.left)⟩ nofun
  | pass phase goes =>
    rw [phase] at knows
    obtain ⟨tallied, listed, goal⟩ := knows
    refine consistent.goOn (not_idle phase nofun) ⟨tallied, ?_⟩ nofun
    exact goal.imp (fun run => ⟨run.1, tallied, listed, run.2⟩) .inr
  | @store job phase =>
    rw [phase] at knows
    obtain ⟨tallied, goal⟩ := knows
    refine consistent.put tallied .idle ?_ ?_ trivial
    · rintro (moving | opened)
      · exact absurd rfl moving
      · rcases goal with run | completed | cancelled
        · exact run.2.listed
        · rw [completed] at opened
          cases opened
        · rw [cancelled] at opened
          cases opened
    · intro _ opened
      rcases goal with run | completed | cancelled
      · exact run.2.cursor
      · rw [completed] at opened
        cases opened
      · rw [cancelled] at opened
        cases opened

theorem step_consistent (consistent : Consistent manifest w) (next : BatchStep) :
    Consistent manifest (w.step manifest batch next) := by
  cases next with
  | work draw => exact work_consistent consistent draw
  | readToCancel handler =>
    rw [step]
    split
    · next job stored =>
        split
        · next todo =>
            refine ⟨consistent.within, consistent.reached, consistent.stored, consistent.listed,
              consistent.waiting, ?_, consistent.worker⟩
            intro other copy held
            simp only [Function.update_apply] at held
            split at held
            · cases held
              exact ⟨consistent.stored job stored, consistent.listed job stored (.inr todo)⟩
            · exact consistent.cancelling other copy held
        · exact consistent
    · exact consistent
  | cancel handler now =>
    rw [step]
    split
    · next job held =>
        obtain ⟨tallied, listed⟩ := consistent.cancelling handler job held
        refine ⟨consistent.within, Nat.max_le.mpr ⟨consistent.reached, tallied.within⟩, ?_, ?_, ?_, ?_,
          consistent.worker⟩
        · intro other same
          cases same
          exact tallied.alike rfl rfl rfl rfl
        · intro other same _
          cases same
          exact listed
        · intro other same _ opened
          cases same
          cases opened
        · intro other copy kept
          simp only [Function.update_apply] at kept
          split at kept
          · cases kept
          · exact consistent.cancelling other copy kept
    · exact consistent
  | delete =>
    refine ⟨consistent.within, consistent.reached, ?_, ?_, ?_, consistent.cancelling,
      consistent.worker⟩
    · intro job stored
      cases stored
    · intro job stored
      cases stored
    · intro job stored
      cases stored

theorem reportRow_failed (job : BatchJob) (item : BatchItem) : (job.reportRow item).item = item ∧
    ((job.reportRow item).failed = true ↔ itemKeyLabel item ∈ job.itemFailures.map BatchFailure.key) := by
  rw [BatchJob.reportRow]
  cases found : job.itemFailures.reverse.find? fun f => f.key = itemKeyLabel item with
  | none =>
    refine ⟨rfl, ?_⟩
    rw [List.find?_eq_none] at found
    constructor
    · intro impossible
      cases impossible
    · intro inside
      obtain ⟨f, member, same⟩ := List.mem_map.mp inside
      exact absurd (by simpa using same) (found f (List.mem_reverse.mpr member))
  | some f =>
    refine ⟨rfl, iff_of_true rfl ?_⟩
    have same := List.find?_some found
    exact List.mem_map.mpr ⟨f, List.mem_reverse.mp (List.mem_of_find?_eq_some found), by simpa using same⟩

theorem Listed.itemFailures {executed : List Execution} (listed : Listed executed job) :
    job.itemFailures = lastFailures (executed.take job.cursor) := by
  rw [BatchJob.itemFailures, List.filter_eq_self.mpr, listed]
  intro f member
  rw [listed] at member
  obtain ⟨e, -, failure⟩ := List.mem_filterMap.mp (List.mem_of_mem_drop member)
  obtain ⟨error, -, rfl⟩ := Option.map_eq_some_iff.mp failure
  rfl

theorem reportRows_iff (consistent : Consistent manifest w)
    (lines : w.executed.map Execution.item = (items manifest).take w.executed.length)
    (tallied : Tallied w.executed job) (listed : Listed w.executed job) :
    ((job.reportRows (items manifest)).map fun row => (row.item, row.failed)) =
        w.executed.map (fun e => (e.item, e.error.isSome)) ↔ w.Complete job := by
  have row (item : BatchItem) : ((job.reportRow item).item, (job.reportRow item).failed) =
      (item, decide (itemKeyLabel item ∈ job.itemFailures.map BatchFailure.key)) := by
    obtain ⟨same, failed⟩ := reportRow_failed job item
    rw [same]
    congr 1
    rw [Bool.eq_iff_iff, failed, decide_eq_true_iff]
  have rows : ((job.reportRows (items manifest)).map fun row => (row.item, row.failed)) =
      ((items manifest).take job.cursor).map fun item =>
        (item, decide (itemKeyLabel item ∈ job.itemFailures.map BatchFailure.key)) := by
    rw [BatchJob.reportRows, List.map_map]
    exact List.map_congr_left fun item _ => row item
  -- only a record whose cursor is at the end of what was executed has as many rows
  have whole (cursor : job.cursor = w.executed.length) :
      ((items manifest).take job.cursor).map (fun item =>
          (item, decide (itemKeyLabel item ∈ job.itemFailures.map BatchFailure.key))) =
        w.executed.map fun e =>
          (e.item, decide (itemKeyLabel e.item ∈ (lastFailures w.executed).map BatchFailure.key)) := by
    rw [listed.itemFailures, cursor, List.take_length, ← lines, List.map_map]
    rfl
  rw [rows]
  constructor
  · intro same
    have cursor : job.cursor = w.executed.length := by
      have lengths := congrArg List.length same
      rw [List.length_map, List.length_map, List.length_take, Nat.min_eq_left] at lengths
      · exact lengths
      · exact Nat.le_trans tallied.within consistent.within
    refine ⟨cursor, ?_⟩
    rw [whole cursor] at same
    intro e member
    have flags := congrArg Prod.snd (List.map_inj_left.mp same e member)
    dsimp only at flags
    rw [← flags, decide_eq_true_iff]
  · rintro ⟨cursor, flags⟩
    rw [whole cursor]
    refine List.map_inj_left.mpr fun e member => ?_
    congr 1
    rw [Bool.eq_iff_iff, decide_eq_true_iff, flags e member]

theorem BatchWorld.Truthful.goOn (truthful : Truthful manifest w) (phase : WorkerPhase) {unseen : Bool} :
    Truthful manifest { w with worker := phase, unseen := unseen } :=
  ⟨truthful.counts, truthful.forward, truthful.lines, truthful.targets, truthful.revoked,
    truthful.reports⟩

theorem put_truthful_iff (consistent : Consistent manifest w) (truthful : Truthful manifest w)
    (tallied : Tallied w.executed job) (current : job.state = .running → job.cursor = w.executed.length)
    (phase : WorkerPhase) :
    Truthful manifest { w.put job with worker := phase } ↔
      (job.state = .running ∨ job.state = .completed → w.revoked = false) := by
  constructor
  · intro after active
    cases revoked : w.revoked with
    | false => rfl
    | true =>
      obtain ⟨unrunning, uncompleted⟩ := after.revoked revoked job rfl
      rcases active with running | completed
      · exact absurd running unrunning
      · exact absurd completed uncompleted
  · intro unrevoked
    refine ⟨?_, ?_, truthful.lines, truthful.targets, ?_, truthful.reports⟩
    · intro other same
      cases same
      exact ⟨tallied.processed_eq, tallied.processed⟩
    · intro other same running
      cases same
      refine Nat.max_le.mpr ⟨?_, Nat.le_refl _⟩
      rw [current running]
      exact consistent.reached
    · intro revoked other same
      cases same
      constructor
      · intro running
        cases revoked.symm.trans (unrevoked (.inl running))
      · intro completed
        cases revoked.symm.trans (unrevoked (.inr completed))

theorem execute_truthful_iff (truthful : Truthful manifest w) {next : Execution}
    (found : (items manifest)[w.executed.length]? = some next.item) (phase : WorkerPhase) :
    Truthful manifest { w with executed := w.executed ++ [next], worker := phase } ↔
      next.target = next.item.named next.current := by
  constructor
  · intro after
    exact after.targets next (List.mem_append_right _ List.mem_cons_self)
  · intro own
    refine ⟨truthful.counts, truthful.forward, ?_, ?_, truthful.revoked, truthful.reports⟩
    · rw [List.map_append, truthful.lines, List.length_append, List.length_singleton,
        List.take_add_one, found]
      rfl
    · intro e member
      rcases List.mem_append.mp member with earlier | new
      · exact truthful.targets e earlier
      · rw [List.mem_singleton.mp new]
        exact own

theorem report_truthful_iff (truthful : Truthful manifest w) (report : Report) (phase : WorkerPhase) :
    Truthful manifest { w with reports := w.reports ++ [report], worker := phase } ↔
      (report.rows.map fun row => (row.item, row.failed)) =
        report.executed.map fun e => (e.item, e.error.isSome) := by
  constructor
  · intro after
    exact after.reports report (List.mem_append_right _ List.mem_cons_self)
  · intro own
    refine ⟨truthful.counts, truthful.forward, truthful.lines, truthful.targets, truthful.revoked, ?_⟩
    intro other member
    rcases List.mem_append.mp member with earlier | new
    · exact truthful.reports other earlier
    · rw [List.mem_singleton.mp new]
      exact own

theorem executed_iff (item : BatchItem) (operation : BatchOperation) (current : Option Vk) :
    item.executed operation current = item.named current ↔
      ((∃ bucket namePrefix, operation = .copy bucket namePrefix) →
        ∀ version, item.vk = some version → current = some version) := by
  cases operation with
  | copy bucket namePrefix =>
    rw [BatchItem.executed, BatchItem.named, Target.mk.injEq]
    cases item.vk with
    | none => simp
    | some vk => simp
  | _ =>
    refine iff_of_true rfl ?_
    rintro ⟨bucket, namePrefix, impossible⟩
    cases impossible

theorem BatchWorld.Heeded.unrevoked_iff (heeded : Heeded w) (going : ¬Stopped w.worker) :
    w.revoked = false ↔ w.unseen = false := by
  constructor
  · intro unrevoked
    cases unseen : w.unseen with
    | false => rfl
    | true => cases unrevoked.symm.trans (heeded.revoked unseen)
  · intro seen
    cases revoked : w.revoked with
    | false => rfl
    | true => exact absurd (heeded.noticed revoked seen) going

theorem work_truthful_iff (consistent : Consistent manifest w) (truthful : Truthful manifest w)
    (heeded : Heeded w) (draw : Draw) :
    Truthful manifest (w.work manifest batch draw) ↔ Careful manifest w (.work draw) := by
  have knows := consistent.worker
  have effect : WorkEffect manifest w draw (w.work manifest batch draw) :=
    work_effect consistent.looping draw
  generalize w.work manifest batch draw = after at effect ⊢
  cases effect with
  | rest idle =>
    rw [Careful, idle]
    exact iff_of_true truthful trivial
  | list idle stored todo =>
    rw [Careful, idle]
    exact iff_of_true (truthful.goOn _) trivial
  | @unread job phase fails problem =>
    rw [phase] at knows
    have tallied : Tallied w.executed { job with state := .failed, error := some problem } :=
      knows.1.tallied.alike rfl rfl rfl rfl
    rw [put_truthful_iff consistent truthful tallied nofun, Careful, phase]
    refine iff_of_true ?_ ?_
    · rintro (running | completed)
      · cases running
      · cases completed
    · intro reads
      cases fails.symm.trans reads
  | @start job phase reads new total left =>
    rw [phase] at knows
    have tallied : Tallied w.executed
        { job with total := total, state := .running, updatedAt := draw.now } :=
      knows.1.tallied.alike rfl rfl rfl rfl
    have unrevoked : w.revoked = false ↔ w.unseen = false :=
      heeded.unrevoked_iff (by rw [phase]; exact id)
    rw [put_truthful_iff consistent truthful tallied fun _ => knows.1.cursor, Careful, phase, unrevoked]
    constructor
    · intro seen _ _
      exact seen (.inl rfl)
    · intro seen _
      exact seen reads new
  | resume phase reads old total left =>
    rw [Careful, phase]
    exact iff_of_true (truthful.goOn _) fun _ new => absurd new old
  | leave phase =>
    rw [Careful, phase]
    exact iff_of_true (truthful.goOn _) trivial
  | gone phase stored =>
    rw [Careful, phase]
    exact iff_of_true (truthful.goOn _) trivial
  | cancelled phase stored cancelled =>
    rw [Careful, phase]
    exact iff_of_true (truthful.goOn _) trivial
  | letIn phase stored goes =>
    rw [Careful, phase]
    exact iff_of_true (truthful.goOn _) trivial
  | short phase none =>
    rw [Careful, phase]
    refine iff_of_true (truthful.goOn _) ?_
    intro item found
    cases none.symm.trans found
  | @execute job left item phase found =>
    rw [phase] at knows
    rw [knows.1.cursor] at found
    rw [execute_truthful_iff truthful found, executed_iff, Careful, phase]
    dsimp only
    rw [knows.1.cursor]
    constructor
    · intro own other same
      cases found.symm.trans same
      exact own
    · intro all
      exact all item found
  | @report job phase ends success state final reportKey text =>
    rw [phase] at knows
    rw [report_truthful_iff truthful, reportRows_iff consistent truthful.lines knows.1 knows.2.1,
      Careful, phase]
    constructor
    · intro complete _ _
      exact complete
    · intro complete
      exact complete ends success
  | unreported phase ends failure final =>
    rw [Careful, phase]
    refine iff_of_true (truthful.goOn _) fun _ success => ?_
    cases failure.symm.trans success
  | pass phase goes =>
    rw [Careful, phase]
    exact iff_of_true (truthful.goOn _) fun ends => absurd ends goes
  | @store job phase =>
    rw [phase] at knows
    obtain ⟨tallied, goal⟩ := knows
    have current (running : job.state = .running) : job.cursor = w.executed.length := by
      rcases goal with run | completed | cancelled
      · exact run.2.cursor
      · cases running.symm.trans completed
      · cases running.symm.trans cancelled
    rw [put_truthful_iff consistent truthful tallied current, Careful, phase]
    refine imp_congr_right fun active => heeded.unrevoked_iff ?_
    rw [phase, Stopped]
    intro cancelled
    rw [cancelled] at active
    rcases active with running | completed
    · cases running
    · cases completed

theorem step_truthful_iff (consistent : Consistent manifest w) (truthful : Truthful manifest w)
    (heeded : Heeded w) (next : BatchStep) :
    Truthful manifest (w.step manifest batch next) ↔ Careful manifest w next := by
  cases next with
  | work draw => exact work_truthful_iff consistent truthful heeded draw
  | readToCancel handler =>
    refine iff_of_true ?_ trivial
    rw [step]
    split
    · split
      · exact ⟨truthful.counts, truthful.forward, truthful.lines, truthful.targets, truthful.revoked,
          truthful.reports⟩
      · exact truthful
    · exact truthful
  | cancel handler now =>
    refine iff_of_true ?_ trivial
    rw [step]
    split
    · next job held =>
        have tallied := (consistent.cancelling handler job held).1
        refine ⟨?_, ?_, truthful.lines, truthful.targets, ?_, truthful.reports⟩
        · intro other same
          cases same
          exact ⟨tallied.processed_eq, tallied.processed⟩
        · intro other same running
          cases same
          cases running
        · intro _ other same
          cases same
          exact ⟨nofun, nofun⟩
    · exact truthful
  | delete =>
    refine iff_of_true ⟨?_, ?_, truthful.lines, truthful.targets, ?_, truthful.reports⟩ trivial
    · intro job stored
      cases stored
    · intro job stored
      cases stored
    · intro _ job stored
      cases stored

theorem BatchWorld.Heeded.goOn (heeded : Heeded w) (busy : w.worker ≠ .idle) (phase : WorkerPhase)
    (stops : Stopped w.worker → Stopped phase) : Heeded { w with worker := phase } :=
  ⟨heeded.closed, fun revoked _ => heeded.cancelled revoked busy,
    fun revoked seen => stops (heeded.noticed revoked seen), heeded.revoked⟩

/-- What the worker stores is closed, or comes from a look at the record that no revocation followed. -/
theorem BatchWorld.Heeded.put (heeded : Heeded w) (phase : WorkerPhase)
    (open_ : job.state.open = true → w.revoked = false)
    (left : phase ≠ .idle → w.revoked = false) :
    Heeded { w.put job with worker := phase } := by
  refine ⟨?_, ?_, ?_, heeded.revoked⟩
  · intro revoked other same
    cases same
    cases state : job.state.open with
    | false => rfl
    | true => cases revoked.symm.trans (open_ state)
  · intro revoked busy
    cases revoked.symm.trans (left busy)
  · intro revoked _
    cases phase with
    | idle => trivial
    | _ => cases revoked.symm.trans (left nofun)

theorem work_heeded (consistent : Consistent manifest w) (heeded : Heeded w) {draw : Draw}
    (careful : Careful manifest w (.work draw)) : Heeded (w.work manifest batch draw) := by
  have knows := consistent.worker
  have effect : WorkEffect manifest w draw (w.work manifest batch draw) :=
    work_effect consistent.looping draw
  have stays {before state : BatchJobState} (final : state = .completed ∧ before = .running ∨
      state = .cancelled ∧ before = .cancelled) (cancelled : before = .cancelled) :
      state = .cancelled := by
    rcases final with completed | both
    · cases completed.2.symm.trans cancelled
    · exact both.1
  generalize w.work manifest batch draw = after at effect ⊢
  cases effect with
  | rest idle => exact heeded
  | @list job idle stored todo =>
    have unrevoked (revoked : w.revoked = true) : False := by
      cases (heeded.closed revoked job stored).symm.trans todo
    exact ⟨heeded.closed, fun revoked => (unrevoked revoked).elim,
      fun revoked => (unrevoked revoked).elim, nofun⟩
  | unread phase fails problem => exact heeded.put .idle nofun fun busy => absurd rfl busy
  | start phase reads new total left =>
    rw [Careful, phase] at careful
    have unrevoked : w.revoked = false :=
      (heeded.unrevoked_iff (by rw [phase]; exact id)).mpr (careful reads new)
    exact heeded.put _ (fun _ => unrevoked) fun _ => unrevoked
  | resume phase reads old total left =>
    exact heeded.goOn (not_idle phase nofun) _ (by rw [phase]; exact False.elim)
  | leave phase => exact heeded.goOn (not_idle phase nofun) _ (by rw [phase]; exact False.elim)
  | gone phase stored => exact ⟨heeded.closed, fun _ busy => absurd rfl busy, fun _ _ => trivial, nofun⟩
  | cancelled phase stored cancelled =>
    exact ⟨heeded.closed, fun revoked _ => heeded.cancelled revoked (not_idle phase nofun),
      fun _ _ => cancelled, nofun⟩
  | letIn phase stored goes =>
    -- the look at the record finds a revocation
    have unrevoked (revoked : w.revoked = true) : False :=
      goes (heeded.cancelled revoked (not_idle phase nofun) _ stored)
    exact ⟨heeded.closed, fun revoked => (unrevoked revoked).elim,
      fun revoked => (unrevoked revoked).elim, nofun⟩
  | short phase none => exact heeded.goOn (not_idle phase nofun) _ (by rw [phase]; exact False.elim)
  | @execute job left item phase found =>
    have going : Heeded { w with worker := .looping (afterItem job item draw) (left - 1) } :=
      heeded.goOn (not_idle phase nofun) _ (by rw [phase]; exact False.elim)
    exact ⟨going.closed, going.cancelled, going.noticed, going.revoked⟩
  | @report job phase ends success state final reportKey text =>
    have going : Heeded { w with
        worker := .reported { job with state := state, reportKey := some reportKey } } := by
      refine heeded.goOn (not_idle phase nofun) _ ?_
      rw [phase]
      exact stays final
    exact ⟨going.closed, going.cancelled, going.noticed, going.revoked⟩
  | unreported phase ends failure final =>
    refine heeded.goOn (not_idle phase nofun) _ ?_
    rw [phase]
    exact stays final
  | pass phase goes => exact heeded.goOn (not_idle phase nofun) _ (by rw [phase]; exact id)
  | @store job phase =>
    rw [Careful, phase] at careful
    refine heeded.put .idle ?_ fun busy => absurd rfl busy
    intro opened
    have running : job.state = .running := by
      rw [phase] at knows
      rcases knows.2 with run | completed | cancelled
      · exact run.1
      · rw [completed] at opened
        cases opened
      · rw [cancelled] at opened
        cases opened
    refine (heeded.unrevoked_iff ?_).mpr (careful (.inl running))
    rw [phase, Stopped, running]
    exact nofun

theorem step_heeded (consistent : Consistent manifest w) (heeded : Heeded w) {next : BatchStep}
    (careful : Careful manifest w next) : Heeded (w.step manifest batch next) := by
  cases next with
  | work draw => exact work_heeded consistent heeded careful
  | readToCancel handler =>
    rw [step]
    split
    · split
      · exact ⟨heeded.closed, heeded.cancelled, heeded.noticed, heeded.revoked⟩
      · exact heeded
    · exact heeded
  | cancel handler now =>
    rw [step]
    split
    · refine ⟨?_, ?_, nofun, fun _ => rfl⟩
      · intro _ job same
        cases same
        rfl
      · intro _ _ job same
        cases same
        rfl
    · exact heeded
  | delete =>
    refine ⟨?_, ?_, nofun, fun _ => rfl⟩
    · intro _ job stored
      cases stored
    · intro _ _ job stored
      cases stored

theorem submitted_sound (id : String) (operation : BatchOperation) (reportPrefix : String) (now : Int) :
    Consistent manifest (submitted (.submit id operation reportPrefix now)) ∧
      Truthful manifest (submitted (.submit id operation reportPrefix now)) ∧
      Heeded (submitted (.submit id operation reportPrefix now)) := by
  have current : Current [] (.submit id operation reportPrefix now) :=
    ⟨⟨Nat.le_refl 0, rfl, rfl, rfl⟩, rfl, rfl⟩
  refine ⟨⟨Nat.zero_le _, Nat.le_refl 0, ?_, ?_, ?_, ?_, trivial⟩,
    ⟨?_, ?_, rfl, ?_, ?_, ?_⟩, ⟨nofun, nofun, nofun, nofun⟩⟩
  · intro job same
    cases same
    exact current.tallied
  · intro job same _
    cases same
    exact current.listed
  · intro job same _ _
    cases same
    exact current.cursor
  · intro handler job held
    cases held
  · intro job same
    cases same
    exact ⟨rfl, rfl⟩
  · intro job same running
    cases same
    cases running
  · intro e member
    cases member
  · intro revoked
    cases revoked
  · intro report member
    cases member

/-- In every interleaving, the job accounts for its items throughout exactly if no cancellation and no
deletion comes between a look of the worker at the record and the storing of its copy as running or
completed, and the worker copies no version but the current one and reports from records that are
complete. -/
theorem job_truthful_iff (manifest : Except String (List BatchItem)) (batch : Nat) (id : String)
    (operation : BatchOperation) (reportPrefix : String) (now : Int) (steps : List BatchStep) :
    AlwaysHolds (BatchWorld.step manifest batch) (Truthful manifest)
        (submitted (.submit id operation reportPrefix now)) steps ↔
      EveryStep (BatchWorld.step manifest batch) (Careful manifest)
        (submitted (.submit id operation reportPrefix now)) steps := by
  have implied (w : BatchWorld) (all : Consistent manifest w ∧ Truthful manifest w ∧ Heeded w) :
      Truthful manifest w := all.2.1
  refine alwaysHolds_iff_of_invariant implied ?_ ?_
    (submitted_sound id operation reportPrefix now)
  · intro w next all
    exact step_truthful_iff all.1 all.2.1 all.2.2 next
  · intro w next all careful
    exact ⟨step_consistent all.1 next, (step_truthful_iff all.1 all.2.1 all.2.2 next).mpr careful,
      step_heeded all.1 all.2.2 careful⟩

end Steps

/-- The administrator cancels the job while its last item is executed.  The worker stores it as
completed. -/
theorem cancelled_job_completed :
    let manifest : Except String (List BatchItem) := .ok [⟨"photos", "cat", none⟩]
    let start := BatchWorld.submitted (.submit "job" .delete "reports/" 0)
    let work := BatchStep.work { now := 1 }
    let steps := [work, work, work, .readToCancel 0, .cancel 0 1, work, work, work, work]
    let w := steps.foldl (BatchWorld.step manifest 10) start
    w.revoked = true ∧ w.stored.map BatchJob.state = some .completed ∧
      ¬AlwaysHolds (BatchWorld.step manifest 10) (BatchWorld.Truthful manifest) start steps := by
  intro manifest start work steps w
  have revoked : w.revoked = true := by decide +kernel
  have completed : w.stored.map BatchJob.state = some .completed := by decide +kernel
  refine ⟨revoked, completed, ?_⟩
  intro always
  have truthful : w.Truthful manifest := always steps [] rfl
  obtain ⟨job, stored, state⟩ := Option.map_eq_some_iff.mp completed
  exact (truthful.revoked revoked job stored).2 state

end FastS3.Batch
