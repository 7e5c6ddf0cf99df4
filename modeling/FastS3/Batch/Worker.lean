import FastS3.Batch.Manifest
import FastS3.Data.Runs

namespace FastS3.Batch

open Data S3
open FastS3.Core (Vk)

/-! The worker that executes a batch job, and the administrator beside it.

The record of the job is stored, the worker goes through the manifest with a copy of it, and stores the
copy at the end of a tick.  The handlers of the administrator read and write the stored record meanwhile.
-/

inductive BatchJobState where
  | submitted
  | running
  | completed
  | failed
  | cancelled
deriving Repr, DecidableEq

def BatchJobState.asStr : BatchJobState → String
  | submitted => "Submitted"
  | running => "Running"
  | completed => "Completed"
  | failed => "Failed"
  | cancelled => "Cancelled"

def BatchJobState.open : BatchJobState → Bool
  | submitted => true
  | running => true
  | _ => false

inductive BatchOperation where
  | delete
  | copy (destBucket destPrefix : String)
  | restore (days : Nat) (tier : String)
  | replaceTags (tags : List (String × String))
deriving Repr, DecidableEq

structure BatchFailure where
  kind : String
  key : String
  error : String
  atTime : Int
deriving Repr, DecidableEq

structure BatchJob where
  id : String
  operation : BatchOperation
  reportPrefix : String
  state : BatchJobState
  updatedAt : Int
  total : Nat
  processed : Nat
  succeeded : Nat
  failed : Nat
  cursor : Nat
  failures : List BatchFailure
  reportKey : Option String
  error : Option String
deriving Repr, DecidableEq

def BatchJob.submit (id : String) (operation : BatchOperation) (reportPrefix : String) (now : Int) :
    BatchJob where
  id := id
  operation := operation
  reportPrefix := reportPrefix
  state := .submitted
  updatedAt := now
  total := 0
  processed := 0
  succeeded := 0
  failed := 0
  cursor := 0
  failures := []
  reportKey := none
  error := none

def failureListCap : Nat :=
  100

/-- `record_failure`; the oldest entries go. -/
def BatchJob.recordFailure (job : BatchJob) (kind key error : String) (now : Int) : BatchJob :=
  let failures := job.failures ++ [⟨kind, key, String.ofList (error.toList.take 300), now⟩]
  { job with failures := failures.rtake failureListCap, updatedAt := now }

def itemKeyLabel (item : BatchItem) : String :=
  match item.vk with
  | some vk => item.key ++ "@" ++ hexEncode vk
  | none => item.key

structure ReportRow where
  item : BatchItem
  failed : Bool
  error : String
deriving Repr, DecidableEq

def BatchJob.itemFailures (job : BatchJob) : List BatchFailure :=
  job.failures.filter fun f => f.kind = "item"

/-- The row of an item, which the failures are searched for; of two with its label the later one counts. -/
def BatchJob.reportRow (job : BatchJob) (item : BatchItem) : ReportRow :=
  match job.itemFailures.reverse.find? fun f => f.key = itemKeyLabel item with
  | some f => ⟨item, true, f.error⟩
  | none => ⟨item, false, ""⟩

/-- The rows of `build_report_csv`. -/
def BatchJob.reportRows (job : BatchJob) (items : List BatchItem) : List ReportRow :=
  (items.take job.cursor).map job.reportRow

def ReportRow.line (row : ReportRow) : String :=
  let version := (row.item.vk.map hexEncode).getD ""
  if row.failed then s!"{row.item.bucket},{row.item.key},{version},Failed,{row.error}\n"
  else s!"{row.item.bucket},{row.item.key},{version},Succeeded,\n"

def buildReportCsv (job : BatchJob) (items : List BatchItem) : String :=
  "bucket,key,versionId,status,error\n" ++ String.join ((job.reportRows items).map ReportRow.line) ++
    s!"# total={job.total},processed={job.processed},succeeded={job.succeeded}," ++
    s!"failed={job.failed},state={job.state.asStr}\n"

structure Target where
  bucket : String
  key : String
  version : Option Vk
deriving Repr, DecidableEq

def BatchItem.named (item : BatchItem) (current : Option Vk) : Target :=
  ⟨item.bucket, item.key, item.vk.or current⟩

/-- What `execute_item` calls the engine for; a copy is of the current version. -/
def BatchItem.executed (item : BatchItem) (operation : BatchOperation) (current : Option Vk) : Target :=
  match operation with
  | .copy _ _ => ⟨item.bucket, item.key, current⟩
  | _ => item.named current

/-- An item was executed, with the version that was the current one then, and the error of the engine. -/
structure Execution where
  item : BatchItem
  current : Option Vk
  target : Target
  error : Option String
  now : Int
deriving Repr, DecidableEq

/-- Where the worker stands in a tick, with its copy of the record and the number of items left in the
batch. -/
inductive WorkerPhase where
  | idle
  | listed (job : BatchJob)
  | looping (job : BatchJob) (left : Nat)
  | admitted (job : BatchJob) (left : Nat)
  | looped (job : BatchJob)
  | reported (job : BatchJob)
deriving DecidableEq

/-- A report with what had been executed when it was written. -/
structure Report where
  key : String
  text : String
  rows : List ReportRow
  executed : List Execution

/-- The stored record, the worker, and the handlers of cancellations that have read the record; and what
has happened: the items executed, the reports, the highest cursor that was stored, whether the job was
stored as cancelled or was deleted, and whether that came after the last look of the worker at the
record. -/
structure BatchWorld where
  stored : Option BatchJob
  worker : WorkerPhase
  cancelling : Nat → Option BatchJob
  executed : List Execution
  reports : List Report
  reached : Nat
  revoked : Bool
  unseen : Bool

/-- What the worker meets in its next step: the time, the error of the manifest, of the item and of the
report, and the current version of the item. -/
structure Draw where
  now : Int
  manifestError : Option String := none
  itemError : Option String := none
  reportError : Option String := none
  current : Option Vk := none

/-- The worker goes on to its next access to the record, a handler reads the record to cancel the job or
stores it, or the job is deleted. -/
inductive BatchStep where
  | work (draw : Draw)
  | readToCancel (handler : Nat)
  | cancel (handler : Nat) (now : Int)
  | delete

namespace BatchWorld

variable (manifest : Except String (List BatchItem)) (batch : Nat) (w : BatchWorld)

def submitted (job : BatchJob) : BatchWorld :=
  ⟨some job, .idle, fun _ => none, [], [], 0, false, false⟩

/-- `put_batch_job`. -/
def put (job : BatchJob) : BatchWorld :=
  { w with stored := some job, reached := max w.reached job.cursor }

def items : List BatchItem :=
  manifest.toOption.getD []

/-- `materialize`, where a read may fail. -/
def materialize (draw : Draw) : Except String (List BatchItem) :=
  match draw.manifestError with
  | some e => .error e
  | none => manifest

def afterItem (job : BatchJob) (item : BatchItem) (draw : Draw) : BatchJob :=
  let job := match draw.itemError with
    | none => { job with succeeded := job.succeeded + 1 }
    | some e =>
      { job with failed := job.failed + 1 }.recordFailure "item" (itemKeyLabel item) e draw.now
  { job with processed := job.processed + 1, cursor := job.cursor + 1 }

def exhausted (job : BatchJob) : Bool :=
  job.cursor ≥ (items manifest).length

def reportKey (job : BatchJob) : String :=
  s!"{job.reportPrefix}batch-report-{job.id}.csv"

/-- One step of `run_tick`. -/
def work (draw : Draw) : BatchWorld :=
  match w.worker with
  | .idle =>
    match w.stored with
    | some job => if job.state.open then { w with worker := .listed job, unseen := false } else w
    | none => w
  | .listed job =>
    match materialize manifest draw with
    | .error e =>
      { w.put { job with state := .failed, error := some s!"manifest: {e}" } with worker := .idle }
    | .ok items =>
      let job := { job with total := items.length }
      let start (job : BatchJob) : WorkerPhase :=
        let job := { job with cursor := min job.cursor items.length }
        .looping job (min batch (items.length - job.cursor))
      if job.state = .submitted then
        let job := { job with state := .running, updatedAt := draw.now }
        { w.put job with worker := start job }
      else { w with worker := start job }
  | .looping job left =>
    if left = 0 then { w with worker := .looped job }
    else match w.stored with
      | none => { w with worker := .idle, unseen := false }
      | some latest =>
        if latest.state = .cancelled then { w with worker := .looped latest, unseen := false }
        else { w with worker := .admitted job left, unseen := false }
  | .admitted job left =>
    match (items manifest)[job.cursor]? with
    | none => { w with worker := .looped job }
    | some item =>
      let execution : Execution :=
        ⟨item, draw.current, item.executed job.operation draw.current, draw.itemError, draw.now⟩
      { w with
        executed := w.executed ++ [execution]
        worker := .looping (afterItem job item draw) (left - 1) }
  | .looped job =>
    if exhausted manifest job ∨ job.state = .cancelled then
      let job :=
        if exhausted manifest job ∧ job.state = .running then { job with state := .completed } else job
      match draw.reportError with
      | none =>
        let report : Report :=
          ⟨reportKey job, buildReportCsv job (items manifest), job.reportRows (items manifest),
            w.executed⟩
        { w with
          reports := w.reports ++ [report]
          worker := .reported { job with reportKey := some (reportKey job) } }
      | some e =>
        { w with worker := .reported (job.recordFailure "report" "<report>" e draw.now) }
    else { w with worker := .reported job }
  | .reported job => { w.put job with worker := .idle }

def step : BatchStep → BatchWorld
  | .work draw => w.work manifest batch draw
  | .readToCancel handler =>
    match w.stored with
    | some job =>
      if job.state.open then
        { w with cancelling := Function.update w.cancelling handler (some job) }
      else w
    | none => w
  | .cancel handler now =>
    match w.cancelling handler with
    | some job =>
      { w.put { job with state := .cancelled, updatedAt := now } with
        cancelling := Function.update w.cancelling handler none
        revoked := true
        unseen := true }
    | none => w
  | .delete => { w with stored := none, revoked := true, unseen := true }

end BatchWorld

end FastS3.Batch
