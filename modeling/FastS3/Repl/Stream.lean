import FastS3.Data.CutLog
import FastS3.Data.Runs
import FastS3.Meta.Stream
import FastS3.Repl.Server

namespace FastS3.Repl

open FastS3.Core FastS3.Data FastS3.Meta

/-! An upstream, the truncation of its binlog, and a downstream that pulls from it.

The state keeps what the upstream ever wrote, so that a record that a truncation took away is still
there to be missed.
-/

/-- What moves an upstream on.  A standby refuses the writes of clients, and a primary pulls from
nobody. -/
inductive UpstreamStep where
  | commit (fate : Fate) (now : Int) (ops : List Op)
  | unlogged (fate : Fate) (now : Int) (ops : List Op)
  | promote (fate : WriteFate) (force : Bool) (now : Int) (scan : PromoteScan)
  | record (fate : Fate) (g : Gtid) (record : ReplRecord)
  | hello (fate : WriteFate) (epoch : Nat)
  | localize (fate : LocalizeFate) (items : List ReplLocalizeItem) (consumed : List (Gtid × DataRef))
      (alloc : Option AllocDraft) (allocSeq : Nat) (clearMarkers : List (String × String))
  | setBucketScoped (fate : WriteFate) (bucketScoped : Bool)

def UpstreamStep.ofRole (role : ReplRole) : UpstreamStep → Option HistoryStep
  | .commit fate now ops => if role = .primary then some (.own (.commit fate now ops)) else none
  | .unlogged fate now ops => some (.unlogged fate now ops)
  | .promote fate force now scan => some (.own (.promote fate force now scan))
  | .record fate g given => if role = .standby then some (.record fate g given) else none
  | .hello fate epoch => some (.hello fate epoch)
  | .localize fate items consumed alloc allocSeq clearMarkers =>
    some (.localize fate items consumed alloc allocSeq clearMarkers)
  | .setBucketScoped fate bucketScoped => some (.own (.setReplBucketScoped fate bucketScoped))

namespace ReplServer

variable (queueMax : Nat)

def logs (server : ReplServer) (next : UpstreamStep) : List (Gtid × ReplRecord) :=
  (next.ofRole server.node.role).elim [] server.node.appends

def advance (server : ReplServer) (next : UpstreamStep) : ReplServer :=
  { server with
    node := (next.ofRole server.node.role).elim server.node (server.node.evolve queueMax)
    binlog := (server.logs next).foldl (fun log row => log.insert row.1 row.2) server.binlog }

section Truncation

variable (encodedLen : ReplRecord → Nat)

def binlogRows (server : ReplServer) : BinlogRows :=
  ⟨server.binlog, server.rmap, server.node.slots⟩

def truncate (server : ReplServer) (now : Int) (retain : ReplRetainConfig) (fates : TruncateFates) :
    ReplServer :=
  let rows := (truncateBinlog encodedLen true now retain fates server.binlogRows).2
  { server with
    node := { server.node with slots := rows.slots }
    binlog := rows.binlog
    rmap := rows.rmap }

def cutCount (server : ReplServer) (now : Int) (retain : ReplRetainConfig) : Nat :=
  let entries := server.binlog.entries.map (weigh encodedLen)
  let soft := softCut encodedLen now retain server.binlogRows
  soft + forceCut retain (entries.drop soft) (totalBytes (entries.drop soft))

end Truncation

end ReplServer

inductive Answer where
  | welcome (new : Bool) (hello : HelloAnswer)
  | entries (watermark : Gtid) (entries : List (Gtid × ReplRecord))
  | acknowledged (slot : Slot)
  | failed (error : JsonErr)

namespace Answer

def isGone : Answer → Bool
  | .failed error => error.error == "ErrBinlogGone"
  | _ => false

def goesOn : Answer → Bool
  | .welcome new _ => !new
  | .entries _ _ => true
  | .acknowledged _ | .failed _ => false

def ofExcept {α : Type} (ok : α → Answer) : Except JsonErr α → Answer
  | .ok value => ok value
  | .error error => .failed error

end Answer

/-- An answer on its way, with the position of the request, and whether a record behind that position
was gone when it was answered. -/
structure Reply where
  position : Gtid
  answer : Answer
  missing : Bool

structure ReplStream where
  server : ReplServer
  written : List (Gtid × ReplRecord)
  standby : MetaStore
  applied : List (Gtid × ReplRecord)
  waiting : Option BinlogPoll
  reply : Option Reply

inductive StreamStep where
  | upstream (next : UpstreamStep)
  | truncate (now : Int) (retain : ReplRetainConfig) (fates : TruncateFates)
  | setSlots (slots : SlotTable)
  | hello (cn : String) (hello : HelloRequest) (draw : HelloDraw)
  | binlog (slot : String) (limit waitMs : Nat)
  /-- a round of the loop; `expired` says that the deadline is past -/
  | poll (expired : Bool)
  | ack (slot : String) (fate : WriteFate) (now : Int)
  | hangUp
  /-- the downstream takes the answer; the fates are those of the transactions that it gets to -/
  | receive (fates : List Fate)

namespace ReplStream

variable (queueMax : Nat) (encodedLen : ReplRecord → Nat)

def Missing (w : ReplStream) (position : Gtid) : Prop :=
  Lost w.written w.server.binlog.entries position

instance (w : ReplStream) (position : Gtid) : Decidable (w.Missing position) :=
  inferInstanceAs (Decidable (Lost _ _ _))

def answered (w : ReplStream) (position : Gtid) (answer : Answer) : Option Reply :=
  some ⟨position, answer, decide (w.Missing position)⟩

def helloPosition (hello : HelloRequest) : Option Gtid :=
  match HelloRequest.executed hello.executedGtidSet GtidSet.new with
  | .ok executed => HelloRequest.cursorOf executed
  | .error _ => none

/-- The query of `fetch_batch`. -/
def fetchQuery (cursor : Gtid) (slot : String) (limit waitMs : Nat) : BinlogQuery :=
  ⟨some (some cursor), some (some limit), some (some waitMs), some slot⟩

def receive (w : ReplStream) (fates : List Fate) : ReplStream :=
  match w.reply with
  | some ⟨_, .entries _ entries, _⟩ =>
    let batch := pullBatch (ReplNode.config queueMax) entries fates w.standby
    { w with
      standby := w.standby.receive (ReplNode.config queueMax) batch
      applied := w.applied ++ (landings (ReplNode.config queueMax) w.standby batch).map fun delivery =>
        (delivery.gtid, delivery.record)
      reply := none }
  | _ => { w with reply := none }

def step (w : ReplStream) : StreamStep → ReplStream
  | .upstream next =>
    { w with server := w.server.advance queueMax next, written := w.written ++ w.server.logs next }
  | .truncate now retain fates => { w with server := w.server.truncate encodedLen now retain fates }
  | .setSlots slots => { w with server := { w.server with node := { w.server.node with slots := slots } } }
  | .hello cn hello draw =>
    let result := w.server.handleHello cn hello draw
    { w with
      server := result.2
      waiting := none
      reply := w.answered ((helloPosition hello).getD ⟨0, 0⟩)
        (Answer.ofExcept (.welcome (helloPosition hello).isNone) result.1) }
  | .binlog slot limit waitMs =>
    match w.server.beginBinlog (fetchQuery w.standby.cursor slot limit waitMs) with
    | .ok poll => { w with waiting := some poll, reply := none }
    | .error e => { w with waiting := none, reply := w.answered w.standby.cursor (.failed e) }
  | .poll expired =>
    match w.waiting with
    | none => w
    | some poll =>
      let entries := w.server.scanBinlog poll
      if !entries.isEmpty || poll.waitMs == 0 || expired then
        { w with
          waiting := none
          reply := w.answered poll.after (.entries w.server.node.watermark entries) }
      else w
  | .ack slot fate now =>
    let result := w.server.handleSlotAck slot (some w.standby.cursor) fate now
    { w with
      server := result.2
      waiting := none
      reply := w.answered w.standby.cursor (Answer.ofExcept .acknowledged result.1) }
  | .hangUp => { w with waiting := none, reply := none }
  | .receive fates => w.receive queueMax fates

end ReplStream

end FastS3.Repl
