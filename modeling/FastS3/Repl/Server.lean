import FastS3.Meta.SnapshotPoint

namespace FastS3.Repl

open FastS3.Core FastS3.Data FastS3.Meta

/-! The server that hands the binlog to downstreams.

A handshake checks the position of a downstream once.  A request for records checks it again and
then looks for records, several times over if it may wait; a reader of this module finds the check
in `beginBinlog` and the search in `scanBinlog`.
-/

def defaultBinlogLimit : Nat := 256

def maxBinlogLimit : Nat := 4096

def maxBinlogWaitMs : Nat := 30000

def maxChainHops : Nat := 8

inductive StatusCode where
  | badRequest
  | forbidden
  | notFound
  | conflict
  | gone
  | internalServerError
deriving Repr, DecidableEq

/-- The body of `json_err`; the text of a cause goes behind the detail. -/
structure JsonErr where
  status : StatusCode
  error : String
  detail : String
  cause : Option Error := none
deriving Repr, DecidableEq

def binlogGone (detail : String) : JsonErr :=
  ⟨.gone, "ErrBinlogGone", detail, none⟩

def topologyLoop (detail : String) : JsonErr :=
  ⟨.forbidden, "ErrTopologyLoop", detail, none⟩

def badRequest (error detail : String) : JsonErr :=
  ⟨.badRequest, error, detail, none⟩

def internalErr (what : String) (cause : Error) : JsonErr :=
  ⟨.internalServerError, "internal", what, some cause⟩

def validSlotName (name : String) : Bool :=
  !name.isEmpty && name.utf8ByteSize ≤ 128 &&
    name.toList.all fun c => c.isAlphanum || c == '-' || c == '_' || c == '.'

def badSlotName : JsonErr :=
  badRequest "bad_request" "slot_name must be 1..=128 chars of [A-Za-z0-9._-]"

/-- A node that serves its binlog.  The rows under `bl:` are listed here; what the node's own store
holds under these keys is not read. -/
structure ReplServer where
  node : ReplNode
  binlog : BTreeMap Gtid ReplRecord
  rmap : RmapId → Option (List Segment)
  nodeId : Option String
  maxSlots : Nat

namespace ReplServer

variable (server : ReplServer)

def replBinlogScan (after : Gtid) (limit : Nat) : List (Gtid × ReplRecord) :=
  let start : Gtid := ⟨after.epoch, min (after.seq + 1) u64Max⟩
  ((server.binlog.entries.dropWhile fun row => row.1 < start).filter fun row => after < row.1).take limit

def binlogFloor : Option Gtid :=
  (server.replBinlogScan ⟨0, 0⟩ 1).head?.map Prod.fst

def replPendingExists (g : Gtid) : Bool :=
  (server.node.store.rows (.replPending g)).isSome

/-- `repl_local_gtid_set`. -/
def upstreamGtidSet : GtidSet :=
  server.node.exportSet (server.binlog.entries.map Prod.fst)

def slotLimitReached (newName : String) : Bool :=
  server.node.slots.listReplSlots.length ≥ server.maxSlots &&
    !server.node.slots.listReplSlots.any fun slot => slot.name == newName

end ReplServer

/-- The query of a request.  A parameter that is there but does not parse is `some none`. -/
structure BinlogQuery where
  after : Option (Option Gtid) := none
  limit : Option (Option Nat) := none
  wait : Option (Option Nat) := none
  slot : Option String := none
deriving Repr, DecidableEq

structure BinlogPoll where
  after : Gtid
  limit : Nat
  waitMs : Nat
  filters : BucketFilter
deriving Repr, DecidableEq

namespace BinlogQuery

variable (query : BinlogQuery)

def position : Except JsonErr Gtid :=
  match query.after with
  | none => .ok ⟨0, 0⟩
  | some (some g) => .ok g
  | some none => .error (badRequest "bad_gtid" "after must be \"\x7bepoch\x7d-\x7bseq\x7d\"")

def batchLimit : Except JsonErr Nat :=
  match query.limit with
  | none => .ok defaultBinlogLimit
  | some (some n) => .ok (max 1 (min n maxBinlogLimit))
  | some none => .error (badRequest "bad_limit" "limit must be int")

def waitMs : Except JsonErr Nat :=
  match query.wait with
  | none => .ok 0
  | some (some n) => .ok (min n maxBinlogWaitMs)
  | some none => .error (badRequest "bad_wait" "wait must be int (ms)")

def filters (slots : SlotTable) : Except JsonErr BucketFilter :=
  match query.slot with
  | none => .error (badRequest "bad_request"
      "slot is required (binlog is served per-slot, D2; replication-design §3.2)")
  | some name =>
    if !validSlotName name then .error badSlotName
    else
      match slots.slots.get? name with
      | none => .error ⟨.notFound, "ErrSlotUnknown",
          "no such slot; register via hello or POST /v1/repl/v1/slots first", none⟩
      | some slot =>
        if slot.stale then
          .error (binlogGone "slot marked stale; explicit rebuild required (ADR-33 RP8)")
        else .ok slot.filters

end BinlogQuery

namespace ReplServer

/-- The record that a downstream asks for next.  A new downstream asks for the first one of the
epoch that the floor is in. -/
def nextWanted (after floor : Gtid) : Gtid :=
  if after = ⟨0, 0⟩ then ⟨floor.epoch, 1⟩ else ⟨after.epoch, (after.seq + 1) % 2 ^ 64⟩

/-- `handle_binlog` in front of its loop. -/
def beginBinlog (server : ReplServer) (query : BinlogQuery) : Except JsonErr BinlogPoll := do
  let after ← query.position
  let limit ← query.batchLimit
  let waitMs ← query.waitMs
  let filters ← query.filters server.node.slots
  -- an empty binlog has no floor, whatever was in it
  if server.binlogFloor.any fun floor => nextWanted after floor < floor then
    throw (binlogGone "resume point below binlog floor (truncated); bootstrap from snapshot")
  else return ⟨after, limit, waitMs, filters⟩

/-- A round of the loop: the records behind the position, up to the first one whose data is not
here yet.  Records that the filters hold back go as heartbeats. -/
def scanBinlog (server : ReplServer) (poll : BinlogPoll) : List (Gtid × ReplRecord) :=
  let entries :=
    if server.node.watermark.epoch < poll.after.epoch then []
    else
      ((server.replBinlogScan poll.after poll.limit).filter fun row => poll.after < row.1).map
        fun row => (row.1, row.2.scopedFor poll.filters)
  entries.takeWhile fun row => row.2.dataRefs.isEmpty || !server.replPendingExists row.1

end ReplServer

structure GtidRange where
  epoch : Nat
  start : Nat
  stop : Nat
deriving Repr, DecidableEq

structure HelloRequest where
  nodeId : String
  slotName : String
  executedGtidSet : List GtidRange
  wantFilters : BucketFilter
  chain : List String := []
  everPrimary : Bool := false
deriving Repr, DecidableEq

/-- What a handshake finds outside the rows: the clock, the write of a new slot, and the failure of
the delegated credential. -/
structure HelloDraw where
  now : Int
  slotWrite : WriteFate
  credential : Option Error

structure HelloAnswer where
  slot : Slot
  highWatermark : Gtid
  nodeId : Option String
  chain : List String
deriving Repr, DecidableEq

namespace HelloRequest

def executed : List GtidRange → GtidSet → Except JsonErr GtidSet
  | [], set => .ok set
  | range :: rest, set =>
    if range.start = 0 ∨ range.start > range.stop then
      .error (badRequest "bad_request" "executed_gtid_set ranges must satisfy 1 <= start <= end")
    else executed rest ((set.insertRange range.epoch range.start range.stop).getD set)

def cursorOf (set : GtidSet) : Option Gtid :=
  (set.ranges.entries.flatMap fun entry => entry.2.map fun iv => (⟨entry.1, iv.2⟩ : Gtid)).max?

end HelloRequest

namespace ReplServer

def putReplSlot (server : ReplServer) (fate : WriteFate) (slot : Slot) :
    Except Error Unit × ReplServer :=
  match keyed : replSlotKey slot.name with
  | .error e => (.error e, server)
  | .ok () =>
    let slots : SlotTable := {
      slots := server.node.slots.slots.insert slot.name slot
      keyed := by
        intro name found inside
        rw [BTreeMap.get?_insert] at inside
        split at inside
        · next here =>
            cases inside
            rw [here]
            exact ⟨rfl, keyed⟩
        · exact server.node.slots.keyed name found inside }
    fate.settle () server { server with node := { server.node with slots := slots } }

/-- The checks of `handle_hello` that know nothing of positions. -/
def checkPeer (server : ReplServer) (cn : String) (hello : HelloRequest) : Except JsonErr Unit :=
  if hello.nodeId ≠ cn then
    .error ⟨.forbidden, "ErrNodeIdMismatch", "mTLS peer CN must equal hello node_id (ADR-33 RP6)", none⟩
  else if !validSlotName hello.slotName then .error badSlotName
  else if hello.chain.length > maxChainHops then
    .error (topologyLoop "upstream chain exceeds 8 hops (replication-design §3.6)")
  else if ¬hello.chain.Nodup then
    .error (topologyLoop "duplicate node_id in chain = topology loop (replication-design §3.6)")
  else if server.nodeId.any fun id => hello.chain.contains id then
    .error (topologyLoop "chain contains this node's node_id = topology loop (replication-design §3.6)")
  else if server.node.upchain.head? = some hello.nodeId then
    .error (topologyLoop "peer is this node's upstream = topology loop (replication-design §3.6)")
  else if hello.everPrimary then
    .error ⟨.conflict, "ErrDiverged",
      "node has been a primary; explicit rebuild required (ADR-33 RP5.4)", none⟩
  else .ok ()

/-- The position that `handle_hello` goes on from, behind all its checks of it. -/
def checkPosition (server : ReplServer) (slotName : String) (executed : GtidSet) :
    Except JsonErr (Option Gtid) :=
  let cursor := HelloRequest.cursorOf executed
  if (server.node.slots.slots.get? slotName).any Slot.stale then
    .error (binlogGone
      "slot marked stale by hard-cap truncation; explicit rebuild required (ADR-33 RP8)")
  else if !executed.isSubset server.upstreamGtidSet then
    .error ⟨.conflict, "ErrDiverged",
      "downstream executed set not a subset of upstream; explicit rebuild required (ADR-33 RP2.3)",
      none⟩
  else
    let belowFloor := cursor.any fun cursor => server.binlogFloor.any fun floor =>
      (⟨cursor.epoch, min (cursor.seq + 1) u64Max⟩ : Gtid) < floor
    if belowFloor then
      .error (binlogGone
        "resume position below binlog floor (truncated); explicit rebuild required (ADR-33 RP2.3)")
    else .ok cursor

def helloSlot (server : ReplServer) (hello : HelloRequest) (cursor : Option Gtid) (draw : HelloDraw) :
    Except JsonErr Slot × ReplServer :=
  match server.node.slots.slots.get? hello.slotName with
  | some slot =>
    if slot.consumerNodeId ≠ hello.nodeId then
      (.error ⟨.conflict, "ErrSlotOwnerMismatch", "slot is bound to a different consumer node", none⟩,
        server)
    else if slot.filters ≠ hello.wantFilters then
      (.error ⟨.conflict, "ErrFilterMismatch",
        "filter change requires drop + recreate of the slot (R9; no in-place edit)", none⟩, server)
    else (.ok slot, server)
  | none =>
    if server.slotLimitReached hello.slotName then
      (.error ⟨.forbidden, "ErrSlotLimit", "max_slots hard cap reached (ADR-33 RP3.1)", none⟩, server)
    else
      let slot : Slot := {
        name := hello.slotName
        consumerNodeId := hello.nodeId
        confirmedGtid := cursor.getD ⟨0, 0⟩
        filters := hello.wantFilters
        createdAt := draw.now
        lastAckAt := draw.now }
      match server.putReplSlot draw.slotWrite slot with
      | (.error e, server) => (.error (internalErr "slot register" e), server)
      | (.ok (), server) => (.ok slot, server)

def checkHello (server : ReplServer) (cn : String) (hello : HelloRequest) :
    Except JsonErr (Option Gtid) := do
  server.checkPeer cn hello
  let executed ← HelloRequest.executed hello.executedGtidSet GtidSet.new
  server.checkPosition hello.slotName executed

def handleHello (server : ReplServer) (cn : String) (hello : HelloRequest) (draw : HelloDraw) :
    Except JsonErr HelloAnswer × ReplServer :=
  match server.checkHello cn hello with
  | .error e => (.error e, server)
  | .ok cursor =>
    match server.helloSlot hello cursor draw with
    | (.error e, server) => (.error e, server)
    | (.ok slot, server) =>
      match draw.credential with
      | some e => (.error (internalErr "delegated credential" e), server)
      | none => (.ok ⟨slot, server.node.watermark, server.nodeId, server.node.upchain⟩, server)

/-- The errors of `ack_repl_slot` as they are answered. -/
def ackError : Error → JsonErr
  | .notFound _ => ⟨.notFound, "ErrSlotUnknown", "no such slot", none⟩
  | .invalidArgument message =>
    if message = "slot stale" then
      binlogGone "slot marked stale; explicit rebuild required (ADR-33 RP8)"
    else if "regress".toList <:+: message.toList then
      badRequest "bad_request" "confirmed_gtid must not regress"
    else internalErr "slot ack" (.invalidArgument message)
  | e => internalErr "slot ack" e

def handleSlotAck (server : ReplServer) (name : String) (confirmed : Option Gtid) (fate : WriteFate)
    (now : Int) : Except JsonErr Slot × ReplServer :=
  if !validSlotName name then (.error badSlotName, server)
  else
    match confirmed with
    | none => (.error (badRequest "bad_request"
        "confirmed_gtid must be \"\x7bepoch\x7d-\x7bseq\x7d\""), server)
    | some confirmed =>
      let result := server.node.slots.ackReplSlot fate name confirmed now
      (result.1.mapError ackError, { server with node := { server.node with slots := result.2 } })

end ReplServer

end FastS3.Repl
