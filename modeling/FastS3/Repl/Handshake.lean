import FastS3.Repl.Server

namespace FastS3.Repl

open FastS3.Core FastS3.Data FastS3.Meta

/-! What a node writes when it joins an upstream, and what it forgets before it is rebuilt. -/

def outgoingHelloChain (upchain : List String) : List String :=
  upchain.tail

structure HelloWrites where
  upchain : WriteFate := .kept
  epoch : WriteFate := .kept
  bucketScoped : WriteFate := .kept
  credential : Option Error := none

namespace ReplServer

/-- The request of `hello`. -/
def outgoingHello (server : ReplServer) (nodeId slotName : String) (filters : BucketFilter) :
    HelloRequest where
  nodeId := nodeId
  slotName := slotName
  executedGtidSet := server.upstreamGtidSet.ranges.entries.flatMap fun entry =>
    entry.2.map fun iv => ⟨entry.1, iv.1, iv.2⟩
  wantFilters := filters
  chain := outgoingHelloChain server.node.upchain
  everPrimary := server.node.everPrimary

def setReplUpchain (server : ReplServer) (fate : WriteFate) (chain : List String) :
    Except Error Unit × ReplServer :=
  fate.settle () server { server with node := { server.node with upchain := chain } }

/-- What `hello` writes behind the chain: the epoch, the mark of a node with few buckets, and the
credential. -/
def settleHello (server : ReplServer) (answer : HelloAnswer) (writes : HelloWrites) :
    Except Error Unit × ReplServer :=
  let advanced :=
    if answer.highWatermark.epoch > server.node.epoch then
      writes.epoch.settle () server
        { server with node := server.node.setReplEpoch answer.highWatermark.epoch }
    else (.ok (), server)
  match advanced with
  | (.error e, server) => (.error e, server)
  | (.ok (), server) =>
    let limited : Bool := answer.slot.filters ≠ .all
    match writes.bucketScoped.settle () server
        { server with node := { server.node with bucketScoped := limited } } with
    | (.error e, server) => (.error e, server)
    | (.ok (), server) =>
      match writes.credential with
      | some e => (.error e, server)
      | none => (.ok (), server)

/-- `hello` behind an accepted request. -/
def acceptHello (server : ReplServer) (answer : HelloAnswer) (writes : HelloWrites) :
    Except Error Unit × ReplServer :=
  let chained :=
    match answer.nodeId with
    | some parent => server.setReplUpchain writes.upchain (parent :: answer.chain)
    | none => (.ok (), server)
  match chained with
  | (.error e, server) => (.error e, server)
  | (.ok (), server) => server.settleHello answer writes

end ReplServer

namespace ReplServer

variable {server : ReplServer} {cn : String} {hello : HelloRequest}

structure PeerPassed (server : ReplServer) (cn : String) (hello : HelloRequest) : Prop where
  named : hello.nodeId = cn
  short : hello.chain.length ≤ maxChainHops
  distinct : hello.chain.Nodup
  elsewhere : ∀ id ∈ server.nodeId, id ∉ hello.chain
  above : server.node.upchain.head? ≠ some hello.nodeId
  never : hello.everPrimary = false

theorem checkPeer_ok (passed : server.checkPeer cn hello = .ok ()) :
    server.PeerPassed cn hello := by
  rw [checkPeer] at passed
  split at passed
  · cases passed
  · next named =>
      split at passed
      · cases passed
      · split at passed
        · cases passed
        · next short =>
            split at passed
            · cases passed
            · next distinct =>
                split at passed
                · cases passed
                · next elsewhere =>
                    split at passed
                    · cases passed
                    · next above =>
                        split at passed
                        · cases passed
                        · next never =>
                            refine ⟨not_not.mp named, not_lt.mp short, not_not.mp distinct, ?_, above,
                              Bool.eq_false_iff.mpr never⟩
                            intro id here inside
                            apply elsewhere
                            rw [Option.mem_def.mp here, Option.any_some]
                            exact List.contains_iff_mem.mpr inside

theorem checkHello_stages {cursor : Option Gtid} (passed : server.checkHello cn hello = .ok cursor) :
    server.PeerPassed cn hello ∧ ∃ executed,
      HelloRequest.executed hello.executedGtidSet GtidSet.new = .ok executed ∧
        server.checkPosition hello.slotName executed = .ok cursor := by
  rw [checkHello] at passed
  cases checked : server.checkPeer cn hello with
  | error e =>
    rw [checked] at passed
    cases passed
  | ok done =>
    rw [checked] at passed
    cases built : HelloRequest.executed hello.executedGtidSet GtidSet.new with
    | error e =>
      rw [built] at passed
      cases passed
    | ok executed =>
      rw [built] at passed
      exact ⟨checkPeer_ok checked, executed, rfl, passed⟩

theorem handleHello_ok {draw : HelloDraw} {answer : HelloAnswer} {answered : ReplServer}
    (ran : server.handleHello cn hello draw = (.ok answer, answered)) :
    (∃ cursor, server.checkHello cn hello = .ok cursor) ∧ answer.nodeId = answered.nodeId ∧
      answer.chain = answered.node.upchain := by
  rw [handleHello] at ran
  split at ran
  · cases (Prod.mk.inj ran).1
  · next cursor passed =>
      split at ran
      · cases (Prod.mk.inj ran).1
      · split at ran
        · cases (Prod.mk.inj ran).1
        · cases ran
          exact ⟨⟨cursor, passed⟩, rfl, rfl⟩

def Same (server other : ReplServer) : Prop :=
  other.nodeId = server.nodeId ∧ other.node.upchain = server.node.upchain

theorem settle_same (fate : WriteFate) {before after : ReplServer} (old : server.Same before)
    (new : server.Same after) : server.Same (fate.settle () before after).2 := by
  cases fate with
  | refused message => exact old
  | unflushed message => exact new
  | kept => exact new

theorem putReplSlot_same (server : ReplServer) (fate : WriteFate) (slot : Slot) :
    server.Same (server.putReplSlot fate slot).2 := by
  rw [putReplSlot]
  split
  · exact ⟨rfl, rfl⟩
  · exact settle_same fate ⟨rfl, rfl⟩ ⟨rfl, rfl⟩

theorem helloSlot_same (server : ReplServer) (hello : HelloRequest) (cursor : Option Gtid)
    (draw : HelloDraw) :
    server.Same (server.helloSlot hello cursor draw).2 := by
  rw [helloSlot]
  split
  · split
    · exact ⟨rfl, rfl⟩
    · split <;> exact ⟨rfl, rfl⟩
  · split
    · exact ⟨rfl, rfl⟩
    · have put := putReplSlot_same server draw.slotWrite {
        name := hello.slotName
        consumerNodeId := hello.nodeId
        confirmedGtid := cursor.getD ⟨0, 0⟩
        filters := hello.wantFilters
        createdAt := draw.now
        lastAckAt := draw.now }
      dsimp only
      split
      · next failed => rwa [failed] at put
      · next written => rwa [written] at put

theorem handleHello_same (server : ReplServer) (cn : String) (hello : HelloRequest)
    (draw : HelloDraw) : server.Same (server.handleHello cn hello draw).2 := by
  rw [handleHello]
  split
  · exact ⟨rfl, rfl⟩
  · next cursor _ =>
      have kept := helloSlot_same server hello cursor draw
      split
      · next failed => rwa [failed] at kept
      · next found =>
          rw [found] at kept
          split <;> exact kept

theorem settleHello_same (server : ReplServer) (answer : HelloAnswer) (writes : HelloWrites) :
    server.Same (server.settleHello answer writes).2 := by
  have advanced : server.Same
      (if answer.highWatermark.epoch > server.node.epoch then
        writes.epoch.settle () server
          { server with node := server.node.setReplEpoch answer.highWatermark.epoch }
      else (.ok (), server)).2 := by
    split
    · exact settle_same writes.epoch ⟨rfl, rfl⟩ ⟨rfl, rfl⟩
    · exact ⟨rfl, rfl⟩
  rw [settleHello]
  dsimp only
  split
  · next failed => rwa [failed] at advanced
  · next other went =>
      rw [went] at advanced
      have limited : server.Same (writes.bucketScoped.settle () other
          { other with
            node := { other.node with bucketScoped := answer.slot.filters ≠ .all } }).2 :=
        settle_same writes.bucketScoped advanced advanced
      split
      · next failed => rwa [failed] at limited
      · next written =>
          rw [written] at limited
          split <;> exact limited

theorem acceptHello_nodeId (server : ReplServer) (answer : HelloAnswer) (writes : HelloWrites) :
    (server.acceptHello answer writes).2.nodeId = server.nodeId := by
  have chained : (match answer.nodeId with
      | some parent => server.setReplUpchain writes.upchain (parent :: answer.chain)
      | none => (.ok (), server)).2.nodeId = server.nodeId := by
    split
    · rw [setReplUpchain]
      cases writes.upchain <;> rfl
    · rfl
  rw [acceptHello]
  split
  · next failed => rwa [failed] at chained
  · next went =>
      rw [went] at chained
      exact (settleHello_same _ answer writes).1.trans chained

/-- The answer's chain becomes the one of the node that takes it, unless the write of it is refused, and
then the node does not go on. -/
theorem acceptHello_cases {taken : ReplServer} {answer : HelloAnswer} {writes : HelloWrites}
    {outcome : Except Error Unit} {parent : String} (told : answer.nodeId = some parent)
    (ran : server.acceptHello answer writes = (outcome, taken)) :
    taken.node.upchain = parent :: answer.chain ∨
      taken.node.upchain = server.node.upchain ∧ outcome ≠ .ok () := by
  rw [acceptHello, told] at ran
  dsimp only [setReplUpchain] at ran
  cases chain : writes.upchain with
  | refused message =>
    rw [chain] at ran
    obtain ⟨rfl, rfl⟩ := Prod.mk.inj ran
    exact .inr ⟨rfl, nofun⟩
  | unflushed message =>
    rw [chain] at ran
    obtain ⟨rfl, rfl⟩ := Prod.mk.inj ran
    exact .inl rfl
  | kept =>
    rw [chain] at ran
    dsimp only [WriteFate.settle] at ran
    have kept := settleHello_same
      { server with node := { server.node with upchain := parent :: answer.chain } } answer writes
    rw [ran] at kept
    exact .inl kept.2

end ReplServer

namespace ReplServer

/-- `clear_for_rebuild`, which ends early when a write fails: `families` of the rows were cleared, the
first of them with the role.  The slots go behind the mappings of a relay. -/
def clearForRebuild (server : ReplServer) (families : Nat) : ReplServer :=
  if families = 0 then server
  else { server with
    node := {
      store := server.node.store.clearForRebuild families
      role := .standby
      bucketScoped := false
      everPrimary := false
      upchain := []
      slots := if 5 < families then noSlots else server.node.slots }
    binlog := if 1 < families then BTreeMap.empty else server.binlog
    rmap := if 4 < families then fun _ => none else server.rmap }

end ReplServer

end FastS3.Repl
