import FastS3.Repl.Numbers

namespace FastS3.Repl

open FastS3.Core FastS3.Data FastS3.Meta

/-! Streams without gaps.

A downstream misses nothing as long as the floor of the binlog tells what is missing, and no truncation
overtakes a request that waits.  The floor does not tell it where the binlog is empty, where the
position is the last one of an epoch, and to a downstream that is new.
-/

/-- The records are those of the upstream, each as the filters of its request let it through. -/
def Delivered (rows given : List (Gtid × ReplRecord)) : Prop :=
  List.Forall₂ (fun row other => other.1 = row.1 ∧ ∃ filters, other.2 = row.2.scopedFor filters) rows given

/-- The downstream is told that records are gone if they are, and goes on if none is. -/
def Reply.Right (reply : Reply) : Prop :=
  (reply.answer.isGone = true → reply.missing = true) ∧
    (reply.answer.goesOn = true → reply.missing = false)

namespace ReplStream

/-- The downstream has the records from where it started to where it stands, and its answers are
right. -/
structure Faithful (start : Gtid) (w : ReplStream) : Prop where
  delivered : Delivered (between start w.standby.cursor w.written) w.applied
  right : ∀ reply, w.reply = some reply → reply.Right

/-- The check against the floor, which asks for the record `next`, finds out what is missing. -/
structure Tells (w : ReplStream) (position : Gtid) (next : Gtid → Gtid) : Prop where
  /-- An empty binlog has lost nothing behind the position. -/
  empty : w.server.binlogFloor = none → ¬w.Missing position
  /-- A floor beyond the record that is asked for has a lost one in front of it. -/
  ends : ∀ floor ∈ w.server.binlogFloor, next floor < floor → w.Missing position
  /-- The first number of an epoch is the first record of all for a downstream that is new. -/
  genesis : ∀ floor ∈ w.server.binlogFloor, position = ⟨0, 0⟩ → floor.seq ≤ 1 → ¬w.Missing position

instance (w : ReplStream) (position : Gtid) (next : Gtid → Gtid) : Decidable (w.Tells position next) :=
  decidable_of_iff
    ((w.server.binlogFloor = none → ¬w.Missing position) ∧
      (∀ floor ∈ w.server.binlogFloor, next floor < floor → w.Missing position) ∧
      ∀ floor ∈ w.server.binlogFloor, position = ⟨0, 0⟩ → floor.seq ≤ 1 → ¬w.Missing position)
    ⟨fun both => ⟨both.1, both.2.1, both.2.2⟩, fun tells => ⟨tells.empty, tells.ends, tells.genesis⟩⟩

def SlotTells (w : ReplStream) (name : String) (position : Gtid) : Prop :=
  (w.server.node.slots.slots.get? name).any Slot.stale = true → w.Missing position

def nextOf (position : Gtid) (_floor : Gtid) : Gtid :=
  ⟨position.epoch, min (position.seq + 1) u64Max⟩

def Meets (encodedLen : ReplRecord → Nat) (w : ReplStream) : StreamStep → Prop
  | .truncate now retain _ => ∀ poll ∈ w.waiting, ∀ row ∈
      w.server.binlog.entries.take (w.server.cutCount encodedLen now retain), row.1 ≤ poll.after
  | .hello _ hello _ => w.SlotTells hello.slotName ((helloPosition hello).getD ⟨0, 0⟩) ∧
      ∀ position ∈ helloPosition hello, w.Tells position (nextOf position)
  | .binlog slot _ _ => w.SlotTells slot w.standby.cursor ∧
      w.Tells w.standby.cursor (ReplServer.nextWanted w.standby.cursor)
  | .ack slot _ _ => w.SlotTells slot w.standby.cursor
  | .upstream _ | .setSlots _ | .poll _ | .hangUp | .receive _ => True

instance (w : ReplStream) (name : String) (position : Gtid) : Decidable (w.SlotTells name position) :=
  inferInstanceAs (Decidable (_ → _))

instance (encodedLen : ReplRecord → Nat) (w : ReplStream) (next : StreamStep) :
    Decidable (w.Meets encodedLen next) :=
  match next with
  | .truncate _ _ _ => inferInstanceAs (Decidable (∀ poll ∈ w.waiting, ∀ row ∈ _, _))
  | .hello _ _ _ => inferInstanceAs (Decidable (_ ∧ ∀ position ∈ _, _))
  | .binlog _ _ _ => inferInstanceAs (Decidable (_ ∧ _))
  | .ack _ _ _ => inferInstanceAs (Decidable (SlotTells _ _ _))
  | .upstream _ | .setSlots _ | .poll _ | .hangUp | .receive _ => isTrue trivial

structure Sound (start : Gtid) (w : ReplStream) : Prop where
  faithful : w.Faithful start
  cut : CutLog w.written w.server.binlog.entries
  numbered : Numbered w.server.node w.written
  positive : ∀ row ∈ w.server.binlog.entries, ⟨0, 0⟩ < row.1
  began : start ≤ w.standby.cursor
  place : w.standby.cursor = start ∨ ∃ row ∈ w.written, row.1 = w.standby.cursor
  waits : ∀ poll, w.waiting = some poll → poll.after = w.standby.cursor ∧ ¬w.Missing w.standby.cursor
  alone : ∀ reply, w.reply = some reply → w.waiting = none
  carries : ∀ position watermark entries missing,
    w.reply = some ⟨position, .entries watermark entries, missing⟩ →
      ∃ taken, taken <+: behind w.standby.cursor w.written ∧ Delivered taken entries

end ReplStream

section Scans

variable {server : ReplServer} {after floor : Gtid} {limit : Nat}

theorem filter_dropWhile {α : Type} {skips keeps : α → Bool} {rows : List α}
    (apart : ∀ row, skips row = true → keeps row = false) :
    (rows.dropWhile skips).filter keeps = rows.filter keeps := by
  induction rows with
  | nil => rfl
  | cons row rows ih =>
    rw [List.dropWhile_cons]
    split
    · next skipped => rw [ih, List.filter_cons_of_neg (by rw [apart row skipped]; exact Bool.false_ne_true)]
    · rfl

theorem replBinlogScan_eq :
    server.replBinlogScan after limit = (behind after server.binlog.entries).take limit := by
  rw [ReplServer.replBinlogScan, behind, filter_dropWhile]
  intro row skipped
  rw [decide_eq_true_eq, Gtid.lt_iff] at skipped
  rw [decide_eq_false_iff_not, Gtid.lt_iff]
  dsimp only at skipped
  omega

theorem binlogFloor_eq (positive : ∀ row ∈ server.binlog.entries, (⟨0, 0⟩ : Gtid) < row.1) :
    server.binlogFloor = server.binlog.entries.head?.map Prod.fst := by
  have all : behind (⟨0, 0⟩ : Gtid) server.binlog.entries = server.binlog.entries := by
    apply List.filter_eq_self.mpr
    intro row inside
    exact decide_eq_true (positive row inside)
  rw [ReplServer.binlogFloor, replBinlogScan_eq, all]
  cases server.binlog.entries with
  | nil => rfl
  | cons first rest => rfl

theorem delivered_scoped (rows : List (Gtid × ReplRecord)) (filters : BucketFilter) :
    Delivered rows (rows.map fun row => (row.1, row.2.scopedFor filters)) := by
  induction rows with
  | nil => exact .nil
  | cons row rows ih => exact .cons ⟨rfl, filters, rfl⟩ ih

theorem scanBinlog_delivered (server : ReplServer) (poll : BinlogPoll) :
    ∃ taken, taken <+: behind poll.after server.binlog.entries ∧
      Delivered taken (server.scanBinlog poll) := by
  have found : ((server.replBinlogScan poll.after poll.limit).filter fun row => poll.after < row.1) =
      (behind poll.after server.binlog.entries).take poll.limit := by
    rw [replBinlogScan_eq]
    apply List.filter_eq_self.mpr
    intro row inside
    exact decide_eq_true (mem_behind.mp (List.mem_of_mem_take inside)).2
  rw [ReplServer.scanBinlog]
  split
  · exact ⟨[], List.nil_prefix, .nil⟩
  · rw [found, List.takeWhile_map]
    refine ⟨_, ?_, delivered_scoped _ poll.filters⟩
    exact (List.takeWhile_prefix _).trans (List.take_prefix _ _)

variable {given rows : List (Gtid × ReplRecord)}

theorem Delivered.keys (delivered : Delivered rows given) :
    given.map Prod.fst = rows.map Prod.fst := by
  induction delivered with
  | nil => rfl
  | cons same rest ih => rw [List.map_cons, List.map_cons, same.1, ih]

theorem Delivered.append {later more : List (Gtid × ReplRecord)} (first : Delivered rows given)
    (second : Delivered later more) : Delivered (rows ++ later) (given ++ more) :=
  List.rel_append first second

theorem reached_congr (keys : given.map Prod.fst = rows.map Prod.fst) :
    Data.reached after given = Data.reached after rows := by
  rw [Data.reached, Data.reached, ← List.getLast?_map, ← List.getLast?_map, keys]

theorem Delivered.take {landed : List (Gtid × ReplRecord)} (delivered : Delivered rows given)
    (front : landed <+: given) : ∃ taken, taken <+: rows ∧ Delivered taken landed := by
  obtain ⟨rest, parts⟩ := front
  refine ⟨rows.take landed.length, List.take_prefix _ _, ?_⟩
  have part := List.forall₂_take landed.length delivered
  rwa [← parts, List.take_left] at part

end Scans

theorem pullBatch_lands (config : MetaConfig) {rows : List (Gtid × ReplRecord)} (fates : List Fate)
    {store : MetaStore} (ascending : rows.Pairwise fun row later => row.1 < later.1)
    (ahead : ∀ row ∈ rows, store.cursor < row.1) :
    ∃ landed, landed <+: rows ∧
      (landings config store (pullBatch config rows fates store)).map
        (fun delivery => (delivery.gtid, delivery.record)) = landed ∧
      (store.receive config (pullBatch config rows fates store)).cursor = Data.reached store.cursor landed := by
  induction rows generalizing fates store with
  | nil => exact ⟨[], List.prefix_rfl, by simp [pullBatch, landings], by simp [pullBatch]; rfl⟩
  | cons row rows ih =>
    cases fates with
    | nil => exact ⟨[], List.nil_prefix, by simp [pullBatch, landings], by simp [pullBatch]; rfl⟩
    | cons fate fates =>
      obtain ⟨above, sorted⟩ := List.pairwise_cons.mp ascending
      have first : store.cursor < row.1 := ahead row List.mem_cons_self
      have moves : (store.deliver config ⟨row.1, row.2, fate⟩).2 = store ∨ store.cursor < row.1 ∧
          (store.deliver config ⟨row.1, row.2, fate⟩).2.cursor = row.1 :=
        deliver_cases store ⟨row.1, row.2, fate⟩
      have pulls : pullBatch config (row :: rows) (fate :: fates) store = [⟨row.1, row.2, fate⟩] ∨
          row.1 ≤ (store.deliver config ⟨row.1, row.2, fate⟩).2.cursor ∧
            pullBatch config (row :: rows) (fate :: fates) store = ⟨row.1, row.2, fate⟩ ::
              pullBatch config rows fates (store.deliver config ⟨row.1, row.2, fate⟩).2 :=
        pullBatch_cons row rows fate fates store
      obtain failed | ⟨passed, pulled⟩ := pulls
      · rw [failed]
        obtain same | ⟨_, moved⟩ := moves
        · refine ⟨[], List.nil_prefix, ?_, ?_⟩
          · simp [landings, same]
          · simp [MetaStore.receive, same, Data.reached]
        · refine ⟨[row], ⟨rows, rfl⟩, ?_, ?_⟩
          · simp [landings, moved, first]
          · simp [MetaStore.receive, moved, Data.reached]
      · have moved : (store.deliver config ⟨row.1, row.2, fate⟩).2.cursor = row.1 := by
          obtain same | ⟨_, moved⟩ := moves
          · rw [same] at passed
            exact absurd first (not_lt.mpr passed)
          · exact moved
        have later : ∀ other ∈ rows,
            (store.deliver config ⟨row.1, row.2, fate⟩).2.cursor < other.1 := by
          rw [moved]
          exact above
        obtain ⟨landed, front, lands, cursor⟩ := ih fates sorted later
        rw [pulled]
        refine ⟨row :: landed, List.cons_prefix_cons.mpr ⟨rfl, front⟩, ?_, ?_⟩
        · rw [landings, if_pos (by rw [moved]; exact first), List.map_cons, lands]
        · rw [moved] at cursor
          rw [reached_cons]
          exact cursor

section Requests

variable {server : ReplServer} {position : Gtid} {slot : String} {limit waitMs : Nat}

theorem beginBinlog_fetch :
    server.beginBinlog (ReplStream.fetchQuery position slot limit waitMs) =
      match (ReplStream.fetchQuery position slot limit waitMs).filters server.node.slots with
      | .error e => .error e
      | .ok filters =>
        if server.binlogFloor.any fun floor => ReplServer.nextWanted position floor < floor then
          .error (binlogGone "resume point below binlog floor (truncated); bootstrap from snapshot")
        else .ok ⟨position, max 1 (min limit maxBinlogLimit), min waitMs maxBinlogWaitMs, filters⟩ := by
  cases looked : (ReplStream.fetchQuery position slot limit waitMs).filters server.node.slots with
  | error e =>
    simp only [ReplServer.beginBinlog, looked]
    rfl
  | ok filters =>
    simp only [ReplServer.beginBinlog, looked]
    rfl

/-- A request behind the checks goes on from its position, and the floor is not beyond the record that
it asks for. -/
theorem beginBinlog_ok {poll : BinlogPoll}
    (passed : server.beginBinlog (ReplStream.fetchQuery position slot limit waitMs) = .ok poll) :
    poll.after = position ∧ ∀ floor, server.binlogFloor = some floor →
      ¬ReplServer.nextWanted position floor < floor := by
  rw [beginBinlog_fetch] at passed
  split at passed
  · cases passed
  · split at passed
    · cases passed
    · next reachable =>
        cases passed
        refine ⟨rfl, ?_⟩
        intro floor found below
        rw [found, Option.any_some, decide_eq_true_eq] at reachable
        exact reachable below

variable {e : JsonErr} {hello : HelloRequest} {cn : String}

theorem beginBinlog_gone
    (refused : server.beginBinlog (ReplStream.fetchQuery position slot limit waitMs) = .error e)
    (gone : e.error = "ErrBinlogGone") :
    (server.node.slots.slots.get? slot).any Slot.stale = true ∨
      ∃ floor, server.binlogFloor = some floor ∧ ReplServer.nextWanted position floor < floor := by
  rw [beginBinlog_fetch] at refused
  split at refused
  · next failed =>
      cases refused
      left
      rw [ReplStream.fetchQuery, BinlogQuery.filters] at failed
      dsimp only at failed
      split at failed
      · cases failed
        exact absurd gone (by decide)
      · split at failed
        · cases failed
          exact absurd gone (by decide)
        · next found =>
            split at failed
            · next stale =>
                rw [found]
                exact stale
            · cases failed
  · split at refused
    · next below =>
        obtain ⟨floor, found, beyond⟩ := (Option.any_eq_true _ _).mp below
        exact .inr ⟨floor, found, of_decide_eq_true beyond⟩
    · cases refused

def withSlots (server : ReplServer) (slots : SlotTable) : ReplServer :=
  { server with node := { server.node with slots := slots } }

theorem putReplSlot_slots (server : ReplServer) (fate : WriteFate) (next : Slot) :
    ∃ slots, (server.putReplSlot fate next).2 = withSlots server slots := by
  unfold ReplServer.putReplSlot
  split
  · exact ⟨server.node.slots, rfl⟩
  · cases fate with
    | refused message => exact ⟨server.node.slots, rfl⟩
    | unflushed message => exact ⟨_, rfl⟩
    | kept => exact ⟨_, rfl⟩

theorem internalErr_not_gone (what : String) (cause : Error) :
    (internalErr what cause).error ≠ "ErrBinlogGone" := by
  show "internal" ≠ "ErrBinlogGone"
  decide

theorem helloSlot_slots (server : ReplServer) (hello : HelloRequest) (cursor : Option Gtid) (draw : HelloDraw) :
    ∃ slots, (server.helloSlot hello cursor draw).2 = withSlots server slots ∧
      ∀ e, (server.helloSlot hello cursor draw).1 = .error e → e.error ≠ "ErrBinlogGone" := by
  unfold ReplServer.helloSlot
  split
  · split
    · exact ⟨server.node.slots, rfl, fun e failed => by cases failed; decide⟩
    · split
      · exact ⟨server.node.slots, rfl, fun e failed => by cases failed; decide⟩
      · exact ⟨server.node.slots, rfl, fun e failed => nomatch (failed : Except.ok _ = Except.error e)⟩
  · split
    · exact ⟨server.node.slots, rfl, fun e failed => by cases failed; decide⟩
    · dsimp only
      generalize slotted : Slot.mk _ _ _ _ _ _ _ = next
      obtain ⟨slots, put⟩ := putReplSlot_slots server draw.slotWrite next
      split
      · next failed =>
          rw [failed] at put
          refine ⟨slots, put, ?_⟩
          intro e outcome
          cases outcome
          exact internalErr_not_gone _ _
      · next passed =>
          rw [passed] at put
          exact ⟨slots, put, fun e failed => nomatch (failed : Except.ok _ = Except.error e)⟩

theorem checkPeer_not_gone (refused : server.checkPeer cn hello = .error e) :
    e.error ≠ "ErrBinlogGone" := by
  unfold ReplServer.checkPeer at refused
  repeat' split at refused
  all_goals
    cases refused <;> decide

theorem executed_not_gone {ranges : List GtidRange} {set : GtidSet}
    (refused : HelloRequest.executed ranges set = .error e) : e.error ≠ "ErrBinlogGone" := by
  induction ranges generalizing set with
  | nil => cases refused
  | cons range ranges ih =>
    rw [HelloRequest.executed] at refused
    split at refused
    · cases refused
      decide
    · exact ih refused

theorem checkHello_ok {cursor : Option Gtid} (passed : server.checkHello cn hello = .ok cursor) :
    cursor = ReplStream.helloPosition hello ∧ ∀ position floor, cursor = some position →
      server.binlogFloor = some floor → ¬ReplStream.nextOf position floor < floor := by
  rw [ReplServer.checkHello] at passed
  rw [ReplStream.helloPosition]
  cases checked : server.checkPeer cn hello with
  | error e =>
    rw [checked] at passed
    cases passed
  | ok done =>
    cases built : HelloRequest.executed hello.executedGtidSet GtidSet.new with
    | error e =>
      rw [checked, built] at passed
      cases passed
    | ok executed =>
      rw [checked, built] at passed
      change server.checkPosition hello.slotName executed = .ok cursor at passed
      rw [ReplServer.checkPosition] at passed
      dsimp only at passed
      split at passed
      · cases passed
      · split at passed
        · cases passed
        · split at passed
          · cases passed
          · next reachable =>
              cases passed
              refine ⟨rfl, ?_⟩
              intro position floor here found below
              apply reachable
              rw [here, found, Option.any_some, Option.any_some]
              exact decide_eq_true below

theorem checkHello_gone (refused : server.checkHello cn hello = .error e)
    (gone : e.error = "ErrBinlogGone") :
    (server.node.slots.slots.get? hello.slotName).any Slot.stale = true ∨
      ∃ position floor, ReplStream.helloPosition hello = some position ∧
        server.binlogFloor = some floor ∧ ReplStream.nextOf position floor < floor := by
  rw [ReplServer.checkHello] at refused
  rw [ReplStream.helloPosition]
  cases checked : server.checkPeer cn hello with
  | error e' =>
    rw [checked] at refused
    cases refused
    exact absurd gone (checkPeer_not_gone checked)
  | ok done =>
    cases built : HelloRequest.executed hello.executedGtidSet GtidSet.new with
    | error e' =>
      rw [checked, built] at refused
      cases refused
      exact absurd gone (executed_not_gone built)
    | ok executed =>
      rw [checked, built] at refused
      change server.checkPosition hello.slotName executed = .error e at refused
      rw [ReplServer.checkPosition] at refused
      dsimp only at refused
      split at refused
      · next stale => exact .inl stale
      · split at refused
        · cases refused
          exact absurd gone (by decide)
        · split at refused
          · next below =>
              obtain ⟨position, here, beyond⟩ := (Option.any_eq_true _ _).mp below
              obtain ⟨floor, found, less⟩ := (Option.any_eq_true _ _).mp beyond
              exact .inr ⟨position, floor, here, found, of_decide_eq_true less⟩
          · cases refused

theorem ackReplSlot_stale {slots : SlotTable} {fate : WriteFate} {name : String} {confirmed : Gtid}
    {now : Int} {e : Error} (valid : replSlotKey name = .ok ())
    (failed : (slots.ackReplSlot fate name confirmed now).1 = .error e)
    (gone : (ReplServer.ackError e).error = "ErrBinlogGone") :
    (slots.slots.get? name).any Slot.stale = true := by
  unfold SlotTable.ackReplSlot at failed
  rw [valid] at failed
  dsimp only at failed
  split at failed
  · cases failed
    exact absurd gone (by simp [ReplServer.ackError])
  · next slot held =>
      split at failed
      · next stale =>
          rw [held]
          exact stale
      · split at failed
        · cases failed
          exact absurd gone (by decide)
        · cases fate with
          | refused message =>
            cases failed
            exact absurd gone (internalErr_not_gone _ _)
          | unflushed message =>
            cases failed
            exact absurd gone (internalErr_not_gone _ _)
          | kept => cases failed

theorem validSlotName_key {name : String} (valid : validSlotName name = true) :
    replSlotKey name = .ok () := by
  rw [validSlotName, Bool.and_eq_true, Bool.and_eq_true, Bool.not_eq_true', List.all_eq_true] at valid
  obtain ⟨⟨some, _⟩, letters⟩ := valid
  have noNul : name.toList.contains (Char.ofNat 0) = false := by
    rw [← Bool.not_eq_true, List.contains_iff_mem]
    intro inside
    exact absurd (letters _ inside) (by decide)
  rw [replSlotKey, some, noNul]
  rfl

theorem handleSlotAck_slots (server : ReplServer) (slot : String) (confirmed : Gtid) (fate : WriteFate) (now : Int) :
    ∃ slots, (server.handleSlotAck slot (some confirmed) fate now).2 = withSlots server slots ∧
      ∀ e, (server.handleSlotAck slot (some confirmed) fate now).1 = .error e →
        e.error = "ErrBinlogGone" → (server.node.slots.slots.get? slot).any Slot.stale = true := by
  unfold ReplServer.handleSlotAck
  split
  · refine ⟨server.node.slots, rfl, ?_⟩
    intro e refused gone
    cases refused
    exact absurd gone (by decide)
  · next valid =>
      refine ⟨_, rfl, ?_⟩
      intro e refused gone
      dsimp only at refused
      cases acked : (server.node.slots.ackReplSlot fate slot confirmed now).1 with
      | ok held =>
        rw [acked] at refused
        cases refused
      | error cause =>
        rw [acked] at refused
        cases refused
        exact ackReplSlot_stale (validSlotName_key (by simpa using valid)) acked gone

end Requests

end FastS3.Repl
