import FastS3.Repl.Gapless

namespace FastS3.Repl

open FastS3.Core FastS3.Data FastS3.Meta

/-! Faithful streams over whole runs. -/

namespace ReplStream

variable {queueMax : Nat} {encodedLen : ReplRecord → Nat} {w : ReplStream} {start position : Gtid}

theorem Sound.missing_iff (sound : w.Sound start) {floor : Gtid}
    (found : w.server.binlogFloor = some floor) :
    w.Missing position ↔ ∃ row ∈ w.written, position < row.1 ∧ row.1 < floor := by
  rw [binlogFloor_eq sound.positive] at found
  obtain ⟨row, head, rfl⟩ := Option.map_eq_some_iff.mp found
  exact sound.cut.lost_iff_below head

/-- A floor beyond the number behind the position has a lost record in front of it, if one was written
with that number. -/
theorem Sound.ends_of_numbered (sound : w.Sound start) {next : Gtid → Gtid}
    (behind : ∀ floor, next floor = ⟨position.epoch, position.seq + 1⟩)
    (numbered : ∃ row ∈ w.written, row.1 = ⟨position.epoch, position.seq + 1⟩) :
    ∀ floor ∈ w.server.binlogFloor, next floor < floor → w.Missing position := by
  intro floor found beyond
  obtain ⟨row, wrote, number⟩ := numbered
  rw [sound.missing_iff found]
  refine ⟨row, wrote, ?_, ?_⟩
  · rw [number, Gtid.lt_iff]
    dsimp only
    omega
  · rwa [number, ← behind floor]

theorem Tells.found (sound : w.Sound start) {next : Gtid → Gtid} (tells : w.Tells position next)
    (near : ∀ floor, position = ⟨0, 0⟩ ∧ next floor = ⟨floor.epoch, 1⟩ ∨
      next floor ≤ ⟨position.epoch, position.seq + 1⟩)
    (passed : ∀ floor, w.server.binlogFloor = some floor → ¬next floor < floor) : ¬w.Missing position := by
  cases found : w.server.binlogFloor with
  | none => exact tells.empty found
  | some floor =>
    have reachable := not_lt.mp (passed floor found)
    obtain ⟨new, first⟩ | close := near floor
    · apply tells.genesis floor found new
      rw [first, ← not_lt, Gtid.lt_iff] at reachable
      dsimp only at reachable
      omega
    · rw [sound.missing_iff found]
      rintro ⟨row, _, behind, below⟩
      have before := below.trans_le (reachable.trans close)
      rw [Gtid.lt_iff] at behind before
      dsimp only at before
      omega

theorem nextWanted_near (position floor : Gtid) :
    position = ⟨0, 0⟩ ∧ ReplServer.nextWanted position floor = ⟨floor.epoch, 1⟩ ∨
      ReplServer.nextWanted position floor ≤ ⟨position.epoch, position.seq + 1⟩ := by
  rw [ReplServer.nextWanted]
  split
  · next new => exact .inl ⟨new, rfl⟩
  · right
    rw [← not_lt, Gtid.lt_iff]
    have bound := Nat.mod_le (position.seq + 1) (2 ^ 64)
    dsimp only
    omega

theorem nextOf_near (position floor : Gtid) :
    position = ⟨0, 0⟩ ∧ nextOf position floor = ⟨floor.epoch, 1⟩ ∨
      nextOf position floor ≤ ⟨position.epoch, position.seq + 1⟩ := by
  right
  rw [← not_lt, Gtid.lt_iff, nextOf]
  have bound := Nat.min_le_left (position.seq + 1) u64Max
  dsimp only
  omega

def answering (w : ReplStream) (slots : SlotTable) (waiting : Option BinlogPoll) (reply : Option Reply) :
    ReplStream :=
  { w with server := withSlots w.server slots, waiting := waiting, reply := reply }

theorem Sound.answering (sound : w.Sound start) (slots : SlotTable) {waiting : Option BinlogPoll}
    {reply : Option Reply}
    (right : ∀ answer, reply = some answer → answer.Right)
    (waits : ∀ poll, waiting = some poll →
      reply = none ∧ poll.after = w.standby.cursor ∧ ¬w.Missing w.standby.cursor)
    (carries : ∀ position watermark entries missing,
      reply = some ⟨position, .entries watermark entries, missing⟩ →
        ∃ taken, taken <+: behind w.standby.cursor w.written ∧ Delivered taken entries) :
    (w.answering slots waiting reply).Sound start where
  faithful := ⟨sound.faithful.delivered, right⟩
  cut := sound.cut
  numbered := ⟨sound.numbered.base, sound.numbered.epochs, sound.numbered.behind⟩
  positive := sound.positive
  began := sound.began
  place := sound.place
  waits := fun poll here => (waits poll here).2
  alone := by
    intro other here
    cases found : waiting with
    | none => rfl
    | some poll =>
      obtain ⟨silent, _⟩ := waits poll found
      rw [silent] at here
      cases here
  carries := carries

theorem Sound.tell (sound : w.Sound start) (slots : SlotTable) {answer : Answer}
    (plain : ∀ watermark entries, answer ≠ .entries watermark entries)
    (right : ∀ reply, w.answered position answer = some reply → reply.Right) :
    (w.answering slots none (w.answered position answer)).Sound start := by
  apply sound.answering slots right
  · intro poll here
    cases here
  · intro place watermark entries missing here
    cases here
    exact absurd rfl (plain watermark entries)

theorem refused_right {e : JsonErr} (gone : e.error = "ErrBinlogGone" → w.Missing position) :
    ∀ answer, w.answered position (.failed e) = some answer → answer.Right := by
  intro answer here
  cases here
  refine ⟨?_, Bool.noConfusion⟩
  intro told
  rw [Answer.isGone, beq_iff_eq] at told
  exact decide_eq_true (gone told)

theorem going_right {answer : Answer} (notGone : answer.isGone = false)
    (found : answer.goesOn = true → ¬w.Missing position) :
    ∀ reply, w.answered position answer = some reply → reply.Right := by
  intro reply here
  cases here
  refine ⟨?_, ?_⟩
  · intro told
    rw [notGone] at told
    cases told
  · intro goes
    exact decide_eq_false (found goes)

theorem step_binlog (sound : w.Sound start) (slot : String) (limit waitMs : Nat)
    (meets : w.Meets encodedLen (.binlog slot limit waitMs)) :
    (w.step queueMax encodedLen (.binlog slot limit waitMs)).Sound start := by
  obtain ⟨slotTells, tells⟩ := meets
  unfold step
  dsimp only
  cases begun : w.server.beginBinlog (fetchQuery w.standby.cursor slot limit waitMs) with
  | ok poll =>
    obtain ⟨same, passed⟩ := beginBinlog_ok begun
    have found := tells.found sound (nextWanted_near _) passed
    apply sound.answering w.server.node.slots
    · intro reply here
      cases here
    · intro other here
      cases here
      exact ⟨rfl, same, found⟩
    · intro position watermark entries missing here
      cases here
  | error e =>
    apply sound.tell w.server.node.slots (by nofun)
    apply refused_right
    intro gone
    obtain stale | ⟨floor, found, below⟩ := beginBinlog_gone begun gone
    · exact slotTells stale
    · exact tells.ends floor found below

theorem step_hello (sound : w.Sound start) (cn : String) (hello : HelloRequest) (draw : HelloDraw)
    (meets : w.Meets encodedLen (.hello cn hello draw)) :
    (w.step queueMax encodedLen (.hello cn hello draw)).Sound start := by
  obtain ⟨slotTells, tells⟩ := meets
  unfold step
  dsimp only
  rw [ReplServer.handleHello]
  cases checked : w.server.checkHello cn hello with
  | error e =>
    apply sound.tell w.server.node.slots (by nofun)
    apply refused_right
    intro gone
    obtain stale | ⟨position, floor, here, found, below⟩ := checkHello_gone checked gone
    · exact slotTells stale
    · rw [here]
      exact (tells position here).ends floor found below
  | ok cursor =>
    obtain ⟨isPosition, passed⟩ := checkHello_ok checked
    obtain ⟨slots, changed, notGone⟩ := helloSlot_slots w.server hello cursor draw
    dsimp only
    generalize w.server.helloSlot hello cursor draw = slotted at changed notGone ⊢
    obtain ⟨outcome, server⟩ := slotted
    dsimp only at changed notGone
    subst changed
    have refuses : ∀ e : JsonErr, e.error ≠ "ErrBinlogGone" →
        (w.answering slots none (w.answered ((helloPosition hello).getD ⟨0, 0⟩) (.failed e))).Sound start := by
      intro e other
      apply sound.tell slots (by nofun)
      apply refused_right
      intro gone
      exact absurd gone other
    cases outcome with
    | error e => exact refuses e (notGone e rfl)
    | ok slot =>
      cases draw.credential with
      | some e => exact refuses _ (internalErr_not_gone _ e)
      | none =>
        apply sound.tell slots (by nofun)
        apply going_right rfl
        intro goes
        cases here : helloPosition hello with
        | none =>
          rw [here] at goes
          cases goes
        | some position =>
          apply (tells position here).found sound (nextOf_near position)
          intro floor found
          exact passed position floor (isPosition.trans here) found

theorem step_ack (sound : w.Sound start) (slot : String) (fate : WriteFate) (now : Int)
    (meets : w.Meets encodedLen (.ack slot fate now)) :
    (w.step queueMax encodedLen (.ack slot fate now)).Sound start := by
  obtain ⟨slots, changed, gone⟩ := handleSlotAck_slots w.server slot w.standby.cursor fate now
  unfold step
  dsimp only
  generalize w.server.handleSlotAck slot (some w.standby.cursor) fate now = result at changed gone ⊢
  obtain ⟨outcome, server⟩ := result
  dsimp only at changed gone
  subst changed
  cases outcome with
  | ok held =>
    apply sound.tell slots (by nofun)
    exact going_right rfl Bool.noConfusion
  | error e =>
    apply sound.tell slots (by nofun)
    apply refused_right
    intro told
    exact meets (gone e rfl told)

theorem step_poll (sound : w.Sound start) (expired : Bool) :
    (w.step queueMax encodedLen (.poll expired)).Sound start := by
  unfold step
  dsimp only
  cases waiting : w.waiting with
  | none => exact sound
  | some poll =>
    obtain ⟨same, found⟩ := sound.waits poll waiting
    dsimp only
    split
    · obtain ⟨taken, front, delivered⟩ := scanBinlog_delivered w.server poll
      apply sound.answering w.server.node.slots
      · apply going_right rfl
        intro _
        rw [same]
        exact found
      · intro other here
        cases here
      · intro position watermark entries missing here
        cases here
        refine ⟨taken, ?_, delivered⟩
        rw [same, sound.cut.behind_eq found] at front
        exact front
    · exact sound

theorem step_receive (sound : w.Sound start) (fates : List Fate) :
    (w.step queueMax encodedLen (.receive fates)).Sound start := by
  unfold step
  dsimp only
  rw [receive]
  split
  · next position watermark entries missing here =>
      obtain ⟨taken, front, delivered⟩ := sound.carries position watermark entries missing here
      have ascending : taken.Pairwise fun row later => row.1 < later.1 :=
        (sound.cut.ascending.sublist List.filter_sublist).sublist front.sublist
      have keys := delivered.keys
      have sorted : entries.Pairwise fun row later => row.1 < later.1 := by
        rw [← List.pairwise_map (f := Prod.fst) (R := (· < ·)), keys, List.pairwise_map]
        exact ascending
      have ahead : ∀ row ∈ entries, w.standby.cursor < row.1 := by
        intro row inside
        have member : row.1 ∈ taken.map Prod.fst := by
          rw [← keys]
          exact List.mem_map_of_mem inside
        obtain ⟨other, there, equal⟩ := List.mem_map.mp member
        rw [← equal]
        exact (mem_behind.mp (front.subset there)).2
      obtain ⟨landed, part, lands, cursor⟩ :=
        pullBatch_lands (ReplNode.config queueMax) fates sorted ahead
      obtain ⟨rows, partTaken, deliveredRows⟩ := delivered.take part
      have frontRows := partTaken.trans front
      rw [reached_congr deliveredRows.keys] at cursor
      dsimp only
      rw [lands]
      have between' : between w.standby.cursor (Data.reached w.standby.cursor rows) w.written = rows :=
        between_reached sound.cut.ascending frontRows
      have advanced : w.standby.cursor ≤ Data.reached w.standby.cursor rows :=
        (le_reached (ascending.sublist partTaken.sublist) fun row inside =>
          (mem_behind.mp (frontRows.subset inside)).2).1
      have place : Data.reached w.standby.cursor rows = start ∨
          ∃ row ∈ w.written, row.1 = Data.reached w.standby.cursor rows := by
        cases final : rows.getLast? with
        | none =>
          rw [List.getLast?_eq_none_iff.mp final]
          exact sound.place
        | some row =>
          refine .inr ⟨row, ?_, ?_⟩
          · exact (mem_behind.mp (frontRows.subset (List.mem_of_getLast? final))).1
          · rw [Data.reached, final]
            rfl
      refine {
        faithful := ⟨?_, fun _ here => by cases here⟩
        cut := sound.cut
        numbered := sound.numbered
        positive := sound.positive
        began := ?_
        place := ?_
        waits := ?_
        alone := fun _ here => by cases here
        carries := fun _ _ _ _ here => by cases here }
      · dsimp only
        rw [cursor, between_append sound.cut.ascending sound.began advanced, between']
        exact sound.faithful.delivered.append deliveredRows
      · dsimp only
        rw [cursor]
        exact sound.began.trans advanced
      · dsimp only
        rw [cursor]
        exact place
      · intro poll waits
        rw [sound.alone _ here] at waits
        cases waits
  · exact { sound with
      faithful := ⟨sound.faithful.delivered, fun _ here => by cases here⟩
      alone := fun _ here => by cases here
      carries := fun _ _ _ _ here => by cases here }

theorem between_newest {row : Gtid × ReplRecord} (sound : w.Sound start)
    (newest : ∀ old ∈ w.written, old.1 < row.1) :
    between start w.standby.cursor (w.written ++ [row]) = between start w.standby.cursor w.written := by
  have apart : ¬(start < row.1 ∧ row.1 ≤ w.standby.cursor) := by
    intro ⟨after, within⟩
    obtain same | ⟨old, wrote, here⟩ := sound.place
    · rw [same] at within
      exact absurd after (not_lt.mpr within)
    · rw [← here] at within
      exact absurd (newest old wrote) (not_lt.mpr within)
  rw [between, between, List.filter_append, List.filter_cons_of_neg (by simpa using apart),
    List.filter_nil, List.append_nil]

theorem step_upstream (sound : w.Sound start) (next : UpstreamStep) :
    (w.step queueMax encodedLen (.upstream next)).Sound start := by
  have writes := advance_writes queueMax w.server sound.numbered.base next
  have numbered := writes.numbered sound.numbered
  have newest := writes.newest sound.numbered
  unfold step
  dsimp only
  have binlog : (w.server.advance queueMax next).binlog =
      (w.server.logs next).foldl (fun log row => log.insert row.1 row.2) w.server.binlog := rfl
  generalize w.server.advance queueMax next = server at writes numbered binlog
  generalize w.server.logs next = rows at writes numbered newest binlog
  cases writes with
  | silent base epoch stands =>
    have same : server.binlog = w.server.binlog := binlog
    rw [List.append_nil] at numbered ⊢
    refine { sound with
      faithful := ⟨sound.faithful.delivered, sound.faithful.right⟩
      cut := ?_
      numbered := numbered
      positive := ?_
      waits := ?_ }
    · dsimp only
      rw [same]
      exact sound.cut
    · dsimp only
      rw [same]
      exact sound.positive
    · intro poll waiting
      obtain ⟨here, found⟩ := sound.waits poll waiting
      refine ⟨here, ?_⟩
      rw [Missing]
      dsimp only
      rw [same]
      exact found
  | logged row base epoch within ahead stands =>
    have last : ∀ old ∈ w.written, old.1 < row.1 := newest row List.mem_cons_self
    have entries : server.binlog.entries = w.server.binlog.entries ++ [row] := by
      rw [binlog]
      apply BTreeMap.entries_insert_last
      intro old inside
      exact last old (sound.cut.suffix.subset inside)
    refine {
      faithful := ⟨?_, sound.faithful.right⟩
      cut := ?_
      numbered := numbered
      positive := ?_
      began := sound.began
      place := ?_
      waits := ?_
      alone := sound.alone
      carries := ?_ }
    · dsimp only
      rw [between_newest sound last]
      exact sound.faithful.delivered
    · dsimp only
      rw [entries]
      exact sound.cut.append last
    · dsimp only
      rw [entries]
      intro other inside
      obtain old | new := List.mem_append.mp inside
      · exact sound.positive other old
      · rw [List.mem_singleton.mp new, Gtid.lt_iff]
        obtain later | opened := ahead
        · rw [Gtid.lt_iff] at later
          dsimp only
          omega
        · left
          dsimp only
          omega
    · obtain same | ⟨old, wrote, here⟩ := sound.place
      · exact .inl same
      · exact .inr ⟨old, List.mem_append_left _ wrote, here⟩
    · intro poll waiting
      obtain ⟨here, found⟩ := sound.waits poll waiting
      refine ⟨here, ?_⟩
      rw [Missing]
      dsimp only
      rw [entries]
      exact lost_append found
    · intro position watermark given missing here
      obtain ⟨taken, front, delivered⟩ := sound.carries position watermark given missing here
      refine ⟨taken, ?_, delivered⟩
      dsimp only
      rw [behind_append]
      exact front.trans (List.prefix_append _ _)

theorem truncate_cuts (encodedLen : ReplRecord → Nat) (server : ReplServer) (now : Int) (retain : ReplRetainConfig) (fates : TruncateFates) :
    ∃ slots count, (server.truncate encodedLen now retain fates).node = (withSlots server slots).node ∧
      (server.truncate encodedLen now retain fates).binlog.entries = server.binlog.entries.drop count ∧
      (count = 0 ∨ count = server.cutCount encodedLen now retain) := by
  rw [ReplServer.truncate]
  cases ran : truncateBinlog encodedLen true now retain fates server.binlogRows with
  | mk answer rows =>
    obtain same | ⟨more, final, table, counted, _, cut, _⟩ := truncateBinlog_cases ran
    · refine ⟨server.node.slots, 0, ?_, ?_, .inl rfl⟩
      · rw [same]
        rfl
      · rw [same]
        rfl
    · refine ⟨table, server.cutCount encodedLen now retain, ?_, ?_, .inr rfl⟩
      · rw [cut]
        rfl
      · rw [cut, counted]
        rfl

theorem step_truncate (sound : w.Sound start) (now : Int) (retain : ReplRetainConfig)
    (fates : TruncateFates) (meets : w.Meets encodedLen (.truncate now retain fates)) :
    (w.step queueMax encodedLen (.truncate now retain fates)).Sound start := by
  obtain ⟨slots, count, node, entries, counted⟩ :=
    truncate_cuts encodedLen w.server now retain fates
  unfold step
  dsimp only
  generalize w.server.truncate encodedLen now retain fates = server at node entries
  refine { sound with
    faithful := ⟨sound.faithful.delivered, sound.faithful.right⟩
    cut := ?_
    numbered := ?_
    positive := ?_
    waits := ?_ }
  · dsimp only
    rw [entries]
    exact sound.cut.drop count
  · dsimp only
    rw [node]
    exact ⟨sound.numbered.base, sound.numbered.epochs, sound.numbered.behind⟩
  · dsimp only
    rw [entries]
    intro row inside
    exact sound.positive row (List.mem_of_mem_drop inside)
  · intro poll waiting
    obtain ⟨here, found⟩ := sound.waits poll waiting
    refine ⟨here, ?_⟩
    rw [Missing]
    dsimp only
    rw [entries]
    apply lost_drop found
    intro row inside
    obtain rfl | rfl := counted
    · cases inside
    · rw [← here]
      exact meets poll waiting row inside

theorem step_sound (sound : w.Sound start) (next : StreamStep) (meets : w.Meets encodedLen next) :
    (w.step queueMax encodedLen next).Sound start := by
  cases next with
  | upstream next => exact step_upstream sound next
  | truncate now retain fates => exact step_truncate sound now retain fates meets
  | setSlots slots => exact { sound with
      faithful := ⟨sound.faithful.delivered, sound.faithful.right⟩
      numbered := ⟨sound.numbered.base, sound.numbered.epochs, sound.numbered.behind⟩ }
  | hello cn hello draw => exact step_hello sound cn hello draw meets
  | binlog slot limit waitMs => exact step_binlog sound slot limit waitMs meets
  | poll expired => exact step_poll sound expired
  | ack slot fate now => exact step_ack sound slot fate now meets
  | hangUp => exact { sound with
      faithful := ⟨sound.faithful.delivered, fun _ here => nomatch (here : none = some _)⟩
      waits := fun _ here => nomatch (here : none = some _)
      alone := fun _ here => nomatch (here : none = some _)
      carries := fun _ _ _ _ here => nomatch (here : none = some _) }
  | receive fates => exact step_receive sound fates

/-- How a stream begins: the upstream is new, or it starts from a snapshot that carries what was
written before. -/
def opened (origin : Origin) (role : ReplRole) (bucketScoped : Bool) (slots : SlotTable)
    (nodeId : Option String) (maxSlots : Nat) (carried : List (Gtid × ReplRecord)) (standby : MetaStore) :
    ReplStream where
  server := ⟨origin.node role bucketScoped slots, BTreeMap.empty, fun _ => none, nodeId, maxSlots⟩
  written := carried
  standby := standby
  applied := []
  waiting := none
  reply := none

theorem opened_numbered {origin : Origin} {carried : List (Gtid × ReplRecord)} (role : ReplRole)
    (bucketScoped : Bool) (slots : SlotTable) (before : ∀ row ∈ carried, row.1 ≤ origin.point) :
    Numbered (origin.node role bucketScoped slots) carried := by
  cases origin with
  | created =>
    have zero : ∀ row ∈ carried, row.1.epoch = 0 ∧ row.1.seq = 0 := by
      intro row inside
      have low := before row inside
      rw [← not_lt, Gtid.lt_iff] at low
      rw [Origin.point] at low
      dsimp only at low
      omega
    refine ⟨Nat.le_refl 0, ?_, ?_⟩
    · intro row inside
      rw [(zero row inside).1]
      exact Nat.zero_le _
    · intro row inside
      rw [← not_lt, Gtid.lt_iff, (zero row inside).1, (zero row inside).2]
      omega
  | imported there pages exported =>
    obtain ⟨cursorRow, epochRow, seqRow, ebaseRow⟩ :=
      MetaStore.bootstrap_numbers (MetaStore.opened there) pages exported
    have aligned := exported.aligned
    generalize made : Origin.node role bucketScoped slots (.imported there pages exported) = node
    have store : node.store = (MetaStore.opened there).bootstrap pages exported := by
      rw [← made]
      rfl
    have isRole : node.role = role := by
      rw [← made]
      rfl
    have epoch : exported.point.epoch ≤ node.epoch := by
      rw [ReplNode.epoch, store, epochRow]
      exact le_max_right _ _
    have ebase : node.ebase = exported.ebase := by
      rw [ReplNode.ebase, store, ebaseRow]
      rfl
    have seq : exported.rawSeq ≤ node.seq := by
      rw [ReplNode.seq, store, seqRow]
      exact le_max_right _ _
    have stands : exported.point ≤ standing node := by
      rw [standing, isRole]
      cases role with
      | standby =>
        show exported.point ≤ node.store.cursor
        rw [MetaStore.cursor, store, cursorRow]
        exact le_refl exported.point
      | primary =>
        show exported.point ≤ node.watermark
        rw [← not_lt, Gtid.lt_iff, ReplNode.watermark, ebase]
        dsimp only
        omega
    refine ⟨?_, ?_, ?_⟩
    · rw [ebase]
      omega
    · intro row inside
      have low := before row inside
      rw [← not_lt, Gtid.lt_iff, Origin.point] at low
      omega
    · intro row inside
      exact (before row inside).trans stands

theorem opened_sound {origin : Origin} {carried : List (Gtid × ReplRecord)} (role : ReplRole)
    (bucketScoped : Bool) (slots : SlotTable) (nodeId : Option String) (maxSlots : Nat)
    (standby : MetaStore) (ascending : carried.Pairwise fun row later => row.1 < later.1)
    (before : ∀ row ∈ carried, row.1 ≤ origin.point) :
    (opened origin role bucketScoped slots nodeId maxSlots carried standby).Sound standby.cursor where
  faithful := by
    refine ⟨?_, fun _ here => nomatch (here : (none : Option Reply) = some _)⟩
    have none : between standby.cursor standby.cursor carried = [] := by
      apply List.filter_eq_nil_iff.mpr
      intro row _
      simp
    show Delivered (between standby.cursor standby.cursor carried) []
    rw [none]
    exact .nil
  cut := ⟨ascending, List.nil_suffix⟩
  numbered := opened_numbered role bucketScoped slots before
  positive := nofun
  began := le_refl _
  place := .inl rfl
  waits poll waiting := by
    have none : (none : Option BinlogPoll) = some poll := waiting
    cases none
  alone reply here := by
    have none : (none : Option Reply) = some reply := here
    cases none
  carries position watermark entries missing here := by
    have none : (none : Option Reply) = some ⟨position, .entries watermark entries, missing⟩ := here
    cases none

def sampleStream (role : ReplRole) : ReplStream :=
  opened .created role false oneSlot none 8 [] (MetaStore.opened Store.empty)

def sampleCommit (name : String) : StreamStep :=
  .upstream (.commit (.kept true) 0 [.bucketPut name .created none])

def samplePull (fates : List Fate) : List StreamStep :=
  [.binlog "a" 256 1000, .poll true, .receive fates]

def sampleCut : StreamStep :=
  .truncate 0 { retainBytesHard := 1 } ⟨.kept, [], fun _ => .kept⟩

def sampleTrim : StreamStep :=
  .truncate 0 { retainBytes := 1 } ⟨.kept, [], fun _ => .kept⟩

/-- The downstream has a record and waits for the next one; two are committed, and the first of them is
cut. -/
def overtakenRun : List StreamStep :=
  [sampleCommit "photos"] ++ samplePull [.kept true] ++ [.binlog "a" 256 1000, .poll false,
    sampleCommit "logs", sampleCommit "tmp", sampleCut, .poll false, .receive [.kept true, .kept true]]

/-- A standby takes a record, which its downstream takes and confirms, and is promoted. -/
def epochEndRun : List StreamStep :=
  [.upstream (.record (.kept true) ⟨1, 1⟩ (emptyRecord 1))] ++ samplePull [.kept true] ++
    [.ack "a" .kept 0, .upstream (.promote .kept false 0 ⟨[], [], fun _ _ => []⟩), sampleTrim,
      .binlog "a" 256 1000]

def sampleEnd (role : ReplRole) (run : List StreamStep) : ReplStream :=
  run.foldl (step 8 fun _ => 1) (sampleStream role)

end ReplStream

end FastS3.Repl
