import FastS3.Core.Basic
import FastS3.Data.Wire

namespace FastS3.Meta.AuditFormat

open Data

/-! The stored forms of audit entries.

Fields were appended to an entry in two releases.  An entry is read in the newest form, and what that form
does not read in the oldest.  The texts behind decoding errors are left out.
-/

structure AuditV11 where
  ts : UInt64
  who : Utf8
  op : Utf8
  bucket : Utf8
  key : Utf8
  status : UInt16
  peer : Utf8

structure AuditV12 extends AuditV11 where
  bypass : Bool
  retainUntilBefore : Option Int64
  retainUntilAfter : Option Int64
  retentionModeBefore : Option Utf8
  retentionModeAfter : Option Utf8

structure AuditEntry extends AuditV12 where
  authNote : Option Utf8

def u16 : Wire UInt16 :=
  (Wire.number 2 (2 ^ 16) (by decide)).record (fun value => ⟨value.toNat, value.toNat_lt⟩)
    (fun raw => UInt16.ofNat raw.1) (fun value => UInt16.ofNat_toNat) (fun raw => by
      apply Subtype.ext
      exact UInt16.toNat_ofNat_of_lt raw.2)

def AuditV11.wire : Wire AuditV11 :=
  (Wire.u64.pair (Wire.utf8.pair (Wire.utf8.pair (Wire.utf8.pair (Wire.utf8.pair
    (u16.pair Wire.utf8)))))).record
    (fun e => (e.ts, e.who, e.op, e.bucket, e.key, e.status, e.peer))
    (fun raw => ⟨raw.1, raw.2.1, raw.2.2.1, raw.2.2.2.1, raw.2.2.2.2.1, raw.2.2.2.2.2.1, raw.2.2.2.2.2.2⟩)
    (fun _ => rfl) fun _ => rfl

def AuditV12.wire : Wire AuditV12 :=
  (AuditV11.wire.pair (Wire.bool.pair (Wire.i64.option.pair (Wire.i64.option.pair
    (Wire.utf8.option.pair Wire.utf8.option))))).record
    (fun e => (e.toAuditV11, e.bypass, e.retainUntilBefore, e.retainUntilAfter, e.retentionModeBefore,
      e.retentionModeAfter))
    (fun raw => ⟨raw.1, raw.2.1, raw.2.2.1, raw.2.2.2.1, raw.2.2.2.2.1, raw.2.2.2.2.2⟩)
    (fun _ => rfl) fun _ => rfl

def AuditEntry.wire : Wire AuditEntry :=
  (AuditV12.wire.pair Wire.utf8.option).record (fun e => (e.toAuditV12, e.authNote))
    (fun raw => ⟨raw.1, raw.2⟩) (fun _ => rfl) fun _ => rfl

def AuditV12.upgrade (e : AuditV12) : AuditEntry :=
  { e with authNote := none }

def AuditV11.upgrade (e : AuditV11) : AuditEntry :=
  AuditV12.upgrade
    { e with
      bypass := false
      retainUntilBefore := none
      retainUntilAfter := none
      retentionModeBefore := none
      retentionModeAfter := none }

def decodeAudit (v : List UInt8) : Except Core.Error AuditEntry :=
  match AuditEntry.wire.fromBytes v with
  | some e => .ok e
  | none =>
    match AuditV11.wire.fromBytes v with
    | some old => .ok old.upgrade
    | none => .error (.corrupt "audit entry")

/-- The rows of the audit log in the order of their keys, which is that of the writes. -/
structure AuditStore where
  rows : List (UInt64 × List UInt8)
  ordered : rows.Pairwise fun row later => row.1 < later.1

def tailLoop (limit : Nat) : List (UInt64 × List UInt8) → List AuditEntry → Except Core.Error (List AuditEntry)
  | [], out => .ok out.reverse
  | (_, v) :: rest, out => do
      let entry ← decodeAudit v
      let out := out ++ [entry]
      if out.length ≥ limit then .ok out.reverse else tailLoop limit rest out

def AuditStore.tail (store : AuditStore) (limit : Nat) : Except Core.Error (List AuditEntry) :=
  tailLoop limit store.rows.reverse []

inductive Written where
  | v11 (entry : AuditV11)
  | v12 (entry : AuditV12)
  | current (entry : AuditEntry)

def Written.put : Written → List UInt8
  | .v11 entry => AuditV11.wire.put entry
  | .v12 entry => AuditV12.wire.put entry
  | .current entry => AuditEntry.wire.put entry

def Written.entry : Written → AuditEntry
  | .v11 entry => entry.upgrade
  | .v12 entry => entry.upgrade
  | .current entry => entry

def Written.Forgotten : Written → Prop
  | .v12 entry => entry.bypass = true ∨ entry.retainUntilBefore ≠ none ∨ entry.retainUntilAfter ≠ none ∨
      entry.retentionModeBefore ≠ none ∨ entry.retentionModeAfter ≠ none
  | _ => False

theorem v12_outgrows : AuditV12.wire.Outgrows AuditV11.wire :=
  (Wire.outgrows_pair AuditV11.wire _).record _ _ (fun _ => rfl) fun _ => rfl

theorem entry_outgrows : AuditEntry.wire.Outgrows AuditV12.wire :=
  (Wire.outgrows_pair AuditV12.wire _).record _ _ (fun _ => rfl) fun _ => rfl

theorem fromBytes_v12 (e : AuditV12) :
    AuditV11.wire.fromBytes (AuditV12.wire.put e) = some e.toAuditV11 := by
  exact Wire.fromBytes_of_pair _ _ (Wire.fromBytes_put _ (e.toAuditV11, e.bypass, e.retainUntilBefore,
    e.retainUntilAfter, e.retentionModeBefore, e.retentionModeAfter))

theorem decodeAudit_iff (written : Written) :
    decodeAudit written.put = .ok written.entry ↔ ¬ written.Forgotten := by
  cases written with
  | v11 e =>
    have unread := (entry_outgrows.trans v12_outgrows).fromBytes_put e
    simp only [decodeAudit, Written.put, Written.entry, Written.Forgotten, unread, Wire.fromBytes_put,
      not_false_eq_true]
  | v12 e =>
    have unread := entry_outgrows.fromBytes_put e
    simp only [decodeAudit, Written.put, Written.entry, Written.Forgotten, unread, fromBytes_v12,
      Except.ok.injEq]
    obtain ⟨first, bypass, before, after, modeBefore, modeAfter⟩ := e
    simp [AuditV11.upgrade, AuditV12.upgrade, eq_comm]
  | current e =>
    simp only [decodeAudit, Written.put, Written.entry, Written.Forgotten, Wire.fromBytes_put,
      not_false_eq_true]

theorem tailLoop_written {rows : List (UInt64 × List UInt8)} {log : List Written} {limit : Nat}
    {out : List AuditEntry} (stored : rows.map Prod.snd = log.map Written.put)
    (kept : ∀ written ∈ log, ¬ written.Forgotten) (room : out.length < limit) :
    tailLoop limit rows out = .ok (out ++ (log.take (limit - out.length)).map Written.entry).reverse := by
  induction rows generalizing log out with
  | nil =>
    rw [List.map_nil, eq_comm, List.map_eq_nil_iff] at stored
    rw [stored, List.take_nil, List.map_nil, List.append_nil, tailLoop]
  | cons row rows ih =>
    cases log with
    | nil => cases stored
    | cons written log =>
      obtain ⟨value, rest⟩ := List.cons.inj stored
      have decoded := (decodeAudit_iff written).mpr (kept written List.mem_cons_self)
      have later : ∀ written ∈ log, ¬ written.Forgotten :=
        fun written member => kept written (List.mem_cons_of_mem _ member)
      have count : (out ++ [written.entry]).length = out.length + 1 := List.length_append
      have left : limit - out.length = limit - (out.length + 1) + 1 := by omega
      obtain ⟨seq, v⟩ := row
      change v = _ at value
      simp only [tailLoop, value, decoded, bind, Except.bind, count]
      rw [left, List.take_succ_cons, List.map_cons]
      split
      · next full =>
          have none : limit - (out.length + 1) = 0 := by omega
          rw [none, List.take_zero, List.map_nil]
      · next more =>
          rw [ih rest later (by omega), count, List.append_assoc, List.singleton_append]

/-- What is read of a log: every entry as its release meant it, and of the log its end. -/
structure Replayed (store : AuditStore) (log : List Written) (limit : Nat) : Prop where
  decoded : ∀ written ∈ log, decodeAudit written.put = .ok written.entry
  newest : store.tail limit = .ok ((log.drop (log.length - limit)).map Written.entry)

/-- Nothing is lost of a log exactly if no entry of M12 in it has more than the fields of M11, and unless
no entry is asked for. -/
theorem tail_replayed_iff {store : AuditStore} {log : List Written} {limit : Nat}
    (stored : store.rows.map Prod.snd = log.map Written.put) :
    Replayed store log limit ↔ (∀ written ∈ log, ¬ written.Forgotten) ∧ (limit = 0 → log = []) := by
  have reversed : store.rows.reverse.map Prod.snd = log.reverse.map Written.put := by
    rw [List.map_reverse, stored, List.map_reverse]
  constructor
  · intro replayed
    refine ⟨fun written member => (decodeAudit_iff written).mp (replayed.decoded written member), ?_⟩
    rintro rfl
    have tail := replayed.newest
    rw [AuditStore.tail, Nat.sub_zero, List.drop_length, List.map_nil] at tail
    cases ends : store.rows.reverse with
    | nil =>
      rw [ends, List.map_nil, eq_comm, List.map_eq_nil_iff, List.reverse_eq_nil_iff] at reversed
      exact reversed
    | cons row rest =>
      obtain ⟨seq, v⟩ := row
      rw [ends, tailLoop] at tail
      cases read : decodeAudit v with
      | error e => simp [read, bind, Except.bind] at tail
      | ok entry => simp [read, bind, Except.bind] at tail
  · rintro ⟨kept, asked⟩
    refine ⟨fun written member => (decodeAudit_iff written).mpr (kept written member), ?_⟩
    rw [AuditStore.tail]
    by_cases none : limit = 0
    · have empty := asked none
      rw [empty, List.reverse_nil, List.map_nil, List.map_eq_nil_iff] at reversed
      rw [reversed, empty, tailLoop, List.drop_nil]
      rfl
    · rw [tailLoop_written reversed (fun written member => kept written (List.mem_reverse.mp member))
        (Nat.pos_of_ne_zero none), List.nil_append, List.length_nil, Nat.sub_zero, List.take_reverse,
        ← List.map_reverse, List.reverse_reverse]

def removal : AuditV11 :=
  ⟨1700000000, ⟨"ak", by decide⟩, ⟨"DeleteObject", by decide⟩, ⟨"photos", by decide⟩, ⟨"cat", by decide⟩, 204,
    ⟨"1.2.3.4:5", by decide⟩⟩

def removals : List Written :=
  [.v11 removal, .v12 removal.upgrade.toAuditV12,
    .current { removal.upgrade with bypass := true, retainUntilBefore := some 1800000000 }]

def removalStore : AuditStore :=
  ⟨[0, 1, 2].zip (removals.map Written.put), by decide⟩

/-- A log of all three releases. -/
theorem tail_replayed_removal : Replayed removalStore removals 2 := by
  have stored : removalStore.rows.map Prod.snd = removals.map Written.put := rfl
  refine (tail_replayed_iff stored).mpr ⟨?_, fun none => by cases none⟩
  intro written member
  rcases member with _ | ⟨_, _ | ⟨_, _ | ⟨_, ⟨⟩⟩⟩⟩
  · exact id
  · simp [Written.Forgotten, AuditV11.upgrade, AuditV12.upgrade]
  · exact id

/-- What M12 wrote about a bypass is gone behind an upgrade. -/
theorem bypass_forgotten : ¬ ∀ written : Written, decodeAudit written.put = .ok written.entry := by
  intro faithful
  exact (decodeAudit_iff (.v12 { removal with
    bypass := true
    retainUntilBefore := some 1800000000
    retainUntilAfter := none
    retentionModeBefore := none
    retentionModeAfter := none })).mp (faithful _) (.inl rfl)

end FastS3.Meta.AuditFormat
