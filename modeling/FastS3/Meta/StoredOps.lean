import FastS3.Meta.Apply
import FastS3.Meta.RecordFormats

namespace FastS3.Meta.StoredOps

open Data SessionFormat RecordFormats

/-! The operations that read a stored record back and write it again.

The getters read every layout that a record has had.  The arms of `apply_ops` are compared with them:
the arms for objects and parts decode as the getters do, and those for sessions and events decode the
current layout only.
-/

inductive Row where
  | session (uploadId : String)
  | sessionIndex (bucket : Utf8) (uploadId : String)
  | part (uploadId : String) (partNo : UInt32)
  | event (seq : UInt64)
  | object (bucket key : String) (vk : Option (ByteBlock 16))
deriving DecidableEq

abbrev Tx := Row → Option (List UInt8)

def Tx.insert (tx : Tx) (row : Row) (value : List UInt8) : Tx :=
  fun other => if other = row then some value else tx other

def Tx.remove (tx : Tx) (row : Row) : Tx :=
  fun other => if other = row then none else tx other

/-- The operations of `Meta.Op` that read a record back, with the fields of the stored forms. -/
inductive Op where
  | multipartUpdate (uploadId : String) (completed : Bool) (finalEtag : ByteBlock 16)
      (finalSize : UInt64) (finalMtime : Int64)
  | multipartDelete (uploadId : String)
  | eventMarkDead (seq : UInt64)
  | objectSetTags (bucket key : String) (vk : Option (ByteBlock 16)) (tags : Vec (Utf8 × Utf8))
  | objectSetRetention (bucket key : String) (vk : Option (ByteBlock 16))
      (retention : Option SessionFormat.Retention)
  | objectSetLegalHold (bucket key : String) (vk : Option (ByteBlock 16)) (legalHold : Bool)
  | objectMigrate (bucket key : String) (vk : Option (ByteBlock 16))
      (oldSegments newSegments : List RecordFormats.Segment)
  | partMigrate (uploadId : String) (partNo : UInt32) (oldSegments newSegments : List RecordFormats.Segment)

def decode {α : Type} (wire : Wire α) (v : List UInt8) : Except Core.Error α :=
  match wire.fromBytes v with
  | some value => .ok value
  | none => .error (.corrupt "postcard decode")

def orElse {α : Type} (found : Option α) (missing : Core.Error) : Except Core.Error α :=
  match found with
  | some value => .ok value
  | none => .error missing

/-- The closure `remap`, with the number of segments that it maps. -/
def remap (oldSegments newSegments : List RecordFormats.Segment) (list : Vec RecordFormats.Segment) :
    Vec RecordFormats.Segment × Nat :=
  (⟨(Meta.remap oldSegments newSegments list.1).1, by
      rw [Meta.remap, List.length_map]
      exact list.2⟩, (Meta.remap oldSegments newSegments list.1).2)

def remapRestored (oldSegments newSegments : List RecordFormats.Segment) (state : Option RecordFormats.RestoreState) :
    Option RecordFormats.RestoreState × Nat :=
  match state with
  | some st =>
    let (rest, n) := remap oldSegments newSegments st.restoredExtents
    (some { st with restoredExtents := rest }, n)
  | none => (none, 0)

def migrateExtents (oldSegments newSegments : List RecordFormats.Segment)
    (list : Vec RecordFormats.Segment) : Vec RecordFormats.Segment :=
  ⟨(remapInOrder newSegments oldSegments list.1).1, by
    rw [remapInOrder_length]
    exact list.2⟩

def setObject (tx : Tx) (bucket key : String) (vk : Option (ByteBlock 16))
    (change : RecordFormats.ObjectMeta → RecordFormats.ObjectMeta) : Except Core.Error Tx := do
  let cur ← orElse (tx (.object bucket key vk)) (.notFound s!"object {bucket}/{key}")
  let m ← decodeObject cur
  return tx.insert (.object bucket key vk) (encodeObject (change m))

/-- `apply_ops`; a replayed operation may meet other segments. -/
def applyOp (replay : Bool) (op : Op) (tx : Tx) : Except Core.Error Tx :=
  match op with
  | .multipartUpdate uploadId completed finalEtag finalSize finalMtime => do
      let cur ← orElse (tx (.session uploadId)) (.notFound s!"upload {uploadId}")
      let sess ← decode SessionFormat.MultipartSession.wire cur
      return tx.insert (.session uploadId)
        (SessionFormat.MultipartSession.wire.put { sess with completed, finalEtag, finalSize, finalMtime })
  | .multipartDelete uploadId => do
      let cur ← orElse (tx (.session uploadId)) (.notFound s!"upload {uploadId}")
      let sess ← decode SessionFormat.MultipartSession.wire cur
      return (tx.remove (.session uploadId)).remove (.sessionIndex sess.bucket uploadId)
  | .eventMarkDead seq => do
      let cur ← orElse (tx (.event seq)) (.notFound s!"event {seq}")
      let record ← decode RecordFormats.EventRecord.wire cur
      return tx.insert (.event seq) (RecordFormats.EventRecord.wire.put { record with dead := true })
  | .objectSetTags bucket key vk tags => setObject tx bucket key vk fun m => { m with tags }
  | .objectSetRetention bucket key vk retention =>
    setObject tx bucket key vk fun m => { m with retention }
  | .objectSetLegalHold bucket key vk legalHold =>
    setObject tx bucket key vk fun m => { m with legalHold }
  | .objectMigrate bucket key vk oldSegments newSegments => do
      let cur ← orElse (tx (.object bucket key vk))
        (.objectChanged s!"{bucket}/{key} deleted during compaction")
      let m ← decodeObject cur
      if oldSegments.length ≠ newSegments.length then
        .error (.objectChanged s!"{bucket}/{key} segment mapping mismatch")
      else
        let (ext, nExt) := remap oldSegments newSegments m.extents
        let (rest, nRest) := remapRestored oldSegments newSegments m.restoreState
        if nExt + nRest ≠ oldSegments.length ∧ ¬replay then
          .error (.objectChanged s!"{bucket}/{key} segments changed during compaction")
        else
          return tx.insert (.object bucket key vk)
            (encodeObject { m with extents := ext, restoreState := rest })
  | .partMigrate uploadId partNo oldSegments newSegments => do
      let cur ← orElse (tx (.part uploadId partNo))
        (.objectChanged s!"part {partNo} of upload {uploadId} deleted during compaction")
      let m ← decodePart cur
      if oldSegments.length ≠ newSegments.length then
        .error (.objectChanged s!"part {partNo} of upload {uploadId} segment mapping mismatch")
      else
        if (remapInOrder newSegments oldSegments m.extents.1).2 ≠ [] ∧ ¬replay then
          .error (.objectChanged
            s!"part {partNo} of upload {uploadId} segments changed during compaction")
        else
          return tx.insert (.part uploadId partNo) (RecordFormats.PartMeta.wire.put
            { m with extents := migrateExtents oldSegments newSegments m.extents })

inductive Reading where
  | session (s : SessionFormat.MultipartSession)
  | part (p : RecordFormats.PartMeta)
  | event (r : RecordFormats.EventRecord)
  | object (m : RecordFormats.ObjectMeta)
  | present

/-- A row by the decoder that its getter uses; an index row only says that it is there. -/
def Row.read (row : Row) (v : List UInt8) : Except Core.Error Reading :=
  match row with
  | .session _ => (decodeSession v).map .session
  | .sessionIndex _ _ => .ok .present
  | .part _ _ => (decodePart v).map .part
  | .event _ => (decodeEventRecord v).map .event
  | .object _ _ _ => (decodeObject v).map .object

def Op.row : Op → Row
  | .multipartUpdate uploadId _ _ _ _ => .session uploadId
  | .multipartDelete uploadId => .session uploadId
  | .eventMarkDead seq => .event seq
  | .objectSetTags bucket key vk _ => .object bucket key vk
  | .objectSetRetention bucket key vk _ => .object bucket key vk
  | .objectSetLegalHold bucket key vk _ => .object bucket key vk
  | .objectMigrate bucket key vk _ _ => .object bucket key vk
  | .partMigrate uploadId partNo _ _ => .part uploadId partNo

/-- What an operation is meant to make of a value: `none` stands for its removal. -/
def Op.change (op : Op) (x : Reading) : Option Reading :=
  match op, x with
  | .multipartUpdate _ completed finalEtag finalSize finalMtime, .session s =>
    some (.session { s with completed, finalEtag, finalSize, finalMtime })
  | .multipartDelete _, _ => none
  | .eventMarkDead _, .event r => some (.event { r with dead := true })
  | .objectSetTags _ _ _ tags, .object m => some (.object { m with tags })
  | .objectSetRetention _ _ _ retention, .object m => some (.object { m with retention })
  | .objectSetLegalHold _ _ _ legalHold, .object m => some (.object { m with legalHold })
  | .objectMigrate _ _ _ oldSegments newSegments, .object m =>
    some (.object { m with
      extents := (remap oldSegments newSegments m.extents).1
      restoreState := (remapRestored oldSegments newSegments m.restoreState).1 })
  | .partMigrate _ _ oldSegments newSegments, .part p =>
    some (.part { p with extents := migrateExtents oldSegments newSegments p.extents })
  | _, x => some x

def Op.dropped (op : Op) (x : Reading) : List Row :=
  match op, x with
  | .multipartDelete uploadId, .session s => [.sessionIndex s.bucket uploadId]
  | _, _ => []

def Op.Fits (replay : Bool) (op : Op) (x : Reading) : Prop :=
  match op, x with
  | .objectMigrate _ _ _ oldSegments newSegments, .object m =>
    oldSegments.length = newSegments.length ∧
      (replay = true ∨ (remap oldSegments newSegments m.extents).2 +
        (remapRestored oldSegments newSegments m.restoreState).2 = oldSegments.length)
  | .partMigrate _ _ oldSegments newSegments, .part p =>
    oldSegments.length = newSegments.length ∧
      (replay = true ∨ (remapInOrder newSegments oldSegments p.extents.1).2 = [])
  | _, _ => True

/-- What the getter reads afterwards is the value with the meant change, and the other rows are
as they were. -/
structure Kept (op : Op) (x : Reading) (tx after : Tx) : Prop where
  changed : (after op.row).map op.row.read = (op.change x).map .ok
  dropped : ∀ row ∈ op.dropped x, after row = none
  others : ∀ row, row ≠ op.row → row ∉ op.dropped x → after row = tx row

/-- What the getter reads, the operation works on; a migration is refused when the segments have
changed. -/
structure Operable (replay : Bool) (op : Op) (tx : Tx) : Prop where
  accepts : ∀ v x, tx op.row = some v → op.row.read v = .ok x → op.Fits replay x →
    ∃ after, applyOp replay op tx = .ok after ∧ Kept op x tx after
  refuses : ∀ v x, tx op.row = some v → op.row.read v = .ok x → ¬op.Fits replay x →
    ∃ text, applyOp replay op tx = .error (.objectChanged text)

def Op.Current (op : Op) (tx : Tx) : Prop :=
  match op with
  | .multipartUpdate uploadId _ _ _ _ | .multipartDelete uploadId =>
    ∀ v s, tx (.session uploadId) = some v → decodeSession v = .ok s →
      (SessionFormat.MultipartSession.wire.fromBytes v).isSome
  | .eventMarkDead seq =>
    ∀ v r, tx (.event seq) = some v → decodeEventRecord v = .ok r →
      (RecordFormats.EventRecord.wire.fromBytes v).isSome
  | _ => True

variable {replay : Bool} {op : Op} {tx : Tx} {v : List UInt8}

theorem decode_current {α : Type} {wire : Wire α} {value : α}
    (read : wire.fromBytes v = some value) : decode wire v = .ok value := by
  rw [decode, read]

theorem decode_corrupt {α : Type} {wire : Wire α} (unread : wire.fromBytes v = none) :
    decode wire v = .error (.corrupt "postcard decode") := by
  rw [decode, unread]

theorem decodeSession_of_current {s : SessionFormat.MultipartSession}
    (read : SessionFormat.MultipartSession.wire.fromBytes v = some s) : decodeSession v = .ok s := by
  unfold decodeSession
  rw [read]

theorem decodeEventRecord_of_current {r : RecordFormats.EventRecord}
    (read : RecordFormats.EventRecord.wire.fromBytes v = some r) : decodeEventRecord v = .ok r := by
  rw [decodeEventRecord, read]

theorem kept_insert {x y : Reading} {bytes : List UInt8} (written : op.row.read bytes = .ok y)
    (meant : op.change x = some y) (alone : op.dropped x = []) :
    Kept op x tx (tx.insert op.row bytes) := by
  constructor
  · rw [Tx.insert, if_pos rfl, meant, Option.map_some, Option.map_some, written]
  · intro row listed
    rw [alone] at listed
    cases listed
  · intro row apart listed
    rw [Tx.insert, if_neg apart]

theorem setObject_held {bucket key : String} {vk : Option (ByteBlock 16)} {m : RecordFormats.ObjectMeta}
    (change : RecordFormats.ObjectMeta → RecordFormats.ObjectMeta)
    (held : tx (.object bucket key vk) = some v) (read : decodeObject v = .ok m) :
    setObject tx bucket key vk change =
      .ok (tx.insert (.object bucket key vk) (encodeObject (change m))) := by
  rw [setObject, held, orElse]
  simp only [bind, Except.bind, read, pure, Except.pure]

theorem map_eq_ok {α β : Type} {f : α → β} {found : Except Core.Error α} {y : β}
    (mapped : found.map f = .ok y) : ∃ x, found = .ok x ∧ f x = y := by
  cases found with
  | error reason => cases mapped
  | ok x => exact ⟨x, rfl, Except.ok.inj mapped⟩

theorem operable_setObject {bucket key : String} {vk : Option (ByteBlock 16)}
    {change : RecordFormats.ObjectMeta → RecordFormats.ObjectMeta} (at_row : op.row = .object bucket key vk)
    (runs : applyOp replay op tx = setObject tx bucket key vk change)
    (meant : ∀ m, op.change (.object m) = some (.object (change m)))
    (alone : ∀ m, op.dropped (.object m) = []) (fits : ∀ x, op.Fits replay x) :
    Operable replay op tx := by
  constructor
  · intro v x held read _
    rw [at_row] at held read
    obtain ⟨m, decoded, rfl⟩ := map_eq_ok read
    have ran := setObject_held change held decoded
    refine ⟨_, runs.trans ran, ?_⟩
    have written : op.row.read (encodeObject (change m)) = .ok (.object (change m)) := by
      rw [at_row, Row.read, decodeObject_encodeObject]
      rfl
    rw [← at_row]
    exact kept_insert written (meant m) (alone m)
  · intro v x held read misfit
    exact absurd (fits x) misfit

theorem operable_objectMigrate (bucket key : String) (vk : Option (ByteBlock 16))
    (oldSegments newSegments : List RecordFormats.Segment) :
    Operable replay (.objectMigrate bucket key vk oldSegments newSegments) tx := by
  constructor
  · intro v x held read fits
    obtain ⟨m, decoded, rfl⟩ := map_eq_ok read
    obtain ⟨lengths, counted⟩ := fits
    have known : tx (.object bucket key vk) = some v := held
    have agreed : ¬((remap oldSegments newSegments m.extents).2 +
        (remapRestored oldSegments newSegments m.restoreState).2 ≠ oldSegments.length ∧
          ¬replay = true) := by
      intro refused
      exact counted.elim refused.2 refused.1
    have ran : applyOp replay (.objectMigrate bucket key vk oldSegments newSegments) tx =
        .ok (tx.insert (.object bucket key vk) (encodeObject { m with
          extents := (remap oldSegments newSegments m.extents).1
          restoreState := (remapRestored oldSegments newSegments m.restoreState).1 })) := by
      rw [applyOp, known, orElse]
      simp only [bind, Except.bind, decoded]
      rw [if_neg (not_not_intro lengths), if_neg agreed]
      rfl
    refine ⟨_, ran, kept_insert ?_ rfl rfl⟩
    rw [Op.row, Row.read, decodeObject_encodeObject]
    rfl
  · intro v x held read misfit
    obtain ⟨m, decoded, rfl⟩ := map_eq_ok read
    have known : tx (.object bucket key vk) = some v := held
    rw [applyOp, known, orElse]
    simp only [bind, Except.bind, decoded]
    split
    · exact ⟨_, rfl⟩
    · next lengths =>
        rw [if_pos]
        · exact ⟨_, rfl⟩
        · constructor
          · intro same
            exact misfit ⟨not_not.mp lengths, .inr same⟩
          · intro replayed
            exact misfit ⟨not_not.mp lengths, .inl replayed⟩

theorem operable_partMigrate (uploadId : String) (partNo : UInt32)
    (oldSegments newSegments : List RecordFormats.Segment) :
    Operable replay (.partMigrate uploadId partNo oldSegments newSegments) tx := by
  constructor
  · intro v x held read fits
    obtain ⟨p, decoded, rfl⟩ := map_eq_ok read
    obtain ⟨lengths, counted⟩ := fits
    have known : tx (.part uploadId partNo) = some v := held
    have agreed : ¬((remapInOrder newSegments oldSegments p.extents.1).2 ≠ [] ∧ ¬replay = true) := by
      intro refused
      exact counted.elim refused.2 refused.1
    have ran : applyOp replay (.partMigrate uploadId partNo oldSegments newSegments) tx =
        .ok (tx.insert (.part uploadId partNo) (RecordFormats.PartMeta.wire.put
          { p with extents := migrateExtents oldSegments newSegments p.extents })) := by
      rw [applyOp, known, orElse]
      simp only [bind, Except.bind, decoded]
      rw [if_neg (not_not_intro lengths), if_neg agreed]
      rfl
    refine ⟨_, ran, kept_insert ?_ rfl rfl⟩
    rw [Op.row, Row.read, decodePart_put]
    rfl
  · intro v x held read misfit
    obtain ⟨p, decoded, rfl⟩ := map_eq_ok read
    have known : tx (.part uploadId partNo) = some v := held
    rw [applyOp, known, orElse]
    simp only [bind, Except.bind, decoded]
    split
    · exact ⟨_, rfl⟩
    · next lengths =>
        rw [if_pos]
        · exact ⟨_, rfl⟩
        · constructor
          · intro same
            exact misfit ⟨not_not.mp lengths, .inr same⟩
          · intro replayed
            exact misfit ⟨not_not.mp lengths, .inl replayed⟩

theorem operable_multipartUpdate {uploadId : String} {completed : Bool} {finalEtag : ByteBlock 16}
    {finalSize : UInt64} {finalMtime : Int64}
    (current : Op.Current (.multipartUpdate uploadId completed finalEtag finalSize finalMtime) tx) :
    Operable replay (.multipartUpdate uploadId completed finalEtag finalSize finalMtime) tx := by
  constructor
  · intro v x held read _
    obtain ⟨s, decoded, rfl⟩ := map_eq_ok read
    have known : tx (.session uploadId) = some v := held
    obtain ⟨stored, layout⟩ := Option.isSome_iff_exists.mp (current v s known decoded)
    have same := (decodeSession_of_current layout).symm.trans decoded
    cases same
    have ran : applyOp replay
        (.multipartUpdate uploadId completed finalEtag finalSize finalMtime) tx =
        .ok (tx.insert (.session uploadId) (SessionFormat.MultipartSession.wire.put
          { s with completed, finalEtag, finalSize, finalMtime })) := by
      rw [applyOp, known, orElse]
      simp only [bind, Except.bind, decode_current layout]
      rfl
    refine ⟨_, ran, kept_insert ?_ rfl rfl⟩
    rw [Op.row, Row.read, decodeSession_current]
    rfl
  · intro v x held read misfit
    exact absurd trivial misfit

theorem operable_multipartDelete {uploadId : String}
    (current : Op.Current (.multipartDelete uploadId) tx) :
    Operable replay (.multipartDelete uploadId) tx := by
  constructor
  · intro v x held read _
    obtain ⟨s, decoded, rfl⟩ := map_eq_ok read
    have known : tx (.session uploadId) = some v := held
    obtain ⟨stored, layout⟩ := Option.isSome_iff_exists.mp (current v s known decoded)
    have same := (decodeSession_of_current layout).symm.trans decoded
    cases same
    refine ⟨(tx.remove (.session uploadId)).remove (.sessionIndex s.bucket uploadId), ?_, ?_⟩
    · rw [applyOp, known, orElse]
      simp only [bind, Except.bind, decode_current layout]
      rfl
    · constructor
      · simp [Op.row, Op.change, Tx.remove]
      · intro row listed
        cases List.mem_singleton.mp listed
        rw [Tx.remove, if_pos rfl]
      · intro row apart listed
        have other : row ≠ .sessionIndex s.bucket uploadId := fun same =>
          listed (List.mem_singleton.mpr same)
        have session : row ≠ .session uploadId := apart
        rw [Tx.remove, if_neg other, Tx.remove, if_neg session]
  · intro v x held read misfit
    exact absurd trivial misfit

theorem operable_eventMarkDead {seq : UInt64} (current : Op.Current (.eventMarkDead seq) tx) :
    Operable replay (.eventMarkDead seq) tx := by
  constructor
  · intro v x held read _
    obtain ⟨r, decoded, rfl⟩ := map_eq_ok read
    have known : tx (.event seq) = some v := held
    obtain ⟨stored, layout⟩ := Option.isSome_iff_exists.mp (current v r known decoded)
    have same := (decodeEventRecord_of_current layout).symm.trans decoded
    cases same
    have ran : applyOp replay (.eventMarkDead seq) tx = .ok (tx.insert (.event seq)
        (RecordFormats.EventRecord.wire.put { r with dead := true })) := by
      rw [applyOp, known, orElse]
      simp only [bind, Except.bind, decode_current layout]
      rfl
    refine ⟨_, ran, kept_insert ?_ rfl rfl⟩
    rw [Op.row, Row.read, decodeEventRecord_put]
    rfl
  · intro v x held read misfit
    exact absurd trivial misfit

theorem Operable.decodes {x : Reading} {fresh : Prop}
    (operable : Operable replay op tx) (held : tx op.row = some v) (read : op.row.read v = .ok x)
    (fits : op.Fits replay x)
    (ran : ¬fresh → applyOp replay op tx = .error (.corrupt "postcard decode")) : fresh := by
  by_contra old
  obtain ⟨after, accepted, _⟩ := operable.accepts v x held read fits
  rw [ran old] at accepted
  cases accepted

theorem operable_iff (replay : Bool) (op : Op) (tx : Tx) : Operable replay op tx ↔ op.Current tx := by
  cases op with
  | multipartUpdate uploadId completed finalEtag finalSize finalMtime =>
    constructor
    · intro operable v s held decoded
      refine operable.decodes (x := .session s) held ?_ trivial fun old => ?_
      · rw [Op.row, Row.read, decoded]
        rfl
      · rw [applyOp, held, orElse]
        simp only [bind, Except.bind, decode_corrupt (Option.not_isSome_iff_eq_none.mp old)]
    · exact operable_multipartUpdate
  | multipartDelete uploadId =>
    constructor
    · intro operable v s held decoded
      refine operable.decodes (x := .session s) held ?_ trivial fun old => ?_
      · rw [Op.row, Row.read, decoded]
        rfl
      · rw [applyOp, held, orElse]
        simp only [bind, Except.bind, decode_corrupt (Option.not_isSome_iff_eq_none.mp old)]
    · exact operable_multipartDelete
  | eventMarkDead seq =>
    constructor
    · intro operable v r held decoded
      refine operable.decodes (x := .event r) held ?_ trivial fun old => ?_
      · rw [Op.row, Row.read, decoded]
        rfl
      · rw [applyOp, held, orElse]
        simp only [bind, Except.bind, decode_corrupt (Option.not_isSome_iff_eq_none.mp old)]
    · exact operable_eventMarkDead
  | objectSetTags bucket key vk tags =>
    exact iff_of_true (operable_setObject rfl rfl (fun _ => rfl) (fun _ => rfl) fun _ => trivial)
      trivial
  | objectSetRetention bucket key vk retention =>
    exact iff_of_true (operable_setObject rfl rfl (fun _ => rfl) (fun _ => rfl) fun _ => trivial)
      trivial
  | objectSetLegalHold bucket key vk legalHold =>
    exact iff_of_true (operable_setObject rfl rfl (fun _ => rfl) (fun _ => rfl) fun _ => trivial)
      trivial
  | objectMigrate bucket key vk oldSegments newSegments =>
    exact iff_of_true (operable_objectMigrate bucket key vk oldSegments newSegments) trivial
  | partMigrate uploadId partNo oldSegments newSegments =>
    exact iff_of_true (operable_partMigrate uploadId partNo oldSegments newSegments) trivial

theorem older_unread {stored : SessionFormat.Stored}
    (older : ∀ s, stored ≠ .current s) (plain : ∀ s, stored = .legacy s → ¬s.Misread) :
    SessionFormat.MultipartSession.wire.fromBytes stored.bytes = none := by
  cases stored with
  | current s => exact absurd rfl (older s)
  | v19 s => exact current_outgrows.fromBytes_put s
  | m12 s => exact (current_outgrows.trans v19_outgrows).fromBytes_put s
  | v12d s =>
    exact current_outgrows.fromBytes_none ((v19_outgrows.trans m12_outgrows).fromBytes_put s)
  | v12c s => exact (unread_of_v12d (v12d_outgrows.fromBytes_put s)).1
  | v12b s =>
    exact (unread_of_v12d (v12d_outgrows.fromBytes_none (v12c_outgrows.fromBytes_put s))).1
  | v12 s => exact (unread_of_v12b (v12b_outgrows.fromBytes_put s)).1
  | v11 s =>
    exact (unread_of_v12b (v12b_outgrows.fromBytes_none (v12_outgrows.fromBytes_put s))).1
  | legacy s =>
    have unread : SessionV11.wire.fromBytes (LegacySession.wire.put s) = none :=
      Option.not_isSome_iff_eq_none.mp (plain s rfl)
    have later := v12b_outgrows.fromBytes_none (v12_outgrows.fromBytes_none unread)
    exact (unread_of_v12b later).1

def begun : SessionV19 where
  toSessionM12 := locked
  requestedStorageClass := none

def begunTx : Tx := fun row =>
  if row = .session "upload" then some (Stored.v19 begun).bytes else none

/-- Its upload can be listed, and neither completed nor aborted. -/
theorem begun_stuck :
    decodeSession (Stored.v19 begun).bytes = .ok (Stored.v19 begun).session ∧
      applyOp false (.multipartDelete "upload") begunTx = .error (.corrupt "postcard decode") ∧
      ¬ ∀ replay op tx, Operable replay op tx := by
  have unread : SessionFormat.MultipartSession.wire.fromBytes (Stored.v19 begun).bytes = none :=
    older_unread (fun _ => Stored.noConfusion) fun _ => Stored.noConfusion
  have held : begunTx (.session "upload") = some (Stored.v19 begun).bytes := if_pos rfl
  have ran : applyOp false (.multipartDelete "upload") begunTx =
      .error (.corrupt "postcard decode") := by
    rw [applyOp, held, orElse]
    simp only [bind, Except.bind, decode_corrupt unread]
  have decoded : decodeSession (Stored.v19 begun).bytes = .ok (Stored.v19 begun).session :=
    decodeSession_v19 begun
  refine ⟨decoded, ran, ?_⟩
  intro operable
  have stored : (Op.multipartDelete "upload").row.read (Stored.v19 begun).bytes =
      .ok (.session (Stored.v19 begun).session) := by
    rw [Op.row, Row.read, decoded]
    rfl
  exact (operable false (.multipartDelete "upload") begunTx).decodes held stored trivial fun _ => ran

end FastS3.Meta.StoredOps
