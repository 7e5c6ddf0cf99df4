import FastS3.Data.Runs
import FastS3.Meta.Values
import Mathlib.Data.List.Induction

namespace FastS3.S3

open Data
open FastS3.Meta (Retention RetentionMode)

/-! The entries of the audit log.

The address of the client, what a request has done to a retention and why its authentication failed are
handed to the log through one place each, which all requests share, and which the next entry takes.
-/

def modeName : RetentionMode → String
  | .governance => "GOVERNANCE"
  | .compliance => "COMPLIANCE"

structure LockAuditNote where
  bypass : Bool := false
  retainUntilBefore : Option Int := none
  retainUntilAfter : Option Int := none
  retentionModeBefore : Option String := none
  retentionModeAfter : Option String := none
deriving Repr, DecidableEq

/-- A successful change of the retention of a version: a new retention, or the deletion of a version that
has one or that is deleted under a bypass. -/
structure LockChange where
  before : Option Retention
  after : Option Retention
  bypass : Bool
  noted : before.isSome = true ∨ after.isSome = true ∨ bypass = true

/-- `note_lock_audit`. -/
def LockChange.note (change : LockChange) : LockAuditNote where
  bypass := change.bypass
  retainUntilBefore := change.before.map Retention.retainUntil
  retainUntilAfter := change.after.map Retention.retainUntil
  retentionModeBefore := change.before.map fun r => modeName r.mode
  retentionModeAfter := change.after.map fun r => modeName r.mode

structure AuditSubject where
  who : String
  op : String
  bucket : String
  key : String
deriving Repr, DecidableEq

structure AuditEntry where
  subject : AuditSubject
  status : Nat
  peer : String
  lock : LockAuditNote
  authNote : Option String
deriving Repr, DecidableEq

def AuditEntry.changes (entry : AuditEntry) : List LockAuditNote :=
  if entry.lock = {} then [] else [entry.lock]

/-- A request with the client of its connection, the note of its own authentication, if that has failed in
a way that is noted, and its own changes. -/
structure AuditedRequest where
  subject : AuditSubject
  peer : String
  authNote : Option String
  changes : List LockChange

def AuditedRequest.none : AuditedRequest :=
  ⟨⟨"anonymous", "", "", ""⟩, "", Option.none, []⟩

/-- The entry is about the request: it has the address of its client, shows all its changes and no other,
and the note of its authentication where access is denied. -/
structure AuditEntry.Describes (entry : AuditEntry) (request : AuditedRequest) : Prop where
  subject : entry.subject = request.subject
  peer : entry.peer = request.peer
  changes : entry.changes = request.changes.map LockChange.note
  authNote : entry.authNote = if entry.status = 403 then request.authNote else none

structure AuditService where
  lastPeer : String
  lastLockAudit : Option LockAuditNote
  lastAuthNote : Option String
  peers : Nat → String
  requests : Nat → AuditedRequest
  entries : List AuditEntry

def AuditService.opened : AuditService :=
  ⟨"", none, none, fun _ => "", fun _ => .none, []⟩

/-- A connection is accepted, a request of a connection is authenticated, has changed a retention, or is
recorded with its status.  A request that is refused before its operation is not recorded. -/
inductive AuditStep where
  | accept (connection : Nat) (peer : String)
  | authenticate (id connection : Nat) (subject : AuditSubject) (failure : Option String)
  | change (id : Nat) (change : LockChange)
  | record (id status : Nat)

namespace AuditService

variable (service : AuditService)

/-- The entry of `audit_record`. -/
def entry (id status : Nat) : AuditEntry where
  subject := (service.requests id).subject
  status := status
  peer := service.lastPeer
  lock := service.lastLockAudit.getD {}
  authNote := if status = 403 then service.lastAuthNote else none

def step : AuditStep → AuditService
  | .accept connection peer =>
    { service with lastPeer := peer, peers := Function.update service.peers connection peer }
  | .authenticate id connection subject failure =>
    { service with
      lastAuthNote := failure
      requests := Function.update service.requests id
        ⟨subject, service.peers connection, failure, []⟩ }
  | .change id change =>
    let request := service.requests id
    { service with
      lastLockAudit := some change.note
      requests := Function.update service.requests id
        { request with changes := request.changes ++ [change] } }
  | .record id status =>
    { service with
      entries := service.entries ++ [service.entry id status]
      lastLockAudit := none
      lastAuthNote := if status = 403 then none else service.lastAuthNote
      requests := Function.update service.requests id .none }

def Described : AuditStep → Prop
  | .record id status => (service.entry id status).Describes (service.requests id)
  | _ => True

def after (steps : List AuditStep) : AuditService :=
  steps.foldl step opened

end AuditService

def newestPeer : List AuditStep → String
  | [] => ""
  | .accept _ peer :: _ => peer
  | _ :: earlier => newestPeer earlier

def untakenChange : List AuditStep → Option LockAuditNote
  | [] => none
  | .change _ change :: _ => some change.note
  | .record _ _ :: _ => none
  | _ :: earlier => untakenChange earlier

def untakenFailure : List AuditStep → Option String
  | [] => none
  | .authenticate _ _ _ failure :: _ => failure
  | .record _ status :: earlier => if status = 403 then none else untakenFailure earlier
  | _ :: earlier => untakenFailure earlier

/-- A request is recorded undisturbed by the others: the newest connection comes from the address of its
client, the changes since the last entry are its own and one at most, and for a denial the newest
authentication has failed as its own has, and no other denial was recorded since. -/
def Undisturbed (earlier : List AuditStep) : AuditStep → Prop
  | .record id status =>
    let request := (AuditService.after earlier).requests id
    newestPeer earlier.reverse = request.peer ∧
      (untakenChange earlier.reverse).toList = request.changes.map LockChange.note ∧
      (status = 403 → untakenFailure earlier.reverse = request.authNote)
  | _ => True

namespace AuditService

variable {steps earlier : List AuditStep}

theorem after_append (next : AuditStep) : after (steps ++ [next]) = (after steps).step next := by
  rw [after, List.foldl_append]
  rfl

theorem after_lastPeer : (after steps).lastPeer = newestPeer steps.reverse := by
  induction steps using List.reverseRecOn with
  | nil => rfl
  | append_singleton earlier next ih =>
    rw [after_append, List.reverse_append]
    cases next with
    | accept connection peer => rfl
    | authenticate id connection subject failure => exact ih
    | change id change => exact ih
    | record id status => exact ih

theorem after_lastLockAudit : (after steps).lastLockAudit = untakenChange steps.reverse := by
  induction steps using List.reverseRecOn with
  | nil => rfl
  | append_singleton earlier next ih =>
    rw [after_append, List.reverse_append]
    cases next with
    | accept connection peer => exact ih
    | authenticate id connection subject failure => exact ih
    | change id change => rfl
    | record id status => rfl

theorem after_lastAuthNote : (after steps).lastAuthNote = untakenFailure steps.reverse := by
  induction steps using List.reverseRecOn with
  | nil => rfl
  | append_singleton earlier next ih =>
    rw [after_append, List.reverse_append]
    cases next with
    | accept connection peer => exact ih
    | authenticate id connection subject failure => rfl
    | change id change => exact ih
    | record id status =>
      change (if status = 403 then none else (after earlier).lastAuthNote) = _
      rw [ih]
      rfl

theorem note_ne (change : LockChange) : change.note ≠ {} := by
  intro blank
  rw [LockChange.note, LockAuditNote.mk.injEq] at blank
  obtain ⟨bypass, before, after, -, -⟩ := blank
  rcases change.noted with had | has | bypassed
  · rw [Option.map_eq_none_iff.mp before] at had
    cases had
  · rw [Option.map_eq_none_iff.mp after] at has
    cases has
  · rw [bypass] at bypassed
    cases bypassed

theorem untakenChange_note {newest : List AuditStep} {note : LockAuditNote}
    (untaken : untakenChange newest = some note) : note ≠ {} := by
  induction newest with
  | nil => cases untaken
  | cons next earlier ih =>
    cases next with
    | accept connection peer => exact ih untaken
    | authenticate id connection subject failure => exact ih untaken
    | change id change =>
      cases untaken
      exact note_ne change
    | record id status => cases untaken

theorem entry_changes (id status : Nat) :
    ((after earlier).entry id status).changes = (untakenChange earlier.reverse).toList := by
  rw [AuditEntry.changes, entry, after_lastLockAudit]
  cases untaken : untakenChange earlier.reverse with
  | none => rfl
  | some note => exact if_neg (untakenChange_note untaken)

theorem described_iff (next : AuditStep) :
    (after earlier).Described next ↔ Undisturbed earlier next := by
  cases next with
  | record id status =>
    rw [Described, Undisturbed, ← entry_changes id status, ← after_lastPeer, ← after_lastAuthNote]
    constructor
    · intro described
      refine ⟨described.peer, described.changes, fun denied => ?_⟩
      have note := described.authNote
      simpa only [entry, denied, if_true] using note
    · rintro ⟨peer, changes, failure⟩
      refine ⟨rfl, peer, changes, ?_⟩
      by_cases denied : status = 403
      · simpa only [entry, denied, if_true] using failure denied
      · simp only [entry, if_neg denied]
  | _ => exact Iff.rfl

/-- In every interleaving, each entry describes its own request exactly if each request is recorded
undisturbed. -/
theorem entries_described_iff (steps : List AuditStep) :
    EveryStep step Described opened steps ↔
      ∀ earlier next later, steps = earlier ++ next :: later → Undisturbed earlier next := by
  constructor
  · intro every earlier next later split
    exact (described_iff next).mp (every earlier next later split)
  · intro all earlier next later split
    exact (described_iff next).mpr (all earlier next later split)

/-! A client reads an object while another one deletes a version under a bypass. -/

def bypassedDeletion : LockChange :=
  ⟨some ⟨.governance, 2000000000⟩, none, true, .inl rfl⟩

def crossedRequests : List AuditStep :=
  [.accept 0 "10.0.0.1:40000", .authenticate 0 0 ⟨"admin", "DeleteObject", "b", "k"⟩ none,
    .accept 1 "203.0.113.9:40000", .authenticate 1 1 ⟨"reader", "GetObject", "b", "k"⟩ none,
    .change 0 bypassedDeletion, .record 1 200, .record 0 204]

/-- The entry of the reader shows the bypass, and the one of the deletion neither the bypass nor its own
client. -/
theorem bypass_shown_for_reader :
    (after crossedRequests).entries =
      [⟨⟨"reader", "GetObject", "b", "k"⟩, 200, "203.0.113.9:40000", bypassedDeletion.note, none⟩,
        ⟨⟨"admin", "DeleteObject", "b", "k"⟩, 204, "203.0.113.9:40000", {}, none⟩] ∧
      ¬EveryStep step Described opened crossedRequests := by
  refine ⟨by decide +kernel, ?_⟩
  intro every
  have described := every [_, _, _, _, _] (.record 1 200) [.record 0 204] rfl
  exact absurd described.changes (by decide +kernel)

end AuditService

end FastS3.S3
