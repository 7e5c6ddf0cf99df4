import FastS3.Data.Runs
import FastS3.Data.Sweep
import FastS3.Data.Text
import FastS3.Meta.Values

namespace FastS3.Http

open Data
open FastS3.Meta (EventRecord NotificationKeyFilter NotificationRule)

/-! The delivery of event notifications.

The data plane queues an event with each change, and a worker offers the queued events to the targets
of the rules of their buckets.  The queue stays below its cap here, and the rules do not change.
-/

def eventMatch (rule : NotificationRule) (event : String) : Bool :=
  rule.events.any fun e =>
    match Text.beforeLast '*' e.toList with
    | some head => head.isPrefixOf event.toList
    | none => e = event

def keyMatches (filter : NotificationKeyFilter) (key : String) : Bool :=
  (filter.namePrefix.all fun p => p.toList.isPrefixOf key.toList) &&
    filter.nameSuffix.all fun s => s.toList.isSuffixOf key.toList

def targets (rules : String → List NotificationRule) (rec : EventRecord) : List NotificationRule :=
  (rules rec.bucket).filter fun rule =>
    rule.enabled && eventMatch rule rec.event && keyMatches rule.filter rec.key

structure NotificationConfig where
  maxRetries : Nat
  retryBase : Nat
  batch : Nat

def retryCap : Nat :=
  60 * 10 ^ 9

structure RetryState where
  attempts : Nat
  nextDue : Nat

structure Attempt where
  seq : Nat
  rule : NotificationRule
  accepted : Bool
deriving DecidableEq

/-- The queue and the retry table of the worker, with what has happened: the events as they were
queued, the attempts, the rounds since the last start in which an attempt for an event failed, and
their number when an event was given up. -/
structure Notifier where
  events : BTreeMap Nat EventRecord
  retry : Nat → Option RetryState
  lastSeq : Nat
  enqueued : BTreeMap Nat EventRecord
  attempts : List Attempt
  failedRounds : Nat → Nat
  gaveUp : BTreeMap Nat Nat

def Notifier.start : Notifier :=
  ⟨.empty, fun _ => none, 0, .empty, [], fun _ => 0, .empty⟩

/-- What a round meets: the time, the status codes the targets answer with, and the calls of the store
that fail. -/
structure Round where
  now : Nat
  answers : Nat → NotificationRule → Option Nat
  seqsFail : Bool
  scanFails : Bool
  rulesFail : Nat → Bool
  deleteFails : Nat → Bool
  markFails : Nat → Bool

def Round.accepts (round : Round) (seq : Nat) (rule : NotificationRule) : Bool :=
  (round.answers seq rule).any fun code => 200 ≤ code && code < 300

namespace Notifier

variable (rules : String → List NotificationRule) (cfg : NotificationConfig) (round : Round)
  (w : Notifier)

def waiting (seq : Nat) : Bool :=
  (w.retry seq).any fun rs => round.now < rs.nextDue

def attemptsOf (seq : Nat) : Nat :=
  ((w.retry seq).map RetryState.attempts).getD 0

/-- `delete_event`, and the event leaves the retry table; a failing call ends the batch. -/
def deleteEvent (seq : Nat) : Except Notifier Notifier :=
  if round.deleteFails seq then .error w
  else .ok { w with events := w.events.erase seq, retry := Function.update w.retry seq none }

def markEventDead (seq : Nat) : Notifier :=
  if round.markFails seq then w
  else match w.events.get? seq with
    | none => w
    | some rec =>
      { w with
        events := w.events.insert seq { rec with dead := true }
        gaveUp := w.gaveUp.insert seq (w.failedRounds seq) }

def failRound (seq : Nat) : Notifier :=
  let attempts := w.attemptsOf seq + 1
  let w := { w with failedRounds := Function.update w.failedRounds seq (w.failedRounds seq + 1) }
  if attempts > cfg.maxRetries then
    let w := w.markEventDead round seq
    { w with retry := Function.update w.retry seq none }
  else
    let backoff := cfg.retryBase * 2 ^ min attempts 6
    let next : RetryState := ⟨attempts, round.now + min backoff retryCap⟩
    { w with retry := Function.update w.retry seq (some next) }

def offer (rec : EventRecord) : Notifier :=
  { w with attempts := w.attempts ++
      (sweep (round.accepts rec.seq) (targets rules rec)).map fun tried =>
        ⟨rec.seq, tried.1, tried.2⟩ }

def deliverEvent (rec : EventRecord) : Except Notifier Notifier :=
  if w.waiting round rec.seq then .ok w
  else if round.rulesFail rec.seq then .ok w
  else if (targets rules rec).isEmpty then w.deleteEvent round rec.seq
  else
    let w := w.offer rules round rec
    if (sweep (round.accepts rec.seq) (targets rules rec)).all Prod.snd then
      w.deleteEvent round rec.seq
    else .ok (w.failRound cfg round rec.seq)

def deliverEvents : List EventRecord → Notifier → Notifier
  | [], w => w
  | rec :: rest, w =>
    match w.deliverEvent rules cfg round rec with
    | .ok w => deliverEvents rest w
    | .error w => w

def retainLive : Notifier :=
  { w with retry := fun seq => if (w.events.get? seq).isSome then w.retry seq else none }

def pendingEvents (limit : Nat) : List EventRecord :=
  (w.events.values.filter fun rec => !rec.dead).take limit

def deliverBatch : Notifier :=
  if round.seqsFail then w
  else if round.scanFails then w.retainLive
  else w.retainLive.deliverEvents rules cfg round (w.pendingEvents (max cfg.batch 1))

end Notifier

/-- A data transaction queues an event under its number, the worker makes a round, or the server is
started again. -/
inductive NotifyStep where
  | enqueue (skipped : Nat) (bucket key event : String)
  | deliver (round : Round)
  | restart

namespace Notifier

variable (rules : String → List NotificationRule) (cfg : NotificationConfig) (w : Notifier)

def step : NotifyStep → Notifier
  | .enqueue skipped bucket key event =>
    let seq := w.lastSeq + 1 + skipped
    let record : EventRecord := ⟨seq, bucket, key, event, false⟩
    { w with
      events := w.events.insert seq record
      enqueued := w.enqueued.insert seq record
      lastSeq := seq }
  | .deliver round => w.deliverBatch rules cfg round
  | .restart => { w with retry := fun _ => none, failedRounds := fun _ => 0 }

def Tried (seq : Nat) (rule : NotificationRule) (accepted : Bool) : Prop :=
  ⟨seq, rule, accepted⟩ ∈ w.attempts

/-- What has become of an event: deleted, after all its targets have accepted it, or given up, after more
rounds than retries are allowed and when each target that refused no attempt has accepted it, or it is
pending. -/
structure AccountedFor (seq : Nat) (rec : EventRecord) : Prop where
  deleted : w.events.get? seq = none → ∀ rule ∈ targets rules rec, w.Tried seq rule true
  rounds : ∀ now, w.events.get? seq = some now → now.dead = true →
    ∃ rounds, w.gaveUp.get? seq = some rounds ∧ cfg.maxRetries < rounds
  fanOut : ∀ now, w.events.get? seq = some now → now.dead = true →
    ∀ rule ∈ targets rules rec, ¬w.Tried seq rule false → w.Tried seq rule true

def Accountable : Prop :=
  ∀ seq rec, w.enqueued.get? seq = some rec → w.AccountedFor rules cfg seq rec

def GivesUp (round : Round) (rec : EventRecord) : Prop :=
  w.waiting round rec.seq = false ∧ round.rulesFail rec.seq = false ∧
    round.markFails rec.seq = false ∧ cfg.maxRetries ≤ w.attemptsOf rec.seq ∧
    ∃ rule ∈ targets rules rec, round.accepts rec.seq rule = false

/-- An event that is given up was tried at each of its targets, in an earlier round, or in this one,
where no target before it refuses. -/
def Spread (round : Round) (rec : EventRecord) : Prop :=
  w.GivesUp rules cfg round rec → ∀ rule ∈ targets rules rec,
    (∃ accepted, w.Tried rec.seq rule accepted) ∨
      Reached (round.accepts rec.seq) (targets rules rec) rule

def SpreadAll (round : Round) : List EventRecord → Notifier → Prop
  | [], _ => True
  | rec :: rest, w => w.Spread rules cfg round rec ∧
      match w.deliverEvent rules cfg round rec with
      | .ok w => SpreadAll round rest w
      | .error _ => True

def Spreading : NotifyStep → Prop
  | .deliver round => round.seqsFail = false → round.scanFails = false →
      SpreadAll rules cfg round (w.pendingEvents (max cfg.batch 1)) w.retainLive
  | _ => True

end Notifier

section Event

open Notifier

variable {rules : String → List NotificationRule} {cfg : NotificationConfig} {round : Round}
  {w after : Notifier} {rec : EventRecord} {seq : Nat}

/-- What the queue, the retry table and the counts have in common. -/
structure Notifier.Sound (w : Notifier) : Prop where
  own : ∀ seq now, w.events.get? seq = some now →
    now.seq = seq ∧ w.enqueued.get? seq = some { now with dead := false }
  fresh : ∀ seq rec, w.enqueued.get? seq = some rec → seq ≤ w.lastSeq
  counted : ∀ seq, w.attemptsOf seq ≤ w.failedRounds seq

structure Untouched (w after : Notifier) (seq : Nat) : Prop where
  events : after.events.get? seq = w.events.get? seq
  retry : after.retry seq = w.retry seq
  gaveUp : after.gaveUp.get? seq = w.gaveUp.get? seq
  failedRounds : after.failedRounds seq = w.failedRounds seq
  tried : ∀ rule accepted, after.Tried seq rule accepted ↔ w.Tried seq rule accepted

theorem Untouched.trans {middle : Notifier} (first : Untouched w middle seq)
    (second : Untouched middle after seq) : Untouched w after seq where
  events := second.events.trans first.events
  retry := second.retry.trans first.retry
  gaveUp := second.gaveUp.trans first.gaveUp
  failedRounds := second.failedRounds.trans first.failedRounds
  tried rule accepted := (second.tried rule accepted).trans (first.tried rule accepted)

theorem accountedFor_congr (events : after.events.get? seq = w.events.get? seq)
    (gaveUp : after.gaveUp.get? seq = w.gaveUp.get? seq)
    (tried : ∀ rule accepted, after.Tried seq rule accepted ↔ w.Tried seq rule accepted) :
    after.AccountedFor rules cfg seq rec ↔ w.AccountedFor rules cfg seq rec := by
  constructor
  · rintro ⟨deleted, rounds, fanOut⟩
    simp only [events, gaveUp, tried] at deleted rounds fanOut
    exact ⟨deleted, rounds, fanOut⟩
  · rintro ⟨deleted, rounds, fanOut⟩
    constructor <;> simp only [events, gaveUp, tried]
    · exact deleted
    · exact rounds
    · exact fanOut

theorem accountedFor_alike (events : after.events.get? seq = w.events.get? seq)
    (gaveUp : after.gaveUp = w.gaveUp) (attempts : after.attempts = w.attempts) :
    after.AccountedFor rules cfg seq rec ↔ w.AccountedFor rules cfg seq rec := by
  refine accountedFor_congr events (by rw [gaveUp]) fun rule accepted => ?_
  rw [Tried, Tried, attempts]

theorem Untouched.accountedFor_iff (untouched : Untouched w after seq) :
    after.AccountedFor rules cfg seq rec ↔ w.AccountedFor rules cfg seq rec :=
  accountedFor_congr untouched.events untouched.gaveUp untouched.tried

theorem accountedFor_pending {now : EventRecord} (held : w.events.get? seq = some now)
    (pending : now.dead = false) : w.AccountedFor rules cfg seq rec where
  deleted gone := nomatch held.symm.trans gone
  rounds found same dead := by
    cases held.symm.trans same
    exact absurd dead (by rw [pending]; decide)
  fanOut found same dead := by
    cases held.symm.trans same
    exact absurd dead (by rw [pending]; decide)

theorem tried_offer {rule : NotificationRule} {accepted : Bool} :
    (w.offer rules round rec).Tried seq rule accepted ↔
      w.Tried seq rule accepted ∨
        seq = rec.seq ∧ (rule, accepted) ∈ sweep (round.accepts rec.seq) (targets rules rec) := by
  rw [Tried, offer, List.mem_append, List.mem_map]
  refine or_congr Iff.rfl ?_
  constructor
  · rintro ⟨tried, member, same⟩
    cases same
    exact ⟨rfl, member⟩
  · rintro ⟨rfl, member⟩
    exact ⟨_, member, rfl⟩

theorem untouched_offer (other : seq ≠ rec.seq) : Untouched w (w.offer rules round rec) seq where
  events := rfl
  retry := rfl
  gaveUp := rfl
  failedRounds := rfl
  tried rule accepted := by
    rw [tried_offer]
    exact or_iff_left fun own => other own.1

/-- The worker behind an event, where its call of the store succeeds and where it fails. -/
def outcome : Except Notifier Notifier → Notifier
  | .ok w => w
  | .error w => w

theorem untouched_deleteEvent {own : Nat} (other : seq ≠ own) :
    Untouched w (outcome (w.deleteEvent round own)) seq := by
  rw [deleteEvent]
  split
  · exact ⟨rfl, rfl, rfl, rfl, fun _ _ => Iff.rfl⟩
  · refine ⟨?_, ?_, rfl, rfl, fun _ _ => Iff.rfl⟩
    · simp only [outcome, BTreeMap.get?_erase, if_neg other]
    · simp only [outcome, Function.update_of_ne other]

theorem untouched_markEventDead (round : Round) {own : Nat} (other : seq ≠ own) :
    Untouched w (w.markEventDead round own) seq := by
  rw [markEventDead]
  split
  · exact ⟨rfl, rfl, rfl, rfl, fun _ _ => Iff.rfl⟩
  · split
    · exact ⟨rfl, rfl, rfl, rfl, fun _ _ => Iff.rfl⟩
    · refine ⟨?_, rfl, ?_, rfl, fun _ _ => Iff.rfl⟩
      · simp only [BTreeMap.get?_insert, if_neg other]
      · simp only [BTreeMap.get?_insert, if_neg other]

theorem untouched_failRound {own : Nat} (other : seq ≠ own) :
    Untouched w (w.failRound cfg round own) seq := by
  have counted : Untouched w
      { w with failedRounds := Function.update w.failedRounds own (w.failedRounds own + 1) } seq :=
    ⟨rfl, rfl, rfl, Function.update_of_ne other _ _, fun _ _ => Iff.rfl⟩
  rw [failRound]
  dsimp only
  split
  · refine counted.trans ((untouched_markEventDead round other).trans ?_)
    exact ⟨rfl, Function.update_of_ne other _ _, rfl, rfl, fun _ _ => Iff.rfl⟩
  · refine counted.trans ?_
    exact ⟨rfl, Function.update_of_ne other _ _, rfl, rfl, fun _ _ => Iff.rfl⟩

theorem untouched_deliverEvent (other : seq ≠ rec.seq) :
    Untouched w (outcome (w.deliverEvent rules cfg round rec)) seq := by
  have same : Untouched w w seq := ⟨rfl, rfl, rfl, rfl, fun _ _ => Iff.rfl⟩
  rw [deliverEvent]
  split
  · exact same
  · split
    · exact same
    · split
      · exact untouched_deleteEvent other
      · dsimp only
        split
        · exact (untouched_offer other).trans (untouched_deleteEvent other)
        · exact (untouched_offer other).trans (untouched_failRound other)

def Queued (w after : Notifier) : Prop :=
  after.enqueued = w.enqueued ∧ after.lastSeq = w.lastSeq

theorem queued_markEventDead (own : Nat) : Queued w (w.markEventDead round own) := by
  rw [markEventDead]
  split
  · exact ⟨rfl, rfl⟩
  · split <;> exact ⟨rfl, rfl⟩

theorem queued_failRound (own : Nat) : Queued w (w.failRound cfg round own) := by
  rw [failRound]
  dsimp only
  split
  · exact queued_markEventDead own
  · exact ⟨rfl, rfl⟩

theorem queued_deliverEvent : Queued w (outcome (w.deliverEvent rules cfg round rec)) := by
  have deletes (w : Notifier) : Queued w (outcome (w.deleteEvent round rec.seq)) := by
    rw [deleteEvent]
    split <;> exact ⟨rfl, rfl⟩
  rw [deliverEvent]
  split
  · exact ⟨rfl, rfl⟩
  · split
    · exact ⟨rfl, rfl⟩
    · split
      · exact deletes w
      · dsimp only
        split
        · exact deletes _
        · exact queued_failRound rec.seq

/-- What a turn in a round makes of an event: it stays pending, or is deleted where nobody refuses, or is
given up. -/
inductive EventFate (rules : String → List NotificationRule) (cfg : NotificationConfig) (round : Round)
    (w : Notifier) (rec : EventRecord) (after : Notifier) : Prop where
  | pending (held : after.events.get? rec.seq = some rec) (kept : ¬w.GivesUp rules cfg round rec)
  | deleted (gone : after.events.get? rec.seq = none)
      (tried : after.attempts = (w.offer rules round rec).attempts)
      (accepted : (targets rules rec).all (round.accepts rec.seq) = true)
  | dead (marked : after.events.get? rec.seq = some { rec with dead := true })
      (tried : after.attempts = (w.offer rules round rec).attempts)
      (counted : after.gaveUp.get? rec.seq = some (w.failedRounds rec.seq + 1))
      (givesUp : w.GivesUp rules cfg round rec)

theorem markEventDead_attempts (own : Nat) : (w.markEventDead round own).attempts = w.attempts := by
  rw [markEventDead]
  split
  · rfl
  · split <;> rfl

theorem failRound_attempts (own : Nat) : (w.failRound cfg round own).attempts = w.attempts := by
  rw [failRound]
  dsimp only
  split
  · exact markEventDead_attempts own
  · rfl

theorem failRound_spec (held : w.events.get? seq = some rec) :
    (w.failRound cfg round seq).events.get? seq = some rec ∧
        (cfg.maxRetries ≤ w.attemptsOf seq → round.markFails seq = true) ∨
      (w.failRound cfg round seq).events.get? seq = some { rec with dead := true } ∧
        (w.failRound cfg round seq).gaveUp.get? seq = some (w.failedRounds seq + 1) ∧
        cfg.maxRetries ≤ w.attemptsOf seq ∧ round.markFails seq = false := by
  rw [failRound]
  dsimp only
  split
  · next spent =>
      rw [markEventDead]
      split
      · next fails => exact .inl ⟨held, fun _ => fails⟩
      · next marks =>
          right
          simp only [held, BTreeMap.get?_insert, if_true, Function.update_self]
          exact ⟨trivial, trivial, Nat.lt_succ_iff.mp spent, Bool.not_eq_true _ ▸ marks⟩
  · next left =>
      refine .inl ⟨held, fun spent => absurd (Nat.lt_succ_of_le spent) left⟩

theorem deleteEvent_spec (held : w.events.get? seq = some rec) :
    ((outcome (w.deleteEvent round seq)).events.get? seq = some rec ∨
        (outcome (w.deleteEvent round seq)).events.get? seq = none) ∧
      (outcome (w.deleteEvent round seq)).attempts = w.attempts := by
  rw [deleteEvent]
  split
  · exact ⟨.inl held, rfl⟩
  · refine ⟨.inr ?_, rfl⟩
    simp only [outcome, BTreeMap.get?_erase, if_true]

theorem not_givesUp_of_all (accepted : (targets rules rec).all (round.accepts rec.seq) = true) :
    ¬w.GivesUp rules cfg round rec := by
  rintro ⟨-, -, -, -, rule, member, refused⟩
  rw [List.all_eq_true.mp accepted rule member] at refused
  cases refused

theorem fate_of_deletion (held : w.events.get? rec.seq = some rec)
    (accepted : (targets rules rec).all (round.accepts rec.seq) = true) :
    EventFate rules cfg round w rec
      (outcome ((w.offer rules round rec).deleteEvent round rec.seq)) := by
  have offered : (w.offer rules round rec).events.get? rec.seq = some rec := held
  obtain ⟨kept | gone, same⟩ := deleteEvent_spec offered
  · exact .pending kept (not_givesUp_of_all accepted)
  · exact .deleted gone same accepted

theorem deliverEvent_fate (held : w.events.get? rec.seq = some rec) :
    EventFate rules cfg round w rec (outcome (w.deliverEvent rules cfg round rec)) := by
  rw [deliverEvent]
  split
  · next waits =>
      refine .pending held fun givesUp => ?_
      rw [givesUp.1] at waits
      cases waits
  split
  · next fails =>
      refine .pending held fun givesUp => ?_
      rw [givesUp.2.1] at fails
      cases fails
  next ready unfailing =>
  split
  · next nobody =>
      have none := List.isEmpty_iff.mp nobody
      have unoffered : w.offer rules round rec = w := by
        rw [offer, none]
        simp [sweep]
      have accepted : (targets rules rec).all (round.accepts rec.seq) = true := by
        rw [none]
        rfl
      have fate : EventFate rules cfg round w rec _ := fate_of_deletion held accepted
      rwa [unoffered] at fate
  · dsimp only
    rw [sweep_all]
    split
    · next accepted => exact fate_of_deletion held accepted
    · next refused =>
        rw [Bool.not_eq_true, List.all_eq_false] at refused
        obtain ⟨rule, member, refuses⟩ := refused
        have offered : (w.offer rules round rec).events.get? rec.seq = some rec := held
        rcases failRound_spec offered with ⟨kept, unmarked⟩ | ⟨marked, counted, spent, marks⟩
        · refine .pending kept fun givesUp => ?_
          obtain ⟨-, -, marks, spent, -⟩ := givesUp
          rw [unmarked spent] at marks
          cases marks
        · refine .dead marked (failRound_attempts rec.seq) counted
            ⟨Bool.not_eq_true _ ▸ ready, Bool.not_eq_true _ ▸ unfailing, marks, spent, rule, member, ?_⟩
          exact Bool.not_eq_true _ ▸ refuses

theorem tried_iff_exists {rule : NotificationRule} :
    (∃ accepted, w.Tried seq rule accepted) ↔ w.Tried seq rule true ∨ w.Tried seq rule false := by
  constructor
  · rintro ⟨accepted, tried⟩
    cases accepted with
    | true => exact .inl tried
    | false => exact .inr tried
  · rintro (accepted | refused)
    · exact ⟨true, accepted⟩
    · exact ⟨false, refused⟩

theorem deliverEvent_accountedFor_iff (sound : w.Sound) (held : w.events.get? rec.seq = some rec)
    (pending : rec.dead = false) :
    (outcome (w.deliverEvent rules cfg round rec)).AccountedFor rules cfg rec.seq rec ↔
      w.Spread rules cfg round rec := by
  have tried {after : Notifier} (same : after.attempts = (w.offer rules round rec).attempts)
      (rule : NotificationRule) (accepted : Bool) :
      after.Tried rec.seq rule accepted ↔ w.Tried rec.seq rule accepted ∨
        (rule, accepted) ∈ sweep (round.accepts rec.seq) (targets rules rec) := by
    have offered : (w.offer rules round rec).Tried rec.seq rule accepted ↔ _ := tried_offer
    simp only [Tried, same, true_and] at offered ⊢
    exact offered
  have fate : EventFate rules cfg round w rec _ := deliverEvent_fate held
  obtain ⟨kept, unspent⟩ | ⟨gone, same, accepted⟩ | ⟨marked, same, counted, givesUp⟩ := fate
  · exact iff_of_true (accountedFor_pending kept pending) fun givesUp => absurd givesUp unspent
  · refine iff_of_true ⟨?_, ?_, ?_⟩ fun givesUp => absurd givesUp (not_givesUp_of_all accepted)
    · intro _ rule member
      exact (tried same rule true).mpr (.inr (sweep_complete accepted member))
    · intro now present
      cases gone.symm.trans present
    · intro now present
      cases gone.symm.trans present
  · have reached (rule : NotificationRule) :
        (¬(outcome (w.deliverEvent rules cfg round rec)).Tried rec.seq rule false →
          (outcome (w.deliverEvent rules cfg round rec)).Tried rec.seq rule true) ↔
        (∃ accepted, w.Tried rec.seq rule accepted) ∨
          Reached (round.accepts rec.seq) (targets rules rec) rule := by
      rw [← Classical.or_iff_not_imp_left, or_comm, ← tried_iff_exists, ← mem_sweep_iff, ← exists_or]
      exact exists_congr fun accepted => tried same rule accepted
    constructor
    · intro account _ rule member
      exact (reached rule).mp (account.fanOut _ marked rfl rule member)
    · intro spread
      refine ⟨?_, ?_, ?_⟩
      · intro gone
        cases gone.symm.trans marked
      · intro now present _
        have spent := givesUp.2.2.2.1
        have counts := sound.counted rec.seq
        exact ⟨_, counted, by omega⟩
      · intro now present _ rule member
        exact (reached rule).mpr (spread givesUp rule member)

theorem Notifier.Sound.setRetry (sound : w.Sound) (own : Nat) (next : Option RetryState)
    (bound : (next.map RetryState.attempts).getD 0 ≤ w.failedRounds own) :
    Sound { w with retry := Function.update w.retry own next } := by
  refine ⟨sound.own, sound.fresh, ?_⟩
  intro seq
  simp only [attemptsOf, Function.update_apply]
  split
  · next same =>
      rw [same]
      exact bound
  · exact sound.counted seq

theorem Notifier.Sound.offer (sound : w.Sound) : (w.offer rules round rec).Sound :=
  ⟨sound.own, sound.fresh, sound.counted⟩

theorem Notifier.Sound.deleteEvent (sound : w.Sound) (own : Nat) :
    (outcome (w.deleteEvent round own)).Sound := by
  rw [Notifier.deleteEvent]
  split
  · exact sound
  · have erased : Sound { w with events := w.events.erase own } := by
      refine ⟨?_, sound.fresh, sound.counted⟩
      intro seq now held
      rw [BTreeMap.get?_erase] at held
      split at held
      · cases held
      · exact sound.own seq now held
    exact erased.setRetry own none (Nat.zero_le _)

theorem Notifier.Sound.markEventDead (sound : w.Sound) (own : Nat) :
    (w.markEventDead round own).Sound := by
  rw [Notifier.markEventDead]
  split
  · exact sound
  · split
    · exact sound
    · next rec held =>
        refine ⟨?_, sound.fresh, sound.counted⟩
        intro seq now present
        simp only [BTreeMap.get?_insert] at present
        split at present
        · next same =>
            cases present
            rw [same]
            exact sound.own own rec held
        · exact sound.own seq now present

theorem Notifier.Sound.failRound (sound : w.Sound) (own : Nat) :
    (w.failRound cfg round own).Sound := by
  rw [Notifier.failRound]
  dsimp only
  have grown (seq : Nat) : w.failedRounds seq ≤
      Function.update w.failedRounds own (w.failedRounds own + 1) seq := by
    rw [Function.update_apply]
    split
    · next same =>
        rw [same]
        exact Nat.le_succ _
    · exact Nat.le_refl _
  have counted : Sound
      { w with failedRounds := Function.update w.failedRounds own (w.failedRounds own + 1) } :=
    ⟨sound.own, sound.fresh, fun seq => Nat.le_trans (sound.counted seq) (grown seq)⟩
  split
  · exact (counted.markEventDead own).setRetry own none (Nat.zero_le _)
  · refine counted.setRetry own (some _) ?_
    simp only [Option.map_some, Option.getD_some, Function.update_self]
    exact Nat.succ_le_succ (sound.counted own)

theorem Notifier.Sound.deliverEvent (sound : w.Sound) :
    (outcome (w.deliverEvent rules cfg round rec)).Sound := by
  rw [Notifier.deliverEvent]
  split
  · exact sound
  · split
    · exact sound
    · split
      · exact sound.deleteEvent rec.seq
      · dsimp only
        split
        · exact sound.offer.deleteEvent rec.seq
        · exact sound.offer.failRound rec.seq

/-- All that were queued are accounted for, apart from pending events, which need no account. -/
def AccountableApart (rules : String → List NotificationRule) (cfg : NotificationConfig) (w : Notifier)
    (recs : List EventRecord) : Prop :=
  ∀ seq rec, w.enqueued.get? seq = some rec → (∀ r ∈ recs, r.seq ≠ seq) → w.AccountedFor rules cfg seq rec

theorem accountable_iff_apart {recs : List EventRecord}
    (held : ∀ rec ∈ recs, w.events.get? rec.seq = some rec ∧ rec.dead = false) :
    w.Accountable rules cfg ↔ AccountableApart rules cfg w recs := by
  constructor
  · intro all seq rec queued _
    exact all seq rec queued
  · intro others seq rec queued
    by_cases apart : ∀ r ∈ recs, r.seq ≠ seq
    · exact others seq rec queued apart
    · simp only [ne_eq, not_forall, not_not] at apart
      obtain ⟨r, member, rfl⟩ := apart
      exact accountedFor_pending (held r member).1 (held r member).2

theorem accountableApart_deliverEvent (sound : w.Sound) (recs : List EventRecord)
    (held : w.events.get? rec.seq = some rec) (pending : rec.dead = false)
    (apart : ∀ other ∈ recs, rec.seq ≠ other.seq) :
    AccountableApart rules cfg (outcome (w.deliverEvent rules cfg round rec)) recs ↔
      w.Spread rules cfg round rec ∧ AccountableApart rules cfg w (rec :: recs) := by
  have queuedAlike : Queued w (outcome (w.deliverEvent rules cfg round rec)) := queued_deliverEvent
  have enqueued := queuedAlike.1
  have queued : w.enqueued.get? rec.seq = some rec := by
    have own := (sound.own rec.seq rec held).2
    rwa [← pending] at own
  rw [← deliverEvent_accountedFor_iff sound held pending]
  constructor
  · intro all
    refine ⟨?_, ?_⟩
    · refine all rec.seq rec ?_ fun other member same => apart other member same.symm
      rw [enqueued]
      exact queued
    · intro seq r found others
      obtain ⟨own, tail⟩ := List.forall_mem_cons.mp others
      rw [← (untouched_deliverEvent (Ne.symm own)).accountedFor_iff]
      refine all seq r ?_ tail
      rw [enqueued]
      exact found
  · rintro ⟨own, all⟩ seq r found tail
    rw [enqueued] at found
    by_cases same : seq = rec.seq
    · rw [same] at found ⊢
      cases queued.symm.trans found
      exact own
    · rw [(untouched_deliverEvent same).accountedFor_iff]
      exact all seq r found (List.forall_mem_cons.mpr ⟨Ne.symm same, tail⟩)

theorem deliverEvents_accountable_iff (sound : w.Sound) (recs : List EventRecord)
    (held : ∀ rec ∈ recs, w.events.get? rec.seq = some rec ∧ rec.dead = false)
    (apart : recs.Pairwise fun one other => one.seq ≠ other.seq) :
    (w.deliverEvents rules cfg round recs).Accountable rules cfg ↔
      SpreadAll rules cfg round recs w ∧ AccountableApart rules cfg w recs := by
  induction recs generalizing w with
  | nil =>
    rw [Notifier.deliverEvents, SpreadAll, true_and]
    exact accountable_iff_apart held
  | cons rec rest ih =>
    obtain ⟨own, others⟩ := List.forall_mem_cons.mp held
    obtain ⟨different, apart⟩ := List.pairwise_cons.mp apart
    have turn : AccountableApart rules cfg (outcome (w.deliverEvent rules cfg round rec)) rest ↔
        _ ∧ _ := accountableApart_deliverEvent sound rest own.1 own.2 different
    have sound : Sound (outcome (w.deliverEvent rules cfg round rec)) := sound.deliverEvent
    have held (r : EventRecord) (member : r ∈ rest) :
        (outcome (w.deliverEvent rules cfg round rec)).events.get? r.seq = some r ∧
          r.dead = false := by
      rw [(untouched_deliverEvent (Ne.symm (different r member))).events]
      exact others r member
    rw [Notifier.deliverEvents, SpreadAll]
    cases result : w.deliverEvent rules cfg round rec with
    | ok next =>
      rw [result] at turn sound held
      simp only [outcome] at turn sound held
      rw [ih sound held apart, turn]
      exact and_left_comm.trans (and_assoc).symm
    | error next =>
      rw [result] at turn held
      simp only [outcome] at turn held
      rw [accountable_iff_apart held, turn, and_true]

theorem Notifier.Sound.deliverEvents (sound : w.Sound) (recs : List EventRecord) :
    (w.deliverEvents rules cfg round recs).Sound := by
  induction recs generalizing w with
  | nil => exact sound
  | cons rec rest ih =>
    have turn : Sound (outcome (w.deliverEvent rules cfg round rec)) := sound.deliverEvent
    rw [Notifier.deliverEvents]
    cases result : w.deliverEvent rules cfg round rec with
    | ok next =>
      rw [result] at turn
      exact ih turn
    | error next =>
      rw [result] at turn
      exact turn

theorem Notifier.Sound.retainLive (sound : w.Sound) : w.retainLive.Sound := by
  refine ⟨sound.own, sound.fresh, ?_⟩
  intro seq
  simp only [Notifier.retainLive, attemptsOf]
  split
  · exact sound.counted seq
  · exact Nat.zero_le _

theorem pendingEvents_spec (sound : w.Sound) (limit : Nat) :
    (∀ rec ∈ w.pendingEvents limit, w.events.get? rec.seq = some rec ∧ rec.dead = false) ∧
      (w.pendingEvents limit).Pairwise fun one other => one.seq ≠ other.seq := by
  have values (rec : EventRecord) (member : rec ∈ w.events.values) :
      w.events.get? rec.seq = some rec := by
    obtain ⟨entry, inside, rfl⟩ := List.mem_map.mp member
    have held := BTreeMap.get?_eq_some_iff.mpr inside
    rw [(sound.own _ _ held).1]
    exact held
  constructor
  · intro rec member
    obtain ⟨inside, alive⟩ := List.mem_filter.mp (List.mem_of_mem_take member)
    exact ⟨values rec inside, by simpa using alive⟩
  · refine List.Pairwise.sublist (List.take_sublist _ _) (List.Pairwise.filter _ ?_)
    refine List.pairwise_map.mpr (List.Pairwise.imp_of_mem ?_ w.events.sorted)
    intro one other first second below
    rw [(sound.own _ _ (BTreeMap.get?_eq_some_iff.mpr first)).1,
      (sound.own _ _ (BTreeMap.get?_eq_some_iff.mpr second)).1]
    exact Nat.ne_of_lt below

theorem step_sound (sound : w.Sound) (next : NotifyStep) : (w.step rules cfg next).Sound := by
  cases next with
  | enqueue skipped bucket key event =>
    rw [step]
    refine ⟨?_, ?_, sound.counted⟩
    · intro seq now held
      simp only [BTreeMap.get?_insert] at held ⊢
      by_cases new : seq = w.lastSeq + 1 + skipped
      · rw [if_pos new] at held ⊢
        cases held
        exact ⟨new.symm, rfl⟩
      · rw [if_neg new] at held ⊢
        exact sound.own seq now held
    · intro seq rec queued
      simp only [BTreeMap.get?_insert] at queued ⊢
      split at queued
      · next new => exact Nat.le_of_eq new
      · have below := sound.fresh seq rec queued
        omega
  | deliver round =>
    rw [step, deliverBatch]
    split
    · exact sound
    · split
      · exact sound.retainLive
      · exact sound.retainLive.deliverEvents _
  | restart => exact ⟨sound.own, sound.fresh, fun _ => Nat.le_refl 0⟩

theorem step_accountable_iff (sound : w.Sound) (accountable : w.Accountable rules cfg)
    (next : NotifyStep) :
    (w.step rules cfg next).Accountable rules cfg ↔ w.Spreading rules cfg next := by
  cases next with
  | enqueue skipped bucket key event =>
    refine iff_of_true ?_ trivial
    intro seq rec queued
    rw [step] at queued ⊢
    simp only [BTreeMap.get?_insert] at queued
    by_cases new : seq = w.lastSeq + 1 + skipped
    · have held : (w.step rules cfg (.enqueue skipped bucket key event)).events.get? seq =
          some ⟨w.lastSeq + 1 + skipped, bucket, key, event, false⟩ := by
        simp only [step, BTreeMap.get?_insert, if_pos new]
      exact accountedFor_pending held rfl
    · rw [if_neg new] at queued
      have same : (w.step rules cfg (.enqueue skipped bucket key event)).events.get? seq =
          w.events.get? seq := by
        simp only [step, BTreeMap.get?_insert, if_neg new]
      exact (accountedFor_alike same rfl rfl).mpr (accountable seq rec queued)
  | deliver round =>
    have live : w.retainLive.Accountable rules cfg := by
      intro seq rec queued
      have alike : w.retainLive.AccountedFor rules cfg seq rec ↔ w.AccountedFor rules cfg seq rec :=
        accountedFor_alike rfl rfl rfl
      exact alike.mpr (accountable seq rec queued)
    rw [step, deliverBatch, Spreading]
    split
    · next fails => exact iff_of_true accountable fun passes => nomatch fails.symm.trans passes
    · next seqs =>
        split
        · next fails => exact iff_of_true live fun _ passes => nomatch fails.symm.trans passes
        · next scans =>
            obtain ⟨held, apart⟩ := pendingEvents_spec sound (max cfg.batch 1)
            rw [deliverEvents_accountable_iff sound.retainLive _ held apart]
            constructor
            · intro both _ _
              exact both.1
            · intro spread
              exact ⟨spread (Bool.not_eq_true _ ▸ seqs) (Bool.not_eq_true _ ▸ scans),
                fun seq rec queued _ => live seq rec queued⟩
  | restart =>
    refine iff_of_true ?_ trivial
    intro seq rec queued
    have alike : (w.step rules cfg .restart).AccountedFor rules cfg seq rec ↔
        w.AccountedFor rules cfg seq rec := accountedFor_alike rfl rfl rfl
    exact alike.mpr (accountable seq rec queued)

theorem start_sound : Notifier.start.Sound where
  own seq now held := by cases held
  fresh seq rec queued := by cases queued
  counted _ := Nat.le_refl 0

/-- In every run, each event leaves the queue in order throughout exactly if no round gives an event up
that was not tried at each of its targets. -/
theorem events_accountable_iff (rules : String → List NotificationRule) (cfg : NotificationConfig)
    (steps : List NotifyStep) :
    AlwaysHolds (Notifier.step rules cfg) (Accountable rules cfg) Notifier.start steps ↔
      EveryStep (Notifier.step rules cfg) (Spreading rules cfg) Notifier.start steps := by
  have implied (w : Notifier) (both : w.Sound ∧ w.Accountable rules cfg) : w.Accountable rules cfg :=
    both.2
  refine alwaysHolds_iff_of_invariant implied
    (fun w next both => step_accountable_iff both.1 both.2 next)
    (fun w next both spread => ⟨step_sound both.1 next,
      (step_accountable_iff both.1 both.2 next).mpr spread⟩) ⟨start_sound, ?_⟩
  intro seq rec queued
  cases queued

end Event

def twoRules : String → List NotificationRule := fun _ =>
  [{ id := "a", events := ["s3:*"], kind := .topic, url := "http://down/" },
    { id := "b", events := ["s3:*"], kind := .topic, url := "http://up/" }]

def firstDown : Round where
  now := 0
  answers _ rule := if rule.id = "a" then none else some 200
  seqsFail := false
  scanFails := false
  rulesFail _ := false
  deleteFails _ := false
  markFails _ := false

/-- The second target accepts whatever it is offered.  The event is given up, and was never offered to
it. -/
theorem event_lost_behind_refusal :
    let cfg : NotificationConfig := ⟨1, 1, 64⟩
    let steps : List NotifyStep :=
      [.enqueue 0 "photos" "cat" "s3:ObjectCreated:Put", .deliver firstDown,
        .deliver { firstDown with now := 10 }]
    let w := steps.foldl (Notifier.step twoRules cfg) .start
    w.events.get? 1 = some ⟨1, "photos", "cat", "s3:ObjectCreated:Put", true⟩ ∧
      (∀ attempt ∈ w.attempts, attempt.rule.id = "a") ∧
      ¬AlwaysHolds (Notifier.step twoRules cfg) (Notifier.Accountable twoRules cfg) .start steps := by
  intro cfg steps w
  have marked : w.events.get? 1 = some ⟨1, "photos", "cat", "s3:ObjectCreated:Put", true⟩ := by
    decide +kernel
  have offered : ∀ attempt ∈ w.attempts, attempt.rule.id = "a" := by decide +kernel
  have queued : w.enqueued.get? 1 = some ⟨1, "photos", "cat", "s3:ObjectCreated:Put", false⟩ := by
    decide +kernel
  have second : { id := "b", events := ["s3:*"], kind := .topic, url := "http://up/" } ∈
      targets twoRules ⟨1, "photos", "cat", "s3:ObjectCreated:Put", false⟩ := by
    decide +kernel
  refine ⟨marked, offered, ?_⟩
  intro always
  have account := always steps [] rfl 1 _ queued
  have accepted := account.fanOut _ marked rfl _ second fun refused =>
    absurd (offered _ refused) (by decide)
  exact absurd (offered _ accepted) (by decide)

end FastS3.Http
