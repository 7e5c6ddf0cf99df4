import FastS3.Engine.Restore

namespace FastS3.Engine

open Alloc Data
open FastS3.Core (Error ObjectMeta RestoreState Segment SegKey Vk vkNull VersioningState KeyGroup
  Reading)
open Meta (RestoreJob)

/-! What one step of the archive does to the rows, to the queue and to the holdings. -/

namespace RestoreEngine

variable (e : RestoreEngine)

theorem group_commitRows (name other : ObjectName) (group : KeyGroup ObjectMeta) :
    (e.commitRows name group).group other = if other = name then group else e.group other := by
  rw [RestoreEngine.group, commitRows, BTreeMap.get?_insert]
  split
  · rfl
  · rfl

theorem transact_cases (name : ObjectName) (group : KeyGroup ObjectMeta) (calls : List DraftCall)
    (rollsBack : Bool) (ending : Ending) :
    (ending = .committed ∧ e.transact name group calls rollsBack ending =
        ({ e with pool := e.pool.commit calls } : RestoreEngine).commitRows name group) ∨
      (ending ≠ .committed ∧ ∃ alloc, e.transact name group calls rollsBack ending =
        { e with pool := ⟨alloc, e.pool.held⟩ } ∧
          (e.pool.transact calls rollsBack ending).alloc = alloc) := by
  cases ending with
  | committed => exact .inl ⟨rfl, rfl⟩
  | refused => exact .inr ⟨by simp, _, rfl, rfl⟩
  | failed count => exact .inr ⟨by simp, _, rfl, rfl⟩

def heldBy (found : Option ObjectMeta) : Multiset (List Segment) :=
  (found.elim [] segmentLists : List (List Segment))

def groupLists (group : KeyGroup ObjectMeta) : Multiset (List Segment) :=
  group.records.bind fun m => (segmentLists m : Multiset (List Segment))

/-- The lists of segments that the stored records hold, one occurrence for each record. -/
def lists : Multiset (List Segment) :=
  (e.objects.values.map groupLists).sum

@[simp] theorem groupLists_empty : groupLists (.empty : KeyGroup ObjectMeta) = 0 := rfl

theorem lists_split (name : ObjectName) :
    ∃ rest, e.lists = groupLists (e.group name) + rest ∧
      ∀ group, (e.commitRows name group).lists = groupLists group + rest := by
  refine ⟨((e.objects.erase name).values.map groupLists).sum, ?_, ?_⟩
  · rw [lists, RestoreEngine.group]
    cases held : e.objects.get? name with
    | none => simp [BTreeMap.erase_of_get? held]
    | some old =>
      have perm := ((BTreeMap.entries_perm held).map Prod.snd).map groupLists
      rw [BTreeMap.values, perm.sum_eq]
      rfl
  · intro group
    have perm := ((e.objects.insert_perm name group).map Prod.snd).map groupLists
    rw [lists, commitRows, BTreeMap.values, perm.sum_eq]
    rfl

theorem groupLists_put (group : KeyGroup ObjectMeta) (slot : Option Vk) (m : ObjectMeta) :
    groupLists (group.put slot m) + heldBy (group.row slot) =
      (segmentLists m : Multiset (List Segment)) + groupLists group := by
  have all := congrArg (fun records => Multiset.bind records fun m =>
    (segmentLists m : Multiset (List Segment))) (group.records_put slot m)
  simp only [Multiset.add_bind, Multiset.cons_bind] at all
  cases held : group.row slot with
  | none =>
    rw [held] at all
    exact all
  | some old =>
    rw [held] at all
    simpa [groupLists, heldBy] using all

theorem groupLists_erase (group : KeyGroup ObjectMeta) (slot : Option Vk) :
    groupLists (group.erase slot) + heldBy (group.row slot) = groupLists group := by
  have all := congrArg (fun records => Multiset.bind records fun m =>
    (segmentLists m : Multiset (List Segment))) (group.records_erase slot)
  simp only [Multiset.add_bind] at all
  cases held : group.row slot with
  | none =>
    rw [held] at all
    exact all
  | some old =>
    rw [held] at all
    simpa [groupLists, heldBy] using all

section Requests

variable {e after : RestoreEngine} {name : ObjectName} {vk : Option Vk} {m : ObjectMeta} {days : Nat}
  {tier : String} {now : Int} {fault : Option Error} {outcome : RestoreEnqueueOutcome}

theorem restorable_ok (found : e.restorable name vk = .ok m) :
    (e.group name).resolveEntry vk = some m ∧ m.isArchive = true := by
  rw [restorable] at found
  cases resolved : (e.group name).resolveEntry vk with
  | none =>
    rw [resolved] at found
    cases found
  | some other =>
    simp only [resolved] at found
    split at found
    · cases found
    · split at found
      · cases found
      · next archive =>
          split at found
          · cases found
          · cases found
            exact ⟨rfl, by simpa using archive⟩

theorem commitMetaRewrite_ok {slot : Option Vk} (done : e.commitMetaRewrite fault name slot m = .ok after) :
    fault = none ∧ e.row name slot ≠ none ∧ after = e.commitRows name ((e.group name).put slot m) := by
  unfold RestoreEngine.commitMetaRewrite at done
  cases fault with
  | some reason => cases done
  | none =>
    cases held : e.row name slot with
    | none =>
      rw [held] at done
      cases done
    | some old =>
      rw [held] at done
      cases done
      exact ⟨rfl, by simp, rfl⟩

/-- A request that succeeds rewrites one row, and leaves a job unless the copy is still valid. -/
theorem restoreEnqueue_ok (run : e.restoreEnqueue name vk days tier now fault = .ok (outcome, after)) :
    ∃ m, e.restorable name vk = .ok m ∧ fault = none ∧
      e.row name ((e.group name).slotOf vk) ≠ none ∧
      (m.restoreValid now = true ∧ after = e.commitRows name
          ((e.group name).put ((e.group name).slotOf vk) (extendedMeta m (now + days * 86400) now)) ∨
        m.restoreValid now = false ∧ after =
          { e.commitRows name
              ((e.group name).put ((e.group name).slotOf vk) (pendingMeta m tier now)) with
            jobs := e.jobs.insert (e.seq + 1) (enqueuedJob name m days tier now) }) := by
  rw [restoreEnqueue] at run
  cases found : e.restorable name vk with
  | error refusal =>
    rw [found] at run
    cases run
  | ok m =>
    simp only [found] at run
    refine ⟨m, rfl, ?_⟩
    split at run
    · next valid =>
        cases done : e.commitMetaRewrite fault name ((e.group name).slotOf vk)
            (extendedMeta m (now + days * 86400) now) with
        | error refusal =>
          rw [done] at run
          cases run
        | ok written =>
          rw [done] at run
          obtain ⟨quiet, there, rfl⟩ := commitMetaRewrite_ok done
          cases run
          exact ⟨quiet, there, .inl ⟨valid, rfl⟩⟩
    · next expired =>
        cases done : e.commitMetaRewrite fault name ((e.group name).slotOf vk)
            (pendingMeta m tier now) with
        | error refusal =>
          rw [done] at run
          cases run
        | ok written =>
          rw [done] at run
          obtain ⟨quiet, there, rfl⟩ := commitMetaRewrite_ok done
          cases run
          exact ⟨quiet, there, .inr ⟨by simpa using expired, rfl⟩⟩

end Requests

theorem ongoing_of_valid {m : ObjectMeta} {now : Int} (valid : m.restoreValid now = true) :
    m.restoreOngoing = false := by
  rw [ObjectMeta.restoreValid] at valid
  rw [ObjectMeta.restoreOngoing]
  cases state : m.restoreState with
  | none => rfl
  | some st =>
    rw [state] at valid
    simp only [Option.any_some, decide_eq_true_eq] at valid
    have later : st.restoredUntil ≠ 0 := by omega
    simp [later]

section Jobs

variable (e : RestoreEngine) (seq : Nat) (job : RestoreJob) (now : Int) (draw : CopyDraw)

/-- A job about a version that is not being restored is deleted, and any other one copies the version:
a committed copy ends the job, and nothing else changes a row or the queue. -/
theorem restoreMaterializeOne_cases :
    (∃ alloc, e.restoreMaterializeOne seq job now draw = (none, { e with pool := ⟨alloc, e.pool.held⟩ })) ∨
      ((∀ m, (e.group (jobName job)).resolveEntry job.vk = some m → m.restoreOngoing = false) ∧
        e.restoreMaterializeOne seq job now draw =
          (some false, { e with jobs := e.jobs.erase seq, seq := e.seq + 1 })) ∨
      ∃ m, (e.group (jobName job)).resolveEntry job.vk = some m ∧ m.restoreOngoing = true ∧
        draw.ending = .committed ∧ e.row (jobName job) ((e.group (jobName job)).slotOf m.versionId) ≠ none ∧
        e.restoreMaterializeOne seq job now draw =
          (some true, ({ e with
            pool := e.pool.commit (e.copyCalls draw m)
            jobs := e.jobs.erase seq } : RestoreEngine).commitRows (jobName job)
              ((e.group (jobName job)).put ((e.group (jobName job)).slotOf m.versionId)
                (e.copyOf job now draw m))) := by
  have dropped : (∀ m, (e.group (jobName job)).resolveEntry job.vk = some m → m.restoreOngoing = false) →
      (∃ alloc, e.dropJob seq draw.ending = (none, { e with pool := ⟨alloc, e.pool.held⟩ })) ∨
        ((∀ m, (e.group (jobName job)).resolveEntry job.vk = some m → m.restoreOngoing = false) ∧
          e.dropJob seq draw.ending =
            (some false, { e with jobs := e.jobs.erase seq, seq := e.seq + 1 })) := by
    intro idle
    cases draw.ending with
    | committed => exact .inr ⟨idle, rfl⟩
    | refused => exact .inl ⟨e.pool.alloc, rfl⟩
    | failed count => exact .inl ⟨e.pool.alloc, rfl⟩
  rw [restoreMaterializeOne]
  cases resolved : (e.group (jobName job)).resolveEntry job.vk with
  | none =>
    rw [resolved] at dropped
    exact (dropped fun m impossible => nomatch impossible).imp_right .inl
  | some m =>
    rw [resolved] at dropped
    simp only
    split
    · next idle =>
        refine (dropped ?_).imp_right .inl
        intro other same
        cases same
        rcases Bool.or_eq_true_iff.mp idle with valid | excess
        · exact ongoing_of_valid valid
        · simpa using excess
    · next busy =>
        have ongoing : m.restoreOngoing = true := by
          simp only [Bool.or_eq_true, not_or, Bool.not_eq_true, Bool.not_eq_false'] at busy
          exact busy.2
        cases found : e.row (jobName job) ((e.group (jobName job)).slotOf m.versionId) with
        | none =>
          cases draw.ending with
          | committed => exact .inl ⟨_, rfl⟩
          | refused => exact .inl ⟨_, rfl⟩
          | failed count => exact .inl ⟨_, rfl⟩
        | some old =>
          cases drawn : draw.ending with
          | committed => exact .inr (.inr ⟨m, rfl, ongoing, rfl, by simp [found], rfl⟩)
          | refused => exact .inl ⟨_, rfl⟩
          | failed count => exact .inl ⟨_, rfl⟩

end Jobs

section Collection

variable (e : RestoreEngine) (now : Int) (name : ObjectName) (slot : Option Vk) (m : ObjectMeta)
  (ending : Ending)

def collectCalls (m : ObjectMeta) : List DraftCall :=
  releaseCalls ([m.restoredExtents].filter fun segs => segs ≠ [])

theorem restoreGcEntry_cases :
    (e.restoreGcEntry now name slot m ending).2 = e ∨
      (ending ≠ .committed ∨ e.row name slot = none) ∧
        (∃ alloc, (e.restoreGcEntry now name slot m ending).2 =
          { e with pool := ⟨alloc, e.pool.held⟩ }) ∨
      ending = .committed ∧ e.row name slot ≠ none ∧ m.restoreExpired now = true ∧
        (e.restoreGcEntry now name slot m ending).2 =
          ({ e with pool := e.pool.commit (collectCalls m) } : RestoreEngine).commitRows name
            ((e.group name).put slot { m with restoreState := none }) := by
  have sameCalls : ∀ st, m.restoreState = some st →
      releaseCalls ([st.restoredExtents].filter fun segs => segs ≠ []) = collectCalls m := by
    intro st state
    rw [collectCalls, ObjectMeta.restoredExtents, state]
  rw [restoreGcEntry]
  cases state : m.restoreState with
  | none => exact .inl rfl
  | some st =>
    simp only
    split
    · exact .inl rfl
    · next due =>
        right
        have expired : m.restoreExpired now = true := by
          simp only [Bool.or_eq_true, not_or, Bool.not_eq_true, Bool.not_eq_false'] at due
          exact due.2
        rw [sameCalls st state]
        cases found : e.row name slot with
        | none =>
          cases ending with
          | committed => exact .inl ⟨.inr rfl, _, rfl⟩
          | refused => exact .inl ⟨.inr rfl, _, rfl⟩
          | failed count => exact .inl ⟨.inr rfl, _, rfl⟩
        | some old =>
          cases ending with
          | committed => exact .inr ⟨rfl, by simp, expired, rfl⟩
          | refused => exact .inl ⟨.inl (by simp), _, rfl⟩
          | failed count => exact .inl ⟨.inl (by simp), _, rfl⟩

end Collection

section Balances

variable {group : KeyGroup ObjectMeta} {slot : Option Vk} {m : ObjectMeta} {found : Option ObjectMeta}
  {gained holdings rest : Multiset (List Segment)}

def stored (segs : List Segment) : Multiset (List Segment) :=
  if segs = [] then 0 else {segs}

theorem stored_le (segs : List Segment) : stored segs ≤ {segs} := by
  rw [stored]
  split
  · exact Multiset.zero_le _
  · exact le_refl _

theorem coe_segmentLists (m : ObjectMeta) :
    (segmentLists m : Multiset (List Segment)) = stored m.extents + stored m.restoredExtents := by
  rw [segmentLists, stored, stored]
  by_cases data : m.extents = []
  · by_cases copy : m.restoredExtents = []
    · simp [data, copy]
    · simp [data, copy]
  · by_cases copy : m.restoredExtents = []
    · simp [data, copy]
    · simp only [List.filter_cons, data, copy, if_false, ne_eq, not_false_eq_true, decide_true,
        if_true, List.filter_nil]
      rfl

theorem segmentLists_le (m : ObjectMeta) (plain : m.restoreState = none) :
    (segmentLists m : Multiset (List Segment)) ≤ {m.extents} := by
  have nothing : stored m.restoredExtents = 0 := by
    rw [ObjectMeta.restoredExtents, plain, stored, if_pos rfl]
  rw [coe_segmentLists, nothing, add_zero]
  exact stored_le m.extents

theorem put_balance (replaced : found = group.row slot ∨ found = none)
    (brings : (segmentLists m : Multiset (List Segment)) ≤ gained)
    (within : groupLists group + rest ≤ holdings) :
    groupLists (group.put slot m) + rest ≤ gained + holdings - heldBy found := by
  have total := groupLists_put group slot m
  have grown : groupLists (group.put slot m) + rest + heldBy (group.row slot) ≤ gained + holdings := by
    calc groupLists (group.put slot m) + rest + heldBy (group.row slot)
      _ = (groupLists (group.put slot m) + heldBy (group.row slot)) + rest := add_right_comm _ _ _
      _ = (segmentLists m : Multiset (List Segment)) + (groupLists group + rest) := by
          rw [total, add_assoc]
      _ ≤ gained + holdings := add_le_add brings within
  rcases replaced with rfl | rfl
  · exact le_tsub_of_add_le_right grown
  · have nothing : heldBy none = 0 := rfl
    rw [nothing, tsub_zero]
    exact le_trans (Multiset.le_add_right _ _) grown

theorem erase_balance (within : groupLists group + rest ≤ holdings) :
    groupLists (group.erase slot) + rest ≤ holdings - heldBy (group.row slot) := by
  apply le_tsub_of_add_le_right
  rw [add_right_comm, groupLists_erase]
  exact within

variable (held : List (List Segment))

theorem heldAfter_releaseAll (found : Option ObjectMeta) :
    ((heldAfter held (releaseAllSegments found) : List (List Segment)) : Multiset (List Segment)) =
      (held : Multiset (List Segment)) - heldBy found :=
  heldAfter_release held _

theorem heldAfter_put (writes : List WriterCall) (found : Option ObjectMeta) :
    ((heldAfter held (storeCalls writes ++ releaseAllSegments found) : List (List Segment)) :
        Multiset (List Segment)) =
      {written writes} + (held : Multiset (List Segment)) - heldBy found := by
  rw [heldAfter_append, heldAfter_releaseAll, heldAfter_store, ← Multiset.cons_coe,
    Multiset.singleton_add]

theorem heldAfter_share {src : ObjectMeta} (inlined : src.inline.isSome = true → src.extents = []) :
    ∃ gained, ((heldAfter held (shareCalls src) : List (List Segment)) : Multiset (List Segment)) =
        gained + (held : Multiset (List Segment)) ∧
      ∀ copy : ObjectMeta, copy.extents = src.extents → copy.restoreState = none →
        (segmentLists copy : Multiset (List Segment)) ≤ gained := by
  cases inline : src.inline with
  | none =>
    refine ⟨{src.extents}, ?_, ?_⟩
    · rw [shareCalls, inline, Multiset.singleton_add]
      rfl
    · intro copy same plain
      rw [← same]
      exact segmentLists_le copy plain
  | some bytes =>
    have nothing : src.extents = [] := inlined (by rw [inline]; rfl)
    refine ⟨0, ?_, ?_⟩
    · rw [shareCalls, inline, zero_add]
      rfl
    · intro copy same plain
      have empty : copy.extents = [] := same.trans nothing
      simp [segmentLists, ObjectMeta.restoredExtents, empty, plain]

theorem rewrite_balance {copy : ObjectMeta} {released : Multiset (List Segment)}
    (held : group.row slot = some m)
    (change : (segmentLists copy : Multiset (List Segment)) + released ≤
      gained + (segmentLists m : Multiset (List Segment)))
    (within : groupLists group + rest ≤ holdings) :
    groupLists (group.put slot copy) + rest ≤ gained + holdings - released := by
  have total := groupLists_put group slot copy
  rw [held] at total
  have own : heldBy (some m) = (segmentLists m : Multiset (List Segment)) := rfl
  rw [own] at total
  apply le_tsub_of_add_le_right
  have sum : groupLists (group.put slot copy) + rest + released + segmentLists m ≤
      gained + holdings + (segmentLists m : Multiset (List Segment)) := by
    calc groupLists (group.put slot copy) + rest + released + segmentLists m
      _ = (groupLists (group.put slot copy) + segmentLists m) + (rest + released) := by abel
      _ = ((segmentLists copy : Multiset (List Segment)) + released) + (groupLists group + rest) := by
          rw [total]
          abel
      _ ≤ (gained + (segmentLists m : Multiset (List Segment))) + holdings := add_le_add change within
      _ = gained + holdings + segmentLists m := by abel
  exact Multiset.add_le_add_iff_right.mp sum

theorem shrink_balance {copy : ObjectMeta} (held : group.row slot = some m)
    (fewer : (segmentLists copy : Multiset (List Segment)) ≤ segmentLists m)
    (within : groupLists group + rest ≤ holdings) :
    groupLists (group.put slot copy) + rest ≤ holdings := by
  have change : (segmentLists copy : Multiset (List Segment)) + 0 ≤ 0 + segmentLists m := by
    rw [add_zero, zero_add]
    exact fewer
  have balanced := rewrite_balance held change within
  rwa [zero_add, tsub_zero] at balanced

theorem heldAfter_copy (e : RestoreEngine) (held : List (List Segment)) (job : RestoreJob) (now : Int)
    (draw : CopyDraw) (m : ObjectMeta) :
    ∃ gained, ((heldAfter held (e.copyCalls draw m) : List (List Segment)) : Multiset (List Segment)) =
        gained + (held : Multiset (List Segment)) ∧
      (segmentLists (e.copyOf job now draw m) : Multiset (List Segment)) ≤ gained + segmentLists m := by
  rw [coe_segmentLists, coe_segmentLists, copyCalls, copyOf]
  by_cases small : m.size ≤ e.smallObjectLimit
  · refine ⟨0, ?_, ?_⟩
    · rw [if_pos small, zero_add]
      rfl
    · rw [if_pos small, zero_add]
      exact add_le_add (le_refl _) (Multiset.zero_le _)
  · refine ⟨{written draw.writes}, ?_, ?_⟩
    · rw [if_neg small, heldAfter_store, ← Multiset.cons_coe, Multiset.singleton_add]
    · rw [if_neg small]
      calc stored m.extents + stored (written draw.writes)
        _ ≤ stored m.extents + {written draw.writes} := add_le_add (le_refl _) (stored_le _)
        _ = {written draw.writes} + stored m.extents := add_comm _ _
        _ ≤ {written draw.writes} + (stored m.extents + stored m.restoredExtents) :=
            add_le_add (le_refl _) (Multiset.le_add_right _ _)

theorem heldAfter_collect (m : ObjectMeta) :
    ((heldAfter held (collectCalls m) : List (List Segment)) : Multiset (List Segment)) =
      (held : Multiset (List Segment)) - stored m.restoredExtents := by
  rw [collectCalls, heldAfter_release, stored]
  by_cases empty : m.restoredExtents = []
  · simp [empty]
  · simp [empty]

theorem collected_lists (m : ObjectMeta) :
    (segmentLists { m with restoreState := none } : Multiset (List Segment)) +
        stored m.restoredExtents = segmentLists m := by
  rw [coe_segmentLists, coe_segmentLists]
  have nothing : stored ({ m with restoreState := none } : ObjectMeta).restoredExtents = 0 := rfl
  rw [nothing, add_zero]

end Balances

end RestoreEngine

end FastS3.Engine
