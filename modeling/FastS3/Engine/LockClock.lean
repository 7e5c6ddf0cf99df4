import FastS3.Core.Clock
import Mathlib.Data.List.Infix
import Mathlib.Data.List.Chain
import Mathlib.Tactic.Linarith

namespace FastS3.Engine

open FastS3.Core (I64 TrustedClockState)

/-! The clock of the locks over restarts.

A query reads the clocks and writes nothing down, so it is the refreshes that the trusted time rests on.
-/

inductive ClockEvent where
  | boot (readOnly : Bool) (wall mono : I64)
  | query (wall mono : I64)
  | refresh (wall mono : I64) (persists : Bool)
deriving DecidableEq

namespace ClockEvent

def wall : ClockEvent → I64
  | boot _ wall _ => wall
  | query wall _ => wall
  | refresh wall _ _ => wall

def mono : ClockEvent → I64
  | boot _ _ mono => mono
  | query _ mono => mono
  | refresh _ mono _ => mono

def isBoot : ClockEvent → Bool
  | boot _ _ _ => true
  | _ => false

end ClockEvent

structure TrustedClockRt where
  state : TrustedClockState
  readOnly : Bool

structure ClockWorld where
  /-- `s:trusted_clock`. -/
  persisted : Option TrustedClockState
  running : Option TrustedClockRt

namespace ClockWorld

def step (w : ClockWorld) : ClockEvent → ClockWorld
  | .boot readOnly wall mono =>
    let state := TrustedClockState.rebaselineOnBoot w.persisted wall mono
    ⟨if readOnly then w.persisted else some state, some ⟨state, readOnly⟩⟩
  | .query _ _ => w
  | .refresh wall mono persists =>
    match w.running with
    | none => w
    | some rt =>
      if rt.readOnly then w
      else
        let state := rt.state.refresh wall mono
        ⟨if persists then some state else w.persisted, some ⟨state, false⟩⟩

def after (events : List ClockEvent) : ClockWorld :=
  events.foldl step ⟨none, none⟩

/-- The answer of `lock_now`, where an engine runs. -/
def lockNow (w : ClockWorld) (wall mono : I64) : Option I64 :=
  w.running.map fun rt => rt.state.lockNow wall mono

theorem after_concat (events : List ClockEvent) (e : ClockEvent) :
    after (events ++ [e]) = (after events).step e := by
  rw [after, List.foldl_concat, after]

end ClockWorld

def Forward (events : List ClockEvent) : Prop :=
  events.IsChain fun earlier later => later.isBoot = true ∨ earlier.mono ≤ later.mono

instance (events : List ClockEvent) : Decidable (Forward events) :=
  inferInstanceAs (Decidable (List.IsChain _ _))

def passed (last : Option ClockEvent) (e : ClockEvent) : Int :=
  match last with
  | none => 0
  | some last => if e.isBoot then 0 else e.mono.1 - last.mono.1

def sightings (events : List ClockEvent) : List (I64 × Int) :=
  (events.foldl (fun (seen : Option ClockEvent × List (I64 × Int)) e =>
    (some e, (seen.2.map fun s => (s.1, s.2 + passed seen.1 e)) ++ [(e.wall, 0)])) (none, [])).2

def Reached (events : List ClockEvent) (timeNs : Int) : Prop :=
  ∃ s ∈ sightings events, timeNs ≤ s.1.1 * 1000000000 + s.2

section Sightings

variable {events : List ClockEvent} {e : ClockEvent} {timeNs : Int}

theorem sightings_concat (events : List ClockEvent) (e : ClockEvent) :
    sightings (events ++ [e]) =
      (sightings events).map (fun s => (s.1, s.2 + passed events.getLast? e)) ++ [(e.wall, 0)] := by
  have last : ∀ events : List ClockEvent,
      (events.foldl (fun (seen : Option ClockEvent × List (I64 × Int)) e =>
        (some e, (seen.2.map fun s => (s.1, s.2 + passed seen.1 e)) ++ [(e.wall, 0)])) (none, [])).1 =
        events.getLast? := by
    intro events
    induction events using List.reverseRecOn with
    | nil => rfl
    | append_singleton events e _ => rw [List.foldl_concat, List.getLast?_concat]
  rw [sightings, List.foldl_concat, last]
  rfl

theorem Reached.own : Reached (events ++ [e]) (e.wall.1 * 1000000000) := by
  rw [Reached, sightings_concat]
  exact ⟨(e.wall, 0), List.mem_append_right _ List.mem_cons_self, by simp only; omega⟩

theorem Reached.concat (reached : Reached events timeNs) (e : ClockEvent) :
    Reached (events ++ [e]) (timeNs + passed events.getLast? e) := by
  obtain ⟨s, member, within⟩ := reached
  rw [Reached, sightings_concat]
  exact ⟨_, List.mem_append_left _ (List.mem_map.mpr ⟨s, member, rfl⟩), by simp only; omega⟩

theorem Reached.weaken {lower : Int} (reached : Reached events timeNs) (below : lower ≤ timeNs) :
    Reached events lower := by
  obtain ⟨s, member, within⟩ := reached
  exact ⟨s, member, le_trans below within⟩

theorem Forward.earlier (forward : Forward (events ++ [e])) : Forward events :=
  (List.isChain_append.mp forward).1

theorem Forward.passed_nonneg (forward : Forward (events ++ [e])) : 0 ≤ passed events.getLast? e := by
  cases found : events.getLast? with
  | none => exact le_refl _
  | some last =>
    rw [passed]
    split
    · exact le_refl _
    · next running =>
        have order := (List.isChain_append.mp forward).2.2 last found e rfl
        rcases order with boot | later
        · exact absurd boot running
        · have later : last.mono.1 ≤ e.mono.1 := later
          omega

end Sightings

/-- What holds of the persisted pair and of the running one behind every run. -/
structure Tracked (events : List ClockEvent) : Prop where
  running : ∀ rt, (ClockWorld.after events).running = some rt → ∃ last, events.getLast? = some last ∧
    rt.state.lastMonoNs ≤ last.mono ∧
    Reached events (rt.state.lastWall.1 * 1000000000 + (last.mono.1 - rt.state.lastMonoNs.1))
  persisted : ∀ st, (ClockWorld.after events).persisted = some st →
    Reached events (st.lastWall.1 * 1000000000)
  kept : ∀ before st, before <+: events → (ClockWorld.after before).persisted = some st →
    ∃ now, (ClockWorld.after events).persisted = some now ∧ st.lastWall ≤ now.lastWall
  ahead : ∀ rt st, (ClockWorld.after events).running = some rt →
    (ClockWorld.after events).persisted = some st → st.lastWall ≤ rt.state.lastWall

section Tracking

variable {events : List ClockEvent}

theorem kept_concat {e : ClockEvent} (tracked : Tracked events)
    (rises : ∀ st, (ClockWorld.after events).persisted = some st →
      ∃ now, ((ClockWorld.after events).step e).persisted = some now ∧ st.lastWall ≤ now.lastWall) :
    ∀ before st, before <+: events ++ [e] → (ClockWorld.after before).persisted = some st →
      ∃ now, (ClockWorld.after (events ++ [e])).persisted = some now ∧ st.lastWall ≤ now.lastWall := by
  intro before st front found
  rcases List.prefix_concat_iff.mp front with rfl | front
  · exact ⟨st, found, le_refl _⟩
  · obtain ⟨middle, held, below⟩ := tracked.kept before st front found
    obtain ⟨now, holds, above⟩ := rises middle held
    rw [ClockWorld.after_concat]
    exact ⟨now, holds, le_trans below above⟩

theorem Tracked.unchanged {e : ClockEvent} (tracked : Tracked events) (forward : Forward (events ++ [e]))
    (plain : e.isBoot = false) (same : (ClockWorld.after events).step e = ClockWorld.after events) :
    Tracked (events ++ [e]) := by
  have stays : ClockWorld.after (events ++ [e]) = ClockWorld.after events := by
    rw [ClockWorld.after_concat, same]
  refine ⟨?_, ?_, ?_, ?_⟩
  · intro rt found
    rw [stays] at found
    obtain ⟨last, ends, order, reached⟩ := tracked.running rt found
    have later := forward.passed_nonneg
    have next := reached.concat e
    rw [ends, passed, plain] at next later
    simp only [Bool.false_eq_true, if_false] at next later
    refine ⟨e, List.getLast?_concat, ?_, ?_⟩
    · have order : rt.state.lastMonoNs.1 ≤ last.mono.1 := order
      change rt.state.lastMonoNs.1 ≤ e.mono.1
      omega
    · exact next.weaken (by omega)
  · intro st found
    rw [stays] at found
    exact ((tracked.persisted st found).concat e).weaken (by have later := forward.passed_nonneg; omega)
  · apply kept_concat tracked
    intro st found
    rw [same]
    exact ⟨st, found, le_refl _⟩
  · intro rt st found held
    rw [stays] at found held
    exact tracked.ahead rt st found held

theorem Tracked.boot (tracked : Tracked events) {readOnly : Bool} {wall mono : I64}
    (forward : Forward (events ++ [.boot readOnly wall mono])) :
    Tracked (events ++ [.boot readOnly wall mono]) := by
  obtain ⟨state, made⟩ : ∃ state, state =
      TrustedClockState.rebaselineOnBoot (ClockWorld.after events).persisted wall mono := ⟨_, rfl⟩
  have booted : ClockWorld.after (events ++ [.boot readOnly wall mono]) =
      ⟨if readOnly then (ClockWorld.after events).persisted else some state, some ⟨state, readOnly⟩⟩ := by
    rw [ClockWorld.after_concat, made]
    rfl
  have fresh : state.lastMonoNs = mono := by
    rw [made]
    cases (ClockWorld.after events).persisted <;> rfl
  have above : ∀ st, (ClockWorld.after events).persisted = some st → st.lastWall ≤ state.lastWall := by
    intro st found
    rw [made, found]
    exact le_max_right _ _
  have reached : Reached (events ++ [.boot readOnly wall mono]) (state.lastWall.1 * 1000000000) := by
    cases found : (ClockWorld.after events).persisted with
    | none =>
      have own : state.lastWall = wall := by
        rw [made, found]
        rfl
      rw [own]
      exact Reached.own
    | some old =>
      have either : state.lastWall = wall ∨ state.lastWall = old.lastWall := by
        rw [made, found]
        exact max_choice wall old.lastWall
      rcases either with own | kept
      · rw [own]
        exact Reached.own
      · rw [kept]
        exact ((tracked.persisted old found).concat _).weaken
          (by have later := forward.passed_nonneg; omega)
  refine ⟨?_, ?_, ?_, ?_⟩
  · intro rt found
    rw [booted] at found
    cases found
    refine ⟨_, List.getLast?_concat, le_of_eq fresh, ?_⟩
    simp only [fresh, ClockEvent.mono]
    exact reached.weaken (by omega)
  · intro st found
    rw [booted] at found
    cases readOnly with
    | true =>
      exact ((tracked.persisted st found).concat _).weaken
        (by have later := forward.passed_nonneg; omega)
    | false =>
      cases found
      exact reached
  · apply kept_concat tracked
    intro st found
    rw [← ClockWorld.after_concat, booted]
    cases readOnly with
    | true => exact ⟨st, found, le_refl _⟩
    | false => exact ⟨state, rfl, above st found⟩
  · intro rt st found held
    rw [booted] at found held
    cases found
    cases readOnly with
    | true => exact above st held
    | false =>
      cases held
      exact le_refl _

theorem Tracked.refresh (tracked : Tracked events) {wall mono : I64} {persists : Bool}
    (forward : Forward (events ++ [.refresh wall mono persists])) :
    Tracked (events ++ [.refresh wall mono persists]) := by
  cases found : (ClockWorld.after events).running with
  | none =>
    apply tracked.unchanged forward rfl
    rw [ClockWorld.step, found]
  | some rt =>
    cases writable : rt.readOnly with
    | true =>
      apply tracked.unchanged forward rfl
      simp only [ClockWorld.step, found, writable, if_true]
    | false =>
      have refreshed : ClockWorld.after (events ++ [.refresh wall mono persists]) =
          ⟨if persists then some (rt.state.refresh wall mono) else (ClockWorld.after events).persisted,
            some ⟨rt.state.refresh wall mono, false⟩⟩ := by
        rw [ClockWorld.after_concat]
        simp only [ClockWorld.step, found, writable, Bool.false_eq_true, if_false]
      obtain ⟨last, ends, order, reached⟩ := tracked.running rt found
      have later := forward.passed_nonneg
      have next := reached.concat (.refresh wall mono persists)
      rw [ends, passed] at next later
      simp only [ClockEvent.isBoot, ClockEvent.mono, Bool.false_eq_true, if_false] at next later
      have since : rt.state.lastMonoNs ≤ mono := by
        have order : rt.state.lastMonoNs.1 ≤ last.mono.1 := order
        change rt.state.lastMonoNs.1 ≤ mono.1
        cases last <;> simp only [ClockEvent.mono] at later order <;> omega
      obtain ⟨above, within⟩ := Core.trustedNow_forward rt.state since
      have rises : rt.state.lastWall ≤ (rt.state.refresh wall mono).lastWall :=
        le_trans above (le_max_right _ _)
      have mark : Reached (events ++ [.refresh wall mono persists])
          ((rt.state.refresh wall mono).lastWall.1 * 1000000000) := by
        rcases max_choice wall (rt.state.trustedNow mono) with own | trusted
        · simp only [TrustedClockState.refresh, own]
          exact Reached.own
        · simp only [TrustedClockState.refresh, trusted]
          exact next.weaken (by omega)
      refine ⟨?_, ?_, ?_, ?_⟩
      · intro other there
        rw [refreshed] at there
        cases there
        refine ⟨_, List.getLast?_concat, le_refl _, ?_⟩
        simp only [TrustedClockState.refresh, ClockEvent.mono] at mark ⊢
        exact mark.weaken (by omega)
      · intro st held
        rw [refreshed] at held
        cases persists with
        | true =>
          cases held
          exact mark
        | false =>
          exact ((tracked.persisted st held).concat _).weaken
            (by have later := forward.passed_nonneg; omega)
      · apply kept_concat tracked
        intro st held
        rw [← ClockWorld.after_concat, refreshed]
        cases persists with
        | true => exact ⟨_, rfl, le_trans (tracked.ahead rt st found held) rises⟩
        | false => exact ⟨st, held, le_refl _⟩
      · intro other st there held
        rw [refreshed] at there held
        cases there
        cases persists with
        | true =>
          cases held
          exact le_refl _
        | false => exact le_trans (tracked.ahead rt st found held) rises

theorem tracked (forward : Forward events) : Tracked events := by
  induction events using List.reverseRecOn with
  | nil =>
    refine ⟨?_, ?_, ?_, ?_⟩
    · intro rt found
      cases found
    · intro st found
      cases found
    · intro before st front found
      obtain rfl := List.prefix_nil.mp front
      cases found
    · intro rt st found
      cases found
  | append_singleton events e ih =>
    have before := ih forward.earlier
    cases e with
    | boot readOnly wall mono => exact before.boot forward
    | query wall mono => exact before.unchanged forward rfl rfl
    | refresh wall mono persists => exact before.refresh forward

end Tracking

def Lasting (value : I64) (events : List ClockEvent) : Prop :=
  ∀ rt, (ClockWorld.after events).running = some rt →
    ∀ mono, (∀ last ∈ events.getLast?, last.mono ≤ mono) → value ≤ rt.state.trustedNow mono

section Answers

variable {events between : List ClockEvent} {value wall mono : I64} {e : ClockEvent}

theorem mono_ordered (forward : Forward (events ++ [e])) (plain : e.isBoot = false) :
    ∀ last ∈ events.getLast?, last.mono ≤ e.mono := by
  intro last found
  rcases (List.isChain_append.mp forward).2.2 last found e rfl with boot | order
  · rw [plain] at boot
    cases boot
  · exact order

theorem Lasting.concat (lasting : Lasting value events) (forward : Forward (events ++ [e]))
    (plain : e.isBoot = false) : Lasting value (events ++ [e]) := by
  have order := mono_ordered forward plain
  intro rt found mono above
  have next : e.mono ≤ mono := above e List.getLast?_concat
  have since : ∀ last ∈ events.getLast?, last.mono ≤ mono :=
    fun last ends => le_trans (order last ends) next
  rw [ClockWorld.after_concat] at found
  cases e with
  | boot readOnly wall mono => cases plain
  | query wall mono => exact lasting rt found _ since
  | refresh wall at_ persists =>
    cases ran : (ClockWorld.after events).running with
    | none =>
      simp only [ClockWorld.step, ran] at found
      cases found
    | some old =>
      simp only [ClockWorld.step, ran] at found
      split at found
      · rw [ran] at found
        cases found
        exact lasting rt ran _ since
      · cases found
        have trusted : value ≤ old.state.trustedNow at_ := lasting old ran at_ order
        exact le_trans (le_trans trusted (le_max_right _ _)) (Core.trustedNow_refresh next)

theorem Lasting.append (lasting : Lasting value events) (forward : Forward (events ++ between))
    (plain : ∀ e ∈ between, e.isBoot = false) : Lasting value (events ++ between) := by
  induction between using List.reverseRecOn with
  | nil =>
    rw [List.append_nil]
    exact lasting
  | append_singleton between e ih =>
    rw [← List.append_assoc] at forward ⊢
    have front := ih forward.earlier fun e member => plain e (List.mem_append_left _ member)
    exact front.concat forward (plain e (List.mem_append_right _ List.mem_cons_self))

theorem writable_append (plain : ∀ e ∈ between, e.isBoot = false)
    (writable : ∀ rt, (ClockWorld.after events).running = some rt → rt.readOnly = false) :
    ∀ rt, (ClockWorld.after (events ++ between)).running = some rt → rt.readOnly = false := by
  induction between using List.reverseRecOn with
  | nil =>
    rw [List.append_nil]
    exact writable
  | append_singleton between e ih =>
    have front := ih fun e member => plain e (List.mem_append_left _ member)
    have last := plain e (List.mem_append_right _ List.mem_cons_self)
    intro rt found
    rw [← List.append_assoc, ClockWorld.after_concat] at found
    cases e with
    | boot readOnly wall mono => cases last
    | query wall mono => exact front rt found
    | refresh wall mono persists =>
      cases ran : (ClockWorld.after (events ++ between)).running with
      | none =>
        simp only [ClockWorld.step, ran] at found
        cases found
      | some old =>
        simp only [ClockWorld.step, ran, front old ran, Bool.false_eq_true, if_false] at found
        cases found
        rfl

theorem Lasting.refresh {persists : Bool}
    (writable : ∀ rt, (ClockWorld.after events).running = some rt → rt.readOnly = false) :
    Lasting wall (events ++ [.refresh wall mono persists]) := by
  intro rt found later above
  have next : mono ≤ later := above _ List.getLast?_concat
  rw [ClockWorld.after_concat] at found
  cases ran : (ClockWorld.after events).running with
  | none =>
    simp only [ClockWorld.step, ran] at found
    cases found
  | some old =>
    simp only [ClockWorld.step, ran, writable old ran, Bool.false_eq_true, if_false] at found
    cases found
    exact le_trans (le_max_left _ _) (Core.trustedNow_refresh next)

/-- What a query saw is trusted: the trusted time had come as far, or a later refresh reads as much. -/
def TakenUp (before : List ClockEvent) (wall mono : I64) (between : List ClockEvent) : Prop :=
  (∀ rt, (ClockWorld.after before).running = some rt → wall ≤ rt.state.trustedNow mono) ∨
    (∀ rt, (ClockWorld.after before).running = some rt → rt.readOnly = false) ∧
      ∃ left seen later persists right, between = left ++ .refresh seen later persists :: right ∧
        wall ≤ seen

theorem lockNow_le {before : List ClockEvent} {earlierWall earlierMono earlier answer : I64}
    (forward : Forward (before ++ .query earlierWall earlierMono :: between ++ [.query wall mono]))
    (plain : ∀ e ∈ between, e.isBoot = false)
    (first : (ClockWorld.after before).lockNow earlierWall earlierMono = some earlier)
    (second : (ClockWorld.after (before ++ .query earlierWall earlierMono :: between)).lockNow wall mono =
      some answer)
    (takenUp : TakenUp before earlierWall earlierMono between) : earlier ≤ answer := by
  obtain ⟨rt, ran, rfl⟩ := Option.map_eq_some_iff.mp first
  obtain ⟨now, runs, rfl⟩ := Option.map_eq_some_iff.mp second
  have whole : before ++ .query earlierWall earlierMono :: between =
      before ++ [.query earlierWall earlierMono] ++ between := by
    rw [List.append_assoc, List.singleton_append]
  rw [whole] at forward runs
  have same : ClockWorld.after (before ++ [.query earlierWall earlierMono]) = ClockWorld.after before := by
    rw [ClockWorld.after_concat]
    rfl
  -- the trusted time of the first query lasts, and its wall reading as well
  have trusted : Lasting (rt.state.trustedNow earlierMono)
      (before ++ [.query earlierWall earlierMono]) := by
    intro other there later above
    rw [same, ran] at there
    cases there
    exact Core.trustedNow_mono (above _ List.getLast?_concat)
  have stays := trusted.append forward.earlier plain
  have seen : Lasting earlierWall (before ++ [.query earlierWall earlierMono] ++ between) := by
    rcases takenUp with known | ⟨writable, left, seen, later, persists, right, rfl, above⟩
    · intro other there later above
      exact le_trans (known rt ran) (stays other there later above)
    · have split : before ++ [.query earlierWall earlierMono] ++
          (left ++ .refresh seen later persists :: right) =
            before ++ [.query earlierWall earlierMono] ++ left ++ [.refresh seen later persists] ++
              right := by simp
      rw [← same] at writable
      rw [split] at forward ⊢
      have quiet : ∀ e ∈ left, e.isBoot = false := fun e member => plain e (List.mem_append_left _ member)
      have able := writable_append quiet writable
      have taken : Lasting seen
          (before ++ [.query earlierWall earlierMono] ++ left ++ [.refresh seen later persists]) :=
        Lasting.refresh able
      have lasts := taken.append forward.earlier fun e member =>
        plain e (List.mem_append_right _ (List.mem_cons_of_mem _ member))
      intro other there later after
      exact le_trans above (lasts other there later after)
  have order := mono_ordered forward rfl
  exact max_le (le_trans (seen now runs mono order) (le_max_right _ _))
    (le_trans (stays now runs mono order) (le_max_right _ _))

/-- An answer is at least every mark on the disk, and at most a reading of the wall clock and the
monotonic time since. -/
theorem lockNow_between (forward : Forward (events ++ [.query wall mono]))
    (answer : (ClockWorld.after events).lockNow wall mono = some value) :
    (∀ front st, front <+: events → (ClockWorld.after front).persisted = some st →
      st.lastWall ≤ value) ∧
      Reached (events ++ [.query wall mono]) (value.1 * 1000000000) := by
  obtain ⟨rt, ran, rfl⟩ := Option.map_eq_some_iff.mp answer
  have marks := tracked forward.earlier
  obtain ⟨last, ends, order, reached⟩ := marks.running rt ran
  have since : rt.state.lastMonoNs ≤ mono := le_trans order (mono_ordered forward rfl last ends)
  obtain ⟨above, within⟩ := Core.trustedNow_forward rt.state since
  constructor
  · intro front st earlier found
    obtain ⟨now, held, rises⟩ := marks.kept front st earlier found
    calc st.lastWall
      _ ≤ now.lastWall := rises
      _ ≤ rt.state.lastWall := marks.ahead rt now ran held
      _ ≤ rt.state.trustedNow mono := above
      _ ≤ rt.state.lockNow wall mono := le_max_right _ _
  · have next := reached.concat (.query wall mono)
    rw [ends, passed] at next
    simp only [ClockEvent.isBoot, ClockEvent.mono, Bool.false_eq_true, if_false] at next
    rcases max_choice wall (rt.state.trustedNow mono) with own | trusted
    · simp only [TrustedClockState.lockNow, own]
      exact Reached.own
    · simp only [TrustedClockState.lockNow, trusted]
      exact next.weaken (by omega)

end Answers

/-- Every answer lies above the marks on the disk and above the earlier answers that were taken up, and no
reading of the wall clock is exceeded by more than the monotonic time since. -/
theorem lockNow_trusted {earlier : List ClockEvent} {wall mono value : I64}
    (forward : Forward (earlier ++ [.query wall mono]))
    (answer : (ClockWorld.after earlier).lockNow wall mono = some value) :
    (∀ front st, front <+: earlier → (ClockWorld.after front).persisted = some st →
      st.lastWall ≤ value) ∧
    Reached (earlier ++ [.query wall mono]) (value.1 * 1000000000) ∧
    (∀ before wall' mono' between value', earlier = before ++ .query wall' mono' :: between →
      (∀ e ∈ between, e.isBoot = false) → (ClockWorld.after before).lockNow wall' mono' = some value' →
      TakenUp before wall' mono' between → value' ≤ value) ∧
    ∀ rt, (ClockWorld.after earlier).running = some rt → ∀ untilTime,
      Core.retentionExpired untilTime wall (rt.state.trustedNow mono) = decide (untilTime ≤ value) := by
  obtain ⟨marks, reached⟩ := lockNow_between forward answer
  refine ⟨marks, reached, ?_, ?_⟩
  · intro before wall' mono' between value' split plain first takenUp
    subst split
    exact lockNow_le forward plain first answer takenUp
  · intro rt ran untilTime
    rw [ClockWorld.lockNow, ran] at answer
    cases answer
    rfl

/-- A reading ahead of the trusted time that a refresh takes up before the wall clock is set back. -/
def aheadAndBack : List ClockEvent :=
  [.boot false (I64.saturate 1000) (I64.saturate 0),
    .query (I64.saturate 5000) (I64.saturate 1000000000),
    .refresh (I64.saturate 5000) (I64.saturate 1500000000) true]

theorem lockNow_trusted_back :
    Reached (aheadAndBack ++ [.query (I64.saturate 1000) (I64.saturate 2500000000)]) 5001000000000 ∧
      I64.saturate 5000 ≤ I64.saturate 5001 := by
  have forward : Forward (aheadAndBack ++ [.query (I64.saturate 1000) (I64.saturate 2500000000)]) := by
    decide +kernel
  have answer : (ClockWorld.after aheadAndBack).lockNow (I64.saturate 1000)
      (I64.saturate 2500000000) = some (I64.saturate 5001) := by decide +kernel
  obtain ⟨_, reached, order, _⟩ := lockNow_trusted forward answer
  refine ⟨reached, ?_⟩
  apply order [.boot false (I64.saturate 1000) (I64.saturate 0)] (I64.saturate 5000)
    (I64.saturate 1000000000) [.refresh (I64.saturate 5000) (I64.saturate 1500000000) true]
    (I64.saturate 5000) rfl (by decide) (by decide +kernel)
  right
  refine ⟨?_, [], I64.saturate 5000, I64.saturate 1500000000, true, [], rfl, le_refl _⟩
  intro rt ran
  cases ran
  rfl

/-- A query ahead of the trusted time is forgotten, and a wall clock that lags is not the bound. -/
theorem lockNow_not_monotone :
    (∃ before wall mono value later answer,
      Forward (before ++ [.query wall mono, .query later mono]) ∧
        (ClockWorld.after before).lockNow wall mono = some value ∧
        (ClockWorld.after (before ++ [.query wall mono])).lockNow later mono = some answer ∧
        answer < value) ∧
    ∃ before wall mono value, Forward (before ++ [.query wall mono]) ∧
      (ClockWorld.after before).lockNow wall mono = some value ∧
        (∀ e ∈ before, e.wall < wall) ∧ wall < value := by
  constructor
  · exact ⟨[.boot false (I64.saturate 1000) (I64.saturate 0)], I64.saturate 5000, I64.saturate 0,
      I64.saturate 5000, I64.saturate 1000, I64.saturate 1000, by decide +kernel⟩
  · exact ⟨[.boot false (I64.saturate 1000) (I64.saturate 0)], I64.saturate 1001,
      I64.saturate 100000000000, I64.saturate 1100, by decide +kernel⟩

end FastS3.Engine
