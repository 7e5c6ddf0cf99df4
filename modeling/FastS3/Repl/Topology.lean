import FastS3.Data.Links
import FastS3.Data.Runs
import FastS3.Repl.Handshake

namespace FastS3.Repl

open FastS3.Core FastS3.Data FastS3.Meta

/-! Nodes that pull from each other.

A handshake compares what two nodes have stored about the way up: the chain that the downstream
reports, and the first name of the chain that the upstream holds.  A node writes its own chain when it
takes the answer, and not again before its next handshake.
-/

/-- Nodes under their names, each with the upstream that it pulls from and with the answer that is on
its way to it. -/
structure Topology where
  peers : String → ReplServer
  named : ∀ id, (peers id).nodeId = some id
  pulling : String → Option String
  answers : String → Option (String × HelloAnswer)

inductive TopologyStep where
  | ask (id upstream slotName : String) (filters : BucketFilter) (cn : String) (draw : HelloDraw)
  | take (id : String) (writes : HelloWrites)
  | lose (id : String)
  | stop (id : String)
  | promote (id : String) (fate : WriteFate) (force : Bool) (now : Int) (scan : PromoteScan)
  | rebuild (id : String) (families : Nat)
  /-- whatever else a node does leaves its name and its chain alone -/
  | work (id : String) (server : ReplServer)

namespace Topology

def withPeer (w : Topology) (id : String) (server : ReplServer) (same : server.nodeId = some id) :
    Topology :=
  { w with
    peers := Function.update w.peers id server
    named := by
      intro other
      by_cases here : other = id
      · rw [here, Function.update_self, same]
      · rw [Function.update_of_ne here, w.named] }

def ask (w : Topology) (id upstream slotName : String) (filters : BucketFilter) (cn : String)
    (draw : HelloDraw) : Topology :=
  -- only a standby pulls
  if (w.peers id).node.role ≠ .standby then w
  else
    let hello := (w.peers id).outgoingHello id slotName filters
    let result := (w.peers upstream).handleHello cn hello draw
    let asked := w.withPeer upstream result.2
      ((ReplServer.handleHello_same _ cn hello draw).1.trans (w.named upstream))
    match result.1 with
    | .error _ =>
      { asked with
        pulling := Function.update w.pulling id none
        answers := Function.update w.answers id none }
    | .ok answer =>
      { asked with
        pulling :=
          if w.pulling id = some upstream then w.pulling else Function.update w.pulling id none
        answers := Function.update w.answers id (some (upstream, answer)) }

def stop (w : Topology) (id : String) : Topology :=
  { w with
    pulling := Function.update w.pulling id none
    answers := Function.update w.answers id none }

end Topology

theorem ReplServer.clearForRebuild_nodeId (server : ReplServer) (families : Nat) :
    (server.clearForRebuild families).nodeId = server.nodeId := by
  rw [clearForRebuild]
  split <;> rfl

namespace Topology

def take (w : Topology) (id : String) (writes : HelloWrites) : Topology :=
  match w.answers id with
  | none => w
  | some (upstream, answer) =>
    let result := (w.peers id).acceptHello answer writes
    let taken := { w.withPeer id result.2
        ((ReplServer.acceptHello_nodeId _ answer writes).trans (w.named id)) with
      answers := Function.update w.answers id none }
    match result.1 with
    | .error _ => taken
    | .ok () => { taken with pulling := Function.update w.pulling id (some upstream) }

def step (w : Topology) : TopologyStep → Topology
  | .ask id upstream slotName filters cn draw => w.ask id upstream slotName filters cn draw
  | .take id writes => w.take id writes
  | .lose id => { w with answers := Function.update w.answers id none }
  | .stop id => w.stop id
  | .promote id fate force now scan =>
    (w.stop id).withPeer id
      { w.peers id with node := ((w.peers id).node.promote fate force now scan).2 } (w.named id)
  | .rebuild id families =>
    (w.stop id).withPeer id ((w.peers id).clearForRebuild families)
      ((ReplServer.clearForRebuild_nodeId _ families).trans (w.named id))
  | .work id server =>
    if same : server.nodeId = some id ∧ server.node.upchain = (w.peers id).node.upchain then
      w.withPeer id server same.1
    else w

def idle (w : Topology) : Topology :=
  { w with pulling := fun _ => none, answers := fun _ => none }

/-- The node that answered is another one; it does not pull from the asking node through others; and if
it pulls from that node itself, it did so already when it answered. -/
structure Clear (w : Topology) (id upstream : String) (answer : HelloAnswer) : Prop where
  other : upstream ≠ id
  apart : ∀ next, w.pulling upstream = some next → next ≠ id → ¬Leads w.pulling next id
  current : w.pulling upstream = some id → answer.chain.head? = some id

def Meets (w : Topology) : TopologyStep → Prop
  | .take id writes => ∀ upstream answer, w.answers id = some (upstream, answer) →
      ((w.peers id).acceptHello answer writes).1 = .ok () → w.Clear id upstream answer
  | _ => True

structure Sound (w : Topology) : Prop where
  /-- An answer names the node that gave it, which did not pull from the asking node by its chain. -/
  answered : ∀ id upstream answer, w.answers id = some (upstream, answer) →
    answer.nodeId = some upstream ∧ answer.chain.head? ≠ some id
  steady : ∀ id upstream answer, w.answers id = some (upstream, answer) →
    w.pulling id = none ∨ w.pulling id = some upstream
  /-- A node that pulls has its upstream at the head of its chain. -/
  chained : ∀ id upstream, w.pulling id = some upstream →
    (w.peers id).node.upchain.head? = some upstream

theorem idle_sound (w : Topology) : w.idle.Sound :=
  ⟨nofun, nofun, nofun⟩

variable {w : Topology}

variable {id : String} {server : ReplServer}

theorem Sound.clear_iff (sound : w.Sound) {upstream : String} {answer : HelloAnswer}
    (here : w.answers id = some (upstream, answer)) :
    w.Clear id upstream answer ↔ ¬Leads w.pulling upstream id := by
  constructor
  · intro clear leads
    obtain same | ⟨next, pulls, rest⟩ := leads_iff.mp leads
    · exact clear.other same
    · by_cases direct : next = id
      · rw [direct] at pulls
        exact (sound.answered id upstream answer here).2 (clear.current pulls)
      · exact clear.apart next pulls direct rest
  · intro apart
    refine ⟨?_, ?_, ?_⟩
    · intro same
      exact apart (leads_iff.mpr (.inl same))
    · intro next pulls _ leads
      exact apart (leads_iff.mpr (.inr ⟨next, pulls, leads⟩))
    · intro pulls
      exact absurd (leads_iff.mpr (.inr ⟨id, pulls, leads_iff.mpr (.inl rfl)⟩)) apart

theorem update_none {α : Type} {f : String → Option α} {other : String} {value : α}
    (here : Function.update f id none other = some value) : other ≠ id ∧ f other = some value := by
  by_cases same : other = id
  · rw [same, Function.update_self] at here
    cases here
  · rw [Function.update_of_ne same] at here
    exact ⟨same, here⟩

/-- A step after which fewer nodes pull and fewer answers are on their way, and which leaves the chains
of those that pull. -/
theorem Sound.shrinks (sound : w.Sound) {t : Topology}
    (answers : ∀ id held, t.answers id = some held → w.answers id = some held)
    (pulling : ∀ id upstream, t.pulling id = some upstream → w.pulling id = some upstream ∧
      (t.peers id).node.upchain = (w.peers id).node.upchain) : t.Sound where
  answered id upstream answer here := sound.answered id upstream answer (answers id _ here)
  steady id upstream answer here := by
    cases pulls : t.pulling id with
    | none => exact .inl rfl
    | some other =>
      have before := (pulling id other pulls).1
      obtain idle | same := sound.steady id upstream answer (answers id _ here)
      · rw [before] at idle
        cases idle
      · rw [before] at same
        exact .inr same
  chained id upstream pulls := by
    obtain ⟨before, same⟩ := pulling id upstream pulls
    rw [same]
    exact sound.chained id upstream before

theorem withPeer_other {other : String} (same : server.nodeId = some id) (apart : other ≠ id) :
    (w.withPeer id server same).peers other = w.peers other :=
  Function.update_of_ne apart _ _

theorem withPeer_self (same : server.nodeId = some id) :
    (w.withPeer id server same).peers id = server :=
  Function.update_self _ _ _

theorem Sound.stopped (sound : w.Sound) (same : server.nodeId = some id) :
    ((w.stop id).withPeer id server same).Sound := by
  apply sound.shrinks
  · intro other held here
    exact (update_none here).2
  · intro other upstream pulls
    obtain ⟨apart, before⟩ := update_none pulls
    exact ⟨before, by rw [withPeer_other same apart]; rfl⟩

theorem withPeer_upchain (same : server.nodeId = some id)
    (kept : server.node.upchain = (w.peers id).node.upchain) (other : String) :
    ((w.withPeer id server same).peers other).node.upchain = (w.peers other).node.upchain := by
  by_cases here : other = id
  · rw [here, withPeer_self same, kept]
  · rw [withPeer_other same here]

/-- What a request changes: the node that asks waits for an answer or for nothing, and goes on pulling
from nobody but the node that answered. -/
structure Asked (w : Topology) (id upstream : String) (t : Topology) : Prop where
  chains : ∀ other, (t.peers other).node.upchain = (w.peers other).node.upchain
  pulling : t.pulling = w.pulling ∧ w.pulling id = some upstream ∨
    t.pulling = Function.update w.pulling id none
  answers : t.answers = Function.update w.answers id none ∨
    ∃ answer : HelloAnswer, answer.nodeId = some upstream ∧ answer.chain.head? ≠ some id ∧
      t.answers = Function.update w.answers id (some (upstream, answer))

theorem ask_cases (w : Topology) (id upstream slotName : String) (filters : BucketFilter)
    (cn : String) (draw : HelloDraw) : w.ask id upstream slotName filters cn draw = w ∨
      w.Asked id upstream (w.ask id upstream slotName filters cn draw) := by
  rw [ask]
  split
  · exact .inl rfl
  · right
    have same := ReplServer.handleHello_same (w.peers upstream) cn
      ((w.peers id).outgoingHello id slotName filters) draw
    have passed : ∀ answer, ((w.peers upstream).handleHello cn
        ((w.peers id).outgoingHello id slotName filters) draw).1 = .ok answer →
        answer.nodeId = some upstream ∧ answer.chain.head? ≠ some id := by
      intro answer answered
      obtain ⟨⟨cursor, checked⟩, told, chain⟩ := ReplServer.handleHello_ok (Prod.ext answered rfl)
      rw [told, chain, same.1, same.2]
      exact ⟨w.named upstream, (ReplServer.checkHello_stages checked).1.above⟩
    have chains := withPeer_upchain (same.1.trans (w.named upstream)) same.2
    dsimp only
    split
    · exact ⟨chains, .inr rfl, .inl rfl⟩
    · next answer answered =>
        refine ⟨chains, ?_, .inr ⟨answer, (passed answer answered).1,
          (passed answer answered).2, rfl⟩⟩
        dsimp only
        split
        · next pulls => exact .inl ⟨rfl, pulls⟩
        · exact .inr rfl

theorem Sound.asked (sound : w.Sound) {upstream : String} {t : Topology}
    (asked : w.Asked id upstream t) : t.Sound := by
  have fewer : ∀ other target, t.pulling other = some target → w.pulling other = some target := by
    intro other target pulls
    obtain ⟨same, _⟩ | dropped := asked.pulling
    · rwa [same] at pulls
    · rw [dropped] at pulls
      exact (update_none pulls).2
  obtain refused | ⟨answer, told, apart, answered⟩ := asked.answers
  · apply sound.shrinks
    · intro other held here
      rw [refused] at here
      exact (update_none here).2
    · intro other target pulls
      exact ⟨fewer other target pulls, asked.chains other⟩
  · refine ⟨?_, ?_, ?_⟩
    · intro other target given here
      rw [answered] at here
      by_cases self : other = id
      · rw [self, Function.update_self] at here
        cases here
        exact ⟨told, by rwa [self]⟩
      · rw [Function.update_of_ne self] at here
        exact sound.answered other target given here
    · intro other target given here
      rw [answered] at here
      by_cases self : other = id
      · rw [self, Function.update_self] at here
        cases here
        obtain ⟨same, pulls⟩ | dropped := asked.pulling
        · exact .inr (by rw [same, self, pulls])
        · exact .inl (by rw [dropped, self, Function.update_self])
      · rw [Function.update_of_ne self] at here
        cases pulls : t.pulling other with
        | none => exact .inl rfl
        | some found =>
          have before := sound.steady other target given here
          rwa [fewer other found pulls] at before
    · intro other target pulls
      rw [asked.chains other]
      exact sound.chained other target (fewer other target pulls)

/-- What an answer changes: the node waits for nothing, and pulls from the node that answered if all
writes succeed. -/
theorem take_cases (w : Topology) (id : String) (writes : HelloWrites) :
    w.answers id = none ∧ w.take id writes = w ∨
      ∃ upstream answer, w.answers id = some (upstream, answer) ∧
        (w.take id writes).answers = Function.update w.answers id none ∧
        (∀ other, other ≠ id → (w.take id writes).peers other = w.peers other) ∧
        (w.take id writes).peers id = ((w.peers id).acceptHello answer writes).2 ∧
        (((w.peers id).acceptHello answer writes).1 = .ok () ∧
            (w.take id writes).pulling = Function.update w.pulling id (some upstream) ∨
          ((w.peers id).acceptHello answer writes).1 ≠ .ok () ∧
            (w.take id writes).pulling = w.pulling) := by
  rw [take]
  split
  · next none => exact .inl ⟨none, rfl⟩
  · next upstream answer here =>
      right
      have same := (ReplServer.acceptHello_nodeId _ answer writes).trans (w.named id)
      refine ⟨upstream, answer, here, ?_⟩
      dsimp only
      split
      · next e failed =>
          refine ⟨rfl, fun other => withPeer_other same, withPeer_self same, .inr ⟨?_, rfl⟩⟩
          rw [failed]
          nofun
      · next written =>
          exact ⟨rfl, fun other => withPeer_other same, withPeer_self same, .inl ⟨written, rfl⟩⟩

theorem Sound.take (sound : w.Sound) (id : String) (writes : HelloWrites) :
    (w.take id writes).Sound := by
  obtain ⟨_, same⟩ | ⟨upstream, answer, here, answers, others, self, pulling⟩ := take_cases w id writes
  · rw [same]
    exact sound
  · have told := (sound.answered id upstream answer here).1
    have chain := ReplServer.acceptHello_cases told
      (Prod.ext rfl self.symm : (w.peers id).acceptHello answer writes = (_, (w.take id writes).peers id))
    have waits : ∀ other held, (w.take id writes).answers other = some held →
        other ≠ id ∧ w.answers other = some held := by
      intro other held given
      rw [answers] at given
      exact update_none given
    have pulls : ∀ other target, other ≠ id →
        ((w.take id writes).pulling other = some target ↔ w.pulling other = some target) := by
      intro other target apart
      obtain ⟨_, moved⟩ | ⟨_, same⟩ := pulling
      · rw [moved, Function.update_of_ne apart]
      · rw [same]
    refine ⟨?_, ?_, ?_⟩
    · intro other target given held
      exact sound.answered other target given (waits other _ held).2
    · intro other target given held
      obtain ⟨apart, before⟩ := waits other _ held
      cases now : (w.take id writes).pulling other with
      | none => exact .inl rfl
      | some found =>
        have steady := sound.steady other target given before
        rwa [(pulls other found apart).mp now] at steady
    · intro other target now
      by_cases same : other = id
      · rw [same] at now ⊢
        obtain ⟨written, moved⟩ | ⟨_, kept⟩ := pulling
        · rw [moved, Function.update_self] at now
          cases now
          obtain linked | ⟨_, failed⟩ := chain
          · rw [linked, List.head?_cons]
          · exact absurd written failed
        · rw [kept] at now
          obtain idle | before := sound.steady id upstream answer here
          · rw [now] at idle
            cases idle
          · rw [now] at before
            cases before
            obtain linked | ⟨unlinked, _⟩ := chain
            · rw [linked, List.head?_cons]
            · rw [unlinked]
              exact sound.chained id upstream now
      · rw [others other same]
        exact sound.chained other target ((pulls other target same).mp now)

theorem step_sound (sound : w.Sound) (next : TopologyStep) : (w.step next).Sound := by
  cases next with
  | ask id upstream slotName filters cn draw =>
    obtain same | asked := ask_cases w id upstream slotName filters cn draw
    · rw [step, same]
      exact sound
    · exact sound.asked asked
  | take id writes => exact sound.take id writes
  | lose id =>
    apply sound.shrinks
    · intro other held here
      exact (update_none here).2
    · intro other upstream pulls
      exact ⟨pulls, rfl⟩
  | stop id =>
    apply sound.shrinks
    · intro other held here
      exact (update_none here).2
    · intro other upstream pulls
      exact ⟨(update_none pulls).2, rfl⟩
  | promote id fate force now scan =>
    have same : { w.peers id with
        node := ((w.peers id).node.promote fate force now scan).2 }.nodeId = some id := w.named id
    exact sound.stopped same
  | rebuild id families =>
    exact sound.stopped ((ReplServer.clearForRebuild_nodeId _ families).trans (w.named id))
  | work id server =>
    rw [step]
    split
    · next kept =>
        apply sound.shrinks
        · intro other held here
          exact here
        · intro other upstream pulls
          exact ⟨pulls, withPeer_upchain kept.1 kept.2 other⟩
    · exact sound

theorem acyclic_stop (acyclic : Acyclic w.pulling) (id : String) : Acyclic (w.stop id).pulling :=
  acyclic_drop acyclic

theorem step_acyclic (sound : w.Sound) (acyclic : Acyclic w.pulling) (next : TopologyStep) :
    Acyclic (w.step next).pulling ↔ w.Meets next := by
  cases next with
  | take id writes =>
    obtain ⟨none, same⟩ | ⟨upstream, answer, here, _, _, _, pulling⟩ := take_cases w id writes
    · rw [step, same]
      refine iff_of_true acyclic ?_
      intro upstream answer given
      rw [none] at given
      cases given
    · obtain ⟨written, moved⟩ | ⟨failed, kept⟩ := pulling
      · rw [step, moved, acyclic_update acyclic, ← sound.clear_iff here]
        constructor
        · intro clear other given found _
          rw [here] at found
          cases found
          exact clear
        · intro meets
          exact meets upstream answer here written
      · rw [step, kept]
        refine iff_of_true acyclic ?_
        intro other given found written
        rw [here] at found
        cases found
        exact absurd written failed
  | ask id upstream slotName filters cn draw =>
    refine iff_of_true ?_ trivial
    obtain same | asked := ask_cases w id upstream slotName filters cn draw
    · rw [step, same]
      exact acyclic
    · rw [step]
      obtain ⟨same, _⟩ | dropped := asked.pulling
      · rw [same]
        exact acyclic
      · rw [dropped]
        exact acyclic_drop acyclic
  | lose id => exact iff_of_true acyclic trivial
  | stop id => exact iff_of_true (acyclic_stop acyclic id) trivial
  | promote id fate force now scan => exact iff_of_true (acyclic_stop acyclic id) trivial
  | rebuild id families => exact iff_of_true (acyclic_stop acyclic id) trivial
  | work id server =>
    refine iff_of_true ?_ trivial
    rw [step]
    split <;> exact acyclic

/-- No node ever pulls from itself through others exactly if every answer that is taken is clear. -/
theorem topology_acyclic (w : Topology) (steps : List TopologyStep) :
    AlwaysHolds step (fun w => Acyclic w.pulling) w.idle steps ↔ EveryStep step Meets w.idle steps := by
  have implied : ∀ w : Topology, w.Sound ∧ Acyclic w.pulling → Acyclic w.pulling :=
    fun _ both => both.2
  refine alwaysHolds_iff_of_invariant implied ?_ ?_ ⟨idle_sound w, acyclic_nowhere⟩
  · intro w next both
    exact step_acyclic both.1 both.2 next
  · intro w next both meets
    exact ⟨step_sound both.1 next, (step_acyclic both.1 both.2 next).mpr meets⟩

def sampleTopology : Topology where
  peers id := ⟨.fresh .standby false noSlots, BTreeMap.empty, fun _ => none, some id, 8⟩
  named _ := rfl
  pulling _ := none
  answers _ := none

def exchange (id upstream : String) : List TopologyStep :=
  [.ask id upstream id .all id ⟨0, .kept, none⟩, .take id {}]

/-- Three nodes pull from each other in a ring. -/
theorem topology_ring :
    ¬AlwaysHolds step (fun w => Acyclic w.pulling) sampleTopology.idle
      (exchange "a" "b" ++ exchange "b" "c" ++ exchange "c" "a") := by
  intro always
  have acyclic := always _ [] (List.append_nil _).symm
  generalize ran : (exchange "a" "b" ++ exchange "b" "c" ++ exchange "c" "a").foldl step
    sampleTopology.idle = last at acyclic
  have ring : last.pulling "a" = some "b" ∧ last.pulling "b" = some "c" ∧ last.pulling "c" = some "a" := by
    rw [← ran]
    decide +kernel
  apply acyclic "a"
  exact .tail (.tail (.single ring.1) ring.2.1) ring.2.2

end Topology

end FastS3.Repl
