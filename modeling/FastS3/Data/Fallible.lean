import Mathlib.Order.Basic

namespace FastS3.Data

/-! Pre- and postconditions of programs that keep their state when they fail.

A run ends with a value or an error, and with a state in both cases.  The rules
follow the program text: one for each construct, and one for loops over a list.
-/

variable {ε σ α β ι : Type}

/-- From a state with `pre` the program ends in `post`, or fails in `fail`. -/
structure Ensures (pre : σ → Prop) (program : EStateM ε σ α) (post : α → σ → Prop)
    (fail : σ → Prop) : Prop where
  run : ∀ s, pre s →
    match program s with
    | .ok value s' => post value s'
    | .error _ s' => fail s'

namespace Ensures

variable {pre : σ → Prop} {program : EStateM ε σ α} {post : α → σ → Prop} {fail : σ → Prop}

theorem ok (ensures : Ensures pre program post fail) {s s' : σ} {value : α} (start : pre s)
    (run : program s = .ok value s') : post value s' := by
  have outcome := ensures.run s start
  rw [run] at outcome
  exact outcome

theorem error (ensures : Ensures pre program post fail) {s s' : σ} {reason : ε} (start : pre s)
    (run : program s = .error reason s') : fail s' := by
  have outcome := ensures.run s start
  rw [run] at outcome
  exact outcome

theorem pure {value : α} (holds : ∀ s, pre s → post value s) :
    Ensures pre (pure value : EStateM ε σ α) post fail :=
  ⟨holds⟩

variable {last : β → σ → Prop}

theorem bind {next : α → EStateM ε σ β} (first : Ensures pre program post fail)
    (second : ∀ value, Ensures (post value) (next value) last fail) :
    Ensures pre (program >>= next) last fail := by
  refine ⟨fun s start => ?_⟩
  have outcome := first.run s start
  change match EStateM.bind program next s with
    | .ok value s' => last value s'
    | .error _ s' => fail s'
  unfold EStateM.bind
  cases run : program s with
  | ok value s' =>
    rw [run] at outcome
    exact (second value).run s' outcome
  | error reason s' =>
    rw [run] at outcome
    exact outcome

theorem bindFact {fact : α → Prop} {inv : σ → Prop} {next : α → EStateM ε σ β}
    (first : Ensures pre program (fun value s => fact value ∧ inv s) fail)
    (second : ∀ value, fact value → Ensures inv (next value) last fail) :
    Ensures pre (program >>= next) last fail := by
  apply bind first
  intro value
  refine ⟨fun s known => ?_⟩
  exact (second value known.1).run s known.2

theorem weaken {weaker : α → σ → Prop} (ensures : Ensures pre program post fail)
    (implied : ∀ value s, post value s → weaker value s) : Ensures pre program weaker fail := by
  refine ⟨fun s start => ?_⟩
  have outcome := ensures.run s start
  cases run : program s with
  | ok value s' =>
    rw [run] at outcome
    exact implied value s' outcome
  | error reason s' =>
    rw [run] at outcome
    exact outcome

theorem strengthen {stronger : σ → Prop} (ensures : Ensures pre program post fail)
    (implied : ∀ s, stronger s → pre s) : Ensures stronger program post fail :=
  ⟨fun s start => ensures.run s (implied s start)⟩

theorem weakenFail {weaker : σ → Prop} (ensures : Ensures pre program post fail)
    (implied : ∀ s, fail s → weaker s) : Ensures pre program post weaker := by
  refine ⟨fun s start => ?_⟩
  have outcome := ensures.run s start
  cases run : program s with
  | ok value s' =>
    rw [run] at outcome
    exact outcome
  | error reason s' =>
    rw [run] at outcome
    exact implied s' outcome

theorem assuming {fact : Prop} (ensures : fact → Ensures pre program post fail) :
    Ensures (fun s => fact ∧ pre s) program post fail :=
  ⟨fun s start => (ensures start.1).run s start.2⟩

theorem conj {pre' : σ → Prop} {post' : α → σ → Prop} {fail' : σ → Prop}
    (left : Ensures pre program post fail) (right : Ensures pre' program post' fail') :
    Ensures (fun s => pre s ∧ pre' s) program (fun value s => post value s ∧ post' value s)
      (fun s => fail s ∧ fail' s) := by
  refine ⟨fun s start => ?_⟩
  have first := left.run s start.1
  have second := right.run s start.2
  cases run : program s with
  | ok value s' =>
    rw [run] at first second
    exact ⟨first, second⟩
  | error reason s' =>
    rw [run] at first second
    exact ⟨first, second⟩

theorem modifyGet {step : σ → α × σ} (holds : ∀ s, pre s → post (step s).1 (step s).2) :
    Ensures pre (modifyGet step : EStateM ε σ α) post fail :=
  ⟨holds⟩

theorem bindGet {next : σ → EStateM ε σ β} (second : ∀ state, Ensures pre (next state) last fail) :
    Ensures pre (get >>= next) last fail :=
  ⟨fun s start => (second s).run s start⟩

theorem bindGetHeld {next : σ → EStateM ε σ β}
    (second : ∀ state, pre state → Ensures pre (next state) last fail) :
    Ensures pre (get >>= next) last fail :=
  ⟨fun s start => (second s start).run s start⟩

theorem ite {condition : Prop} [Decidable condition] {other : EStateM ε σ α}
    (yes : condition → Ensures pre program post fail)
    (no : ¬condition → Ensures pre other post fail) :
    Ensures pre (if condition then program else other) post fail := by
  split
  · next holds => exact yes holds
  · next fails => exact no fails

theorem foldlM {step : β → ι → EStateM ε σ β} (inv : List ι → β → σ → Prop) (items : List ι)
    (init : β)
    (each : ∀ done item rest acc, items = done ++ item :: rest →
      Ensures (inv done acc) (step acc item) (inv (done ++ [item])) fail) :
    Ensures (inv [] init) (items.foldlM step init) (inv items) fail := by
  have loop : ∀ (todo done : List ι) (acc : β), items = done ++ todo →
      Ensures (inv done acc) (todo.foldlM step acc) (inv items) fail := by
    intro todo
    induction todo with
    | nil =>
      intro done acc split
      rw [List.append_nil] at split
      subst split
      exact pure fun s holds => holds
    | cons item rest ih =>
      intro done acc split
      rw [List.foldlM_cons]
      apply bind (each done item rest acc split)
      intro acc'
      exact ih (done ++ [item]) acc' (by simpa using split)
  exact loop items [] init rfl

end Ensures

/-- The program keeps `inv`, whether it succeeds or fails. -/
def Keeps (inv : σ → Prop) (program : EStateM ε σ α) : Prop :=
  Ensures inv program (fun _ => inv) inv

namespace Keeps

variable {inv : σ → Prop} {program : EStateM ε σ α}

theorem pure {value : α} : Keeps inv (pure value : EStateM ε σ α) :=
  Ensures.pure fun _ holds => holds

theorem throw {reason : ε} : Keeps inv (throw reason : EStateM ε σ α) :=
  ⟨fun _ holds => holds⟩

theorem modifyGet {step : σ → α × σ} (holds : ∀ s, inv s → inv (step s).2) :
    Keeps inv (modifyGet step : EStateM ε σ α) :=
  Ensures.modifyGet holds

theorem modify {step : σ → σ} (holds : ∀ s, inv s → inv (step s)) :
    Keeps inv (modify step : EStateM ε σ PUnit) :=
  ⟨holds⟩

theorem bind {next : α → EStateM ε σ β} (first : Keeps inv program)
    (second : ∀ value, Keeps inv (next value)) : Keeps inv (program >>= next) :=
  Ensures.bind first second

theorem bindGet {next : σ → EStateM ε σ β} (second : ∀ state, Keeps inv (next state)) :
    Keeps inv (get >>= next) :=
  Ensures.bindGet second

theorem bindGetHeld {next : σ → EStateM ε σ β} (second : ∀ state, inv state → Keeps inv (next state)) :
    Keeps inv (get >>= next) :=
  ⟨fun s holds => (second s holds).run s holds⟩

theorem set {state : σ} (holds : inv state) : Keeps inv (set state : EStateM ε σ PUnit) :=
  ⟨fun _ _ => holds⟩

theorem ite {condition : Prop} [Decidable condition] {other : EStateM ε σ α}
    (yes : Keeps inv program) (no : Keeps inv other) :
    Keeps inv (if condition then program else other) :=
  Ensures.ite (fun _ => yes) fun _ => no

theorem foldlM {step : β → ι → EStateM ε σ β} (each : ∀ acc item, Keeps inv (step acc item))
    (items : List ι) (init : β) : Keeps inv (items.foldlM step init) :=
  Ensures.foldlM (fun _ _ => inv) items init fun _ item _ acc _ => each acc item

end Keeps

section Outcomes

variable {s s' : σ} {value : α} {result : β}

theorem bind_eq_ok {program : EStateM ε σ α} {next : α → EStateM ε σ β} :
    (program >>= next) s = .ok result s' ↔
      ∃ value middle, program s = .ok value middle ∧ next value middle = .ok result s' := by
  change EStateM.bind program next s = _ ↔ _
  unfold EStateM.bind
  cases run : program s with
  | ok value middle =>
    simp only [EStateM.Result.ok.injEq]
    refine ⟨fun rest => ⟨value, middle, ⟨rfl, rfl⟩, rest⟩, fun split => ?_⟩
    obtain ⟨_, _, ⟨rfl, rfl⟩, rest⟩ := split
    exact rest
  | error reason middle => simp

variable {reason : ε}

theorem bind_eq_error {program : EStateM ε σ α} {next : α → EStateM ε σ β} :
    (program >>= next) s = .error reason s' ↔
      program s = .error reason s' ∨
        ∃ value middle, program s = .ok value middle ∧ next value middle = .error reason s' := by
  change EStateM.bind program next s = _ ↔ _
  unfold EStateM.bind
  cases run : program s with
  | ok value middle =>
    simp only [reduceCtorEq, false_or, EStateM.Result.ok.injEq]
    refine ⟨fun rest => ⟨value, middle, ⟨rfl, rfl⟩, rest⟩, fun split => ?_⟩
    obtain ⟨_, _, ⟨rfl, rfl⟩, rest⟩ := split
    exact rest
  | error other middle => simp

@[simp] theorem pure_eq_error {returned : α} :
    (pure returned : EStateM ε σ α) s = .error reason s' ↔ False := by
  change EStateM.Result.ok returned s = _ ↔ _
  simp

@[simp] theorem pure_eq_ok {returned : α} :
    (pure returned : EStateM ε σ α) s = .ok value s' ↔ returned = value ∧ s = s' := by
  change EStateM.Result.ok returned s = _ ↔ _
  simp

@[simp] theorem throw_eq_ok : (throw reason : EStateM ε σ α) s = .ok value s' ↔ False := by
  change EStateM.Result.error reason s = _ ↔ _
  simp

@[simp] theorem get_eq_ok {found : σ} :
    (get : EStateM ε σ σ) s = .ok found s' ↔ s = found ∧ s = s' := by
  change EStateM.Result.ok s s = _ ↔ _
  simp

@[simp] theorem set_eq_ok {next : σ} {done : PUnit} :
    (set next : EStateM ε σ PUnit) s = .ok done s' ↔ next = s' := by
  change EStateM.Result.ok PUnit.unit next = _ ↔ _
  simp

@[simp] theorem modifyGet_eq_ok {step : σ → α × σ} :
    (modifyGet step : EStateM ε σ α) s = .ok value s' ↔ (step s).1 = value ∧ (step s).2 = s' := by
  change EStateM.Result.ok (step s).1 (step s).2 = _ ↔ _
  simp

@[simp] theorem modify_eq_ok {step : σ → σ} {done : PUnit} :
    (modify step : EStateM ε σ PUnit) s = .ok done s' ↔ step s = s' := by
  change EStateM.Result.ok PUnit.unit (step s) = _ ↔ _
  simp

@[simp] theorem modifyGet_eq_error {step : σ → α × σ} :
    (modifyGet step : EStateM ε σ α) s = .error reason s' ↔ False := by
  change EStateM.Result.ok (step s).1 (step s).2 = _ ↔ _
  simp

@[simp] theorem modify_eq_error {step : σ → σ} :
    (modify step : EStateM ε σ PUnit) s = .error reason s' ↔ False := by
  change EStateM.Result.ok PUnit.unit (step s) = _ ↔ _
  simp

def okWith (check : α → Bool) : EStateM.Result ε σ α → Bool
  | .ok value _ => check value
  | .error _ _ => false

theorem exists_ok (check : α → Bool) (program : EStateM ε σ α) (s : σ)
    (evaluated : okWith check (program s) = true) :
    ∃ value after, program s = .ok value after ∧ check value = true := by
  cases run : program s with
  | ok value after =>
    rw [run] at evaluated
    exact ⟨value, after, rfl, evaluated⟩
  | error reason after =>
    rw [run] at evaluated
    cases evaluated

def errorWith (check : ε → σ → Bool) : EStateM.Result ε σ α → Bool
  | .ok _ _ => false
  | .error reason after => check reason after

theorem exists_error (check : ε → σ → Bool) (program : EStateM ε σ α) (s : σ)
    (evaluated : errorWith check (program s) = true) :
    ∃ reason after, program s = .error reason after ∧ check reason after = true := by
  cases run : program s with
  | ok value after =>
    rw [run] at evaluated
    cases evaluated
  | error reason after =>
    rw [run] at evaluated
    exact ⟨reason, after, rfl, evaluated⟩

theorem foldlM_ok {step : β → ι → EStateM ε σ β} {items : List ι} {init : β}
    (inv : List ι → β → σ → Prop) (run : items.foldlM step init s = .ok result s')
    (start : inv [] init s)
    (each : ∀ done item acc middle acc' next, inv done acc middle →
      step acc item middle = .ok acc' next → inv (done ++ [item]) acc' next) :
    inv items result s' := by
  have loop : Ensures (inv [] init) (items.foldlM step init) (inv items) fun _ => True := by
    apply Ensures.foldlM
    intro done item rest acc _
    refine ⟨fun middle holds => ?_⟩
    cases round : step acc item middle with
    | ok acc' next => exact each done item acc middle acc' next holds round
    | error reason next => trivial
  exact loop.ok start run

end Outcomes

end FastS3.Data
