import FastS3.Data.Fallible

namespace FastS3.Data

/-! Loops that work through a list for their effect alone. -/

variable {ε σ ι κ : Type}

def rounds (step : ι → EStateM ε σ Unit) (items : List ι) : EStateM ε σ Unit :=
  items.foldlM (fun _ item => step item) ()

namespace rounds

variable {step : ι → EStateM ε σ Unit} {items : List ι} {s s' : σ} {done : Unit}

theorem cons_ok {item : ι} {rest : List ι} :
    rounds step (item :: rest) s = .ok done s' ↔
      ∃ middle, step item s = .ok () middle ∧ rounds step rest middle = .ok done s' := by
  unfold rounds
  rw [List.foldlM_cons, bind_eq_ok]
  constructor
  · rintro ⟨_, middle, first, later⟩
    exact ⟨middle, first, later⟩
  · rintro ⟨middle, first, later⟩
    exact ⟨(), middle, first, later⟩

theorem nil_ok : rounds step [] s = .ok done s' ↔ s = s' := by
  unfold rounds
  rw [List.foldlM_nil, pure_eq_ok]
  exact ⟨fun both => both.2, fun same => ⟨rfl, same⟩⟩

theorem map_eq (prepare : κ → ι) (list : List κ) :
    rounds step (list.map prepare) = rounds (fun item => step (prepare item)) list := by
  unfold rounds
  exact List.foldlM_map

theorem keeps (holds : σ → Prop) (run : rounds step items s = .ok done s')
    (each : ∀ item ∈ items, ∀ before after, step item before = .ok () after → holds before →
      holds after) (start : holds s) : holds s' := by
  induction items generalizing s with
  | nil =>
    rw [nil_ok] at run
    exact run ▸ start
  | cons item rest ih =>
    obtain ⟨middle, first, later⟩ := cons_ok.mp run
    apply ih later
    · intro other member
      exact each other (List.mem_cons_of_mem item member)
    · exact each item List.mem_cons_self s middle first start

theorem unchanged {α : Type} (view : σ → α) (run : rounds step items s = .ok done s')
    (each : ∀ item ∈ items, ∀ before after, step item before = .ok () after →
      view after = view before) : view s' = view s := by
  apply keeps (fun state => view state = view s) run
  · intro item member before after round same
    exact (each item member before after round).trans same
  · rfl

/-- What the round of an item establishes and the rounds of other items keep holds of every
item at the end. -/
theorem settles (holds : ι → σ → Prop) {apart : ι → ι → Prop}
    (run : rounds step items s = .ok done s') (distinct : items.Pairwise apart)
    (establishes : ∀ item ∈ items, ∀ before after, step item before = .ok () after →
      holds item after)
    (keeps : ∀ item ∈ items, ∀ other ∈ items, apart item other → ∀ before after,
      step other before = .ok () after → holds item before → holds item after) :
    ∀ item ∈ items, holds item s' := by
  induction items generalizing s with
  | nil => simp
  | cons first rest ih =>
    obtain ⟨middle, round, later⟩ := cons_ok.mp run
    obtain ⟨others, ordered⟩ := List.pairwise_cons.mp distinct
    intro item member
    rcases List.mem_cons.mp member with rfl | member
    · apply rounds.keeps (holds item) later
      · intro other found before after next held
        exact keeps item List.mem_cons_self other (List.mem_cons_of_mem _ found)
          (others other found) before after next held
      · exact establishes item List.mem_cons_self s middle round
    · apply ih later ordered
      · intro later found
        exact establishes later (List.mem_cons_of_mem _ found)
      · intro left isLeft right isRight
        exact keeps left (List.mem_cons_of_mem _ isLeft) right (List.mem_cons_of_mem _ isRight)
      · exact member

end rounds

end FastS3.Data
