import FastS3.S3.Policy

namespace FastS3.S3

open Data

/-! The meaning of a policy: denials override, and only the set of the statements counts. -/

theorem normalizeAction_idempotent (action : String) :
    normalizeAction (normalizeAction action) = normalizeAction action := by
  have trimmed : Text.Trimmed (Text.lower (Text.trim action.toList)) :=
    Text.trimmed_lower (Text.trimmed_trim _)
  generalize named : Text.lower (Text.trim action.toList) = a at trimmed
  have lowered : Text.lower a = a := by
    rw [← named, Text.lower_lower]
  have kept : ∀ b : List Char, Text.Trimmed b → Text.lower b = b →
      ("s3:".toList.isPrefixOf b || "admin:".toList.isPrefixOf b || "sts:".toList.isPrefixOf b) = true →
      normalizeAction (String.ofList b) = String.ofList b := by
    intro b trimmed lowered family
    have plain : (String.ofList b).toList = b := String.toList_ofList
    rw [normalizeAction, plain, Text.trim_of_trimmed trimmed, lowered]
    simp only [family, if_true]
  have same : normalizeAction action = String.ofList
      (if "s3:".toList.isPrefixOf a || "admin:".toList.isPrefixOf a || "sts:".toList.isPrefixOf a then a
        else "s3:".toList ++ a) := by
    rw [normalizeAction, named]
  rw [same]
  split
  · next family => exact kept a trimmed lowered family
  · apply kept
    · refine ⟨?_, ?_⟩
      · intro c first
        cases first
        decide
      · intro c last
        cases a with
        | nil =>
          cases last
          decide
        | cons d rest =>
          rw [List.getLast?_append_of_ne_nil _ (List.cons_ne_nil d rest)] at last
          exact trimmed.finish c last
    · rw [Text.lower_append, lowered]
      rfl
    · rw [List.isPrefixOf_iff_prefix.mpr (List.prefix_append _ a)]
      rfl

structure Statement.Matches (st : Statement) (action resource : String) (authenticated : Bool)
    (ctx : EvalCtx) : Prop where
  principal : st.principalHit authenticated ctx = true
  action : st.actionHit (normalizeAction action) = true
  resource : st.resourceHit resource ctx = true
  conditions : st.conditionsHold ctx = true

def Effect.decision : Effect → Decision
  | .allow => .allow
  | .deny => .deny

section Votes

variable {st : Statement} {statements : List Statement} {action resource : String}
  {authenticated allowed : Bool} {ctx : EvalCtx}

def Statement.vote (st : Statement) (action resource : String) (authenticated : Bool) (ctx : EvalCtx) :
    Decision :=
  if st.principalHit authenticated ctx && (st.actionHit action && st.resourceHit resource ctx) &&
      st.conditionsHold ctx then
    st.effect.decision
  else .noMatch

theorem decideLoop_eq_tally :
    decideLoop action resource authenticated ctx allowed statements =
      Decision.tally allowed
        (statements.map fun st => st.vote action resource authenticated ctx) := by
  induction statements generalizing allowed with
  | nil => rfl
  | cons st rest ih =>
    rw [decideLoop, List.map_cons, Statement.vote]
    cases st.principalHit authenticated ctx with
    | false => exact ih
    | true =>
      cases st.actionHit action && st.resourceHit resource ctx with
      | false => exact ih
      | true =>
        cases st.conditionsHold ctx with
        | false => exact ih
        | true =>
          cases effect : st.effect with
          | deny => rfl
          | allow => exact ih

theorem vote_eq {decision : Decision} (decides : decision ≠ .noMatch) :
    st.vote (normalizeAction action) resource authenticated ctx = decision ↔
      st.Matches action resource authenticated ctx ∧ st.effect.decision = decision := by
  rw [Statement.vote]
  split
  · next hit =>
      simp only [Bool.and_eq_true] at hit
      obtain ⟨⟨principal, action, resource⟩, conditions⟩ := hit
      exact (and_iff_right ⟨principal, action, resource, conditions⟩).symm
  · next miss =>
      constructor
      · intro same
        exact absurd same.symm decides
      · rintro ⟨⟨principal, action, resource, conditions⟩, _⟩
        rw [principal, action, resource, conditions] at miss
        exact absurd rfl miss

variable (policy : Policy)

theorem Policy.decide_eq_combine :
    policy.decide action resource authenticated ctx = Decision.combine
      (policy.statements.map fun st =>
        st.vote (normalizeAction action) resource authenticated ctx) :=
  decideLoop_eq_tally

theorem mem_votes (effect : Effect) :
    effect.decision ∈ policy.statements.map
        (fun st => st.vote (normalizeAction action) resource authenticated ctx) ↔
      ∃ st ∈ policy.statements, st.Matches action resource authenticated ctx ∧
        st.effect = effect := by
  have decides : effect.decision ≠ .noMatch := by cases effect <;> exact Decision.noConfusion
  have same : ∀ other : Effect, other.decision = effect.decision ↔ other = effect := by
    intro other
    cases other <;> cases effect <;> decide
  rw [List.mem_map]
  simp only [vote_eq decides, same]

theorem deny_mem_votes :
    .deny ∈ policy.statements.map
        (fun st => st.vote (normalizeAction action) resource authenticated ctx) ↔
      ∃ st ∈ policy.statements, st.Matches action resource authenticated ctx ∧ st.effect = .deny :=
  mem_votes policy .deny

theorem allow_mem_votes :
    .allow ∈ policy.statements.map
        (fun st => st.vote (normalizeAction action) resource authenticated ctx) ↔
      ∃ st ∈ policy.statements, st.Matches action resource authenticated ctx ∧ st.effect = .allow :=
  mem_votes policy .allow

theorem Policy.decide_eq_deny :
    policy.decide action resource authenticated ctx = .deny ↔
      ∃ st ∈ policy.statements, st.Matches action resource authenticated ctx ∧ st.effect = .deny := by
  rw [decide_eq_combine, Decision.combine_eq_deny, deny_mem_votes]

theorem Policy.decide_eq_allow :
    policy.decide action resource authenticated ctx = .allow ↔
      (¬∃ st ∈ policy.statements, st.Matches action resource authenticated ctx ∧ st.effect = .deny) ∧
        ∃ st ∈ policy.statements, st.Matches action resource authenticated ctx ∧
          st.effect = .allow := by
  rw [decide_eq_combine, Decision.combine_eq_allow, deny_mem_votes, allow_mem_votes]

theorem Policy.decide_eq_noMatch :
    policy.decide action resource authenticated ctx = .noMatch ↔
      ∀ st ∈ policy.statements, ¬st.Matches action resource authenticated ctx := by
  rw [decide_eq_combine, Decision.combine_eq_noMatch, deny_mem_votes, allow_mem_votes]
  constructor
  · rintro ⟨undenied, unallowed⟩ st inside hits
    cases effect : st.effect with
    | deny => exact undenied ⟨st, inside, hits, effect⟩
    | allow => exact unallowed ⟨st, inside, hits, effect⟩
  · intro none
    exact ⟨fun ⟨st, inside, hits, _⟩ => none st inside hits,
      fun ⟨st, inside, hits, _⟩ => none st inside hits⟩

theorem Policy.decide_congr {policy other : Policy}
    (same : ∀ st, st ∈ other.statements ↔ st ∈ policy.statements) :
    other.decide action resource authenticated ctx = policy.decide action resource authenticated ctx := by
  rw [decide_eq_combine, decide_eq_combine]
  apply Decision.combine_congr
  intro vote
  simp only [List.mem_map, same]

end Votes

def named (resource : String) : List Char :=
  resource.toList.drop arnHead.length

def MatchesExactly (pattern : String) : Prop :=
  ∀ bucket key, bucket ≠ "" → wildcardMatch pattern (resourceArn bucket key) = true →
    named pattern = named (resourceArn bucket key)

/-- The pattern is no ARN, or no other text is equal to it when the case of letters and white space
at the ends are ignored. -/
def Unambiguous (pattern : String) : Prop :=
  let pat := Text.trim pattern.toList
  match Text.beforeLast '*' pat with
  | some head => ¬(head <+: arnHead.toList ∨ arnHead.toList <+: head)
  | none =>
    Text.lower (pat.take arnHead.length) = Text.lower arnHead.toList → pat.drop arnHead.length ≠ [] →
      pattern.toList = pat ∧ ∀ c ∈ pat.drop arnHead.length, c.isAlpha = false

section Literals

variable {pattern bucket key : String}

theorem arnHead_length : arnHead.toList.length = arnHead.length :=
  String.length_toList

theorem resourceArn_toList (some : bucket ≠ "") :
    ∃ target, target ≠ [] ∧ (resourceArn bucket key).toList = arnHead.toList ++ target := by
  have nonempty : bucket.toList ≠ [] := by
    intro empty
    exact some (String.toList_inj.mp empty)
  rw [resourceArn, if_neg some]
  split
  · exact ⟨bucket.toList, nonempty, String.toList_append⟩
  · refine ⟨bucket.toList ++ ("/".toList ++ key.toList), ?_, ?_⟩
    · intro empty
      exact nonempty (List.append_eq_nil_iff.mp empty).1
    · simp only [String.toList_append, List.append_assoc]

theorem resourceArn_bucket {target : List Char} (some : target ≠ []) :
    String.ofList target ≠ "" ∧
      (resourceArn (String.ofList target) "").toList = arnHead.toList ++ target := by
  have nonempty : String.ofList target ≠ "" := by
    intro empty
    apply some
    rw [← String.toList_ofList (l := target), empty]
    rfl
  refine ⟨nonempty, ?_⟩
  rw [resourceArn, if_neg nonempty, if_pos rfl, String.toList_append, String.toList_ofList]

theorem named_eq {resource : String} {target : List Char}
    (whole : resource.toList = arnHead.toList ++ target) : named resource = target := by
  rw [named, whole, ← arnHead_length, List.drop_left]

theorem not_matchesExactly_of_star {head : List Char}
    (star : Text.beforeLast '*' (Text.trim pattern.toList) = some head)
    (arn : head <+: arnHead.toList ∨ arnHead.toList <+: head) : ¬MatchesExactly pattern := by
  intro exact
  have start : ∃ mid, ∀ x, head <+: arnHead.toList ++ (mid ++ [x]) := by
    rcases arn with short | ⟨mid, long⟩
    · refine ⟨[], fun x => ?_⟩
      exact short.trans (List.prefix_append _ _)
    · refine ⟨mid, fun x => ?_⟩
      rw [← long, ← List.append_assoc]
      exact List.prefix_append _ _
  obtain ⟨mid, within⟩ := start
  have each : ∀ x, named pattern = mid ++ [x] := by
    intro x
    obtain ⟨nonempty, whole⟩ := resourceArn_bucket (List.append_ne_nil_of_right_ne_nil mid
      (List.cons_ne_nil x []))
    rw [← named_eq whole]
    apply exact _ _ nonempty
    rw [wildcardMatch, star, whole]
    exact List.isPrefixOf_iff_prefix.mpr (within x)
  have same : mid ++ ['a'] = mid ++ ['b'] := (each 'a').symm.trans (each 'b')
  rw [List.append_cancel_left_eq] at same
  exact absurd same (by decide)

/-- A literal ARN matches every text that differs in the case of letters or in the white space. -/
theorem matchesExactly_literal (literal : Text.beforeLast '*' (Text.trim pattern.toList) = none)
    (exact : MatchesExactly pattern)
    (arn : Text.lower ((Text.trim pattern.toList).take arnHead.length) = Text.lower arnHead.toList)
    (some : (Text.trim pattern.toList).drop arnHead.length ≠ []) :
    pattern.toList = Text.trim pattern.toList ∧
      ∀ c ∈ (Text.trim pattern.toList).drop arnHead.length, c.isAlpha = false := by
  have variants : ∀ target, Text.lower target =
      Text.lower ((Text.trim pattern.toList).drop arnHead.length) → target ≠ [] →
        named pattern = target := by
    intro target lowered nonempty
    obtain ⟨isBucket, whole⟩ := resourceArn_bucket nonempty
    rw [← named_eq whole]
    apply exact _ _ isBucket
    rw [wildcardMatch, literal, whole]
    apply decide_eq_true
    rw [Text.lower_append, ← arn, lowered, ← Text.lower_append, List.take_append_drop]
  have own : named pattern = (Text.trim pattern.toList).drop arnHead.length := variants _ rfl some
  constructor
  · have lengths : (Text.trim pattern.toList).length = pattern.toList.length := by
      have positive := List.length_pos_of_ne_nil some
      have equal := congrArg List.length own
      rw [named, List.length_drop, List.length_drop] at equal
      rw [List.length_drop] at positive
      omega
    exact ((Text.trim_infix _).eq_of_length lengths).symm
  · intro c inside
    by_contra letter
    obtain ⟨variant, lowered, different⟩ :=
      Text.exists_variant inside (Bool.not_eq_false _ ▸ letter)
    have nonempty : variant ≠ [] := by
      rintro rfl
      have empty := congrArg List.length lowered
      rw [Text.lower_length, Text.lower_length] at empty
      exact some (List.eq_nil_of_length_eq_zero empty.symm)
    exact different ((variants variant lowered nonempty).symm.trans own)

theorem matchesExactly_iff : MatchesExactly pattern ↔ Unambiguous pattern := by
  rw [Unambiguous]
  cases ending : Text.beforeLast '*' (Text.trim pattern.toList) with
  | some head =>
    constructor
    · intro exact arn
      exact not_matchesExactly_of_star ending arn exact
    · intro foreign bucket key some hit
      obtain ⟨target, _, whole⟩ := resourceArn_toList some
      rw [wildcardMatch, ending, whole, List.isPrefixOf_iff_prefix] at hit
      exact absurd (List.prefix_or_prefix_of_prefix hit (List.prefix_append _ _)) foreign
  | none =>
    constructor
    · exact matchesExactly_literal ending
    · intro letterless bucket key isBucket hit
      obtain ⟨target, nonempty, whole⟩ := resourceArn_toList isBucket
      rw [wildcardMatch, ending, whole] at hit
      have lowered := of_decide_eq_true hit
      have size : (Text.lower arnHead.toList).length = arnHead.length := by
        rw [Text.lower_length, arnHead_length]
      have heads : Text.lower ((Text.trim pattern.toList).take arnHead.length) =
          Text.lower arnHead.toList := by
        rw [Text.lower, List.map_take, ← Text.lower, lowered, Text.lower_append, List.take_left' size]
      have tails : Text.lower ((Text.trim pattern.toList).drop arnHead.length) =
          Text.lower target := by
        rw [Text.lower, List.map_drop, ← Text.lower, lowered, Text.lower_append, List.drop_left' size]
      have some : (Text.trim pattern.toList).drop arnHead.length ≠ [] := by
        intro empty
        rw [empty] at tails
        exact nonempty (List.map_eq_nil_iff.mp tails.symm)
      obtain ⟨untrimmed, plain⟩ := letterless heads some
      rw [named_eq whole, named, untrimmed]
      exact Text.eq_of_lower_eq tails plain

end Literals

/-- The resource patterns without wildcards that a request of this caller is compared with. -/
def Policy.LiteralResource (policy : Policy) (caller : Option CallerIdentity) (pattern : String) : Prop :=
  ∃ st ∈ policy.statements, ∃ written ∈ st.resources, '*' ∉ written.toList ∧ '?' ∉ written.toList ∧
    expandUsernameVar written caller = some pattern

/-- A decision is that of the matching statements, in any order and any number; and the patterns
without wildcards match only what they name if and only if they are unambiguous. -/
theorem decide_semantics_iff (policy : Policy) (caller : Option CallerIdentity) :
    ((∀ action resource authenticated ctx,
        (policy.decide action resource authenticated ctx = .deny ↔
          ∃ st ∈ policy.statements, st.Matches action resource authenticated ctx ∧ st.effect = .deny) ∧
        (policy.decide action resource authenticated ctx = .allow ↔
          (¬∃ st ∈ policy.statements, st.Matches action resource authenticated ctx ∧
            st.effect = .deny) ∧
          ∃ st ∈ policy.statements, st.Matches action resource authenticated ctx ∧
            st.effect = .allow) ∧
        (policy.decide action resource authenticated ctx = .noMatch ↔
          ∀ st ∈ policy.statements, ¬st.Matches action resource authenticated ctx)) ∧
      (∀ other : Policy, (∀ st, st ∈ other.statements ↔ st ∈ policy.statements) →
        ∀ action resource authenticated ctx, other.decide action resource authenticated ctx =
          policy.decide action resource authenticated ctx) ∧
      ∀ pattern, policy.LiteralResource caller pattern → MatchesExactly pattern) ↔
    ∀ pattern, policy.LiteralResource caller pattern → Unambiguous pattern := by
  constructor
  · rintro ⟨_, _, exact⟩ pattern literal
    exact matchesExactly_iff.mp (exact pattern literal)
  · intro unambiguous
    refine ⟨?_, ?_, ?_⟩
    · intro action resource authenticated ctx
      exact ⟨policy.decide_eq_deny, policy.decide_eq_allow, policy.decide_eq_noMatch⟩
    · intro other same action resource authenticated ctx
      exact Policy.decide_congr same
    · intro pattern literal
      exact matchesExactly_iff.mpr (unambiguous pattern literal)

def samplePolicy : Policy where
  statements := [{
    effect := .allow
    principal := some .any
    actions := ["s3:getobject"]
    resources := ["arn:aws:s3:::photos/Report"]
    conditions := []
    normalized := by
      intro action inside
      rw [List.mem_singleton.mp inside]
      decide +kernel }]

/-- The permission extends to the object whose key is written in lower case. -/
theorem literal_resource_matches_case_variant :
    samplePolicy.LiteralResource none "arn:aws:s3:::photos/Report" ∧
      wildcardMatch "arn:aws:s3:::photos/Report" (resourceArn "photos" "report") = true ∧
      samplePolicy.decide "GetObject" (resourceArn "photos" "report") false {} = .allow ∧
      named "arn:aws:s3:::photos/Report" ≠ named (resourceArn "photos" "report") := by
  refine ⟨⟨_, List.mem_singleton_self _, _, List.mem_singleton_self _, ?_, ?_, ?_⟩, ?_, ?_, ?_⟩
  all_goals decide +kernel

def Statement.Public (st : Statement) : Prop :=
  st.effect = .allow ∧ st.principal = some .any ∧
    ∃ pat ∈ st.actions, ∃ t ∈ ["s3:getobject", "s3:putobject", "s3:listbucket"],
      wildcardMatch pat t = true

theorem grantsAnonymousPublicAccess_iff (policy : Policy) :
    policy.grantsAnonymousPublicAccess = true ↔ ∃ st ∈ policy.statements, st.Public := by
  have each : ∀ st : Statement, ((if st.effect ≠ .allow ∨ st.principal ≠ some .any then false
      else st.actions.any fun pat => ["s3:getobject", "s3:putobject", "s3:listbucket"].any fun t =>
        wildcardMatch (normalizeAction pat) t) = true) ↔ st.Public := by
    intro st
    rw [Statement.Public]
    split
    · next other =>
        apply iff_of_false Bool.false_ne_true
        rintro ⟨allow, any, _⟩
        rcases other with denies | named
        · exact denies allow
        · exact named any
    · next sought =>
        rw [not_or, not_not, not_not] at sought
        rw [and_iff_right sought.1, and_iff_right sought.2, List.any_eq_true]
        apply exists_congr
        intro pat
        apply and_congr_right
        intro inside
        rw [st.normalized pat inside, List.any_eq_true]
  rw [Policy.grantsAnonymousPublicAccess, List.any_eq_true]
  simp only [each]

/-- The detector is sound for a request without a signature unless a permission without a principal
lets it pass: that is where it fails. -/
theorem public_access_sound_iff (policy : Policy) {action : String}
    (covered : action ∈ ["GetObject", "PutObject", "ListBucket"]) (resource : String) {ctx : EvalCtx}
    (anonymous : ctx.caller = none) :
    (policy.grantsAnonymousPublicAccess = false → policy.decide action resource false ctx ≠ .allow) ↔
      (∃ st ∈ policy.statements, st.Public) ∨
        (∃ st ∈ policy.statements, st.Matches action resource false ctx ∧ st.effect = .deny) ∨
        ∀ st ∈ policy.statements, st.effect = .allow → st.principal = none →
          ¬st.Matches action resource false ctx := by
  have target : normalizeAction action ∈ ["s3:getobject", "s3:putobject", "s3:listbucket"] := by
    simp only [List.mem_cons, List.not_mem_nil, or_false] at covered
    rcases covered with rfl | rfl | rfl
    all_goals decide +kernel
  rw [← Bool.not_eq_true, grantsAnonymousPublicAccess_iff, ne_eq, Policy.decide_eq_allow]
  constructor
  · intro sound
    by_cases detected : ∃ st ∈ policy.statements, st.Public
    · exact .inl detected
    · by_cases denied : ∃ st ∈ policy.statements, st.Matches action resource false ctx ∧
          st.effect = .deny
      · exact .inr (.inl denied)
      · right
        right
        intro st inside allow _ hits
        exact sound detected ⟨denied, st, inside, hits, allow⟩
  · rintro (detected | denied | unopened) undetected ⟨undenied, st, inside, hits, allow⟩
    · exact undetected detected
    · exact undenied denied
    · cases principal : st.principal with
      | none => exact unopened st inside allow principal hits
      | some named =>
        have admits : named.matchesCaller false ctx.caller = true := by
          have hit := hits.principal
          rw [Statement.principalHit, principal] at hit
          exact hit
        cases named with
        | any =>
          apply undetected
          obtain ⟨pat, listed, matched⟩ := List.any_eq_true.mp hits.action
          exact ⟨st, inside, allow, principal, pat, listed, _, target, matched⟩
        | aws list =>
          obtain ⟨p, _, matched⟩ := List.any_eq_true.mp admits
          rw [anonymous] at matched
          cases p <;> cases matched

theorem everyAction_normalized (action : String) (inside : action ∈ ["s3:*"]) :
    normalizeAction action = action := by
  rw [List.mem_singleton.mp inside]
  decide +kernel

def sampleTenantPolicy : Policy where
  statements := [{
    effect := .allow
    principal := some (.aws [.root "tenant"])
    actions := ["s3:*"]
    resources := ["*"]
    conditions := []
    normalized := everyAction_normalized }]

theorem public_access_sound_tenant :
    sampleTenantPolicy.decide "GetObject" (resourceArn "photos" "report") false {} ≠ .allow := by
  refine (public_access_sound_iff sampleTenantPolicy List.mem_cons_self _ rfl).mpr ?_
    (by decide +kernel)
  right
  right
  intro st inside _ principal
  rw [List.mem_singleton.mp inside] at principal
  cases principal

end FastS3.S3
