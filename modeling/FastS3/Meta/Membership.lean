import FastS3.Data.Runs
import FastS3.Meta.Applied

namespace FastS3.Meta

open FastS3.Core Data

/-! Members of groups.

The relation between users and groups is kept twice: a user record lists the groups of the user,
and a group record lists its members.
-/

def InGroup (rows : Store) (tenant user group : String) : Prop :=
  ∃ record, (rows (.iamUsers tenant)).get? user = some record ∧ group ∈ record.groups

def HasMember (rows : Store) (tenant group user : String) : Prop :=
  ∃ record, (rows (.iamGroups tenant)).get? group = some record ∧ user ∈ record.members

/-- Both sides of the relation agree, and members are existing users. -/
structure Symmetric (rows : Store) : Prop where
  agree : ∀ tenant user group, InGroup rows tenant user group ↔ HasMember rows tenant group user
  existing : ∀ tenant group user, HasMember rows tenant group user →
    ((rows (.iamUsers tenant)).get? user).isSome = true

section

variable {rows before after : Store} {tenant user group : String}

theorem InGroup.exists (inside : InGroup rows tenant user group) :
    ((rows (.iamUsers tenant)).get? user).isSome = true := by
  obtain ⟨record, found, _⟩ := inside
  rw [found]
  rfl

theorem symmetric_iff :
    Symmetric rows ↔
      ∀ tenant user group, InGroup rows tenant user group ↔ HasMember rows tenant group user := by
  constructor
  · intro symmetric
    exact symmetric.agree
  · intro agree
    exact ⟨agree, fun tenant group user member => ((agree tenant user group).mpr member).exists⟩

theorem InGroup.congr (same : after (.iamUsers tenant) = before (.iamUsers tenant)) :
    InGroup after tenant user group ↔ InGroup before tenant user group := by
  rw [InGroup, InGroup, same]

theorem HasMember.congr (same : after (.iamGroups tenant) = before (.iamGroups tenant)) :
    HasMember after tenant group user ↔ HasMember before tenant group user := by
  rw [HasMember, HasMember, same]

theorem symmetric_congr (users : ∀ tenant, after (.iamUsers tenant) = before (.iamUsers tenant))
    (groups : ∀ tenant, after (.iamGroups tenant) = before (.iamGroups tenant)) :
    Symmetric after ↔ Symmetric before := by
  rw [symmetric_iff, symmetric_iff]
  apply forall_congr'
  intro tenant
  simp only [InGroup.congr (users tenant), HasMember.congr (groups tenant)]

end

section Writes

variable {before : Store} {tenant user name other group : String}

theorem update_users_of_ne {users : BTreeMap String IamUser} (elsewhere : other ≠ tenant) :
    Function.update before (.iamUsers tenant) users (.iamUsers other) = before (.iamUsers other) := by
  apply Function.update_of_ne
  intro same
  exact elsewhere (Key.iamUsers.inj same)

theorem update_groups_of_ne {groups : BTreeMap String IamGroup} (elsewhere : other ≠ tenant) :
    Function.update before (.iamGroups tenant) groups (.iamGroups other) = before (.iamGroups other) := by
  apply Function.update_of_ne
  intro same
  exact elsewhere (Key.iamGroups.inj same)

theorem inGroup_insert {record : IamUser} :
    InGroup (Function.update before (.iamUsers tenant)
        ((before (.iamUsers tenant)).insert name record)) other user group ↔
      if other = tenant ∧ user = name then group ∈ record.groups
      else InGroup before other user group := by
  by_cases here : other = tenant
  · subst here
    rw [InGroup, Function.update_self, BTreeMap.get?_insert]
    by_cases same : user = name
    · rw [if_pos same, if_pos ⟨rfl, same⟩]
      simp only [Option.some.injEq, exists_eq_left']
    · rw [if_neg same, if_neg fun both => same both.2]
      rfl
  · rw [if_neg fun both => here both.1]
    exact InGroup.congr (update_users_of_ne here)

theorem inGroup_erase :
    InGroup (Function.update before (.iamUsers tenant) ((before (.iamUsers tenant)).erase name))
        other user group ↔
      ¬(other = tenant ∧ user = name) ∧ InGroup before other user group := by
  by_cases here : other = tenant
  · subst here
    rw [InGroup, Function.update_self, BTreeMap.get?_erase]
    by_cases same : user = name
    · rw [if_pos same]
      simp only [reduceCtorEq, false_and, exists_false, same, and_self, not_true_eq_false]
    · rw [if_neg same, and_iff_right fun both => same both.2]
      rfl
  · rw [and_iff_right fun both => here both.1]
    exact InGroup.congr (update_users_of_ne here)

theorem hasMember_insert {record : IamGroup} :
    HasMember (Function.update before (.iamGroups tenant)
        ((before (.iamGroups tenant)).insert name record)) other group user ↔
      if other = tenant ∧ group = name then user ∈ record.members
      else HasMember before other group user := by
  by_cases here : other = tenant
  · subst here
    rw [HasMember, Function.update_self, BTreeMap.get?_insert]
    by_cases same : group = name
    · rw [if_pos same, if_pos ⟨rfl, same⟩]
      simp only [Option.some.injEq, exists_eq_left']
    · rw [if_neg same, if_neg fun both => same both.2]
      rfl
  · rw [if_neg fun both => here both.1]
    exact HasMember.congr (update_groups_of_ne here)

theorem hasMember_erase :
    HasMember (Function.update before (.iamGroups tenant) ((before (.iamGroups tenant)).erase name))
        other group user ↔
      ¬(other = tenant ∧ group = name) ∧ HasMember before other group user := by
  by_cases here : other = tenant
  · subst here
    rw [HasMember, Function.update_self, BTreeMap.get?_erase]
    by_cases same : group = name
    · rw [if_pos same]
      simp only [reduceCtorEq, false_and, exists_false, same, and_self, not_true_eq_false]
    · rw [if_neg same, and_iff_right fun both => same both.2]
      rfl
  · rw [and_iff_right fun both => here both.1]
    exact HasMember.congr (update_groups_of_ne here)

end Writes

section Loops

variable {group : IamGroup} {tenantId name member : String} {members : List String}
  {before after : Store}

theorem named_ok {α : Type} {checked : Except Error Unit} {next : MetaTx α} {result : α × Store} :
    (liftExcept checked >>= fun _ => next) before = .ok result ↔
      checked = .ok () ∧ next before = .ok result := by
  cases checked with
  | error e =>
    constructor
    · intro run
      obtain ⟨_, _, lifted, _⟩ := Tx.bind_eq_ok.mp run
      exact absurd lifted Tx.throw_ne_ok
    · rintro ⟨impossible, _⟩
      cases impossible
  | ok _ =>
    constructor
    · intro run
      exact ⟨rfl, run⟩
    · exact And.right

theorem joinGroup_inGroup (run : joinGroup group member before = .ok ((), after))
    (tenant user named : String) :
    InGroup after tenant user named ↔
      InGroup before tenant user named ∨
        (tenant = group.tenantId ∧ user = member ∧ named = group.name) := by
  have rest := tget_bind_ok.mp (named_ok.mp run).2
  cases found : (before (.iamUsers group.tenantId)).get? member with
  | none =>
    simp only [found] at rest
    exact absurd rest Tx.throw_ne_ok
  | some record =>
    simp only [found] at rest
    have held : ∀ other, InGroup before group.tenantId member other ↔ other ∈ record.groups := by
      intro other
      rw [InGroup, found]
      simp only [Option.some.injEq, exists_eq_left']
    split at rest
    · next already =>
        cases Tx.pure_eq_ok.mp rest
        constructor
        · exact .inl
        · rintro (inside | ⟨rfl, rfl, rfl⟩)
          · exact inside
          · rw [held]
            exact List.contains_iff_mem.mp already
    · next absent =>
        cases tinsert_eq_ok.mp rest
        rw [inGroup_insert]
        split
        · next here =>
            rw [here.1, here.2, held, List.mem_append, List.mem_singleton]
            simp only [true_and]
        · next elsewhere =>
            constructor
            · exact .inl
            · rintro (inside | ⟨same, isMember, _⟩)
              · exact inside
              · exact absurd ⟨same, isMember⟩ elsewhere

theorem leaveGroup_inGroup (run : leaveGroup tenantId name member before = .ok ((), after))
    (tenant user named : String) :
    InGroup after tenant user named ↔
      InGroup before tenant user named ∧ ¬(tenant = tenantId ∧ user = member ∧ named = name) := by
  have rest := tget_bind_ok.mp (named_ok.mp run).2
  cases found : (before (.iamUsers tenantId)).get? member with
  | none =>
    simp only [found] at rest
    cases Tx.pure_eq_ok.mp rest
    constructor
    · intro inside
      refine ⟨inside, ?_⟩
      rintro ⟨rfl, rfl, _⟩
      have known := inside.exists
      rw [found] at known
      cases known
    · exact And.left
  | some record =>
    simp only [found] at rest
    cases tinsert_eq_ok.mp rest
    rw [inGroup_insert]
    split
    · next here =>
        rw [here.1, here.2, InGroup, found, List.mem_filter, decide_eq_true_eq]
        simp only [Option.some.injEq, exists_eq_left', true_and]
    · next elsewhere =>
        constructor
        · intro inside
          exact ⟨inside, fun all => elsewhere ⟨all.1, all.2.1⟩⟩
        · exact And.left

theorem joinGroups_inGroup (run : members.forM (joinGroup group) before = .ok ((), after))
    (tenant user named : String) :
    InGroup after tenant user named ↔
      InGroup before tenant user named ∨
        (tenant = group.tenantId ∧ user ∈ members ∧ named = group.name) := by
  induction members generalizing before with
  | nil =>
    cases Tx.pure_eq_ok.mp run
    simp only [List.not_mem_nil, false_and, and_false, or_false]
  | cons member rest ih =>
    obtain ⟨_, middle, joined, remaining⟩ := Tx.bind_eq_ok.mp run
    rw [ih remaining, joinGroup_inGroup joined, List.mem_cons]
    tauto

theorem leaveGroups_inGroup (run : members.forM (leaveGroup tenantId name) before = .ok ((), after))
    (tenant user named : String) :
    InGroup after tenant user named ↔
      InGroup before tenant user named ∧ ¬(tenant = tenantId ∧ user ∈ members ∧ named = name) := by
  induction members generalizing before with
  | nil =>
    cases Tx.pure_eq_ok.mp run
    simp only [List.not_mem_nil, false_and, and_false, not_false_eq_true, and_true]
  | cons member rest ih =>
    obtain ⟨_, middle, left, remaining⟩ := Tx.bind_eq_ok.mp run
    rw [ih remaining, leaveGroup_inGroup left, List.mem_cons]
    tauto

theorem joinGroups_frame (run : members.forM (joinGroup group) before = .ok ((), after)) {key : Key}
    (other : key ≠ .iamUsers group.tenantId) : after key = before key := by
  apply Tx.forM_keeps (P := fun rows => rows key = before key) _ run rfl
  intro item _ start middle ran held
  have within : Within (fun row => row = .iamUsers group.tenantId) (joinGroup group item) :=
    joinGroup_within group item rfl
  rw [within.frame ran key other, held]

theorem leaveGroups_frame (run : members.forM (leaveGroup tenantId name) before = .ok ((), after))
    {key : Key} (other : key ≠ .iamUsers tenantId) : after key = before key := by
  apply Tx.forM_keeps (P := fun rows => rows key = before key) _ run rfl
  intro item _ start middle ran held
  have within : Within (fun row => row = .iamUsers tenantId) (leaveGroup tenantId name item) :=
    leaveGroup_within tenantId name item rfl
  rw [within.frame ran key other, held]

end Loops

/-- The operation leaves the two sides of the relation alike: a user record lists the groups that
list the user, and only users without groups are deleted. -/
def Op.KeepsMembers (rows : Store) : Op → Prop
  | .iamUserPut user =>
    ∀ group, group ∈ user.groups ↔ HasMember rows user.tenantId group user.name
  | .iamUserDelete tenantId name => ∀ group, ¬HasMember rows tenantId group name
  | _ => True

section Operations

variable {before after : Store}

theorem iamUserPut_symmetric {user : IamUser} (symmetric : Symmetric before) :
    Symmetric (Function.update before (.iamUsers user.tenantId)
        ((before (.iamUsers user.tenantId)).insert user.name user)) ↔
      (Op.iamUserPut user).KeepsMembers before := by
  have groups : ∀ tenant group name, HasMember (Function.update before (.iamUsers user.tenantId)
      ((before (.iamUsers user.tenantId)).insert user.name user)) tenant group name ↔
        HasMember before tenant group name := by
    intro tenant group name
    exact HasMember.congr (Function.update_of_ne Key.noConfusion _ _)
  rw [symmetric_iff]
  constructor
  · intro agree group
    have here := agree user.tenantId user.name group
    rw [inGroup_insert, if_pos ⟨rfl, rfl⟩, groups] at here
    exact here
  · intro keeps tenant name group
    rw [inGroup_insert, groups]
    split
    · next here =>
        rw [here.1, here.2]
        exact keeps group
    · exact symmetric.agree tenant name group

theorem iamUserDelete_symmetric {tenantId name : String} (symmetric : Symmetric before) :
    Symmetric (Function.update before (.iamUsers tenantId)
        ((before (.iamUsers tenantId)).erase name)) ↔
      (Op.iamUserDelete tenantId name).KeepsMembers before := by
  have groups : ∀ tenant group user, HasMember (Function.update before (.iamUsers tenantId)
      ((before (.iamUsers tenantId)).erase name)) tenant group user ↔
        HasMember before tenant group user := by
    intro tenant group user
    exact HasMember.congr (Function.update_of_ne Key.noConfusion _ _)
  rw [symmetric_iff]
  constructor
  · intro agree group member
    have gone := (agree tenantId name group).mpr ((groups _ _ _).mpr member)
    rw [inGroup_erase] at gone
    exact gone.1 ⟨rfl, rfl⟩
  · intro keeps tenant user group
    rw [inGroup_erase, groups, ← symmetric.agree tenant user group]
    apply and_iff_right_of_imp
    rintro inside ⟨rfl, rfl⟩
    exact keeps group ((symmetric.agree _ _ _).mp inside)

theorem iamGroupPut_symmetric {group : IamGroup} (symmetric : Symmetric before)
    (run : iamGroupPut group before = .ok ((), after)) : Symmetric after := by
  have rest := tget_bind_ok.mp (named_ok.mp (named_ok.mp run).2).2
  obtain ⟨_, joined, joins, rest⟩ := Tx.bind_eq_ok.mp rest
  obtain ⟨_, left, leaves, rest⟩ := Tx.bind_eq_ok.mp rest
  cases tinsert_eq_ok.mp rest
  have same : left (.iamGroups group.tenantId) = before (.iamGroups group.tenantId) := by
    rw [leaveGroups_frame leaves Key.noConfusion, joinGroups_frame joins Key.noConfusion]
  have former : ∀ user,
      user ∈ formerMembers ((before (.iamGroups group.tenantId)).get? group.name) group ↔
        HasMember before group.tenantId group.name user ∧ user ∉ group.members := by
    intro user
    rw [HasMember]
    cases (before (.iamGroups group.tenantId)).get? group.name with
    | none => simp only [formerMembers, List.not_mem_nil, reduceCtorEq, false_and, exists_false]
    | some old =>
      simp only [formerMembers, List.mem_filter, Option.some.injEq, exists_eq_left', Bool.not_eq_true',
        ← Bool.not_eq_true, List.contains_iff_mem]
  rw [symmetric_iff]
  intro tenant user name
  rw [← same, hasMember_insert, InGroup.congr (Function.update_of_ne Key.noConfusion _ _),
    leaveGroups_inGroup leaves, joinGroups_inGroup joins, former, symmetric.agree]
  by_cases here : tenant = group.tenantId
  · subst here
    rw [HasMember.congr same]
    by_cases named : name = group.name
    · subst named
      simp only [true_and, and_true, if_true]
      tauto
    · simp only [named, and_false, or_false, if_false, not_false_eq_true, and_true]
  · have elsewhere : HasMember left tenant name user ↔ HasMember before tenant name user := by
      apply HasMember.congr
      rw [leaveGroups_frame leaves Key.noConfusion, joinGroups_frame joins Key.noConfusion]
    simp only [here, false_and, or_false, if_false, not_false_eq_true, and_true, elsewhere]

theorem iamGroupDelete_symmetric {tenantId name : String} (symmetric : Symmetric before)
    (run : iamGroupDelete tenantId name before = .ok ((), after)) : Symmetric after := by
  have rest := tget_bind_ok.mp (named_ok.mp (named_ok.mp run).2).2
  cases found : (before (.iamGroups tenantId)).get? name with
  | none =>
    simp only [found] at rest
    exact absurd rest Tx.throw_ne_ok
  | some group =>
    simp only [found] at rest
    obtain ⟨_, left, leaves, rest⟩ := Tx.bind_eq_ok.mp rest
    cases tinsert_eq_ok.mp rest
    have same : ∀ tenant, left (.iamGroups tenant) = before (.iamGroups tenant) := by
      intro tenant
      exact leaveGroups_frame leaves Key.noConfusion
    have members : ∀ user, user ∈ group.members ↔ HasMember before tenantId name user := by
      intro user
      rw [HasMember, found]
      simp only [Option.some.injEq, exists_eq_left']
    rw [symmetric_iff]
    intro tenant user other
    rw [← same, hasMember_erase, InGroup.congr (Function.update_of_ne Key.noConfusion _ _),
      leaveGroups_inGroup leaves, symmetric.agree, HasMember.congr (same tenant), members]
    constructor
    · rintro ⟨inside, kept⟩
      refine ⟨?_, inside⟩
      rintro ⟨rfl, rfl⟩
      exact kept ⟨rfl, inside, rfl⟩
    · rintro ⟨other, inside⟩
      exact ⟨inside, fun all => other ⟨all.1, all.2.2⟩⟩

theorem iamUserDelete_ok {tenantId name : String}
    (run : iamUserDelete tenantId name before = .ok ((), after)) :
    after = Function.update before (.iamUsers tenantId) ((before (.iamUsers tenantId)).erase name) := by
  have rest := tget_bind_ok.mp (named_ok.mp (named_ok.mp run).2).2
  split at rest
  · exact absurd rest Tx.throw_ne_ok
  · split at rest
    · exact absurd rest Tx.throw_ne_ok
    · replace rest := tget_bind_ok.mp rest
      split at rest
      · exact absurd rest Tx.throw_ne_ok
      · cases tinsert_eq_ok.mp rest
        rfl

theorem tenantDelete_frame {tenantId : String} (run : tenantDelete tenantId before = .ok ((), after))
    {key : Key} (other : key ≠ .tenant tenantId) : after key = before key := by
  have rest := tget_bind_ok.mp (named_ok.mp run).2
  cases found : before (.tenant tenantId) with
  | none =>
    simp only [found] at rest
    exact absurd rest Tx.throw_ne_ok
  | some tenant =>
    simp only [found] at rest
    replace rest := tget_bind_ok.mp rest
    replace rest := tget_bind_ok.mp rest
    replace rest := tget_bind_ok.mp rest
    replace rest := tget_bind_ok.mp rest
    split at rest
    · replace rest := tget_bind_ok.mp rest
      split at rest
      · exact absurd rest Tx.throw_ne_ok
      · cases tremove_eq_ok.mp rest
        exact Function.update_of_ne other _ _
    · exact absurd rest Tx.throw_ne_ok

theorem iamPolicyDelete_frame {tenantId name : String}
    (run : iamPolicyDelete tenantId name before = .ok ((), after)) {key : Key}
    (other : key ≠ .iamPolicies tenantId) : after key = before key := by
  have rest := tget_bind_ok.mp (named_ok.mp (named_ok.mp run).2).2
  split at rest
  · exact absurd rest Tx.throw_ne_ok
  · replace rest := tget_bind_ok.mp rest
    replace rest := tget_bind_ok.mp rest
    split at rest
    · exact absurd rest Tx.throw_ne_ok
    · cases tinsert_eq_ok.mp rest
      exact Function.update_of_ne other _ _

theorem applyOp_symmetric {replay : Bool} {seq : Nat} {op : Op} (symmetric : Symmetric before)
    (run : applyOp replay seq op before = .ok ((), after)) :
    Symmetric after ↔ op.KeepsMembers before := by
  cases op with
  | iamUserPut user =>
    have rest := tget_bind_ok.mp (named_ok.mp (named_ok.mp run).2).2
    cases tinsert_eq_ok.mp rest
    exact iamUserPut_symmetric symmetric
  | iamUserDelete tenantId name =>
    rw [iamUserDelete_ok run]
    exact iamUserDelete_symmetric symmetric
  | iamGroupPut group => exact iff_of_true (iamGroupPut_symmetric symmetric run) trivial
  | iamGroupDelete tenantId name => exact iff_of_true (iamGroupDelete_symmetric symmetric run) trivial
  | tenantDelete tenantId =>
    apply iff_of_true _ trivial
    exact (symmetric_congr (fun _ => tenantDelete_frame run Key.noConfusion)
      (fun _ => tenantDelete_frame run Key.noConfusion)).mpr symmetric
  | iamPolicyDelete tenantId name =>
    apply iff_of_true _ trivial
    exact (symmetric_congr (fun _ => iamPolicyDelete_frame run Key.noConfusion)
      (fun _ => iamPolicyDelete_frame run Key.noConfusion)).mpr symmetric
  | _ =>
    apply iff_of_true _ trivial
    apply (symmetric_congr _ _).mpr symmetric
    · intro tenant
      apply (applyOp_within replay seq _).frame run
      simp [Op.touches]
    · intro tenant
      apply (applyOp_within replay seq _).frame run
      simp [Op.touches]

end Operations

def Op.Accepted (rows : Store) : Op → Prop
  | .iamUserPut user => validateIamName user.tenantId = .ok () ∧ validateIamName user.name = .ok ()
  | .iamUserDelete tenantId name =>
    validateIamName tenantId = .ok () ∧ validateIamName name = .ok () ∧
      ((rows (.iamUsers tenantId)).get? name).isSome = true ∧
      ¬(tenantId = Tenant.defaultTenant ∧ name = IamUser.bootstrapUser) ∧
      ∀ record ∈ (rows .accessKeys).values,
        ¬(record.tenantId = tenantId ∧ record.ownerUser = name)
  | _ => True

def LogOpen (config : MetaConfig) (rows : Store) : Prop :=
  config.replBinlog = true → (rows .replEbase).getD 0 ≤ (rows .seq).getD 0 + 1

section Refusals

variable {before after : Store}

theorem iamUserDelete_admitted {tenantId name : String} :
    (∃ after, iamUserDelete tenantId name before = .ok ((), after)) ↔
      (Op.iamUserDelete tenantId name).Accepted before := by
  constructor
  · rintro ⟨after, run⟩
    obtain ⟨tenantValid, run⟩ := named_ok.mp run
    obtain ⟨nameValid, run⟩ := named_ok.mp run
    have rest := tget_bind_ok.mp run
    split at rest
    · exact absurd rest Tx.throw_ne_ok
    · next known =>
        split at rest
        · exact absurd rest Tx.throw_ne_ok
        · next ordinary =>
            replace rest := tget_bind_ok.mp rest
            split at rest
            · exact absurd rest Tx.throw_ne_ok
            · next unowned =>
                refine ⟨tenantValid, nameValid, ?_, ordinary, ?_⟩
                · rw [Option.isNone_iff_eq_none, ← ne_eq, Option.ne_none_iff_isSome] at known
                  exact known
                · intro record member owned
                  exact unowned (List.any_eq_true.mpr ⟨record, member, decide_eq_true owned⟩)
  · rintro ⟨tenantValid, nameValid, known, ordinary, unowned⟩
    refine ⟨Function.update before (.iamUsers tenantId) ((before (.iamUsers tenantId)).erase name),
      named_ok.mpr ⟨tenantValid, named_ok.mpr ⟨nameValid, ?_⟩⟩⟩
    refine Tx.bind_eq_ok.mpr ⟨_, _, tget_eq_ok.mpr rfl, ?_⟩
    have some : ¬((before (.iamUsers tenantId)).get? name).isNone = true := by
      rw [Option.isNone_iff_eq_none, ← ne_eq, Option.ne_none_iff_isSome]
      exact known
    rw [if_neg some, if_neg ordinary]
    refine Tx.bind_eq_ok.mpr ⟨_, _, tget_eq_ok.mpr rfl, ?_⟩
    rw [if_neg]
    · rfl
    · intro owned
      obtain ⟨record, member, owns⟩ := List.any_eq_true.mp owned
      exact unowned record member (of_decide_eq_true owns)

theorem writeBinlog_commit {replBinlog : Bool} {now : Int} {seq : Nat} {ops : List Op} :
    (∃ after, writeBinlog (.commit replBinlog now) seq ops before = .ok ((), after)) ↔
      (replBinlog = true → (before .replEbase).getD 0 ≤ seq) := by
  cases replBinlog with
  | false => exact iff_of_true ⟨before, rfl⟩ nofun
  | true =>
    constructor
    · rintro ⟨after, run⟩ _
      have rest := tget_bind_ok.mp run
      replace rest := tget_bind_ok.mp rest
      split at rest
      · exact absurd rest Tx.throw_ne_ok
      · next behind => exact Nat.le_of_not_lt behind
    · intro based
      let epoch := (before .replEpoch).getD replInitialEpoch
      refine ⟨Function.update before (.binlog ⟨epoch, seq - (before .replEbase).getD 0⟩)
        (some { ReplRecord.new epoch ops with ts := some now, rawSeq := some seq }), ?_⟩
      refine Tx.bind_eq_ok.mpr ⟨_, _, tget_eq_ok.mpr rfl,
        Tx.bind_eq_ok.mpr ⟨_, _, tget_eq_ok.mpr rfl, ?_⟩⟩
      rw [if_neg (Nat.not_lt.mpr (based rfl))]
      rfl

/-- A commit of one operation goes through if the operation does and the log takes its number. -/
theorem applyOps_single {config : MetaConfig} {now : Int} {op : Op} :
    (∃ result, applyOps (.commit config.replBinlog now) [op] before = .ok result) ↔
      (∃ middle, applyOp false ((before .seq).getD 0 + 1) op before = .ok ((), middle)) ∧
        LogOpen config before := by
  have base : ∀ {middle : Store},
      applyOp false ((before .seq).getD 0 + 1) op before = .ok ((), middle) →
        middle .replEbase = before .replEbase := by
    intro middle run
    exact (applyOp_within false _ op).frame run .replEbase (not_touches_progress rfl)
  constructor
  · rintro ⟨⟨seq, after⟩, run⟩
    obtain ⟨middle, written, ran, logged, _⟩ := applyOps_ok run
    obtain ⟨_, _, single, rest⟩ := Tx.bind_eq_ok.mp ran
    cases Tx.pure_eq_ok.mp rest
    refine ⟨⟨middle, single⟩, ?_⟩
    intro logs
    have numbered := writeBinlog_commit.mp ⟨written, logged⟩ logs
    rw [base single] at numbered
    exact numbered
  · rintro ⟨⟨middle, run⟩, logOpen⟩
    have numbered : config.replBinlog = true →
        (middle .replEbase).getD 0 ≤ (before .seq).getD 0 + 1 := by
      rw [base run]
      exact logOpen
    obtain ⟨written, logged⟩ := writeBinlog_commit.mpr numbered
    refine ⟨_, Tx.bind_eq_ok.mpr ⟨_, _, tget_eq_ok.mpr rfl, Tx.bind_eq_ok.mpr ⟨(), middle, ?_,
      Tx.bind_eq_ok.mpr ⟨(), written, logged, Tx.bind_eq_ok.mpr ⟨(), _, tinsert_eq_ok.mpr rfl, rfl⟩⟩⟩⟩⟩
    exact Tx.bind_eq_ok.mpr ⟨(), middle, run, rfl⟩

/-- The operations whose effect on the relation depends on their input go through if they pass
their checks. -/
theorem applyOp_admitted {replay : Bool} {seq : Nat} {op : Op} (run : ∃ after,
    applyOp replay seq op before = .ok ((), after)) : op.Accepted before := by
  obtain ⟨after, run⟩ := run
  cases op with
  | iamUserPut user => exact ⟨(named_ok.mp run).1, (named_ok.mp (named_ok.mp run).2).1⟩
  | iamUserDelete tenantId name => exact iamUserDelete_admitted.mp ⟨after, run⟩
  | _ => trivial

theorem keepsMembers_of_fails {replay : Bool} {seq : Nat} {op : Op}
    (fails : ¬∃ after, applyOp replay seq op before = .ok ((), after)) :
    ¬op.Accepted before ∨ op.KeepsMembers before := by
  cases op with
  | iamUserPut user =>
    left
    rintro ⟨tenantValid, nameValid⟩
    exact fails ⟨_, named_ok.mpr ⟨tenantValid, named_ok.mpr ⟨nameValid, rfl⟩⟩⟩
  | iamUserDelete tenantId name =>
    left
    intro admitted
    exact fails (iamUserDelete_admitted.mpr admitted)
  | _ => exact .inr trivial

end Refusals

/-- A commit of one operation, as `commit_iam_user_put` and its siblings make it. -/
structure SingleCommit where
  fate : Fate
  now : Int
  op : Op

def MetaStore.commitSingle (config : MetaConfig) (store : MetaStore) (next : SingleCommit) : MetaStore :=
  (store.commit config next.fate next.now [next.op]).2

/-- The commit fails without a trace, or its operation leaves both sides of the relation alike. -/
def SingleCommit.Harmless (config : MetaConfig) (store : MetaStore) (next : SingleCommit) : Prop :=
  (∃ message, next.fate = .refused message) ∨ ¬next.op.Accepted store.rows ∨
    ¬LogOpen config store.rows ∨ next.op.KeepsMembers store.rows

theorem commitSingle_symmetric {config : MetaConfig} {store : MetaStore} {next : SingleCommit}
    (symmetric : Symmetric store.rows) :
    Symmetric (store.commitSingle config next).rows ↔ next.Harmless config store := by
  rw [MetaStore.commitSingle]
  rcases MetaStore.commit_cases config store next.fate next.now [next.op] with
    ⟨same, refused | ⟨e, failed⟩⟩ | ⟨passed, seq, rows, ran, kept⟩
  · rw [same]
    exact iff_of_true symmetric (.inl refused)
  · rw [same]
    apply iff_of_true symmetric
    have fails : ¬∃ result, applyOps (.commit config.replBinlog next.now) [next.op] store.rows =
        .ok result := by
      rintro ⟨result, ran⟩
      rw [failed] at ran
      cases ran
    rw [applyOps_single, not_and_or] at fails
    rcases fails with stopped | full
    · rcases keepsMembers_of_fails stopped with unadmitted | keeps
      · exact .inr (.inl unadmitted)
      · exact .inr (.inr (.inr keeps))
    · exact .inr (.inr (.inl full))
  · obtain ⟨⟨middle, applied⟩, logOpen⟩ := applyOps_single.mp ⟨_, ran⟩
    obtain ⟨last, body, rest⟩ := applyOps_rows ran
    obtain ⟨_, _, single, done⟩ := Tx.bind_eq_ok.mp body
    cases Tx.pure_eq_ok.mp done
    have effect : Symmetric (store.commit config next.fate next.now [next.op]).2.rows ↔
        next.op.KeepsMembers store.rows := by
      rw [← applyOp_symmetric symmetric single]
      apply symmetric_congr
      · intro tenant
        rw [kept _ Key.noConfusion, rest _ rfl]
      · intro tenant
        rw [kept _ Key.noConfusion, rest _ rfl]
    rw [effect]
    constructor
    · intro keeps
      exact .inr (.inr (.inr keeps))
    · rintro (⟨message, refused⟩ | unadmitted | full | keeps)
      · exact absurd refused (passed message)
      · exact absurd (applyOp_admitted ⟨middle, applied⟩) unadmitted
      · exact absurd logOpen full
      · exact keeps

/-- Along a run of commits the relation between users and groups stays symmetric if and only if
every commit that goes through leaves both sides alike. -/
theorem membership_symmetric_iff (config : MetaConfig) {store : MetaStore}
    (symmetric : Symmetric store.rows) (commits : List SingleCommit) :
    AlwaysHolds (MetaStore.commitSingle config) (fun state => Symmetric state.rows) store commits ↔
      EveryStep (MetaStore.commitSingle config) (SingleCommit.Harmless config) store commits :=
  alwaysHolds_iff (fun _ _ holds => commitSingle_symmetric holds) symmetric

theorem empty_symmetric : Symmetric Store.empty := by
  rw [symmetric_iff]
  intro tenant user group
  apply iff_of_false
  · rintro ⟨record, found, _⟩
    cases found
  · rintro ⟨record, found, _⟩
    cases found

def sampleUser (groups : List String) : SingleCommit :=
  ⟨.kept true, 0, .iamUserPut ⟨"default", "alice", true, [], groups⟩⟩

def sampleGroup (policies : List String) : SingleCommit :=
  ⟨.kept true, 0, .iamGroupPut ⟨"default", "staff", ["alice"], policies⟩⟩

theorem membership_symmetric_new :
    AlwaysHolds (MetaStore.commitSingle ⟨false, 8⟩) (fun state => Symmetric state.rows)
      (.opened Store.empty) [sampleUser [], sampleGroup ["readonly"]] := by
  apply (membership_symmetric_iff ⟨false, 8⟩ empty_symmetric _).mpr
  refine everyStep_cons.mpr ⟨?_, everyStep_cons.mpr ⟨.inr (.inr (.inr trivial)), everyStep_nil⟩⟩
  refine .inr (.inr (.inr ?_))
  intro group
  apply iff_of_false List.not_mem_nil
  rintro ⟨record, found, _⟩
  cases found

def sampleDeletion : SingleCommit :=
  ⟨.kept true, 0, .iamUserDelete "default" "alice"⟩

def sampleRows (commits : List SingleCommit) : Store :=
  (commits.foldl (MetaStore.commitSingle ⟨false, 8⟩) (.opened Store.empty)).rows

/-- A deleted user stays a member of its group; a later user of that name, made without groups, is
in the group again when the policies of the group change. -/
theorem deleted_user_stays_member :
    ¬Symmetric (sampleRows [sampleUser [], sampleGroup ["readonly"], sampleDeletion]) ∧
      HasMember (sampleRows [sampleUser [], sampleGroup ["readonly"], sampleDeletion])
        "default" "staff" "alice" ∧
      ((sampleRows [sampleUser [], sampleGroup ["readonly"], sampleDeletion, sampleUser [],
        sampleGroup ["readwrite"]] (.iamUsers "default")).get? "alice").map IamUser.groups =
          some ["staff"] := by
  have member : HasMember (sampleRows [sampleUser [], sampleGroup ["readonly"], sampleDeletion])
      "default" "staff" "alice" :=
    ⟨⟨"default", "staff", ["alice"], ["readonly"]⟩, by decide +kernel, List.mem_singleton_self _⟩
  have gone : ((sampleRows [sampleUser [], sampleGroup ["readonly"], sampleDeletion]
      (.iamUsers "default")).get? "alice").isSome = false := by decide +kernel
  refine ⟨?_, member, by decide +kernel⟩
  intro symmetric
  have known := symmetric.existing _ _ _ member
  rw [gone] at known
  cases known

end FastS3.Meta
