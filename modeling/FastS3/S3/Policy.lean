import FastS3.Core.Bytes
import FastS3.Data.Text
import FastS3.Data.Votes

namespace FastS3.S3

open Data
open FastS3.Core (Bytes utf8)

/-! Policy documents and their evaluation.

A statement applies to a request if its principal, one of its actions, one of its resources and all
of its conditions match.
-/

structure CallerIdentity where
  tenantCanonicalId : String
  user : String
  accessKey : String
deriving Repr, DecidableEq

inductive AwsPrincipal where
  | legacyAuthenticated
  | root (id : String)
  | user (id name : String)
deriving Repr, DecidableEq

inductive Principal where
  | any
  | aws (list : List AwsPrincipal)
deriving Repr, DecidableEq

/-- `AwsPrincipal::matches`. -/
def AwsPrincipal.matchesCaller (authenticated : Bool) (caller : Option CallerIdentity) :
    AwsPrincipal → Bool
  | .legacyAuthenticated => authenticated
  | .root id => caller.any fun c => c.tenantCanonicalId = id
  | .user id name => caller.any fun c => c.tenantCanonicalId = id && c.user = name

/-- `Principal::matches`. -/
def Principal.matchesCaller (authenticated : Bool) (caller : Option CallerIdentity) : Principal → Bool
  | .any => true
  | .aws list => list.any fun p => p.matchesCaller authenticated caller

inductive IpAddr where
  | v4 (addr : BitVec 32)
  | v6 (addr : BitVec 128)
deriving Repr, DecidableEq

def IpAddr.width : IpAddr → Nat
  | .v4 _ => 32
  | .v6 _ => 128

structure IpNet where
  addr : IpAddr
  prefixLen : Nat
  bounded : prefixLen ≤ addr.width
deriving DecidableEq

def netMask (width prefixLen : Nat) : BitVec width :=
  let shift := width - prefixLen
  if shift = width then 0 else BitVec.allOnes width <<< shift

def IpNet.contains (net : IpNet) (ip : IpAddr) : Bool :=
  match net.addr, ip with
  | .v4 addr, .v4 ip => addr &&& netMask 32 net.prefixLen = ip &&& netMask 32 net.prefixLen
  | .v6 addr, .v6 ip => addr &&& netMask 128 net.prefixLen = ip &&& netMask 128 net.prefixLen
  | _, _ => false

structure EvalCtx where
  sourceIp : Option IpAddr := none
  listPrefix : Option String := none
  delimiter : Option String := none
  bypassGovernance : Bool := false
  remainingRetentionDays : Option Int := none
  caller : Option CallerIdentity := none
  now : Option Int := none
deriving DecidableEq

inductive StrKey where
  | listPrefix
  | delimiter
  | bypassGovernance
deriving Repr, DecidableEq

def StrKey.value (ctx : EvalCtx) : StrKey → Option String
  | .listPrefix => ctx.listPrefix
  | .delimiter => ctx.delimiter
  | .bypassGovernance => some (if ctx.bypassGovernance then "true" else "false")

inductive NumericOp where
  | eq
  | ne
  | lt
  | lte
  | gt
  | gte
deriving Repr, DecidableEq

def NumericOp.fromName (op : String) : Option NumericOp :=
  match op with
  | "NumericEquals" => some .eq
  | "NumericNotEquals" => some .ne
  | "NumericLessThan" => some .lt
  | "NumericLessThanEquals" => some .lte
  | "NumericGreaterThan" => some .gt
  | "NumericGreaterThanEquals" => some .gte
  | _ => none

def NumericOp.cmp (held want : Int) : NumericOp → Bool
  | .eq => held = want
  | .ne => held ≠ want
  | .lt => held < want
  | .lte => held ≤ want
  | .gt => held > want
  | .gte => held ≥ want

inductive DateOp where
  | gt
  | lt
  | eq
deriving Repr, DecidableEq

def DateOp.fromName (op : String) : Option DateOp :=
  match op with
  | "DateGreaterThan" => some .gt
  | "DateLessThan" => some .lt
  | "DateEquals" => some .eq
  | _ => none

def DateOp.cmp (now want : Int) : DateOp → Bool
  | .gt => now > want
  | .lt => now < want
  | .eq => now = want

/-- The loop of `glob_match` on what is left of pattern and value, with what was left of both behind
the last star.  A byte that matches literally goes before a star. -/
def globLoop (pattern value : Bytes) (star : Option (Bytes × Bytes))
    (behind : ∀ saved, star = some saved → value.length ≤ saved.2.length) : Bool :=
  match value with
  | [] => (pattern.dropWhile (· = '*'.toUInt8)).isEmpty
  | v :: value' =>
    match pattern, star with
    | p :: pattern', star =>
      if p = '?'.toUInt8 ∨ p = v then
        globLoop pattern' value' star fun saved inside => Nat.le_of_succ_le (behind saved inside)
      else if p = '*'.toUInt8 then
        globLoop pattern' (v :: value') (some (pattern', v :: value')) fun _ same =>
          Option.some.inj same ▸ Nat.le_refl _
      else
        match star with
        | none => false
        | some (afterStar, saved) =>
          globLoop afterStar saved.tail (some (afterStar, saved.tail)) fun _ same =>
            Option.some.inj same ▸ Nat.le_refl _
    | [], none => false
    | [], some (afterStar, saved) =>
      globLoop afterStar saved.tail (some (afterStar, saved.tail)) fun _ same =>
        Option.some.inj same ▸ Nat.le_refl _
termination_by (star.elim (value.length + 1) fun saved => saved.2.length, pattern.length + value.length)
decreasing_by
  · cases star with
    | none =>
      apply Prod.Lex.left
      exact Nat.lt_succ_self _
    | some saved =>
      apply Prod.Lex.right
      simp only [List.length_cons]
      omega
  · cases star with
    | none =>
      apply Prod.Lex.left
      exact Nat.lt_succ_self _
    | some saved =>
      have within := behind saved rfl
      rw [Prod.lex_def]
      simp only [Option.elim_some, List.length_cons] at within ⊢
      omega
  · have within := behind _ rfl
    apply Prod.Lex.left
    simp only [Option.elim_some, List.length_cons, List.length_tail] at within ⊢
    omega
  · have within := behind _ rfl
    apply Prod.Lex.left
    simp only [Option.elim_some, List.length_cons, List.length_tail] at within ⊢
    omega

def globMatch (pattern value : String) : Bool :=
  globLoop (utf8 pattern) (utf8 value) none nofun

inductive Condition where
  | ip (negate : Bool) (nets : List IpNet)
  | str (like : Bool) (key : StrKey) (values : List String)
  | bool (expected : Bool)
  | numeric (op : NumericOp) (values : List Int)
  | date (op : DateOp) (values : List Int)
deriving DecidableEq

def Condition.satisfied (ctx : EvalCtx) : Condition → Bool
  | .ip negate nets =>
    let hit := (ctx.sourceIp.map fun ip => nets.any fun net => net.contains ip).getD false
    hit != negate
  | .str like key values =>
    match key.value ctx with
    | none => false
    | some value => values.any fun p => if like then globMatch p value else p = value
  | .bool expected => ctx.bypassGovernance = expected
  | .numeric op values =>
    match ctx.remainingRetentionDays with
    | none => false
    | some held => values.any fun want => op.cmp held want
  | .date op values =>
    match ctx.now with
    | none => false
    | some now => values.any fun want => op.cmp now want

/-- An action belongs to one of three families; a bare name is one of `s3:`. -/
def normalizeAction (action : String) : String :=
  let a := Text.lower (Text.trim action.toList)
  String.ofList
    (if "s3:".toList.isPrefixOf a || "admin:".toList.isPrefixOf a || "sts:".toList.isPrefixOf a then a
      else "s3:".toList ++ a)

/-- A star is understood at the end only; without one the whole value is compared, ignoring the case
of letters. -/
def wildcardMatch (pattern value : String) : Bool :=
  let pat := Text.trim pattern.toList
  match Text.beforeLast '*' pat with
  | some head => head.isPrefixOf value.toList
  | none => Text.lower pat = Text.lower value.toList

def arnHead : String :=
  "arn:aws:s3:::"

/-- `resource_arn`: an operation of the service has no bucket. -/
def resourceArn (bucket key : String) : String :=
  if bucket = "" then "*"
  else if key = "" then arnHead ++ bucket
  else arnHead ++ bucket ++ "/" ++ key

def usernameVar : List Char :=
  "$\x7baws:username\x7d".toList

def expandUsernameVar (pattern : String) (caller : Option CallerIdentity) : Option String :=
  if Text.occursIn usernameVar pattern.toList then
    caller.map fun c => String.ofList (Text.replace usernameVar c.user.toList pattern.toList)
  else some pattern

inductive Effect where
  | allow
  | deny
deriving Repr, DecidableEq

/-- A statement of a parsed document: its actions are normalized.  A principal is absent in the
policies of keys. -/
structure Statement where
  effect : Effect
  principal : Option Principal
  actions : List String
  resources : List String
  conditions : List Condition
  normalized : ∀ action ∈ actions, normalizeAction action = action
deriving DecidableEq

structure Policy where
  statements : List Statement
deriving DecidableEq

namespace Statement

variable (st : Statement)

def principalHit (authenticated : Bool) (ctx : EvalCtx) : Bool :=
  (st.principal.map fun p => p.matchesCaller authenticated ctx.caller).getD true

def actionHit (action : String) : Bool :=
  st.actions.any fun p => wildcardMatch p action

def resourceHit (resource : String) (ctx : EvalCtx) : Bool :=
  st.resources.any fun p =>
    ((expandUsernameVar p ctx.caller).map fun expanded => wildcardMatch expanded resource).getD false

def conditionsHold (ctx : EvalCtx) : Bool :=
  st.conditions.all fun c => c.satisfied ctx

end Statement

/-- The loop of `decide`, over the statements that are left. -/
def decideLoop (action resource : String) (authenticated : Bool) (ctx : EvalCtx) :
    Bool → List Statement → Decision
  | allowed, [] => if allowed then .allow else .noMatch
  | allowed, st :: rest =>
    if !st.principalHit authenticated ctx then
      decideLoop action resource authenticated ctx allowed rest
    else if !(st.actionHit action && st.resourceHit resource ctx) then
      decideLoop action resource authenticated ctx allowed rest
    else if !st.conditionsHold ctx then
      decideLoop action resource authenticated ctx allowed rest
    else
      match st.effect with
      | .deny => .deny
      | .allow => decideLoop action resource authenticated ctx true rest

namespace Policy

variable (policy : Policy)

def decide (action resource : String) (authenticated : Bool) (ctx : EvalCtx) : Decision :=
  decideLoop (normalizeAction action) resource authenticated ctx false policy.statements

def grantsAnonymousPublicAccess : Bool :=
  policy.statements.any fun st =>
    if st.effect ≠ .allow ∨ st.principal ≠ some .any then false
    else
      st.actions.any fun pat =>
        ["s3:getobject", "s3:putobject", "s3:listbucket"].any fun t =>
          wildcardMatch (normalizeAction pat) t

end Policy

end FastS3.S3
