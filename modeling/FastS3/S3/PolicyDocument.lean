import FastS3.S3.PolicySemantics

namespace FastS3.S3

open Data
open FastS3.Core (Bytes utf8)

/-! The parser of policy documents.

It starts from the JSON value of the document.  What it accepts has only supported fields, and the
actions of its statements are normalized.
-/

/-- A JSON value.  The fields of an object come in the order of their names. -/
inductive Value where
  | null
  | bool (value : Bool)
  | number (text : String)
  | string (text : String)
  | array (items : List Value)
  | object (fields : List (String × Value))

namespace Value

/-- The escapes that `serde_json` writes. -/
def renderChar (c : Char) : String :=
  if c = '"' then "\\\""
  else if c = '\\' then "\\\\"
  else if c = '\n' then "\\n"
  else if c = '\r' then "\\r"
  else if c = '\t' then "\\t"
  else if c.toNat = 8 then "\\b"
  else if c.toNat = 12 then "\\f"
  else if c.toNat < 32 then
    "\\u00" ++ String.ofList [Nat.digitChar (c.toNat / 16), Nat.digitChar (c.toNat % 16)]
  else String.ofList [c]

def renderText (text : String) : String :=
  "\"" ++ String.join (text.toList.map renderChar) ++ "\""

mutual

def render : Value → String
  | .null => "null"
  | .bool value => if value then "true" else "false"
  | .number text => text
  | .string text => renderText text
  | .array items => "[" ++ renderItems items ++ "]"
  | .object fields => "\x7b" ++ renderFields fields ++ "\x7d"

def renderItems : List Value → String
  | [] => ""
  | [item] => item.render
  | item :: rest => item.render ++ "," ++ renderItems rest

def renderFields : List (String × Value) → String
  | [] => ""
  | [(name, value)] => renderText name ++ ":" ++ value.render
  | (name, value) :: rest => renderText name ++ ":" ++ value.render ++ "," ++ renderFields rest

end

def isString : Value → Bool
  | .string _ => true
  | _ => false

/-- `get` on the fields of an object. -/
def field (fields : List (String × Value)) (name : String) : Option Value :=
  fields.lookup name

end Value

abbrev PolicyError := String

def parseStringOrArray (field : String) : Value → Except PolicyError (List String)
  | .string s => .ok [s]
  | .array items =>
    items.mapM fun item =>
      match item with
      | .string s => .ok s
      | other =>
        let got := other.render
        .error s!"{field} 数组元素必须是字符串,got {got}"
  | other =>
    let got := other.render
    .error s!"{field} 必须是字符串或数组,got {got}"

def parseAwsPrincipal (s : String) : AwsPrincipal :=
  match Text.afterHead "arn:aws:iam::".toList s.toList with
  | none => .legacyAuthenticated
  | some rest =>
    match Text.splitOnce ':' rest with
    | none => .legacyAuthenticated
    | some (id, resource) =>
      if id = [] then .legacyAuthenticated
      else if resource = "root".toList then .root (String.ofList id)
      else
        match Text.afterHead "user/".toList resource with
        | none => .legacyAuthenticated
        | some name =>
          if name = [] then .legacyAuthenticated
          else .user (String.ofList id) (String.ofList name)

def parsePrincipal (idx : Nat) : Value → Except PolicyError Principal
  | .string s =>
    if s = "*" then .ok .any
    else .error s!"Statement[{idx}] Principal 字符串只支持 \"*\",got {s}"
  | .object [] => .error s!"Statement[{idx}] Principal 不能为空对象"
  | .object ((k, value) :: rest) =>
    if rest ≠ [] ∨ k ≠ "AWS" then
      .error
        s!"Statement[{idx}] Principal 仅支持 AWS 类型(Service/Federated/CanonicalUser 不支持)"
    else
      match value with
      | .string s => .ok (if s = "*" then .any else .aws [parseAwsPrincipal s])
      | .array items =>
        if items.isEmpty || !items.all Value.isString then
          .error s!"Statement[{idx}] Principal.AWS 数组必须是非空字符串数组"
        else
          .ok (.aws (items.filterMap fun item =>
            match item with
            | .string s => some (parseAwsPrincipal s)
            | _ => none))
      | other =>
        let got := other.render
        .error s!"Statement[{idx}] Principal.AWS 必须是字符串或数组,got {got}"
  | other =>
    let got := other.render
    .error s!"Statement[{idx}] Principal 必须是字符串或对象,got {got}"

def numberAt (bytes : Bytes) (start stop : Nat) : Option Int :=
  Text.parseI64 (((bytes.drop start).take (stop - start)).map fun b => Char.ofNat b.toNat)

/-- The result of an operation on `i64`, unless it overflows. -/
def i64 (value : Int) : Option Int :=
  if -9223372036854775808 ≤ value ∧ value ≤ 9223372036854775807 then some value else none

/-- The six numbers of a date with a time, and what follows them without fractions of a second. -/
structure DateFields where
  y : Int
  mo : Int
  d : Int
  h : Int
  mi : Int
  sec : Int
  rest : List Char

/-- The text behind the seconds and their fraction. -/
def zoneText (b : Bytes) : List Char :=
  match (b.drop 19).map fun byte => Char.ofNat byte.toNat with
  | '.' :: fraction => fraction.dropWhile Char.isDigit
  | rest => rest

def dateFields (b : Bytes) : Option DateFields :=
  let isAt := fun (place : Nat) (c : Char) => b[place]? = some c.toUInt8
  if b.length < 20 ∨ ¬isAt 4 '-' ∨ ¬isAt 7 '-' ∨ ¬(isAt 10 'T' ∨ isAt 10 't') ∨ ¬isAt 13 ':' ∨
      ¬isAt 16 ':' then none
  else do
    let y ← numberAt b 0 4
    let mo ← numberAt b 5 7
    let d ← numberAt b 8 10
    let h ← numberAt b 11 13
    let mi ← numberAt b 14 16
    let sec ← numberAt b 17 19
    return ⟨y, mo, d, h, mi, sec, zoneText b⟩

/-- `sign * (th * 3600 + tm * 60)`; the hours are multiplied before the minutes are read.  The outer
option is empty behind an overflow. -/
def zoneSecs (rest : List Char) : Option (Option Int) :=
  match rest with
  | [] | ['Z'] | ['z'] => some (some 0)
  | sign :: tz =>
    let sign : Option Int := if sign = '+' then some 1 else if sign = '-' then some (-1) else none
    match sign, Text.splitOnce ':' tz with
    | some sign, some (hours, minutes) =>
      match Text.parseI64 hours with
      | none => some none
      | some th => do
          let hourSecs ← i64 (th * 3600)
          match Text.parseI64 minutes with
          | none => some none
          | some tm => do
              let minuteSecs ← i64 (tm * 60)
              let secs ← i64 (hourSecs + minuteSecs)
              return some (← i64 (sign * secs))
    | _, _ => some none

def civilDays (y mo d : Int) : Option Int := do
  let yAdj ← if mo ≤ 2 then i64 (y - 1) else some y
  let era := yAdj / 400
  let yoe := yAdj % 400
  let mp ← if mo > 2 then i64 (mo - 3) else i64 (mo + 9)
  let doy ← i64 ((← i64 (153 * mp)) + 2)
  let doy ← i64 ((← i64 (doy / 5 + d)) - 1)
  let doe ← i64 ((← i64 (yoe * 365)) + yoe / 4)
  let doe ← i64 ((← i64 (doe - yoe / 100)) + doy)
  i64 ((← i64 ((← i64 (era * 146097)) + doe)) - 719468)

def DateFields.secs (f : DateFields) (offset : Int) : Option Int := do
  let days ← civilDays f.y f.mo f.d
  let secs ← i64 (days * 86400)
  let secs ← i64 (secs + (← i64 (f.h * 3600)))
  let secs ← i64 (secs + (← i64 (f.mi * 60)))
  let secs ← i64 (secs + f.sec)
  i64 (secs - offset)

/-- `parse_policy_date`: nothing behind an overflow, else what the function returns. -/
def policyDate (s : String) : Option (Option Int) :=
  match Text.parseI64 (Text.trim s.toList) with
  | some epoch => some (some epoch)
  | none =>
    match dateFields (utf8 s) with
    | none => some none
    | some f => do
        match ← zoneSecs f.rest with
        | none => return none
        | some offset => return some (← f.secs offset)

section Parser

variable (parseIpAddr : String → Option IpAddr)

/-- `IpNet::parse`. -/
def parseIpNet (s : String) : Except PolicyError IpNet := do
  let (addrText, plen) ←
    match Text.splitOnce '/' s.toList with
    | none => .ok (s, none)
    | some (addr, p) =>
      match Text.parseU8 p with
      | none => .error s!"非法 CIDR 前缀长度: {s}"
      | some p => .ok (String.ofList addr, some p)
  match parseIpAddr addrText, plen with
  | none, _ => .error s!"非法 IP 地址: {s}"
  | some addr, none => .ok ⟨addr, addr.width, Nat.le_refl _⟩
  | some addr, some p =>
    if bounded : p ≤ addr.width then .ok ⟨addr, p, bounded⟩
    else .error s!"CIDR 前缀长度越界: {s}"

def parseComparison (idx : Nat) (op key : String) (value : Value) : Except PolicyError Condition :=
  let keyLower := String.ofList (Text.lower key.toList)
  if op = "IpAddress" ∨ op = "NotIpAddress" then
    if keyLower ≠ "s3:sourceip" then
      .error s!"Statement[{idx}] {op} 仅支持 s3:SourceIp,got {key}"
    else do
      let nets ← (← parseStringOrArray "Condition" value).mapM (parseIpNet parseIpAddr)
      return .ip (op = "NotIpAddress") nets
  else if op = "StringEquals" ∨ op = "StringLike" then do
    let skey ←
      if keyLower = "s3:prefix" then .ok StrKey.listPrefix
      else if keyLower = "s3:delimiter" then .ok StrKey.delimiter
      else if keyLower = "s3:bypassgovernanceretention" ∧ op = "StringEquals" then
        .ok StrKey.bypassGovernance
      else
        .error (s!"Statement[{idx}] {op} 仅支持 s3:prefix/s3:delimiter" ++
          s!"(及 StringEquals × s3:BypassGovernanceRetention),got {key}")
    return .str (op = "StringLike") skey (← parseStringOrArray "Condition" value)
  else if op = "Bool" then
    if keyLower ≠ "s3:bypassgovernanceretention" then
      .error s!"Statement[{idx}] Bool 仅支持 s3:BypassGovernanceRetention,got {key}"
    else do
      match ← parseStringOrArray "Condition" value with
      | [raw] =>
        if raw = "true" then return .bool true
        else if raw = "false" then return .bool false
        else .error s!"Statement[{idx}] Bool 值必须为 true/false,got {raw}"
      | _ => .error s!"Statement[{idx}] Bool 条件需要恰好一个值"
  else
    match NumericOp.fromName op, DateOp.fromName op with
    | some numeric, _ =>
      if keyLower ≠ "s3:objectlockremainingretentiondays" then
        .error s!"Statement[{idx}] {op} 仅支持 s3:ObjectLockRemainingRetentionDays,got {key}"
      else do
        let values ← (← parseStringOrArray "Condition" value).mapM fun s =>
          match Text.parseI64 s.toList with
          | some value => .ok value
          | none => .error s!"Statement[{idx}] Numeric 条件值必须是整数,got {s}"
        return .numeric numeric values
    | none, some date =>
      if keyLower ≠ "aws:currenttime" then
        .error s!"Statement[{idx}] {op} 仅支持 aws:CurrentTime,got {key}"
      else do
        let values ← (← parseStringOrArray "Condition" value).mapM fun s =>
          match policyDate s with
          | some (some value) => .ok value
          | some none => .error
              s!"Statement[{idx}] Date 条件值必须是 ISO 8601 时间或 unix 秒整数,got {s}"
          -- a panic, where overflows are checked
          | none => .error "arithmetic overflow"
        return .date date values
    | none, none =>
      .error (s!"Statement[{idx}] 不支持的 Condition 操作符 {op}" ++
        "(最小集:IpAddress/NotIpAddress/StringEquals/StringLike/Bool/Numeric*/Date*)")

def parseCondition (idx : Nat) : Value → Except PolicyError (List Condition)
  | .object operators => do
      let groups ← operators.mapM fun (op, keys) =>
        match keys with
        | .object keys => keys.mapM fun (key, value) => parseComparison parseIpAddr idx op key value
        | _ => .error s!"Statement[{idx}] Condition.{op} 必须是键值对象"
      return groups.flatten
  | _ => .error s!"Statement[{idx}] Condition 必须是对象"

def checkField (idx : Nat) (name : String) : Except PolicyError Unit :=
  if name ∈ ["Sid", "Effect", "Principal", "Action", "Resource", "Condition"] then .ok ()
  else if name ∈ ["NotPrincipal", "NotAction", "NotResource"] then
    .error s!"Statement[{idx}] {name} 不支持(请改用正向字段)"
  else .error s!"Statement[{idx}] 未知字段 {name}"

def parseStatement (idx : Nat) : Value → Except PolicyError Statement
  | .object fields => do
      fields.forM fun (name, _) => checkField idx name
      let effect ←
        match Value.field fields "Effect" with
        | some (.string "Allow") => .ok Effect.allow
        | some (.string "Deny") => .ok Effect.deny
        | _ => .error s!"Statement[{idx}] Effect 必须为 Allow/Deny"
      let principal ← (Value.field fields "Principal").mapM (parsePrincipal idx)
      let actions ←
        match Value.field fields "Action" with
        | some value => parseStringOrArray "Action" value
        | none => .error s!"Statement[{idx}] 缺少 Action"
      let resources ←
        match Value.field fields "Resource" with
        | some value => parseStringOrArray "Resource" value
        | none => .error s!"Statement[{idx}] 缺少 Resource"
      let conditions ←
        match Value.field fields "Condition" with
        | some value => parseCondition parseIpAddr idx value
        | none => .ok []
      return {
        effect := effect
        principal := principal
        actions := actions.map normalizeAction
        resources := resources
        conditions := conditions
        normalized := by
          intro action inside
          obtain ⟨written, _, rfl⟩ := List.mem_map.mp inside
          exact normalizeAction_idempotent written }
  | _ => .error s!"Statement[{idx}] 必须是对象"

/-- `Policy::parse` behind the JSON parser. -/
def Policy.parse : Value → Except PolicyError Policy
  | .object fields => do
      match Value.field fields "Version" with
      | none | some (.string "2012-10-17") | some (.string "2008-10-17") => pure ()
      | some _ => throw "Version 必须为 \"2012-10-17\" 或 \"2008-10-17\""
      match Value.field fields "Statement" with
      | none => throw "缺少 Statement"
      | some (.array []) => throw "Statement 不能为空(空策略 = 全部拒绝,请显式书写)"
      | some (.array items) =>
        let statements ← items.zipIdx.mapM fun (item, idx) => parseStatement parseIpAddr idx item
        return ⟨statements⟩
      | some (.object _) => throw "Statement 必须是数组(单条语句请用数组包裹)"
      | some other =>
        let got := other.render
        throw s!"Statement 必须是数组,got {got}"
  | _ => .error "策略必须是 JSON 对象"

end Parser

def sampleDocument : Value :=
  .object [("Statement", .array [.object [("Action", .string "s3:GetObject"),
    ("Effect", .string "Allow"), ("Resource", .string "arn:aws:s3:::photos/*")]])]

theorem principal_less_statement_is_open :
    (Policy.parse (fun _ => none) sampleDocument).toOption.map (fun policy =>
        (policy.grantsAnonymousPublicAccess,
          policy.decide "GetObject" "arn:aws:s3:::photos/a" false {})) =
      some (false, .allow) := by
  decide +kernel

end FastS3.S3
