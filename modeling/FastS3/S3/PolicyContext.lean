import FastS3.Data.Runs
import FastS3.Engine.ObjectLock
import FastS3.S3.Delegation

namespace FastS3.S3

open Data
open FastS3.Core (KeyGroup)
open Meta (ObjectMeta Store)

/-! What the conditions of policies are told about a request.

The address of a client is kept in one place of the service, which every new connection writes.  The
requests of all connections are decided against it, in any order.
-/

/-- The address of a client, which the service keeps as its text. -/
structure SocketAddr where
  ip : IpAddr
  port : Nat
deriving Repr, DecidableEq

abbrev Versions := String → String → KeyGroup ObjectMeta

/-- `remaining_retention_days`, rounded up. -/
def daysUntil (retainUntil now : Int) : Int :=
  if retainUntil ≤ now then 0 else (retainUntil - now + 86399) / 86400

def remainingRetentionDays (group : KeyGroup ObjectMeta) (now : Int)
    (version : Option VersionIdArg) : Option Int :=
  match group.head (version.map VersionIdArg.toVk) with
  | .error _ => none
  | .ok m => m.retention.map fun r => daysUntil r.retainUntil now

/-- What is shared by all connections: the last address, the stored versions and the trusted clock. -/
structure Shared where
  lastPeer : Option SocketAddr
  versions : Versions
  lockNow : Int

def Shared.policyCtx (shared : Shared) (request : S3Request) (bucket key : String) : EvalCtx where
  sourceIp := shared.lastPeer.map SocketAddr.ip
  listPrefix := getQ request.query "prefix"
  delimiter := getQ request.query "delimiter"
  bypassGovernance := request.bypassGovernance
  remainingRetentionDays :=
    if key = "" then none
    else remainingRetentionDays (shared.versions bucket key) shared.lockNow none
  caller := none
  now := some shared.lockNow

structure Connections where
  shared : Shared
  peers : Nat → Option (Option SocketAddr)

structure Question where
  request : S3Request
  action : String
  bucket : String
  key : String

/-- What happens at the service: a connection is accepted, a request of a connection is decided, the
store changes, or time passes. -/
inductive Happening where
  | accept (connection : Nat) (peer : Option SocketAddr)
  | decide (connection : Nat) (auth : Option AuthIdentity) (question : Question)
  | write (bucket key : String) (group : KeyGroup ObjectMeta)
  | tick (lockNow : Int)

namespace Connections

def step (state : Connections) : Happening → Connections
  | .accept connection peer => {
      shared := { state.shared with lastPeer := peer }
      peers := Function.update state.peers connection (some peer) }
  | .decide _ _ _ => state
  | .write bucket key group => { state with shared := { state.shared with
      versions := Function.update state.shared.versions bucket
        (Function.update (state.shared.versions bucket) key group) } }
  | .tick lockNow => { state with shared := { state.shared with lockNow := lockNow } }

/-- The target that `authorize` judges. -/
def target (state : Connections) (question : Question) : Target :=
  ⟨question.action, question.bucket, question.key,
    state.shared.policyCtx question.request question.bucket question.key⟩

end Connections

/-- The retention of the version that a request names, the current one where it names none. -/
def Question.remainingRetention (question : Question) (versions : Versions) (now : Int) :
    Option Int :=
  if question.key = "" then none
  else match parseVersionIdParam (getQ question.request.query "versionId") with
    | .error _ => none
    | .ok version =>
      FastS3.S3.remainingRetentionDays (versions question.bucket question.key) now version

def Question.own (question : Question) (peer : Option SocketAddr) (versions : Versions) (now : Int) :
    EvalCtx where
  sourceIp := peer.map SocketAddr.ip
  listPrefix := getQ question.request.query "prefix"
  delimiter := getQ question.request.query "delimiter"
  bypassGovernance := question.request.bypassGovernance
  remainingRetentionDays := question.remainingRetention versions now
  caller := none
  now := some now

namespace Connections

def Described (state : Connections) : Happening → Prop
  | .decide connection _ question => ∀ peer, state.peers connection = some peer →
      (state.target question).ctx =
        question.own peer state.shared.versions state.shared.lockNow
  | _ => True

end Connections

def newestClient (happenings : List Happening) : Option (Option SocketAddr) :=
  happenings.reverse.findSome? fun happening =>
    match happening with
    | .accept _ peer => some peer
    | _ => none

def clientOf (connection : Nat) (happenings : List Happening) : Option (Option SocketAddr) :=
  happenings.reverse.findSome? fun happening =>
    match happening with
    | .accept other peer => if connection = other then some peer else none
    | _ => none

namespace Connections

def opened (versions : Versions) (lockNow : Int) : Connections :=
  ⟨⟨none, versions, lockNow⟩, fun _ => none⟩

def after (versions : Versions) (lockNow : Int) (happenings : List Happening) : Connections :=
  happenings.foldl step (opened versions lockNow)

/-- When a decision is taken on the facts of its own request: the connection that was accepted last comes
from the address of the client, and the version that the request names is retained for as many days as
the current one. -/
def Undisturbed (versions : Versions) (lockNow : Int) (earlier : List Happening) : Happening → Prop
  | .decide connection _ question => ∀ peer, clientOf connection earlier = some peer →
      (newestClient earlier).join.map SocketAddr.ip = peer.map SocketAddr.ip ∧
      (question.key ≠ "" →
        let shared := (after versions lockNow earlier).shared
        remainingRetentionDays (shared.versions question.bucket question.key) shared.lockNow none =
          question.remainingRetention shared.versions shared.lockNow)
  | _ => True

section Runs

variable {versions : Versions} {lockNow : Int} {happenings : List Happening}

theorem after_append (happening : Happening) :
    after versions lockNow (happenings ++ [happening]) =
      (after versions lockNow happenings).step happening := by
  rw [after, List.foldl_append]
  rfl

theorem after_lastPeer :
    (after versions lockNow happenings).shared.lastPeer = (newestClient happenings).join := by
  induction happenings using List.reverseRecOn with
  | nil => rfl
  | append_singleton earlier happening ih =>
    rw [after_append, newestClient, List.reverse_append]
    cases happening with
    | accept connection peer => rfl
    | decide connection auth question => exact ih
    | write bucket key group => exact ih
    | tick now => exact ih

theorem after_peers (connection : Nat) :
    (after versions lockNow happenings).peers connection = clientOf connection happenings := by
  induction happenings using List.reverseRecOn with
  | nil => rfl
  | append_singleton earlier happening ih =>
    rw [after_append, clientOf, List.reverse_append]
    cases happening with
    | accept other peer =>
      change Function.update (after versions lockNow earlier).peers other (some peer) connection = _
      rw [List.reverse_singleton, List.singleton_append, List.findSome?_cons]
      by_cases same : connection = other
      · simp only [if_pos same]
        rw [same, Function.update_self]
      · simp only [if_neg same]
        rw [Function.update_of_ne same, ih, clientOf]
    | decide other auth question => exact ih
    | write bucket key group => exact ih
    | tick now => exact ih

theorem policyCtx_own_iff (shared : Shared) (question : Question) (peer : Option SocketAddr) :
    shared.policyCtx question.request question.bucket question.key =
        question.own peer shared.versions shared.lockNow ↔
      shared.lastPeer.map SocketAddr.ip = peer.map SocketAddr.ip ∧
      (question.key ≠ "" →
        remainingRetentionDays (shared.versions question.bucket question.key) shared.lockNow none =
          question.remainingRetention shared.versions shared.lockNow) := by
  rw [Shared.policyCtx, Question.own, EvalCtx.mk.injEq]
  by_cases bare : question.key = ""
  · have none : question.remainingRetention shared.versions shared.lockNow = none := by
      rw [Question.remainingRetention, if_pos bare]
    rw [if_pos bare, none]
    constructor
    · exact fun same => ⟨same.1, fun filled => absurd bare filled⟩
    · exact fun both => ⟨both.1, rfl, rfl, rfl, rfl, rfl, rfl⟩
  · rw [if_neg bare, forall_prop_of_true bare]
    constructor
    · exact fun same => ⟨same.1, same.2.2.2.2.1⟩
    · exact fun both => ⟨both.1, rfl, rfl, rfl, both.2, rfl, rfl⟩

theorem described_iff (happening : Happening) :
    (after versions lockNow happenings).Described happening ↔
      Undisturbed versions lockNow happenings happening := by
  cases happening with
  | decide connection auth question =>
    have newest : (after versions lockNow happenings).shared.lastPeer =
        (newestClient happenings).join := after_lastPeer
    rw [Described, Undisturbed, after_peers, ← newest]
    exact forall₂_congr fun peer _ => policyCtx_own_iff _ question peer
  | _ => exact Iff.rfl

end Runs

/-- In a run of any number of connections, every decision is taken on the facts of its own request when
none is disturbed, and only then. -/
theorem run_described_iff (versions : Versions) (lockNow : Int) (happenings : List Happening) :
    EveryStep step Described (opened versions lockNow) happenings ↔
      ∀ earlier next later, happenings = earlier ++ next :: later →
        Undisturbed versions lockNow earlier next := by
  constructor
  · intro every earlier next later split
    exact (described_iff next).mp (every earlier next later split)
  · intro all earlier next later split
    exact (described_iff next).mpr (all earlier next later split)

/-! A client from outside connects between a connection and its request. -/

def insidePeer : SocketAddr :=
  ⟨.v4 0x0A000001, 40000⟩

def outsidePeer : SocketAddr :=
  ⟨.v4 0xCB007109, 40000⟩

def readQuestion : Question :=
  ⟨plainGet "s3.example.com" "/b/k" [], "GetObject", "b", "k"⟩

def crossed : List Happening :=
  [.accept 0 (some insidePeer), .accept 1 (some outsidePeer), .decide 0 none readQuestion]

/-- The request from inside is decided as one from outside. -/
theorem crossed_not_described :
    ¬∀ (versions : Versions) (lockNow : Int) (happenings : List Happening),
      EveryStep step Described (opened versions lockNow) happenings := by
  intro all
  have described := all (fun _ _ => KeyGroup.empty) 0 crossed
    [.accept 0 (some insidePeer), .accept 1 (some outsidePeer)] (.decide 0 none readQuestion) [] rfl
  have same := congrArg EvalCtx.sourceIp (described (some insidePeer) rfl)
  change some outsidePeer.ip = some insidePeer.ip at same
  exact absurd same (by decide)

end Connections

end FastS3.S3
