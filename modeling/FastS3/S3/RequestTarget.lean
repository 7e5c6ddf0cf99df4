import FastS3.Data.Dispatch
import FastS3.S3.Router

namespace FastS3.S3

open Data

/-! What a request is measured, audited and authorized as.  The request is read a second time for
it, without the router. -/

inductive MetricsOp where
  | get
  | put
  | head
  | delete
  | listObjects
  | listBuckets
  | createBucket
  | deleteBucket
  | multipart
  | copy
  | presign
  | other
deriving Repr, DecidableEq

inductive KeyPattern where
  | empty
  | given
  | any
deriving Repr, DecidableEq

inductive ArmGuard where
  | always
  | named (subresource : String)
  | unnamed (subresource : String)
deriving Repr, DecidableEq

/-- An arm of the match in `route_op_bucket_key`. -/
structure RequestArm where
  method : Method
  key : KeyPattern
  guard : ArmGuard

def KeyPattern.admits (key : String) : KeyPattern → Bool
  | empty => key = ""
  | given => key ≠ ""
  | any => true

def ArmGuard.holds (query : List (String × String)) : ArmGuard → Bool
  | always => true
  | named subresource => hasQ query subresource
  | unnamed subresource => !hasQ query subresource

def RequestArm.holds (method : Method) (key : String) (query : List (String × String))
    (arm : RequestArm) : Bool :=
  arm.method = method && arm.key.admits key && arm.guard.holds query

def configArms (subresource putName getName deleteName : String) :
    List (RequestArm × MetricsOp × String) :=
  [(⟨.put, .empty, .named subresource⟩, .other, putName),
   (⟨.get, .empty, .named subresource⟩, .other, getName),
   (⟨.delete, .empty, .named subresource⟩, .other, deleteName)]

def plainArms : List (RequestArm × MetricsOp × String) :=
  [(⟨.put, .empty, .named "object-lock"⟩, .other, "PutObjectLockConfiguration"),
   (⟨.get, .empty, .named "object-lock"⟩, .other, "GetObjectLockConfiguration"),
   (⟨.put, .empty, .named "versioning"⟩, .other, "PutBucketVersioning"),
   (⟨.get, .empty, .named "versioning"⟩, .other, "GetBucketVersioning"),
   (⟨.get, .empty, .named "versions"⟩, .get, "ListObjectVersions"),
   (⟨.post, .empty, .unnamed "delete"⟩, .put, "PostObject"),
   (⟨.put, .any, .named "tagging"⟩, .put, "PutObjectTagging"),
   (⟨.get, .any, .named "tagging"⟩, .get, "GetObjectTagging"),
   (⟨.delete, .any, .named "tagging"⟩, .delete, "DeleteObjectTagging"),
   (⟨.put, .given, .named "retention"⟩, .put, "PutObjectRetention"),
   (⟨.get, .given, .named "retention"⟩, .get, "GetObjectRetention"),
   (⟨.put, .given, .named "legal-hold"⟩, .put, "PutObjectLegalHold"),
   (⟨.get, .given, .named "legal-hold"⟩, .get, "GetObjectLegalHold"),
   (⟨.get, .given, .named "attributes"⟩, .get, "GetObjectAttributes"),
   (⟨.post, .given, .named "restore"⟩, .other, "RestoreObject"),
   (⟨.put, .empty, .always⟩, .createBucket, "CreateBucket"),
   (⟨.delete, .empty, .always⟩, .deleteBucket, "DeleteBucket"),
   (⟨.head, .empty, .always⟩, .other, "HeadBucket"),
   (⟨.get, .any, .always⟩, .get, "GetObject"),
   (⟨.head, .any, .always⟩, .head, "HeadObject"),
   (⟨.put, .any, .always⟩, .put, "PutObject"),
   (⟨.delete, .any, .always⟩, .delete, "DeleteObject"),
   (⟨.post, .any, .always⟩, .multipart, "Multipart")]

def requestArms : List (RequestArm × MetricsOp × String) :=
  List.flatten
    [configArms "tagging" "PutBucketTagging" "GetBucketTagging" "DeleteBucketTagging",
     configArms "cors" "PutBucketCors" "GetBucketCors" "DeleteBucketCors",
     configArms "ownershipControls" "PutBucketOwnershipControls" "GetBucketOwnershipControls"
       "DeleteBucketOwnershipControls",
     configArms "publicAccessBlock" "PutPublicAccessBlock" "GetPublicAccessBlock"
       "DeletePublicAccessBlock",
     [(⟨.get, .empty, .named "policyStatus"⟩, .other, "GetBucketPolicyStatus")],
     configArms "policy" "PutBucketPolicy" "GetBucketPolicy" "DeleteBucketPolicy",
     configArms "lifecycle" "PutLifecycleConfiguration" "GetLifecycleConfiguration"
       "DeleteLifecycleConfiguration",
     configArms "notification" "PutBucketNotificationConfiguration"
       "GetBucketNotificationConfiguration" "DeleteBucketNotificationConfiguration",
     configArms "inventory" "PutInventoryConfiguration" "GetInventoryConfiguration"
       "DeleteInventoryConfiguration",
     plainArms]

/-- The match of `route_op_bucket_key`. -/
def requestName (method : Method) (bucket key : String) (query : List (String × String)) :
    MetricsOp × String :=
  if method = .get ∧ bucket = "" then (.listBuckets, "ListBuckets")
  else firstMatch (RequestArm.holds method key query) requestArms (.other, "Other")

def routeOpBucketKey (request : S3Request) : MetricsOp × String × String × String :=
  let (bucket, key) := splitSlash (trimSlashes request.path)
  let (op, name) := requestName request.method bucket key request.query
  (op, name, bucket, key)

end FastS3.S3
