import FastS3.Engine.Catalog

namespace FastS3.Engine

open FastS3.Core (Vk VersionRecord)
open Meta (ObjectMeta)

/-! Records under retention or a legal hold. -/

instance recordedLocked : VersionRecord ObjectMeta where
  mtime m := m.mtime
  isDeleteMarker m := m.isDeleteMarker

def deleteMarkerMeta (versionId : Option Vk) (mtime : Int) : ObjectMeta where
  size := 0
  mtime := mtime
  extents := []
  inline := none
  parts := []
  versionId := versionId
  isDeleteMarker := true
  sse := none
  compressed := none
  storageClass := none
  restoreState := none
  tags := []
  retention := none
  legalHold := false

instance markedLocked : Marked ObjectMeta where
  deleteMarker := deleteMarkerMeta

/-- `lock_blocks_delete`: why a version cannot be deleted. -/
def lockBlocksDelete (m : ObjectMeta) (now : Int) (bypassGovernance : Bool) : Option String :=
  if m.isDeleteMarker then none
  else if m.legalHold then some "object is under a legal hold and cannot be deleted"
  else
    match m.retention with
    | none => none
    | some r =>
      if now ≥ r.retainUntil then none
      else
        match r.mode with
        | .compliance => some "object is protected by Object Lock COMPLIANCE retention"
        | .governance =>
          if bypassGovernance then none
          else some "object is protected by Object Lock GOVERNANCE retention"

/-- `is_locked`: the lifecycle never bypasses a retention. -/
def isLocked (m : ObjectMeta) (now : Int) : Bool :=
  (lockBlocksDelete m now false).isSome

/-- `deny_if_locked`; the lock is skipped by the rollback of a write only. -/
def deniedIfLocked (now : Int) (bypassGovernance skipLock : Bool) (m : ObjectMeta) : Bool :=
  !skipLock && (lockBlocksDelete m now bypassGovernance).isSome

end FastS3.Engine
