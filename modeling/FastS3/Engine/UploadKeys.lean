import FastS3.Engine.Catalog
import FastS3.Engine.Put

namespace FastS3.Engine

open Alloc FastS3.Core

/-! The key and the checks of an upload session, for its parts and its completion. -/

def sessionS3WriteKey (codec : Codec) (session : MultipartSession) :
    EngineM (Option SseWriteKey) :=
  match session.sseS3 with
  | none => return none
  | some s3 => do
      metaCall
      match codec.unwrapSseS3 s3.kekId s3.wrappedDek with
      | some dataKey => return some ⟨.sseS3, s3.kekId, s3.wrappedDek, dataKey, []⟩
      | none =>
        let kekId := s3.kekId
        throw (.corrupt s!"sse-s3 DEK unwrap failed (kek gen {kekId}); object data unreadable")

def sessionKmsWriteKey (codec : Codec) (session : MultipartSession) :
    EngineM (Option SseWriteKey) :=
  match session.sseKms with
  | none => return none
  | some kms =>
    return some (← ExtentWriter.liftCodec (codec.sessionKms session.bucket session.key kms))

def oneWriteKey (sseC s3 kms : Option SseWriteKey) : EngineM (Option SseWriteKey) :=
  match sseC, s3, kms with
  | some key, none, none => return some key
  | none, some key, none => return some key
  | none, none, some key => return some key
  | none, none, none => return none
  | _, _, _ => expect "internal error: entered unreachable code" none

def uploadWriteKey (codec : Codec) (session : MultipartSession) (sseKey : Option SseWriteKey) :
    EngineM (Option SseWriteKey) := do
  let s3 ← sessionS3WriteKey codec session
  let kms ← sessionKmsWriteKey codec session
  oneWriteKey sseKey s3 kms

def MultipartSession.isArchive (session : MultipartSession) : Bool :=
  session.requestedStorageClass.any isArchiveClass

def MultipartSession.isEncrypted (session : MultipartSession) : Bool :=
  session.sseKeyMd5.isSome || session.sseS3.isSome || session.sseKms.isSome

def checkArchiveSession (session : MultipartSession) (advice : String) : EngineM Unit :=
  if session.isArchive && session.isEncrypted then
    throw (.invalidRequest (("SSE combined with archive storage classes is not supported for " ++
      "multipart uploads (ADR-19 DA1)") ++ advice))
  else return ()

def checkSessionKey (session : MultipartSession) (sseKey : Option SseWriteKey) (request : String) :
    EngineM Unit :=
  if session.sseKeyMd5.isSome != sseKey.isSome then
    throw (.invalidRequest (s!"{request} SSE-C headers must match the encryption headers of the " ++
      "multipart upload session"))
  else if session.sseS3.isSome && sseKey.isSome then
    throw (.invalidRequest (s!"{request} SSE-C headers must not be present on an SSE-S3 " ++
      "multipart upload session"))
  else return ()

end FastS3.Engine
