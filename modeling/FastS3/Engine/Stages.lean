import FastS3.Engine.Put
import FastS3.Engine.RoundTrip

namespace FastS3.Engine

open Alloc FastS3.Core Data Device EngineState

/-! The compression and encryption stages of the writer.

The input of a writer is compressed, then encrypted in chunks of 64 KiB, then laid out in
extents.
-/

/-- The whole output of a decoder that has had `before` and is still to get `pieces`. -/
def Codec.decodeFrom (codec : Codec) : List Bytes → List Bytes → Except Error Bytes
  | before, [] => codec.decodeFlush before
  | before, piece :: rest => do
      let out ← codec.decode before piece
      return out ++ (← codec.decodeFrom (before ++ [piece]) rest)

def Codec.decodeAll (codec : Codec) (pieces : List Bytes) : Except Error Bytes :=
  codec.decodeFrom [] pieces

def sealChunks (codec : Codec) (dataKey nonceBase plaintext : Bytes) : List (Bytes × Bytes) :=
  (sseChunks plaintext).zipIdx.map fun chunk =>
    codec.encryptChunk dataKey nonceBase chunk.2 chunk.1

def ciphertext (codec : Codec) (dataKey nonceBase plaintext : Bytes) : Bytes :=
  ((sealChunks codec dataKey nonceBase plaintext).map Prod.fst).flatten

def chunkTags (codec : Codec) (dataKey nonceBase plaintext : Bytes) : List Bytes :=
  (sealChunks codec dataKey nonceBase plaintext).map Prod.snd

theorem sseChunks_eq (data : Bytes) : sseChunks data = blocks sseChunkSize data :=
  rfl

end FastS3.Engine
