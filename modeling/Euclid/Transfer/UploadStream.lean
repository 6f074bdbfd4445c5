/-
This file translates how a transfer server stores an object while its bytes arrive: held back as
long as they may go in one call, and sent in parts from then on.

The sizes are configured. A call of ESM succeeds or does not, and what it was sent is recorded. The
headers that say where an object belongs and who stored it are left out.
-/

import Euclid.Core.HttpRequest
import Euclid.Program

namespace Euclid.Transfer

open Program
open Core (Text)

/-! ### Calls -/

abbrev UploadId := { uploadId : String // uploadId ≠ "" }

/-- A call of ESM that stores an object. -/
inductive Call where
  | createUpload (key : Text)
  | uploadPart (uploadId : String) (partNumber : ℕ) (body : Bytes)
  | completeUpload (uploadId : String)
  | abortUpload (uploadId : String)
  | putObject (key : Text) (body : Bytes)

/-- What is answered: the ID of a new upload, and otherwise whether the call has succeeded. -/
def Call.Answer : Call → Type
  | .createUpload _ => Option UploadId
  | _ => Bool

/-- What is asked of ESM. A call that fails is an answer. -/
abbrev Op (Result : Type) := Program Call Call.Answer Empty Result

/-- The calls that were made, and what each was answered. -/
abbrev Log := List (Σ call : Call, call.Answer)

/-- Which calls succeed, and the IDs that ESM gives out. -/
structure Env where
  succeeds : ℕ → Bool
  uploadId : ℕ → UploadId

def Env.answer (env : Env) (moment : ℕ) : (call : Call) → call.Answer
  | .createUpload _ =>
    if env.succeeds moment then some (env.uploadId moment) else none
  | .uploadPart .. => env.succeeds moment
  | .completeUpload _ => env.succeeds moment
  | .abortUpload _ => env.succeeds moment
  | .putObject .. => env.succeeds moment

def machine (env : Env) : Machine Call Call.Answer Log :=
  fun call log =>
    (env.answer log.length call, log ++ [⟨call, env.answer log.length call⟩])

/-! ### Asking -/

def createUpload (key : Text) : Op (Option UploadId) := issue (Call.createUpload key)

def uploadPart (uploadId : String) (partNumber : ℕ) (body : Bytes) : Op Bool :=
  issue (Call.uploadPart uploadId partNumber body)

def completeUpload (uploadId : String) : Op Bool := issue (Call.completeUpload uploadId)

def putObject (key : Text) (body : Bytes) : Op Bool := issue (Call.putObject key body)

/-! ### Streams -/

/-- What is configured: `InlineMaxSize` and `PartSize`. -/
structure Settings where
  inlineMaxSize : Int
  partSize : ℕ
  partSize_pos : 0 < partSize

structure UploadStream where
  key : Text
  buffer : Bytes
  uploadId : String
  partNumber : ℕ
  total : ℕ
  failed : Bool
  finished : Bool

def beginUpload (key : Text) : UploadStream := ⟨key, [], "", 0, 0, false, false⟩

def beginParts (stream : UploadStream) : Op (Bool × UploadStream) := do
  match ← createUpload stream.key with
  | none => return (false, stream)
  | some uploadId => return (true, { stream with uploadId := uploadId.1 })

/-- `sendPart`, once there is an upload. -/
def sendNumbered (size : ℕ) (stream : UploadStream) : Op (Bool × UploadStream) := do
  let partNumber := stream.partNumber + 1
  if ← uploadPart stream.uploadId partNumber (stream.buffer.take size) then
    return (true,
      { stream with
        partNumber
        buffer := stream.buffer.drop size
        total := stream.total + size })
  else return (false, { stream with partNumber })

def sendPart (size : ℕ) (stream : UploadStream) : Op (Bool × UploadStream) := do
  if stream.uploadId = "" then
    match ← beginParts stream with
    | (false, stream) => return (false, stream)
    | (true, stream) => sendNumbered size stream
  else sendNumbered size stream

/-- The loop of `Write`. Every turn takes a byte or more out of the buffer. -/
def sendFullParts (settings : Settings) : ℕ → UploadStream → Op (Bool × UploadStream)
  | 0, stream => return (true, stream)
  | fuel + 1, stream => do
    if settings.partSize ≤ stream.buffer.length then
      match ← sendPart settings.partSize stream with
      | (false, stream) => return (false, { stream with failed := true })
      | (true, stream) => sendFullParts settings fuel stream
    else return (true, stream)

def write (settings : Settings) (data : Bytes) (stream : UploadStream) : Op (Bool × UploadStream) :=
  if stream.failed then .done (false, stream)
  else
    let stream := { stream with buffer := stream.buffer ++ data }
    if stream.uploadId = "" ∧ (stream.buffer.length : Int) ≤ settings.inlineMaxSize then
      .done (true, stream)
    else sendFullParts settings stream.buffer.length stream

def finish (stream : UploadStream) : Op Bool := do
  if stream.failed then return false
  let stream := { stream with finished := true }
  if stream.uploadId = "" then putObject stream.key stream.buffer
  else if stream.buffer ≠ [] then
    match ← sendPart stream.buffer.length stream with
    | (false, _) => return false
    | (true, stream) => completeUpload stream.uploadId
  else completeUpload stream.uploadId

/-- Write piece by piece, until one fails, and finish. -/
def writeAll (settings : Settings) : List Bytes → UploadStream → Op Bool
  | [], stream => finish stream
  | data :: rest, stream => do
    match ← write settings data stream with
    | (false, _) => return false
    | (true, stream) => writeAll settings rest stream

/-- What a transfer server does with the pieces of a file. -/
def upload (settings : Settings) (key : Text) (pieces : List Bytes) : Op Bool :=
  writeAll settings pieces (beginUpload key)

end Euclid.Transfer
