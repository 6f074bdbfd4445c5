/-
This file translates how a transfer server reaches the objects of a bucket.

Everything that leaves the process is an effect: the calls of ESM, the local files, and what a
client is sent. An effect that fails is an answer. The headers of a call, its retries and the log
are left out, and of an object the time when it was modified.
-/

import Mathlib.Data.String.Basic
import Euclid.Session
import Euclid.Transfer.Paths
import Euclid.Transfer.UploadStream

namespace Euclid.Transfer

open Program
open Core (Text)

/-! ### Effects -/

/-- An object as a listing of the bucket gives it. -/
structure Listed where
  key : Text
  ern : Text
  size : Int

/-- A file or a directory as a client sees it. -/
structure TransferEntry where
  name : Text
  isDirectory : Bool
  size : Int

/-- `TransferIdentity`, of which only the user counts here. -/
structure TransferIdentity where
  userId : Text

/-- What `get-object` answers: the object, that it is too large for one response (413), or a
failure. -/
inductive Got where
  | body (bytes : Bytes)
  | tooLarge
  | failed

/-- What a server does to the world. -/
inductive Effect where
  | store (call : Call)
  | getObject (key : Text)
  | createDownload (key : Text)
  | downloadPart (downloadId : Text) (partNumber : ℕ)
  | completeDownload (downloadId : Text)
  | listObjects (keyPrefix : Text)
  | deleteObject (ern : Text)
  /-- A local file is opened, written or appended to. -/
  | writeFile
  /-- A spool file that others may have written is read. -/
  | readFile
  /-- A local file is looked at, for its size and time. -/
  | statFile
  | authenticate (user password : Text)
  | allocateHandle
  | listen
  | openDataConnection
  /-- A client is sent bytes of a file, into which this object was downloaded. -/
  | sendData (source : Option Text) (bytes : Bytes)
  | sendListing (entries : List TransferEntry)

def Effect.Answer : Effect → Type
  | .store call => call.Answer
  | .getObject _ => Got
  | .createDownload _ => Option (Text × Int)
  | .downloadPart _ _ => Option Bytes
  | .completeDownload _ => Unit
  | .listObjects _ => Option (List Listed)
  | .readFile => Option Bytes
  | .statFile => Option (ℕ × Text)
  | .authenticate _ _ => Option TransferIdentity
  | .allocateHandle => Option ℕ
  | _ => Bool

abbrev Work (Result : Type) := Program Effect Effect.Answer Empty Result

def getObject (key : Text) : Work Got := issue (Effect.getObject key)

def createDownload (key : Text) : Work (Option (Text × Int)) := issue (Effect.createDownload key)

def downloadPart (downloadId : Text) (partNumber : ℕ) : Work (Option Bytes) :=
  issue (Effect.downloadPart downloadId partNumber)

def completeDownload (downloadId : Text) : Work Unit := issue (Effect.completeDownload downloadId)

def listObjects (keyPrefix : Text) : Work (Option (List Listed)) :=
  issue (Effect.listObjects keyPrefix)

def deleteObject (ern : Text) : Work Bool := issue (Effect.deleteObject ern)

def writeFile : Work Bool := issue Effect.writeFile

def readFile : Work (Option Bytes) := issue Effect.readFile

def sendData (source : Option Text) (bytes : Bytes) : Work Bool :=
  issue (Effect.sendData source bytes)

def statFile : Work (Option (ℕ × Text)) := issue Effect.statFile

def authenticate (user password : Text) : Work (Option TransferIdentity) :=
  issue (Effect.authenticate user password)

def allocateHandle : Work (Option ℕ) := issue Effect.allocateHandle

def listen : Work Bool := issue Effect.listen

def openDataConnection : Work Bool := issue Effect.openDataConnection

def sendListing (entries : List TransferEntry) : Work Bool := issue (Effect.sendListing entries)

def storing {Result : Type} (operation : Op Result) : Work Result :=
  operation.lift Effect.store fun _ answer => answer

/-! ### Reading -/

def listRaw (keyPrefix : Text) : Work (List Listed) := do
  match ← listObjects keyPrefix with
  | none => return []
  | some objects => return objects.filter (·.key ≠ [])

/-- What lies directly in a directory: objects, and the directories of those further down. -/
def children (keyPrefix : Text) (objects : List Listed) : List TransferEntry :=
  let below := (objects.filter (keyPrefix <+: ·.key)).map fun object =>
    (object, object.key.drop keyPrefix.length)
  let files := below.filter fun entry => entry.2 ≠ [] ∧ '/' ∉ entry.2
  let directories := (below.filter fun entry => '/' ∈ entry.2).map (·.2.takeWhile (· ≠ '/'))
  files.map (fun entry => ⟨entry.2, false, entry.1.size⟩) ++
    (directories.dedup.mergeSort fun first second => first ≤ second).map fun name => ⟨name, true, 0⟩

def list (directory : Text) : Work (List TransferEntry) := do
  let objects ← listRaw (asPrefix directory)
  return children (asPrefix directory) objects

def entryOf (key : Text) (objects : List Listed) : Option TransferEntry :=
  match objects.find? (·.key = key) with
  | some object => some ⟨key, false, object.size⟩
  | none => if objects.any (key ++ ['/'] <+: ·.key) then some ⟨key, true, 0⟩ else none

/-- A key is that of a file, or of a directory if objects lie under it. -/
def stat (key : Text) : Work (Option TransferEntry) :=
  let cleanKey := stripLeadingSlash key
  if cleanKey = [] then return some ⟨['/'], true, 0⟩
  else do
    let objects ← listRaw cleanKey
    return entryOf cleanKey objects

/-- The loop of `downloadInParts`: so many parts from a number on. -/
def downloadParts (downloadId : Text) : ℕ → ℕ → Bytes → Work (Option Bytes)
  | _, 0, written => return some written
  | partNumber, count + 1, written => do
    match ← downloadPart downloadId partNumber with
    | none => return none
    | some body =>
      if ← writeFile then downloadParts downloadId (partNumber + 1) count (written ++ body)
      else return none

def downloadInParts (settings : Settings) (key : Text) : Work (Option Bytes) := do
  match ← createDownload (stripLeadingSlash key) with
  | none => return none
  | some (downloadId, size) =>
    if ← writeFile then
      match ← downloadParts downloadId 1 (chunkCount settings.partSize size.toNat) [] with
      | none => return none
      | some bytes =>
        completeDownload downloadId
        return some bytes
    else return none

/-- `Download`, for what it leaves in the spool file. -/
def download (settings : Settings) (key : Text) : Work (Option Bytes) := do
  match ← getObject (stripLeadingSlash key) with
  | .tooLarge => downloadInParts settings key
  | .failed => return none
  | .body bytes =>
    if ← writeFile then return some bytes
    else return none

/-! ### Changing -/

/-- `Upload` of a file that holds these bytes, if it can be opened. -/
def uploadFile (settings : Settings) (key : Text) (file : Option Bytes) : Work Bool :=
  match file with
  | none => return false
  | some bytes =>
    storing (upload settings (stripLeadingSlash key) (chunks settings.partSize bytes))

/-- The ERN is found in a listing of what begins with the key. -/
def ernOf (key : Text) : Work (Option Text) := do
  match ← listObjects (stripLeadingSlash key) with
  | none => return none
  | some objects => return (objects.find? (·.key = stripLeadingSlash key)).map (·.ern)

/-- An object is removed by its ERN, which has to be found first. -/
def remove (key : Text) : Work Bool := do
  match ← ernOf key with
  | none => return false
  | some ern => deleteObject ern

def makeDirectory (directory : Text) : Work Bool :=
  if asPrefix directory = [] then return false
  else storing (putObject (asPrefix directory) [])

def deleteDirectory (directory : Text) : Work Bool :=
  if asPrefix directory = [] then return false
  else do
    let objects ← listRaw (asPrefix directory)
    if objects.any fun object => object.key ≠ asPrefix directory ∧
      asPrefix directory <+: object.key then
      return false
    else remove (asPrefix directory)

def ensureDirectories (keys : List Text) : Work Unit :=
  forEach keys fun key => do
    match ← stat key with
    | some _ => return ()
    | none =>
      let _ ← makeDirectory key
      return ()

/-- `Rename`. The spool file is named after the source only, so others may have written it. -/
def rename (settings : Settings) (fromKey toKey : Text) : Work Bool := do
  match ← download settings fromKey with
  | none => return false
  | some _ =>
    let file ← readFile
    if ← uploadFile settings toKey file then remove fromKey
    else return false

end Euclid.Transfer
