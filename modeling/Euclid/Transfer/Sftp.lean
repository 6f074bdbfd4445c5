/-
This file translates a session of the SFTP server whose files are in a bucket.

A client that has logged in sends requests, and each is handled before the next. A file that is open
has a spool file of its own: its bytes are kept with the handle. What a handle was opened with, and
which object its spool file was downloaded from, are kept for what is proved about them; nothing
that is done depends on them. The attributes of a file are its kind and its size.
-/

import Euclid.Transfer.Storage

namespace Euclid.Transfer

open Program
open Core (Text)

/-! ### Requests and replies -/

/-- What a transfer server asks permission for. -/
inductive Action where
  | listDirectory
  | getFile
  | putFile
  | deleteFile
  | createDirectory
  | deleteDirectory
  | renameFile
  deriving DecidableEq

/-- `TransferServer`, as far as a session uses it. -/
structure TransferServer where
  settings : Settings
  homeDirectory : Text
  directories : List Text

namespace Sftp

abbrev Flags := BitVec 32

def SSH_FXF_READ : Flags := 0x01
def SSH_FXF_WRITE : Flags := 0x02
def SSH_FXF_CREAT : Flags := 0x08
def SSH_FXF_TRUNC : Flags := 0x10
def SSH_FXF_EXCL : Flags := 0x20

def kMaxReadLength : ℕ := 256 * 1024

def Has (flags flag : Flags) : Prop := flags &&& flag ≠ 0

instance (flags flag : Flags) : Decidable (Has flags flag) := inferInstanceAs (Decidable (_ ≠ _))

/-- A request of a client. A handle is the number that the client sends. -/
inductive Req where
  | realpath (filename : Text)
  | openDir (filename : Text)
  | readDir (handle : ℕ)
  | close (handle : ℕ)
  | openFile (filename : Text) (flags : Flags)
  | read (handle offset length : ℕ)
  | write (handle offset : ℕ) (data : Option Bytes)
  | stat (filename : Text)
  | fstat (handle : ℕ)
  | mkdir (filename : Text)
  | rmdir (filename : Text)
  | remove (filename : Text)
  | rename (oldName newName : Option Text)
  | setstat
  | unsupported

inductive Status where
  | ok
  | eof
  | noSuchFile
  | permissionDenied
  | failure
  | badMessage
  | invalidHandle
  | fileAlreadyExists
  | opUnsupported

inductive Reply where
  | status (status : Status) (msg : String)
  | handle (number : ℕ)
  | name (path : Text)
  | names (entries : List TransferEntry)
  | attributes (entry : TransferEntry)
  | data (bytes : Bytes)

/-! ### Sessions -/

structure Handle where
  isDirectory : Bool
  key : Text
  remoteEntries : List TransferEntry
  nextEntry : ℕ
  spool : Bytes
  dirty : Bool
  flags : Flags
  source : Option Text

structure SftpSession where
  identity : TransferIdentity
  keyPrefix : Text
  handles : ℕ → Option Handle

def SftpSession.login (server : TransferServer) (identity : TransferIdentity) : SftpSession :=
  ⟨identity, homePrefix server.homeDirectory identity.userId, fun _ => none⟩

def SftpSession.set (session : SftpSession) (number : ℕ) (handle : Option Handle) : SftpSession :=
  { session with handles := Function.update session.handles number handle }

variable (server : TransferServer) (allows : TransferIdentity → Action → Bool)

/-- `permitted`: go on if an action is allowed, and refuse otherwise. -/
def permitted (session : SftpSession) (action : Action) (handler : Work (Reply × SftpSession)) :
    Work (Reply × SftpSession) :=
  if allows session.identity action then handler
  else return (.status .permissionDenied "Permission denied", session)

/-- The handle is given to the client, if there is a number left. -/
def keepHandle (session : SftpSession) (handle : Handle) : Work (Reply × SftpSession) := do
  match ← allocateHandle with
  | none => return (.status .failure "Could not allocate handle", session)
  | some number =>
    -- A number in use is not given out twice.
    match session.handles number with
    | some _ => return (.status .failure "Could not allocate handle", session)
    | none => return (.handle number, session.set number (some handle))

def handleRealpath (filename : Text) (session : SftpSession) : Work (Reply × SftpSession) :=
  return (.name (resolve filename), session)

def handleOpenDir (filename : Text) (session : SftpSession) : Work (Reply × SftpSession) :=
  permitted allows session .listDirectory do
    let key := keyOf session.keyPrefix (resolve filename)
    let entries ← list key
    keepHandle session ⟨true, key, entries, 0, [], false, 0, none⟩

def handleReadDir (number : ℕ) (session : SftpSession) : Work (Reply × SftpSession) :=
  match session.handles number with
  | none => return (.status .invalidHandle "Invalid handle", session)
  | some handle =>
    if handle.isDirectory = false then return (.status .invalidHandle "Invalid handle", session)
    else if handle.remoteEntries.length ≤ handle.nextEntry then
      return (.status .eof "End of directory", session)
    else
      return (.names (handle.remoteEntries.drop handle.nextEntry),
        session.set number (some { handle with nextEntry := handle.remoteEntries.length }))

def handleClose (number : ℕ) (session : SftpSession) : Work (Reply × SftpSession) :=
  match session.handles number with
  | none => return (.status .invalidHandle "Invalid handle", session)
  | some handle =>
    if handle.isDirectory = false ∧ handle.dirty then do
      let opened ← writeFile
      if ← uploadFile server.settings handle.key (if opened then some handle.spool else none) then
        return (.status .ok "Closed", session.set number none)
      else return (.status .failure "Could not store object", session.set number none)
    else return (.status .ok "Closed", session.set number none)

/-- The spool file of a handle is opened, and the handle is given out. -/
def openSpool (session : SftpSession) (handle : Handle) : Work (Reply × SftpSession) := do
  if ← writeFile then keepHandle session handle
  else return (.status .failure "Could not open spool file", session)

/-- `handleOpen`, once it is permitted. -/
def openKey (key : Text) (flags : Flags) (session : SftpSession) : Work (Reply × SftpSession) := do
  let existing ← stat key
  if existing.isSome ∧ Has flags SSH_FXF_EXCL then
    return (.status .fileAlreadyExists "File already exists", session)
  if existing.isNone ∧ ¬Has flags SSH_FXF_CREAT then
    return (.status .noSuchFile "No such file", session)
  let dirty := decide (Has flags SSH_FXF_WRITE)
  if existing.isSome ∧ ¬Has flags SSH_FXF_TRUNC then
    match ← download server.settings key with
    | none => return (.status .failure "Could not read object", session)
    | some bytes => openSpool session ⟨false, key, [], 0, bytes, dirty, flags, some key⟩
  else
    if ← writeFile then openSpool session ⟨false, key, [], 0, [], dirty, flags, none⟩
    else return (.status .failure "Could not create spool file", session)

def handleOpen (filename : Text) (flags : Flags) (session : SftpSession) :
    Work (Reply × SftpSession) :=
  let key := keyOf session.keyPrefix (resolve filename)
  if Has flags SSH_FXF_READ ∧ allows session.identity .getFile = false then
    return (.status .permissionDenied "Permission denied", session)
  else if Has flags SSH_FXF_WRITE ∧ allows session.identity .putFile = false then
    return (.status .permissionDenied "Permission denied", session)
  else openKey server key flags session

/-- An offset that is negative for a stream is not found, and nothing is behind the end. -/
def readAt (spool : Bytes) (offset length : ℕ) : Bytes :=
  if offset < 2 ^ 63 then slice spool offset (min length kMaxReadLength) else []

def handleRead (number offset length : ℕ) (session : SftpSession) : Work (Reply × SftpSession) :=
  match session.handles number with
  | none => return (.status .invalidHandle "Invalid handle", session)
  | some handle =>
    if handle.isDirectory then return (.status .invalidHandle "Invalid handle", session)
    else if readAt handle.spool offset length = [] then
      return (.status .eof "End of file", session)
    else do
      let _ ← sendData handle.source (readAt handle.spool offset length)
      return (.data (readAt handle.spool offset length), session)

def handleWrite (number offset : ℕ) (data : Option Bytes) (session : SftpSession) :
    Work (Reply × SftpSession) :=
  match session.handles number with
  | none => return (.status .invalidHandle "Invalid handle", session)
  | some handle =>
    if handle.isDirectory then return (.status .invalidHandle "Invalid handle", session)
    else
      match data with
      | none => return (.status .badMessage "Missing payload", session)
      | some bytes => do
        if (← writeFile) ∧ offset < 2 ^ 63 then
          return (.status .ok "Written",
            session.set number
              (some { handle with dirty := true, spool := overwrite handle.spool offset bytes }))
        else
          return (.status .failure "Write failed",
            session.set number (some { handle with dirty := true }))

/-- `handleStat`, which follows no links in a bucket. -/
def handleStat (filename : Text) (session : SftpSession) : Work (Reply × SftpSession) :=
  permitted allows session .listDirectory do
    match ← stat (keyOf session.keyPrefix (resolve filename)) with
    | none => return (.status .noSuchFile "No such file", session)
    | some entry => return (.attributes entry, session)

def handleFstat (number : ℕ) (session : SftpSession) : Work (Reply × SftpSession) :=
  match session.handles number with
  | none => return (.status .invalidHandle "Invalid handle", session)
  | some handle =>
    return (.attributes ⟨handle.key, handle.isDirectory, handle.spool.length⟩, session)

section

variable (filename : Text) (session : SftpSession)

def handleMkdir : Work (Reply × SftpSession) :=
  permitted allows session .createDirectory do
    if ← makeDirectory (keyOf session.keyPrefix (resolve filename)) then
      return (.status .ok "Created", session)
    else return (.status .failure "Could not create directory", session)

def handleRmdir : Work (Reply × SftpSession) :=
  permitted allows session .deleteDirectory do
    if ← deleteDirectory (keyOf session.keyPrefix (resolve filename)) then
      return (.status .ok "Removed", session)
    else return (.status .failure "Could not remove directory", session)

def handleRemove : Work (Reply × SftpSession) :=
  permitted allows session .deleteFile do
    if ← remove (keyOf session.keyPrefix (resolve filename)) then
      return (.status .ok "Removed", session)
    else return (.status .noSuchFile "Could not remove file", session)

end

def handleRename (oldName newName : Option Text) (session : SftpSession) :
    Work (Reply × SftpSession) :=
  permitted allows session .renameFile do
    match oldName, newName with
    | some oldName, some newName =>
      if ← rename server.settings (keyOf session.keyPrefix (resolve oldName))
          (keyOf session.keyPrefix (resolve newName)) then
        return (.status .ok "Renamed", session)
      else return (.status .failure "Could not rename", session)
    | _, _ => return (.status .badMessage "Missing path", session)

def handleSetstat (session : SftpSession) : Work (Reply × SftpSession) :=
  permitted allows session .putFile (return (.status .ok "Applied", session))

/-- `messageLoop`, for one message. -/
def handle : Req → SftpSession → Work (Reply × SftpSession)
  | .realpath filename => handleRealpath filename
  | .openDir filename => handleOpenDir allows filename
  | .readDir number => handleReadDir number
  | .close number => handleClose server number
  | .openFile filename flags => handleOpen server allows filename flags
  | .read number offset length => handleRead number offset length
  | .write number offset data => handleWrite number offset data
  | .stat filename => handleStat allows filename
  | .fstat number => handleFstat number
  | .mkdir filename => handleMkdir allows filename
  | .rmdir filename => handleRmdir allows filename
  | .remove filename => handleRemove allows filename
  | .rename oldName newName => handleRename server allows oldName newName
  | .setstat => handleSetstat allows
  | .unsupported => fun session =>
    return (.status .opUnsupported "Operation not supported", session)

end Sftp

end Euclid.Transfer
