/-
This file translates a session of the FTP server whose files are in a bucket.

A request is a line that was split into a verb and an argument. What a client sends over a data
connection comes with the request, and whether the connection then broke off. Left out are how the
argument of `PORT` is read, the address in the reply to `PASV`, and how the lines of a listing are
written.
-/

import Euclid.Transfer.Sftp

namespace Euclid.Transfer.Ftp

open Program
open Core (Text split)

/-! ### Sessions -/

inductive Req where
  | user (name : Text)
  | pass (password : Text)
  | quit
  | noop
  | syst
  | feat
  | type (mode : Text)
  | pwd
  | cwd (path : Text)
  | cdup
  | pasv
  | port (wellFormed : Bool)
  | mkd (path : Text)
  | rmd (path : Text)
  | list (path : Text)
  | retr (path : Text)
  | stor (path : Text) (pieces : List Bytes) (broken : Bool)
  | dele (path : Text)
  | size (path : Text)
  | mdtm (path : Text)
  | unknown

structure Reply where
  code : ℕ
  message : String

structure FtpSession where
  pendingUser : Text
  authenticated : Bool
  identity : Option TransferIdentity
  keyPrefix : Text
  cwd : Text
  binaryType : Bool
  pasvAcceptor : Bool
  portTarget : Bool
  quitRequested : Bool

def FtpSession.connected : FtpSession := ⟨[], false, none, [], ['/'], true, false, false, false⟩

abbrev Handling := Work (List Reply × FtpSession)

variable (server : TransferServer) (allows : TransferIdentity → Action → Bool)

/-- Answer with one reply and leave the session as it is. -/
def reply (session : FtpSession) (code : ℕ) (msg : String) : Handling :=
  return ([⟨code, msg⟩], session)

/-- `permitted`: go on if an action is allowed, and refuse otherwise. -/
def permitted (session : FtpSession) (action : Action) (handler : Handling) : Handling :=
  match session.identity with
  | none => reply session 530 "Not logged in"
  | some identity =>
    if allows identity action then handler else reply session 550 "Permission denied"

/-! ### Commands -/

def trim (text : Text) : Text :=
  let isBlank (character : Char) : Bool := character ∈ [' ', '\t', '\r', '\n']
  (text.dropWhile isBlank).rdropWhile isBlank

def cmdUser (name : Text) (session : FtpSession) : Handling :=
  reply { session with pendingUser := name, authenticated := false } 331
    ("Password required for " ++ String.ofList name)

def FtpSession.login (session : FtpSession) (identity : TransferIdentity) : FtpSession :=
  { session with
    identity := some identity
    keyPrefix := homePrefix server.homeDirectory identity.userId
    cwd := ['/']
    authenticated := true
    pendingUser := [] }

def cmdPass (password : Text) (session : FtpSession) : Handling :=
  if session.pendingUser = [] then reply session 503 "Login with USER first"
  else do
    match ← authenticate session.pendingUser password with
    | none => reply { session with pendingUser := [] } 530 "Login incorrect"
    | some identity =>
      let session := session.login server identity
      ensureDirectories (homeDirectoryKeys session.keyPrefix server.directories)
      reply session 230 "Login successful"

def cmdType (mode : Text) (session : FtpSession) : Handling :=
  if (trim mode).map Char.toUpper = ['A'] then
    reply { session with binaryType := false } 200 "Type set to A"
  else if (trim mode).map Char.toUpper = ['I'] then
    reply { session with binaryType := true } 200 "Type set to I"
  else reply session 504 "Type not supported"

section

variable (path : Text) (session : FtpSession)

def cmdCwd : Handling :=
  permitted allows session .listDirectory do
    let virtualPath := resolveIn session.cwd path
    let entry ← stat (keyOf session.keyPrefix virtualPath)
    if virtualPath ≠ ['/'] ∧ entry.all (·.isDirectory = false) then
      reply session 550 "No such directory"
    else
      reply { session with cwd := virtualPath } 250
        ("Directory changed to " ++ String.ofList virtualPath)

def cmdMkd : Handling :=
  permitted allows session .createDirectory do
    if path = [] then reply session 501 "Syntax error in parameters"
    else if ← makeDirectory (keyOf session.keyPrefix (resolveIn session.cwd path)) then
      reply session 257
        ("\"" ++ String.ofList (resolveIn session.cwd path) ++ "\" directory created")
    else reply session 550 "Could not create directory"

def cmdRmd : Handling :=
  permitted allows session .deleteDirectory do
    if path = [] then reply session 501 "Syntax error in parameters"
    else if ← deleteDirectory (keyOf session.keyPrefix (resolveIn session.cwd path)) then
      reply session 250 "Directory removed"
    else reply session 550 "Could not remove directory"

end

def cmdPasv (session : FtpSession) : Handling := do
  if ← listen then
    reply { session with pasvAcceptor := true, portTarget := false } 227 "Entering Passive Mode"
  else
    reply { session with pasvAcceptor := false, portTarget := false } 425
      "Cannot open passive data connection - no free port in configured range"

def cmdPort (wellFormed : Bool) (session : FtpSession) : Handling :=
  if wellFormed then
    reply { session with pasvAcceptor := false, portTarget := true } 200 "PORT command successful"
  else
    reply { session with pasvAcceptor := false, portTarget := false } 501
      "Syntax error in PORT command"

/-- `openDataConnection`: go on with it, after what was replied already, or say why there is
none. -/
def withDataConnection (session : FtpSession) (before : Reply)
    (handler : FtpSession → Handling) : Handling := do
  if session.pasvAcceptor then
    let session := { session with pasvAcceptor := false }
    if ← openDataConnection then
      let (replies, session) ← handler session
      return (before :: replies, session)
    else return ([before, ⟨425, "Failed to establish passive data connection"⟩], session)
  else if session.portTarget then
    let session := { session with portTarget := false }
    if ← openDataConnection then
      let (replies, session) ← handler session
      return (before :: replies, session)
    else return ([before, ⟨425, "Failed to establish active data connection"⟩], session)
  else return ([before, ⟨425, "Use PASV or PORT first"⟩], session)

def cmdList (path : Text) (session : FtpSession) : Handling :=
  permitted allows session .listDirectory
    (withDataConnection session ⟨150, "Opening data connection for directory listing"⟩
      fun session => do
      let entries ← list (keyOf session.keyPrefix (resolveIn session.cwd path))
      let _ ← sendListing entries
      reply session 226 "Transfer complete")

/-- The loop of `cmdRetr`: pieces of the file are read and sent, until one is not taken, or cannot
be read. -/
def sendPieces (source : Option Text) : List Bytes → Work Bool
  | [] => return true
  | piece :: rest => do
    if (← readFile).isNone then return false
    else if ← sendData source piece then sendPieces source rest
    else return true

/-- The reply that names the file and its size. -/
def opening (path : Text) (size : ℕ) : Reply :=
  ⟨150, "Opening BINARY mode data connection for " ++
    String.ofList ((split '/' path).getLastD []) ++ " (" ++ toString size ++ " bytes)"⟩

def cmdRetr (path : Text) (session : FtpSession) : Handling :=
  permitted allows session .getFile do
    let path := resolveIn session.cwd path
    let key := keyOf session.keyPrefix path
    match ← download server.settings key with
    | none => reply session 550 "File not found"
    | some bytes =>
      if ← writeFile then
        withDataConnection session (opening path bytes.length) fun session => do
          if ← sendPieces (some key) (chunks 65536 bytes) then
            reply session 226 "Transfer complete"
          else reply session 451 "Local error reading file"
      else reply session 550 "Could not open file"

/-- The loop of `cmdStor`: what arrives is written, until that fails. -/
def receive (settings : Settings) : List Bytes → UploadStream → Op (Bool × UploadStream)
  | [], stream => return (true, stream)
  | data :: rest, stream => do
    match ← write settings data stream with
    | (false, stream) => return (false, stream)
    | (true, stream) => receive settings rest stream

/-- What `cmdStor` stores. -/
def store (settings : Settings) (key : Text) (pieces : List Bytes) (broken : Bool) :
    Op (Option Bool) := do
  match ← receive settings pieces (beginUpload (stripLeadingSlash key)) with
  | (false, _) => return some false
  | (true, stream) =>
    if broken then return none
    else return some (← finish stream)

def cmdStor (path : Text) (pieces : List Bytes) (broken : Bool) (session : FtpSession) : Handling :=
  permitted allows session .putFile
    (withDataConnection session ⟨150, "Ok to send data"⟩ fun session => do
      match ← storing (store server.settings (keyOf session.keyPrefix (resolveIn session.cwd path))
        pieces broken) with
      | none => reply session 426 "Connection closed; transfer aborted"
      | some false => reply session 552 "Could not store file"
      | some true => reply session 226 "Transfer complete")

def cmdDele (path : Text) (session : FtpSession) : Handling :=
  permitted allows session .deleteFile do
    if ← remove (keyOf session.keyPrefix (resolveIn session.cwd path)) then
      reply session 250 "Delete successful"
    else reply session 550 "File not found"

/-- `cmdSize`, which looks for a local file. -/
def cmdSize (session : FtpSession) : Handling :=
  permitted allows session .listDirectory do
    match ← statFile with
    | none => reply session 550 "Could not get file size"
    | some (size, _) => reply session 213 (toString size)

/-- `cmdMdtm`, which looks for a local file. -/
def cmdMdtm (session : FtpSession) : Handling :=
  permitted allows session .listDirectory do
    match ← statFile with
    | none => reply session 550 "Could not get modification time"
    | some (_, time) => reply session 213 (String.ofList time)

/-- The commands that need a login. -/
def handleAuthenticated : Req → FtpSession → Handling
  | .type mode => cmdType mode
  | .pwd => fun session =>
    reply session 257 ("\"" ++ String.ofList session.cwd ++ "\" is the current directory")
  | .cwd path => cmdCwd allows path
  | .cdup => cmdCwd allows ['.', '.']
  | .pasv => cmdPasv
  | .port wellFormed => cmdPort wellFormed
  | .mkd path => cmdMkd allows path
  | .rmd path => cmdRmd allows path
  | .list path => cmdList allows path
  | .retr path => cmdRetr server allows path
  | .stor path pieces broken => cmdStor server allows path pieces broken
  | .dele path => cmdDele allows path
  | .size _ => cmdSize allows
  | .mdtm _ => cmdMdtm allows
  | _ => fun session => reply session 500 "Unknown command"

/-- `handleCommand`, until a client has quit. -/
def handle (req : Req) (session : FtpSession) : Handling :=
  if session.quitRequested then return ([], session)
  else
    match req with
    | .user name => cmdUser name session
    | .pass password => cmdPass server password session
    | .quit => reply { session with quitRequested := true } 221 "Goodbye"
    | .noop => reply session 200 "NOOP ok"
    | .syst => reply session 215 "UNIX Type: L8"
    | .feat => reply session 211 "Features:\n PASV\n SIZE\n MDTM\nEnd"
    | _ =>
      if session.authenticated then handleAuthenticated server allows req session
      else reply session 530 "Not logged in"

end Euclid.Transfer.Ftp
