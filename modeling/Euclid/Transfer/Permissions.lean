/-
This file proves what a session of a transfer server may do to a bucket.

A rule says it of one effect: under the home of the session, and with the right that the request
needs. For the operations on the bucket it follows from the keys they are given. A handle of SFTP is
checked when it is opened, and what it was opened for decides what may be done with it; so the rule
holds as long as a client reads and writes only through handles that it has opened for that. FTP
checks every command.
-/

import Euclid.Transfer.Ftp

namespace Euclid.Transfer

open Program Sftp SftpSession
open Core (Text)

/-! ### The rule -/

/-- What a request may do: send bytes of stored objects, store objects, and remove them. -/
structure Rights where
  mayRead : Prop
  mayStore : Prop
  mayRemove : Prop

/-- What was done, and what came of it. -/
abbrev Deeds := Program.History Effect Effect.Answer

/-- Some object that was listed has this ERN and a key below the home. -/
def WasListed (home : Text) (hist : Deeds) (ern : Text) : Prop :=
  ∃ (keyPrefix : Text) (objects : List Listed), ⟨.listObjects keyPrefix, some objects⟩ ∈ hist ∧
    ∃ object ∈ objects, object.ern = ern ∧ home <+: object.key

/-- What an effect needs. A key that ends in a slash is that of a directory. Nobody logs in. -/
def Permitted (home : Text) (rights : Rights) (hist : Deeds) : Effect → Prop
  | .store (.putObject key _) => home <+: key ∧ (key.getLast? = some '/' ∨ rights.mayStore)
  | .store (.createUpload key) => home <+: key ∧ rights.mayStore
  | .store (.completeUpload _) => rights.mayStore
  | .getObject key => home <+: key
  | .createDownload key => home <+: key
  | .listObjects keyPrefix => home <+: keyPrefix
  | .deleteObject ern => rights.mayRemove ∧ WasListed home hist ern
  | .sendData (some key) _ => home <+: key ∧ rights.mayRead
  | .authenticate _ _ => False
  | _ => True

/-- An effect may be had whatever was answered before. -/
def Always (home : Text) (rights : Rights) (effect : Effect) : Prop :=
  ∀ hist, Permitted home rights hist effect

/-! ### Storing -/

def StoresOnly (key : Text) : Call → Prop
  | .createUpload other => other = key
  | .putObject other _ => other = key
  | _ => True

/-- A step of a stream stores no other object, and leaves the stream with its key. -/
def Streaming (key : Text) (step : Op (Bool × UploadStream)) : Prop :=
  ∀ hist, step.Guarantees (fun _ call => StoresOnly key call)
    (fun _ result => result.2.key = key) hist

theorem streaming_sendNumbered (size : ℕ) (stream : UploadStream) :
    Streaming stream.key (sendNumbered size stream) := by
  refine fun hist => ⟨trivial, fun succeeded => ?_⟩
  change Bool at succeeded
  cases succeeded with
  | true => exact rfl
  | false => exact rfl

theorem streaming_sendPart (size : ℕ) (stream : UploadStream) :
    Streaming stream.key (sendPart size stream) := by
  intro hist
  unfold sendPart
  split
  · refine ⟨rfl, fun created => ?_⟩
    change Option UploadId at created
    cases created with
    | none => exact rfl
    | some uploadId => exact streaming_sendNumbered size { stream with uploadId := uploadId.1 } _
  · exact streaming_sendNumbered size stream hist

theorem streaming_sendFullParts (settings : Settings) (fuel : ℕ) (stream : UploadStream) :
    Streaming stream.key (sendFullParts settings fuel stream) := by
  induction fuel generalizing stream with
  | zero => exact fun _ => rfl
  | succ fuel ih =>
    intro hist
    unfold sendFullParts
    split
    · refine (streaming_sendPart settings.partSize stream hist).bind fun after result same => ?_
      obtain ⟨succeeded, next⟩ := result
      replace same : next.key = stream.key := same
      cases succeeded with
      | true =>
        rw [← same]
        exact ih next after
      | false => exact same
    · exact rfl

theorem streaming_write (settings : Settings) (data : Bytes) (stream : UploadStream) :
    Streaming stream.key (write settings data stream) := by
  intro hist
  unfold write
  split
  · exact rfl
  · dsimp only
    split
    · exact rfl
    · exact streaming_sendFullParts settings _ { stream with buffer := stream.buffer ++ data } hist

theorem asks_finish (stream : UploadStream) : (finish stream).Asks (StoresOnly stream.key) := by
  unfold finish
  split
  · trivial
  · dsimp only
    split
    · exact ⟨rfl, fun _ => trivial⟩
    · split
      · have sends : (sendPart stream.buffer.length { stream with finished := true }).Asks
            (StoresOnly stream.key) :=
          (streaming_sendPart _ { stream with finished := true } []).asks
        refine sends.bind fun result => ?_
        obtain ⟨succeeded, next⟩ := result
        cases succeeded with
        | true => exact ⟨trivial, fun _ => trivial⟩
        | false => trivial
      · exact ⟨trivial, fun _ => trivial⟩

theorem asks_writeAll (settings : Settings) (pieces : List Bytes) (stream : UploadStream) :
    (writeAll settings pieces stream).Asks (StoresOnly stream.key) := by
  have all (hist : Log) : (writeAll settings pieces stream).Guarantees
      (fun _ call => StoresOnly stream.key call) (fun _ _ => True) hist := by
    induction pieces generalizing stream hist with
    | nil => exact (asks_finish stream).guarantees fun _ _ only => only
    | cons data rest ih =>
      refine (streaming_write settings data stream hist).bind fun after result same => ?_
      obtain ⟨succeeded, next⟩ := result
      replace same : next.key = stream.key := same
      cases succeeded with
      | true =>
        rw [← same]
        exact ih next after
      | false => trivial
  exact (all []).asks

theorem asks_store (settings : Settings) (key : Text) (pieces : List Bytes) (broken : Bool) :
    (Ftp.store settings key pieces broken).Asks (StoresOnly (stripLeadingSlash key)) := by
  have receives (pieces : List Bytes) (stream : UploadStream) :
      Streaming stream.key (Ftp.receive settings pieces stream) := by
    intro hist
    induction pieces generalizing stream hist with
    | nil => exact rfl
    | cons data rest ih =>
      refine (streaming_write settings data stream hist).bind fun after result same => ?_
      obtain ⟨succeeded, next⟩ := result
      replace same : next.key = stream.key := same
      cases succeeded with
      | true =>
        rw [← same]
        exact ih next after
      | false => exact same
  suffices stores : (Ftp.store settings key pieces broken).Guarantees
      (fun _ req => StoresOnly (stripLeadingSlash key) req) (fun _ _ => True) [] from
    stores.asks
  refine (receives pieces (beginUpload (stripLeadingSlash key)) []).bind fun after result same => ?_
  obtain ⟨succeeded, next⟩ := result
  replace same : next.key = stripLeadingSlash key := same
  cases succeeded with
  | false => trivial
  | true =>
    dsimp only
    split
    · trivial
    · refine Guarantees.bind ((asks_finish next).guarantees fun _ _ only => same ▸ only)
        fun _ _ _ => trivial

/-! ### The operations on a bucket -/

section Operations

variable {home : Text} {rights : Rights} {settings : Settings} {key : Text}

theorem asks_storing {Result : Type} {operation : Op Result}
    (asks : operation.Asks (StoresOnly key)) (below : home <+: key) (mayStore : rights.mayStore) :
    (storing operation).Asks (Always home rights) := by
  refine asks.lift fun call only hist => ?_
  cases call with
  | createUpload other =>
    replace only : other = key := only
    exact ⟨only ▸ below, mayStore⟩
  | uploadPart uploadId partNumber body => exact trivial
  | completeUpload uploadId => exact mayStore
  | abortUpload uploadId => exact trivial
  | putObject other body =>
    replace only : other = key := only
    exact ⟨only ▸ below, .inr mayStore⟩

theorem asks_listRaw {keyPrefix : Text} (below : home <+: keyPrefix) :
    (listRaw keyPrefix).Asks (Always home rights) := by
  refine ⟨fun _ => below, fun answer => ?_⟩
  change Option (List Listed) at answer
  cases answer with
  | none => trivial
  | some objects => trivial

variable (isHome : IsHome home) (below : home <+: key)

include below isHome

theorem asks_list : (list key).Asks (Always home rights) :=
  (asks_listRaw (isHome.asPrefix below)).bind fun _ => trivial

theorem asks_stat : (stat key).Asks (Always home rights) := by
  unfold stat
  dsimp only
  split
  · trivial
  · exact (asks_listRaw (isHome.stripLeadingSlash below)).bind fun _ => trivial

omit below isHome

theorem asks_writeFile : writeFile.Asks (Always home rights) := ⟨fun _ => trivial, fun _ => trivial⟩

theorem asks_downloadParts (downloadId : Text) (partNumber count : ℕ) (written : Bytes) :
    (downloadParts downloadId partNumber count written).Asks (Always home rights) := by
  induction count generalizing partNumber written with
  | zero => trivial
  | succ count ih =>
    refine ⟨fun _ => trivial, fun answer => ?_⟩
    change Option Bytes at answer
    cases answer with
    | none => trivial
    | some body =>
      refine asks_writeFile.bind fun succeeded => ?_
      split
      · exact ih _ _
      · trivial

include below isHome

theorem asks_download : (download settings key).Asks (Always home rights) := by
  have clean := isHome.stripLeadingSlash below
  refine ⟨fun _ => clean, fun answer => ?_⟩
  change Got at answer
  cases answer with
  | failed => trivial
  | body bytes =>
    refine asks_writeFile.bind fun succeeded => ?_
    split
    · trivial
    · trivial
  | tooLarge =>
    refine ⟨fun _ => clean, fun answer => ?_⟩
    change Option (Text × Int) at answer
    cases answer with
    | none => trivial
    | some created =>
      refine asks_writeFile.bind fun succeeded => ?_
      split
      · refine (asks_downloadParts _ _ _ _).bind fun written => ?_
        cases written with
        | none => trivial
        | some bytes => exact ⟨fun _ => trivial, fun _ => trivial⟩
      · trivial

theorem asks_uploadFile (mayStore : rights.mayStore) (file : Option Bytes) :
    (uploadFile settings key file).Asks (Always home rights) := by
  cases file with
  | none => trivial
  | some bytes =>
    exact asks_storing (asks_writeAll _ _ _) (isHome.stripLeadingSlash below) mayStore

theorem asks_makeDirectory : (makeDirectory key).Asks (Always home rights) := by
  unfold makeDirectory
  split
  · trivial
  case isFalse named =>
    refine ⟨fun _ => ⟨isHome.asPrefix below, .inl ?_⟩, fun _ => trivial⟩
    unfold asPrefix at named ⊢
    dsimp only at named ⊢
    split at named
    · exact absurd rfl named
    case isFalse some =>
      rw [if_neg some]
      exact List.getLast?_concat

omit below isHome

include isHome in
theorem asks_ensureDirectories {keys : List Text} (below : ∀ key ∈ keys, home <+: key) :
    (ensureDirectories keys).Asks (Always home rights) := by
  refine Asks.forEach fun key mem => ?_
  refine (asks_stat isHome (below key mem)).bind fun entry => ?_
  cases entry with
  | some entry => trivial
  | none => exact (asks_makeDirectory isHome (below key mem)).bind fun _ => trivial

include below isHome

theorem guarantees_ernOf (mayRemove : rights.mayRemove) (hist : Deeds) :
    (ernOf key).Guarantees (Permitted home rights) (fun after found =>
      ∀ ern ∈ found, Permitted home rights after (.deleteObject ern)) hist := by
  have clean := isHome.stripLeadingSlash below
  refine ⟨clean, fun answer => ?_⟩
  change Option (List Listed) at answer
  cases answer with
  | none => exact fun _ mem => absurd mem (Option.not_mem_none _)
  | some objects =>
    intro ern asked
    obtain ⟨object, found, rfl⟩ := Option.map_eq_some_iff.mp asked
    have same : object.key = stripLeadingSlash key := by simpa using List.find?_some found
    exact ⟨mayRemove, stripLeadingSlash key, objects, List.mem_append_right _ (.head _), object,
      List.mem_of_find?_eq_some found, rfl, same ▸ clean⟩

theorem guarantees_remove (mayRemove : rights.mayRemove) (hist : Deeds) :
    (remove key).Guarantees (Permitted home rights) (fun _ _ => True) hist := by
  refine (guarantees_ernOf isHome below mayRemove hist).bind fun after found allowed => ?_
  cases found with
  | none => trivial
  | some ern => exact ⟨allowed ern rfl, fun _ => trivial⟩

theorem guarantees_deleteDirectory (mayRemove : rights.mayRemove) (hist : Deeds) :
    (deleteDirectory key).Guarantees (Permitted home rights) (fun _ _ => True) hist := by
  unfold deleteDirectory
  split
  · trivial
  · refine Guarantees.bind ((asks_listRaw (isHome.asPrefix below)).guarantees fun hist _ may =>
      may hist) fun after objects _ => ?_
    split
    · trivial
    · exact guarantees_remove isHome (isHome.asPrefix below) mayRemove after

theorem guarantees_rename {toKey : Text} (belowToo : home <+: toKey)
    (mayStore : rights.mayStore) (mayRemove : rights.mayRemove) (hist : Deeds) :
    (rename settings key toKey).Guarantees (Permitted home rights) (fun _ _ => True) hist := by
  refine Guarantees.bind ((asks_download isHome below).guarantees fun hist _ may => may hist)
    fun after file _ => ?_
  cases file with
  | none => trivial
  | some bytes =>
    refine ⟨trivial, fun file => ?_⟩
    have uploads : (uploadFile settings toKey file).Guarantees (Permitted home rights)
        (fun _ _ => True) (after ++ [⟨.readFile, file⟩]) :=
      (asks_uploadFile isHome belowToo mayStore file).guarantees fun hist _ may => may hist
    refine uploads.bind fun after uploaded _ => ?_
    split
    · exact guarantees_remove isHome below mayRemove after
    · trivial

end Operations

/-! ### A session of SFTP -/

namespace Sftp

variable (may : Action → Bool) (home : Text)

/-- What a request may do, if its user may do some actions. -/
def rightsOf : Req → Rights
  | .rename _ _ => ⟨may .getFile, may .putFile ∨ may .renameFile, may .renameFile⟩
  | .remove _ => ⟨may .getFile, may .putFile, may .deleteFile⟩
  | .rmdir _ => ⟨may .getFile, may .putFile, may .deleteDirectory⟩
  | _ => ⟨may .getFile, may .putFile, False⟩

/-- A handle is of a key below the home, and what it was opened for is allowed. -/
structure Kept (handle : Handle) : Prop where
  below : home <+: handle.key
  source : ∀ key, handle.source = some key → home <+: key
  dirty : handle.dirty → may .putFile
  readable : Has handle.flags SSH_FXF_READ → may .getFile
  writable : Has handle.flags SSH_FXF_WRITE → may .putFile

/-- The session of a user, with handles that are kept. -/
structure Sound (identity : TransferIdentity) (session : SftpSession) : Prop where
  identity : session.identity = identity
  keyPrefix : session.keyPrefix = home
  handles : ∀ number handle, session.handles number = some handle → Kept may home handle

/-- The client reads a stored object only through a handle that it has opened for reading, and
writes only through one that it has opened for writing, unless it may read and write anyway. -/
def Disciplined (session : SftpSession) : Req → Prop
  | .read number _ _ => ∀ handle, session.handles number = some handle → handle.source.isSome →
      Has handle.flags SSH_FXF_READ ∨ may .getFile
  | .write number _ _ => ∀ handle, session.handles number = some handle →
      handle.isDirectory = false → Has handle.flags SSH_FXF_WRITE ∨ may .putFile
  | _ => True

variable {may home} {identity : TransferIdentity} {session : SftpSession}
  (sound : Sound may home identity session)

include sound in
theorem Sound.set {number : ℕ} {handle : Option Handle}
    (kept : ∀ some ∈ handle, Kept may home some) :
    Sound may home identity (session.set number handle) := by
  refine ⟨sound.identity, sound.keyPrefix, fun other some found => ?_⟩
  replace found : Function.update session.handles number handle other = Option.some some := found
  by_cases same : other = number
  · subst same
    rw [Function.update_self] at found
    exact kept some found
  · rw [Function.update_of_ne same] at found
    exact sound.handles other some found

include sound in
theorem Sound.keep {number : ℕ} {handle : Handle}
    (kept : Kept may home handle) : Sound may home identity (session.set number (some handle)) :=
  sound.set fun _ same => Option.some.inj same ▸ kept

/-- What is done for a request goes by the rule and leaves a session sound. -/
def Serves (may : Action → Bool) (home : Text) (identity : TransferIdentity) (rights : Rights)
    (handling : Work (Reply × SftpSession)) : Prop :=
  ∀ hist,
    handling.Guarantees (Permitted home rights) (fun _ result => Sound may home identity result.2)
    hist

variable {rights : Rights} {allows : TransferIdentity → Action → Bool} {server : TransferServer}

theorem Serves.bind {Result : Type} {program : Work Result}
    {continuation : Result → Work (Reply × SftpSession)} (asks : program.Asks (Always home rights))
    (serves : ∀ result, Serves may home identity rights (continuation result)) :
    Serves may home identity rights (program >>= continuation) :=
  fun _ => (asks.guarantees fun hist _ may => may hist).bind fun after result _ =>
    serves result after

include sound in
theorem serves_done (reply : Reply) : Serves may home identity rights (.done (reply, session)) :=
  fun _ => sound

theorem serves_permitted (sound : Sound (allows identity) home identity session) {action : Action}
    {handler : Work (Reply × SftpSession)}
    (serves : allows identity action → Serves (allows identity) home identity rights handler) :
    Serves (allows identity) home identity rights (permitted allows session action handler) := by
  unfold permitted
  rw [sound.identity]
  split
  · exact serves ‹_›
  · exact serves_done sound _

include sound in
theorem serves_keepHandle {handle : Handle} (kept : Kept may home handle) :
    Serves may home identity rights (keepHandle session handle) := by
  unfold keepHandle
  refine Serves.bind ⟨fun _ => trivial, fun _ => trivial⟩ fun answer => ?_
  cases answer with
  | none => exact fun _ => sound
  | some number =>
    dsimp only
    split
    · exact fun _ => sound
    · exact fun _ => sound.keep kept

include sound in
theorem serves_openSpool {handle : Handle} (kept : Kept may home handle) :
    Serves may home identity rights (openSpool session handle) := by
  refine Serves.bind asks_writeFile fun succeeded => ?_
  split
  · exact serves_keepHandle sound kept
  · exact serves_done sound _

theorem serves_openKey (isHome : IsHome home) (sound : Sound may home identity session) {key : Text}
    (below : home <+: key) {flags : Flags} (readable : Has flags SSH_FXF_READ → may .getFile)
    (writable : Has flags SSH_FXF_WRITE → may .putFile) :
    Serves may home identity rights (openKey server key flags session) := by
  refine Serves.bind (asks_stat isHome below) fun existing => ?_
  split
  · exact serves_done sound _
  split
  · exact serves_done sound _
  split
  · refine Serves.bind (asks_download isHome below) fun file => ?_
    cases file with
    | none => exact serves_done sound _
    | some bytes =>
      exact serves_openSpool sound ⟨below, fun key same => Option.some.inj same ▸ below,
        fun dirty => writable (of_decide_eq_true dirty), readable, writable⟩
  · refine Serves.bind asks_writeFile fun succeeded => ?_
    split
    · exact serves_openSpool sound ⟨below, fun key same => (nomatch same),
        fun dirty => writable (of_decide_eq_true dirty), readable, writable⟩
    · exact serves_done sound _

section Handlers

variable (holds : Sound (allows identity) home identity session)

include holds

theorem Sound.below (path : Text) : home <+: keyOf session.keyPrefix path :=
  holds.keyPrefix ▸ prefix_keyOf _ _

theorem serves_handleReadDir (number : ℕ) :
    Serves (allows identity) home identity rights (handleReadDir number session) := by
  unfold handleReadDir
  split
  · exact serves_done holds _
  case _ handle found =>
    split
    · exact serves_done holds _
    · split
      · exact serves_done holds _
      · have kept := holds.handles number handle found
        refine serves_done (holds.keep ?_) _
        exact ⟨kept.below, kept.source, kept.dirty, kept.readable, kept.writable⟩

/-- A client that reads through a handle has opened it for that. -/
theorem serves_handleRead {number offset length : ℕ}
    (disciplined : Disciplined (allows identity) session (.read number offset length)) :
    Serves (allows identity) home identity (rightsOf (allows identity) (.read number offset length))
      (handleRead number offset length session) := by
  unfold handleRead
  split
  · exact serves_done holds _
  case _ handle found =>
    have kept := holds.handles number handle found
    split
    · exact serves_done holds _
    · split
      · exact serves_done holds _
      · refine Serves.bind ⟨fun hist => ?_, fun _ => trivial⟩ fun _ => serves_done holds _
        cases origin : handle.source with
        | none => exact trivial
        | some key =>
          refine ⟨kept.source key origin, ?_⟩
          exact (disciplined handle found (by rw [origin]; rfl)).elim kept.readable id

/-- A client that writes through a handle has opened it for that. -/
theorem serves_handleWrite {number offset : ℕ} {data : Option Bytes}
    (disciplined : Disciplined (allows identity) session (.write number offset data)) :
    Serves (allows identity) home identity rights (handleWrite number offset data session) := by
  unfold handleWrite
  split
  · exact serves_done holds _
  case _ handle found =>
    have kept := holds.handles number handle found
    split
    · exact serves_done holds _
    case isFalse file =>
      have mayPut := (disciplined handle found (Bool.eq_false_of_not_eq_true file)).elim
        kept.writable id
      split
      · exact serves_done holds _
      · refine Serves.bind asks_writeFile fun succeeded => ?_
        split
        · refine serves_done (holds.keep ?_) _
          exact ⟨kept.below, kept.source, fun _ => mayPut, kept.readable, kept.writable⟩
        · refine serves_done (holds.keep ?_) _
          exact ⟨kept.below, kept.source, fun _ => mayPut, kept.readable, kept.writable⟩

variable (isHome : IsHome home)

include isHome

theorem serves_handleOpenDir (filename : Text) :
    Serves (allows identity) home identity rights
      (handleOpenDir allows filename session) := by
  refine serves_permitted holds fun _ =>
    Serves.bind (asks_list isHome (holds.below _)) fun entries => ?_
  have unread : ¬Has 0 SSH_FXF_READ := by decide
  have unwritten : ¬Has 0 SSH_FXF_WRITE := by decide
  exact serves_keepHandle holds ⟨holds.below _, fun _ same => (nomatch same), fun dirty =>
    (nomatch dirty),
    fun has => absurd has unread, fun has => absurd has unwritten⟩

/-- What was written through a handle is uploaded when it is closed. -/
theorem serves_handleClose (number : ℕ) :
    Serves (allows identity) home identity (rightsOf (allows identity) (.close number))
      (handleClose server number session) := by
  unfold handleClose
  have closed : Sound (allows identity) home identity (session.set number none) :=
    holds.set fun _ same => (nomatch same)
  split
  · exact serves_done holds _
  case _ handle found =>
    have kept := holds.handles number handle found
    split
    case isTrue file =>
      refine Serves.bind asks_writeFile fun opened => ?_
      refine Serves.bind (asks_uploadFile isHome kept.below (kept.dirty file.2) _)
        fun uploaded => ?_
      split
      · exact serves_done closed _
      · exact serves_done closed _
    · exact serves_done closed _

theorem serves_handleOpen (filename : Text) (flags : Flags) :
    Serves (allows identity) home identity rights
      (handleOpen server allows filename flags session) := by
  unfold handleOpen
  dsimp only
  rw [holds.identity]
  split
  · exact serves_done holds _
  case isFalse read =>
    split
    · exact serves_done holds _
    case isFalse write =>
      refine serves_openKey isHome holds (holds.below _) (fun has => ?_) fun has => ?_
      · exact Bool.not_eq_false _ ▸ fun refused => read ⟨has, refused⟩
      · exact Bool.not_eq_false _ ▸ fun refused => write ⟨has, refused⟩

theorem serves_handleRename (oldName newName : Option Text) :
    Serves (allows identity) home identity
      (rightsOf (allows identity) (.rename oldName newName))
      (handleRename server allows oldName newName session) := by
  refine serves_permitted holds fun allowed => ?_
  split
  · refine fun hist => (guarantees_rename isHome (holds.below _) (holds.below _) (Or.inr allowed)
      allowed hist).bind fun after renamed _ => ?_
    split
    · exact serves_done holds _ after
    · exact serves_done holds _ after
  · exact serves_done holds _

/-- Every request is handled by the rule. -/
theorem handle_serves (req : Req) (disciplined : Disciplined (allows identity) session req) :
    Serves (allows identity) home identity (rightsOf (allows identity) req)
      (handle server allows req session) := by
  cases req with
  | realpath filename => exact serves_done holds _
  | openDir filename => exact serves_handleOpenDir holds isHome filename
  | readDir number => exact serves_handleReadDir holds number
  | close number => exact serves_handleClose holds isHome number
  | openFile filename flags => exact serves_handleOpen holds isHome filename flags
  | read number offset length => exact serves_handleRead holds disciplined
  | write number offset data => exact serves_handleWrite holds disciplined
  | stat filename =>
    refine serves_permitted holds fun _ =>
      Serves.bind (asks_stat isHome (holds.below _)) fun entry => ?_
    cases entry with
    | none => exact serves_done holds _
    | some entry => exact serves_done holds _
  | fstat number =>
    show Serves _ _ _ _ (handleFstat number session)
    unfold handleFstat
    split
    · exact serves_done holds _
    · exact serves_done holds _
  | mkdir filename =>
    refine serves_permitted holds fun _ =>
      Serves.bind (asks_makeDirectory isHome (holds.below _)) fun made => ?_
    split
    · exact serves_done holds _
    · exact serves_done holds _
  | rmdir filename =>
    refine serves_permitted holds fun allowed hist =>
      (guarantees_deleteDirectory isHome (holds.below _) allowed hist).bind
        fun after removed _ => ?_
    split
    · exact serves_done holds _ after
    · exact serves_done holds _ after
  | remove filename =>
    refine serves_permitted holds fun allowed hist =>
      (guarantees_remove isHome (holds.below _) allowed hist).bind fun after removed _ => ?_
    split
    · exact serves_done holds _ after
    · exact serves_done holds _ after
  | rename oldName newName => exact serves_handleRename holds isHome oldName newName
  | setstat => exact serves_permitted holds fun _ => serves_done holds _
  | unsupported => exact serves_done holds _

end Handlers

theorem sound_login (server : TransferServer) (may : Action → Bool) (identity : TransferIdentity) :
    Sound may (homePrefix server.homeDirectory identity.userId) identity (login server identity) :=
  ⟨rfl, rfl, fun _ _ found => nomatch found⟩

end Sftp

/-! ### A session of FTP -/

namespace Ftp

/-- What a request may do, if its user may do some actions. -/
def rightsOf (may : Action → Bool) : Req → Rights
  | .dele _ => ⟨may .getFile, may .putFile, may .deleteFile⟩
  | .rmd _ => ⟨may .getFile, may .putFile, may .deleteDirectory⟩
  | _ => ⟨may .getFile, may .putFile, False⟩

def LastLogin (identity : TransferIdentity) (hist : Deeds) : Prop :=
  ∃ (before after : Deeds) (user password : Text),
    hist = before ++ ⟨.authenticate user password, some identity⟩ :: after ∧
      ∀ entry ∈ after, ∀ user password, entry.1 ≠ .authenticate user password

variable (server : TransferServer) (allows : TransferIdentity → Action → Bool)

/-- What an effect needs. A login creates directories in the home of the user; nobody may do
anything before. -/
def rule (session : FtpSession) : Req → Deeds → Effect → Prop
  | .pass _, hist, effect => (∃ user password, effect = .authenticate user password) ∨
    ∃ identity, LastLogin identity hist ∧
      Permitted (homePrefix server.homeDirectory identity.userId) ⟨False, False, False⟩ hist effect
  | req, hist, effect =>
    Permitted session.keyPrefix
      (rightsOf (fun action => session.identity.any (allows · action)) req) hist effect

def Sound (session : FtpSession) : Prop := IsHome session.keyPrefix

variable {server allows} {session : FtpSession}

/-- What is done for a request goes by a rule and leaves a session sound. -/
def Serves (rule : Deeds → Effect → Prop) (handling : Handling) : Prop :=
  ∀ hist, handling.Guarantees rule (fun _ result => Sound result.2) hist

variable {home : Text} {rights : Rights}

theorem Serves.bind {Result : Type} {program : Work Result} {continuation : Result → Handling}
    (asks : program.Asks (Always home rights))
    (serves : ∀ result, Serves (Permitted home rights) (continuation result)) :
    Serves (Permitted home rights) (program >>= continuation) :=
  fun _ => (asks.guarantees fun hist _ may => may hist).bind fun after result _ =>
    serves result after

section

variable (sound : Sound session)

include sound

theorem serves_done {rule : Deeds → Effect → Prop} (replies : List Reply) :
    Serves rule (.done (replies, session)) :=
  fun _ => sound

theorem serves_permitted {rule : Deeds → Effect → Prop} {action : Action} {handler : Handling}
    (serves : session.identity.any (allows · action) → Serves rule handler) :
    Serves rule (permitted allows session action handler) := by
  unfold permitted
  split
  · exact serves_done sound _
  case _ identity known =>
    split
    case isTrue allowed => exact serves (by rw [known]; exact allowed)
    · exact serves_done sound _

theorem serves_withDataConnection (before : Reply) {handler : FtpSession → Handling}
    (serves : ∀ next : FtpSession, next.keyPrefix = session.keyPrefix → next.cwd = session.cwd →
      Serves (Permitted home rights) (handler next)) :
    Serves (Permitted home rights) (withDataConnection session before handler) := by
  have connects (next : FtpSession) (same : next.keyPrefix = session.keyPrefix)
      (sameToo : next.cwd = session.cwd) (refusal : String) :
      Serves (Permitted home rights) (do
        if ← openDataConnection then
          let handled ← handler next
          return (before :: handled.1, handled.2)
        else return ([before, ⟨425, refusal⟩], next)) := by
    refine Serves.bind ⟨fun _ => trivial, fun _ => trivial⟩ fun connected => ?_
    split
    · exact fun hist => (serves next same sameToo hist).bind fun after result kept => kept
    · exact serves_done (same ▸ sound : IsHome next.keyPrefix) _
  unfold withDataConnection
  split
  · exact connects { session with pasvAcceptor := false } rfl rfl _
  · split
    · exact connects { session with portTarget := false } rfl rfl _
    · exact serves_done sound _

theorem serves_cmdCwd {rights : Rights} (path : Text) :
    Serves (Permitted session.keyPrefix rights) (cmdCwd allows path session) := by
  refine serves_permitted sound fun _ => ?_
  refine Serves.bind (asks_stat sound (prefix_keyOf _ _)) fun entry => ?_
  split
  · exact serves_done sound _
  · exact fun _ => sound

end

theorem asks_sendPieces {key : Text} (below : home <+: key) (mayRead : rights.mayRead)
    (pieces : List Bytes) : (sendPieces (some key) pieces).Asks (Always home rights) := by
  induction pieces with
  | nil => trivial
  | cons piece rest ih =>
    refine ⟨fun _ => trivial, fun read => ?_⟩
    change Option Bytes at read
    cases read with
    | none => trivial
    | some bytes =>
      refine ⟨fun _ => ⟨below, mayRead⟩, fun taken => ?_⟩
      change Bool at taken
      cases taken with
      | true => exact ih
      | false => trivial

theorem serves_cmdPass (sound : Sound session) (password : Text) :
    Serves (rule server allows session (.pass password)) (cmdPass server password session) := by
  unfold cmdPass
  split
  · exact serves_done sound _
  · refine fun hist => ⟨.inl ⟨_, _, rfl⟩, fun answer => ?_⟩
    change Option TransferIdentity at answer
    cases answer with
    | none => exact sound
    | some identity =>
      have isHome := isHome_homePrefix server.homeDirectory identity.userId
      have asks : (ensureDirectories (homeDirectoryKeys
          (homePrefix server.homeDirectory identity.userId) server.directories)).Asks
          (Always (homePrefix server.homeDirectory identity.userId) ⟨False, False, False⟩) :=
        asks_ensureDirectories isHome prefix_homeDirectoryKeys
      refine (asks.guarantees_kept (LastLogin identity) ?_ (fun hist effect may last =>
        .inr ⟨identity, last, may hist⟩) ?_).bind fun after _ _ => isHome
      · exact ⟨hist, [], _, _, rfl, nofun⟩
      · rintro hist effect answer may ⟨before, after, user, password, rfl, others⟩
        refine ⟨before, after ++ [⟨effect, answer⟩], user, password, by simp, fun entry mem => ?_⟩
        obtain old | new := List.mem_append.mp mem
        · exact others entry old
        · rw [List.mem_singleton.mp new]
          rintro user password rfl
          exact may []

section Commands

variable (sound : Sound session) {home : Text} {rights : Rights}

include sound

theorem serves_cmdType {rule : Deeds → Effect → Prop} (mode : Text) :
    Serves rule (cmdType mode session) := by
  unfold cmdType
  split
  · exact fun _ => sound
  · split
    · exact fun _ => sound
    · exact fun _ => sound

theorem serves_cmdMkd (path : Text) :
    Serves (Permitted session.keyPrefix rights) (cmdMkd allows path session) := by
  refine serves_permitted sound fun _ => ?_
  split
  · exact serves_done sound _
  · refine Serves.bind (asks_makeDirectory sound (prefix_keyOf _ _)) fun made => ?_
    split
    · exact serves_done sound _
    · exact serves_done sound _

theorem serves_cmdRmd (path : Text) (mayRemove : session.identity.any (allows · .deleteDirectory) →
      rights.mayRemove) :
    Serves (Permitted session.keyPrefix rights) (cmdRmd allows path session) := by
  refine serves_permitted sound fun allowed => ?_
  split
  · exact serves_done sound _
  · refine fun hist => (guarantees_deleteDirectory sound (prefix_keyOf _ _) (mayRemove allowed)
      hist).bind fun after removed _ => ?_
    split
    · exact serves_done sound _ after
    · exact serves_done sound _ after

theorem serves_cmdList (path : Text) :
    Serves (Permitted session.keyPrefix rights) (cmdList allows path session) := by
  refine serves_permitted sound fun _ =>
    serves_withDataConnection sound _ fun next same _ => ?_
  have soundToo : Sound next := (same ▸ sound : IsHome next.keyPrefix)
  refine Serves.bind (asks_list sound (same ▸ prefix_keyOf _ _)) fun entries => ?_
  exact Serves.bind ⟨fun _ => trivial, fun _ => trivial⟩ fun _ => serves_done soundToo _

/-- What is sent is of the object that was asked for. -/
theorem serves_cmdRetr (path : Text)
    (mayRead : session.identity.any (allows · .getFile) → rights.mayRead) :
    Serves (Permitted session.keyPrefix rights) (cmdRetr server allows path session) := by
  refine serves_permitted sound fun allowed =>
    Serves.bind (asks_download sound (prefix_keyOf _ _)) fun file => ?_
  cases file with
  | none => exact serves_done sound _
  | some bytes =>
    refine Serves.bind asks_writeFile fun opened => ?_
    split
    · refine serves_withDataConnection sound _ fun next same _ => ?_
      have soundToo : Sound next := (same ▸ sound : IsHome next.keyPrefix)
      refine Serves.bind (asks_sendPieces (prefix_keyOf _ _) (mayRead allowed) _) fun whole => ?_
      split
      · exact serves_done soundToo _
      · exact serves_done soundToo _
    · exact serves_done sound _

theorem serves_cmdStor (path : Text) (pieces : List Bytes) (broken : Bool)
    (mayStore : session.identity.any (allows · .putFile) → rights.mayStore) :
    Serves (Permitted session.keyPrefix rights)
      (cmdStor server allows path pieces broken session) := by
  refine serves_permitted sound fun allowed =>
    serves_withDataConnection sound _ fun next same _ => ?_
  have soundToo : Sound next := (same ▸ sound : IsHome next.keyPrefix)
  refine Serves.bind (asks_storing (asks_store _ _ _ _)
    (sound.stripLeadingSlash (same ▸ prefix_keyOf _ _)) (mayStore allowed)) fun stored => ?_
  split
  · exact serves_done soundToo _
  · exact serves_done soundToo _
  · exact serves_done soundToo _

theorem serves_cmdDele (path : Text)
    (mayRemove : session.identity.any (allows · .deleteFile) → rights.mayRemove) :
    Serves (Permitted session.keyPrefix rights) (cmdDele allows path session) := by
  refine serves_permitted sound fun allowed hist => (guarantees_remove sound (prefix_keyOf _ _)
    (mayRemove allowed) hist).bind fun after removed _ => ?_
  split
  · exact serves_done sound _ after
  · exact serves_done sound _ after

/-- `cmdSize` and `cmdMdtm`, which look at a local file. -/
theorem serves_statFile {action : Action} {handler : Option (ℕ × Text) → Handling}
    (serves : ∀ file, Serves (Permitted home rights) (handler file)) :
    Serves (Permitted home rights) (permitted allows session action (statFile >>= handler)) :=
  serves_permitted sound fun _ => Serves.bind ⟨fun _ => trivial, fun _ => trivial⟩ serves

/-- Every request is handled by the rule. -/
theorem handle_serves (req : Req) :
    Serves (rule server allows session req) (handle server allows req session) := by
  unfold handle
  split
  · exact serves_done sound _
  split
  · exact fun _ => sound
  · exact serves_cmdPass sound _
  · exact fun _ => sound
  · exact serves_done sound _
  · exact serves_done sound _
  · exact serves_done sound _
  split
  case isFalse => exact serves_done sound _
  cases req with
  | user name => exact serves_done sound _
  | pass password => exact serves_done sound _
  | quit => exact serves_done sound _
  | noop => exact serves_done sound _
  | syst => exact serves_done sound _
  | feat => exact serves_done sound _
  | type mode => exact serves_cmdType sound mode
  | pwd => exact fun _ => sound
  | cwd path => exact serves_cmdCwd sound path
  | cdup => exact serves_cmdCwd sound ['.', '.']
  | pasv =>
    show Serves _ (cmdPasv session)
    refine Serves.bind ⟨fun _ => trivial, fun _ => trivial⟩ fun listening => ?_
    split
    · exact fun _ => sound
    · exact fun _ => sound
  | port wellFormed =>
    show Serves _ (cmdPort wellFormed session)
    unfold cmdPort
    split
    · exact fun _ => sound
    · exact fun _ => sound
  | mkd path => exact serves_cmdMkd sound path
  | rmd path => exact serves_cmdRmd sound path id
  | list path => exact serves_cmdList sound path
  | retr path => exact serves_cmdRetr sound path id
  | stor path pieces broken => exact serves_cmdStor sound path pieces broken id
  | dele path => exact serves_cmdDele sound path id
  | size path =>
    refine serves_statFile sound fun file => ?_
    cases file with
    | none => exact serves_done sound _
    | some file => exact serves_done sound _
  | mdtm path =>
    refine serves_statFile sound fun file => ?_
    cases file with
    | none => exact serves_done sound _
    | some file => exact serves_done sound _
  | unknown => exact serves_done sound _

end Commands

end Ftp

/-! ### Both servers -/

/-- In every session of SFTP in which the client reads and writes through handles that it has opened
for that, and in every session of FTP, each effect of each request is one that the user may have
below the home of the session. -/
theorem transfers_permitted (server : TransferServer) (allows : TransferIdentity → Action → Bool)
    (outside : Surroundings Effect Effect.Answer) :
    (∀ (identity : TransferIdentity) (requests : List Req) (hist : Deeds),
      (∀ turn ∈ turns outside (handle server allows) requests
          (login server identity) hist,
        Disciplined (allows identity) turn.state turn.input) →
      ∀ turn ∈ turns outside (handle server allows) requests
          (login server identity) hist,
        Obeys (Permitted (homePrefix server.homeDirectory identity.userId)
          (rightsOf (allows identity) turn.input)) turn.history turn.asked) ∧
    ∀ (requests : List Ftp.Req) (hist : Deeds),
      ∀ turn ∈ turns outside (Ftp.handle server allows) requests Ftp.FtpSession.connected hist,
        Obeys (Ftp.rule server allows turn.state turn.input) turn.history turn.asked := by
  refine ⟨fun identity requests hist disciplined => ?_, fun requests hist => ?_⟩
  · have isHome := isHome_homePrefix server.homeDirectory identity.userId
    have step (input : Req) (session : SftpSession) (hist : Deeds)
        (sound : Sound (allows identity) (homePrefix server.homeDirectory identity.userId)
          identity session) (disciplined : Disciplined (allows identity) session input) :
        (handle server allows input session).Guarantees
          (Permitted (homePrefix server.homeDirectory identity.userId)
            (rightsOf (allows identity) input))
          (fun _ result => Sound (allows identity)
            (homePrefix server.homeDirectory identity.userId) identity result.2) hist :=
      handle_serves sound isHome input disciplined hist
    exact turns_obey step requests (sound_login server (allows identity) identity) disciplined
  · have step (input : Ftp.Req) (session : Ftp.FtpSession) (hist : Deeds)
        (sound : Ftp.Sound session) (_ : True) :
        (Ftp.handle server allows input session).Guarantees (Ftp.rule server allows session input)
          (fun _ result => Ftp.Sound result.2) hist :=
      Ftp.handle_serves sound input hist
    exact turns_obey step requests ⟨[], by simp, rfl⟩ fun _ _ => trivial

/-- A bucket with one object, of one byte, that answers every call. -/
def oneObject : Surroundings Effect Effect.Answer
  | .store (.createUpload _), _ => some ⟨"upload", by decide⟩
  | .store (.uploadPart _ _ _), _ => true
  | .store (.completeUpload _), _ => true
  | .store (.abortUpload _), _ => true
  | .store (.putObject _ _), _ => true
  | .getObject _, _ => Got.body [7]
  | .createDownload _, _ => none
  | .downloadPart _ _, _ => none
  | .completeDownload _, _ => ()
  | .listObjects _, _ => some [⟨['f'], ['e'], 1⟩]
  | .deleteObject _, _ => true
  | .writeFile, _ => true
  | .readFile, _ => none
  | .statFile, _ => none
  | .authenticate _ _, _ => none
  | .allocateHandle, _ => some 0
  | .listen, _ => true
  | .openDataConnection, _ => true
  | .sendData _ _, _ => true
  | .sendListing _, _ => true

/-- The user may get and put objects: a handle is opened for both, read, written and closed. -/
theorem transfers_permitted_both_ways : ∀ turn ∈ turns oneObject
        (handle ⟨⟨64, 8, by decide⟩, [], []⟩ fun _ action => action ≠ .deleteFile)
        [.openFile ['f'] (SSH_FXF_READ ||| SSH_FXF_WRITE), .read 0 0 1, .write 0 1 (some [8]),
          .close 0]
        (login ⟨⟨64, 8, by decide⟩, [], []⟩ ⟨['u']⟩) [],
      Obeys (Permitted (homePrefix [] ['u'])
        (rightsOf (fun action => action ≠ .deleteFile) turn.input)) turn.history turn.asked := by
  refine (transfers_permitted ⟨⟨64, 8, by decide⟩, [], []⟩ (fun _ action => action ≠ .deleteFile)
    oneObject).1 ⟨['u']⟩ _ [] fun turn _ => ?_
  cases turn.input with
  | read number offset length => exact fun _ _ _ => .inr rfl
  | write number offset data => exact fun _ _ _ => .inr rfl
  | _ => exact trivial

/-- The user may only write, and opens the object for writing: it is downloaded, and can be read. -/
theorem write_only_handle_reads :
    ¬∀ (server : TransferServer) (allows : TransferIdentity → Action → Bool)
      (outside : Surroundings Effect Effect.Answer) (identity : TransferIdentity)
      (requests : List Req),
      ∀ turn ∈ turns outside (handle server allows) requests
          (login server identity) [],
        Obeys (Permitted (homePrefix server.homeDirectory identity.userId)
          (rightsOf (allows identity) turn.input)) turn.history turn.asked := by
  intro always
  have obeys :=
    always ⟨⟨64, 8, by decide⟩, [], []⟩ (fun _ action => action = .putFile) oneObject ⟨['u']⟩
    [.openFile ['f'] SSH_FXF_WRITE, .read 0 0 1] _ (.tail _ (.head _))
  have mayRead : decide (Action.getFile = Action.putFile) = true := obeys.1.2
  exact absurd mayRead (by decide)

end Euclid.Transfer
