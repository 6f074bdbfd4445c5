/-
This file translates a backup: its scopes, the file each of them is written to, and the import of
all files of a run.

The scopes are read off the top-level collections; which documents of a collection go into a
scope's file is asked with a filter. A directory is named after an account or a namespace with
everything replaced that is no part of a plain name. The history of a module is left out, which a
backup never writes, and so is the envelope of an encrypted file.
-/

import Euclid.Emm.ExportImport

namespace Euclid.Emm.Backup

open Emd Database ExportImport

/-! ### What is backed up -/

/-- The collections of a module: those of its resources, and those of what the resources hold. -/
structure ModuleExportSpec where
  topLevel : List String
  fullOnly : List String

def moduleExportSpecs : List (String × ModuleExportSpec) :=
  [("eam",
    ⟨["eam_user", "eam_usergroup", "eam_account", "eam_namespace", "eam_role", "eam_grant"], []⟩),
    ("eap", ⟨["eap_application"], []⟩),
    ("ekm", ⟨["ekm_key"], []⟩),
    ("emm", ⟨["emm_module"], []⟩),
    ("emo", ⟨["emo_alert_rule", "emo_dashboard"], []⟩),
    ("ens", ⟨["ens_topic", "ens_subscription"], ["ens_message"]⟩),
    ("eqs", ⟨["eqs_queue"], ["eqs_message"]⟩),
    ("esm", ⟨["esm_bucket", "esm_subscription"], ["esm_object", "esm_object_version"]⟩),
    ("ess", ⟨["ess_secret"], []⟩),
    ("ets", ⟨["ets_server"], []⟩)]

/-- How a backup is configured, or asked for. -/
structure Settings where
  passphrase : Bool
  full : Bool

/-- `backupModules`: without a key to seal them with, the keys are left out. -/
def backupModules (haveKey : Bool) : List ModuleExportSpec :=
  (moduleExportSpecs.filter fun entry => haveKey || entry.1 ≠ "ekm").map Prod.snd

/-- An encrypted backup holds the configuration only. -/
def Settings.effectiveFull (settings : Settings) : Bool := settings.full && !settings.passphrase

def Settings.topLevel (settings : Settings) : List String :=
  (backupModules settings.passphrase).flatMap ModuleExportSpec.topLevel

/-- The collections a run covers. -/
def Settings.covered (settings : Settings) : List String :=
  (backupModules settings.passphrase).flatMap fun spec =>
    spec.topLevel ++ if settings.effectiveFull then spec.fullOnly else []

abbrev Content := String → List Document

/-! ### Scopes -/

structure BackupScope where
  accountId : String
  namespaceName : String
  deriving DecidableEq

namespace BackupScope

/-- What belongs to no account. -/
def top : BackupScope := ⟨"", ""⟩

def less (left right : BackupScope) : Bool :=
  left.accountId < right.accountId ||
    (left.accountId == right.accountId && left.namespaceName < right.namespaceName)

/-- A scope put where it belongs. -/
def place (scope : BackupScope) : List BackupScope → List BackupScope
  | [] => [scope]
  | head :: rest => if less scope head then scope :: head :: rest else head :: place scope rest

def insert (scope : BackupScope) (scopes : List BackupScope) : List BackupScope :=
  if scope ∈ scopes then scopes else place scope scopes

end BackupScope

/-- The text of a field, empty if it is none. -/
def text (doc : Document) (field : String) : String :=
  match doc.field field with
  | some (.string value) => value
  | _ => ""

/-- The scopes a document of a top-level collection shows. -/
def scopesOf (doc : Document) : List BackupScope :=
  let accountId := text doc "accountId"
  let namespaceName := text doc "namespace"
  if accountId = "" then []
  else if namespaceName = "" then [⟨accountId, ""⟩]
  else [⟨accountId, ""⟩, ⟨accountId, namespaceName⟩]

/-- The documents of the top-level collections. -/
def topDocuments (content : Content) (settings : Settings) : List Document :=
  settings.topLevel.flatMap content

def backupScopes (content : Content) (settings : Settings) : List BackupScope :=
  ((topDocuments content settings).flatMap scopesOf).foldl
    (fun scopes scope => BackupScope.insert scope scopes) [.top]

/-! ### Filters -/

def blankOrMissing (field : String) : Document :=
  [("$or", .array [.document [(field, .document [("$exists", .bool false)])],
    .document [(field, .string "")]])]

def scopeFilter (scope : BackupScope) : Document :=
  if scope.accountId = "" then blankOrMissing "accountId"
  else if scope.namespaceName = "" then
    [("$and", .array [.document [("accountId", .string scope.accountId)],
      .document (blankOrMissing "namespace")])]
  else [("accountId", .string scope.accountId), ("namespace", .string scope.namespaceName)]

/-- The collection a message belongs to, and the field that says to which of its documents. -/
def parentLinks (name : String) : Option (String × String) :=
  if name = "eqs_message" then some ("eqs_queue", "queueErn")
  else if name = "ens_message" then some ("ens_topic", "topicErn")
  else none

section

variable (env : Env) (content : Content)

/-- Whether a filter selects a document. A filter that is refused fails the step. -/
def selects (filter doc : Document) : Bool :=
  match matchesFilter env doc filter with
  | .ok selected => selected
  | .error _ => false

def ernOf (doc : Document) : Option String :=
  match doc.field "ern" with
  | some (.string ern) => some ern
  | _ => none

def parentErns (parent : String) (scope : BackupScope) : List String :=
  ((content parent).filter (selects env (scopeFilter scope))).filterMap ernOf

def collectionScopeFilter (name : String) (scope : BackupScope) : Document :=
  match parentLinks name with
  | none => scopeFilter scope
  | some (parent, field) =>
    [(field, .document [("$in", .array ((parentErns env content parent scope).map .string))])]

end

/-! ### Directories -/

/-- Whether a character stays in a directory's name. -/
def isAllowed (character : Char) : Bool :=
  ('a' ≤ character && character ≤ 'z') || ('A' ≤ character && character ≤ 'Z') ||
    ('0' ≤ character && character ≤ '9') ||
    character == '-' || character == '_' || character == '.'

/-- A character of a directory's name, each byte of another one replaced. -/
def safeCharacters (character : Char) : List Char :=
  if isAllowed character then [character] else List.replicate character.utf8Size '_'

def safeBackupDirectoryName (name : String) : String :=
  let safe := name.toList.flatMap safeCharacters
  if safe = [] ∨ safe = ['.'] ∨ safe = ['.', '.'] then
    String.ofList (List.replicate (max safe.length 1) '_')
  else String.ofList safe

/-- The directory of a scope, below the backup directory. -/
def backupScopeDirectory (scope : BackupScope) : List String :=
  if scope.accountId = "" then []
  else
    safeBackupDirectoryName scope.accountId ::
      if scope.namespaceName = "" then [] else [safeBackupDirectoryName scope.namespaceName]

/-- Whether a name can be that of a directory's entry. -/
def isEntryName (name : String) : Bool :=
  !(name.toList = [] || name.toList = ['.'] || name.toList = ['.', '.'] || '/' ∈ name.toList)

/-- The directories `ListBackups` looks at: the top, those in it, and those in them. -/
def looksAt : List String → Bool
  | [] => true
  | [accountId] => isEntryName accountId
  | [accountId, namespaceName] => isEntryName accountId && isEntryName namespaceName
  | _ => false

/-! ### A run -/

/-- A file of a run: its directory below the backup directory, and the documents of each
collection. Every file of a run has the same name. -/
structure BackupFile where
  scope : BackupScope
  directory : List String
  documents : String → List Document

/-- The value of a collection in a file. -/
def BackupFile.payload (file : BackupFile) (name : String) : List Json :=
  (file.documents name).map fun doc => toJson (.document doc)

section

variable (env : Env) (content : Content) (settings : Settings)

def writeScopeBackup (scope : BackupScope) : BackupFile where
  scope := scope
  directory := backupScopeDirectory scope
  documents := fun name =>
    if name ∈ settings.covered then
      (content name).filter (selects env (collectionScopeFilter env content name scope))
    else []

/-- `runBackup`: the files it writes, in order. -/
def runBackup : List BackupFile :=
  (backupScopes content settings).map (writeScopeBackup env content settings)

end

/-- The files that are there in the end, one written over another gone. -/
def onDisk (files : List BackupFile) : List BackupFile :=
  files.foldl
    (fun disk file => (disk.filter fun other => other.directory ≠ file.directory) ++ [file]) []

/-- What a collection holds after the import of files into an empty store. -/
def importFiles (special : List (String × Json) → Except Fault Value) (backend : Backend)
    (files : List BackupFile) (name : String) : Collection :=
  files.foldl (fun collection file => (importCollection special backend collection
    (file.payload name)).2) .empty

/-- A message whose queue or topic does not exist. -/
def Orphaned (content : Content) (name : String) (doc : Document) : Prop :=
  match parentLinks name with
  | none => False
  | some (parent, field) => ∀ other ∈ content parent, ∀ ern, ernOf other = some ern →
    doc.field field ≠ some (.string ern)

end Euclid.Emm.Backup
