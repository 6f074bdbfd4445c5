/-
This file describes the objects and buckets of the object store, and the decisions that are taken on
an object alone.

Ids, ERNs and checksums are only compared. A key is a text, because its last character says whether
it is the key of a directory.
-/

import Euclid.Core.HttpRequest

namespace Euclid.Esm

open Core (Text)

/-! ### Objects -/

inductive ObjectStatus where
  | created
  | uploading
  | uploaded
  | completed
  | unknown
  deriving DecidableEq

inductive LifecycleState where
  | standard
  | archived
  deriving DecidableEq

/-- `ArchiveMember`: where in a zip an object is. -/
structure ArchiveMember where
  offset : ℕ
  compressedSize : ℕ
  size : ℕ
  crc : ℕ
  method : ℕ

/-- The row of an object: where its file is, what is known of it, and where it is archived. -/
structure Object where
  bucketErn : String
  key : Text
  internalName : String
  internalDir : String
  ern : String
  encryptionKeyErn : String
  size : Int
  status : ObjectStatus
  directory : Bool
  contentType : String
  md5Sum : String
  versionId : String
  lifecycleState : LifecycleState
  archivedAt : Option Int
  restoredAt : Option Int
  restoredUntil : Option Int
  archiveFile : String
  archiveMember : Option ArchiveMember

def Object.blank : Object where
  bucketErn := ""
  key := []
  internalName := ""
  internalDir := ""
  ern := ""
  encryptionKeyErn := ""
  size := 0
  status := .created
  directory := false
  contentType := ""
  md5Sum := ""
  versionId := ""
  lifecycleState := .standard
  archivedAt := none
  restoredAt := none
  restoredUntil := none
  archiveFile := ""
  archiveMember := none

def isDirectoryKey (key : Text) : Bool := key.getLast? = some '/'

structure Bucket where
  name : String
  ern : String
  accountId : String
  nameSpace : String
  encryptionKeyErn : String
  versioning : Bool
  maxVersions : Int
  size : Int
  objects : Int
  directories : Int

/-! ### Uploads -/

/-- An object that is there keeps its status while a new upload is under way. -/
def statusForCreatedUpload (existing : Option ObjectStatus) : ObjectStatus :=
  existing.getD .created

/-- An abandoned upload takes along the row it made, unless that is complete by now. -/
def removeObjectOnAbandonedUpload (replaces : Bool) (current : Option ObjectStatus) : Bool :=
  match replaces, current with
  | true, _ => false
  | false, none => false
  | false, some status => status ≠ .completed

inductive UploadOutcome where
  | replace
  | newVersion
  | unchanged
  deriving DecidableEq

/-- What becomes of the row, by what there was and whether the bytes are the same. -/
def decideUploadOutcome (versioning : Bool) (existing : Option Object) (md5Sum : String) :
    UploadOutcome :=
  match versioning, existing with
  | true, some object =>
    if object.status ≠ .completed ∨ object.md5Sum = "" then .replace
    else if object.md5Sum = md5Sum then .unchanged
    else .newVersion
  | _, _ => .replace

theorem decideUploadOutcome_unchanged {versioning : Bool} {existing : Option Object}
    {md5Sum : String} :
    decideUploadOutcome versioning existing md5Sum = .unchanged ↔
      versioning = true ∧ ∃ object, existing = some object ∧ object.status = .completed ∧
        object.md5Sum ≠ "" ∧ object.md5Sum = md5Sum := by
  cases versioning with
  | false => simp [decideUploadOutcome]
  | true =>
    cases existing with
    | none => simp [decideUploadOutcome]
    | some object =>
      simp only [decideUploadOutcome, Option.some.injEq, exists_eq_left', true_and]
      split
      · rename_i other
        simp only [reduceCtorEq, false_iff]
        tauto
      · rename_i stored
        simp only [not_or, ne_eq, not_not] at stored
        split <;> simp_all

end Euclid.Esm
