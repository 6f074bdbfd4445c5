/-
This file translates the statements of the object store on its collections.

No two rows have one bucket and key, and no two one ERN; the indexes see to that. The rows are in
the order that the store gives them in where nobody asks for another. A bucket's figures are moved
by what an operation says it did, and written anew by a recount.
-/

import Euclid.Catalog
import Euclid.Esm.Entity

namespace Euclid.Esm

open Core (Text)

/-! ### Collections -/

def Object.address (object : Object) : String × Text := (object.bucketErn, object.key)

abbrev Objects := Catalog Object.address Object.ern

/-- The document of a purge that goes on in the background. -/
structure PurgeJob where
  jobId : String
  bucketErn : String
  prefixText : Text
  deleteBucket : Bool
  claimedBy : String
  removedObjects : Int
  removedSize : Int

/-- Where a file is: `internalDir` and `internalName`. -/
abbrev Place := String × String

def Object.place (object : Object) : Place := (object.internalDir, object.internalName)

/-- The collections, the versions newest first, and the files of the objects. -/
structure Installation where
  objects : Objects
  versions : List Object
  buckets : List Bucket
  jobs : List PurgeJob
  files : Place → Option Bytes

/-! ### Buckets -/

def findBucketByErn (buckets : List Bucket) (ern : String) : Option Bucket :=
  buckets.find? (·.ern = ern)

def deleteBucketByErn (buckets : List Bucket) (ern : String) : List Bucket :=
  buckets.filter (·.ern ≠ ern)

/-- A figure that is moved, and not left below zero by a subtraction. -/
def moved (figure delta : Int) : Int := if delta < 0 then max 0 (figure + delta) else figure + delta

/-- `adjustBucketCounters`. The index leaves one bucket for an ERN. -/
def adjustBucketCounters (bucketErn : String) (sizeDelta objectDelta directoryDelta : Int)
    (buckets : List Bucket) : List Bucket :=
  buckets.map fun bucket =>
    if bucket.ern = bucketErn then
      { bucket with
        size := moved bucket.size sizeDelta
        objects := moved bucket.objects objectDelta
        directories := moved bucket.directories directoryDelta }
    else bucket

/-! ### Objects -/

def findObjectByBucketAndKey (objects : Objects) (bucketErn : String) (key : Text) :
    Option Object :=
  objects.find? (bucketErn, key)

/-- The fields that `toDocument` leaves out stay as they are in the collection. -/
def Object.keepingLifecycle (object : Object) (existing : Option Object) : Object :=
  let other := existing.getD .blank
  { object with
    lifecycleState := other.lifecycleState
    archivedAt := other.archivedAt
    restoredAt := other.restoredAt
    restoredUntil := other.restoredUntil
    archiveFile := other.archiveFile
    archiveMember := other.archiveMember }

/-- The row that `upsertObject` leaves. -/
def upsertedObject (objects : Objects) (object : Object) : Object :=
  { object with directory := isDirectoryKey object.key }.keepingLifecycle
    (findObjectByBucketAndKey objects object.bucketErn object.key)

/-- `upsertObject`: nothing is written if another row has the ERN. -/
def upsertObject (objects : Objects) (object : Object) : Option Objects :=
  if free : ¬objects.IsTaken (upsertedObject objects object) then some
    (objects.put _ free) else none

/-- What is found under the key of an object once it is written. -/
theorem findObjectByBucketAndKey_upsertObject {objects after : Objects} {object : Object}
    (written : upsertObject objects object = some after) :
    findObjectByBucketAndKey after object.bucketErn object.key =
      some (upsertedObject objects object) := by
  unfold upsertObject at written
  split at written
  · rename_i free
    obtain rfl := Option.some.inj written
    exact Catalog.find?_eq_some.mpr ⟨Catalog.mem_put_self free, rfl⟩
  · cases written

/-- The rows that are left when those with some ERNs are deleted. -/
def deleteObjectsByErns (objects : Objects) (erns : List String) : Objects where
  documents := objects.documents.filter (·.ern ∉ erns)
  keys_nodup := objects.keys_nodup.sublist (List.filter_sublist.map _)
  labels_nodup := objects.labels_nodup.sublist (List.filter_sublist.map _)

def deleteObjectByErn (objects : Objects) (ern : String) : Objects :=
  deleteObjectsByErns objects [ern]

/-- What a listing of a bucket selects. -/
def Object.IsUnder (object : Object) (bucketErn : String) (prefixText : Text) : Prop :=
  object.bucketErn = bucketErn ∧ prefixText <+: object.key

instance (object : Object) (bucketErn : String) (prefixText : Text) :
    Decidable (object.IsUnder bucketErn prefixText) := by
  unfold Object.IsUnder
  infer_instance

/-- `listObjects` with directories, in no order that is asked for. -/
def listObjects (objects : Objects) (bucketErn : String) (prefixText : Text) : List Object :=
  objects.documents.filter (·.IsUnder bucketErn prefixText)

/-! ### Versions -/

section

variable (versions : List Object)

def listObjectVersions (ern : String) : List Object :=
  versions.filter (·.ern = ern)

def listObjectVersionsByErns (erns : List String) : List Object :=
  versions.filter (·.ern ∈ erns)

def deleteObjectVersionsByErns (erns : List String) : List Object :=
  versions.filter (·.ern ∉ erns)

def moveObjectVersions (oldErn newBucketErn : String) (newKey : Text)
    (newErn : String) : List Object :=
  versions.map fun version =>
    if version.ern = oldErn then
      { version with
        bucketErn := newBucketErn
        key := newKey
        ern := newErn
        directory := isDirectoryKey newKey }
    else version

end

/-! ### Files -/

def removeObjectFile (files : Place → Option Bytes) (object : Object) : Place → Option Bytes :=
  if object.internalName = "" then files else Function.update files object.place none

def removeObjectFiles (files : Place → Option Bytes) (objects : List Object) :
    Place → Option Bytes :=
  objects.foldl removeObjectFile files

end Euclid.Esm
