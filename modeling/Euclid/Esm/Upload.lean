/-
This file translates the parts of a multipart upload and its completion, with everything that files
may refuse to do.

The parts are files in the directory of the upload; completing reads them in the order of their
names into the file of the object. A number has one name. Beyond ten digits, and below zero, the
names are not ordered as the numbers are. A read that fails looks like the end of the file to a loop
that reads until nothing comes.
-/

import Euclid.Core.HttpSignature
import Euclid.Core.ObjectRoundTrip
import Euclid.Esm.Repository
import Mathlib.Data.List.Sort
import Mathlib.Data.Char
import Mathlib.Data.Nat.Digits.Defs

namespace Euclid.Esm

open Core (Text Gcm Ivs ObjectEncryptor ValidKey)
open Core.ObjectCipher (decryptWholeFile)

/-! ### Names of parts -/

section PartNames

open List

def writtenNumber (number : Int) : Text :=
  if number < 0 then '-' :: Nat.toDigits 10 number.natAbs else Nat.toDigits 10 number.natAbs

/-- `partFileName`: `setw(10)` and `setfill('0')`, which fill in front of a sign. -/
def partFileName (partNumber : Int) : Text :=
  "part-".toList ++ (writtenNumber partNumber).leftpad 10 '0'

/-- The number that a text of digits stands for. -/
def decimalValue (digits : List Char) : ℕ := Nat.ofDigitChars 10 digits 0

theorem not_isDigit_sign : ¬('-').isDigit := by decide

theorem digits_toDigits {number : ℕ} : ∀ character ∈ Nat.toDigits 10 number, character ≠ '-' := by
  intro character mem sign
  exact not_isDigit_sign (sign ▸ Nat.isDigit_of_mem_toDigits (by decide) (by decide) mem)

theorem sign_mem_leftpad (number : Int) :
    '-' ∈ (writtenNumber number).leftpad 10 '0' ↔ number < 0 := by
  have zero : ('-' : Char) ∉ List.replicate (10 - (writtenNumber number).length) '0' := by
    intro mem
    exact absurd (mem_replicate.mp mem).2 (by decide)
  rw [List.leftpad, mem_append, or_iff_right zero, writtenNumber]
  split
  · rename_i negative
    exact iff_of_true (.head _) negative
  · rename_i positive
    exact iff_of_false (fun mem => digits_toDigits _ mem rfl) positive

theorem value_filter_leftpad (number : Int) :
    decimalValue (((writtenNumber number).leftpad 10 '0').filter (· ≠ '-')) = number.natAbs := by
  have digits : (writtenNumber number).filter (· ≠ '-') = Nat.toDigits 10 number.natAbs := by
    have kept : (Nat.toDigits 10 number.natAbs).filter (· ≠ '-') = Nat.toDigits 10 number.natAbs :=
      filter_eq_self.mpr fun character mem =>
        decide_eq_true (digits_toDigits character mem)
    rw [writtenNumber]
    split
    · rw [filter_cons_of_neg (by decide), kept]
    · exact kept
  rw [List.leftpad, filter_append, digits, filter_replicate_of_pos (by decide),
    decimalValue, Nat.ofDigitChars_append, Nat.ofDigitChars_replicate_zero, Nat.mul_zero]
  exact Nat.ofDigitChars_ten_toDigits

theorem partFileName_injective : Function.Injective partFileName := by
  intro first second same
  have padded := append_cancel_left same
  have size : first.natAbs = second.natAbs := by
    rw [← value_filter_leftpad first, padded, value_filter_leftpad]
  have sign : first < 0 ↔ second < 0 := by
    rw [← sign_mem_leftpad first, padded, sign_mem_leftpad]
  omega

/-- Eleven digits come before ten, and a negative number before a smaller one. -/
example : partFileName 10000000000 < partFileName 2000000000 ∧
    partFileName (-1) < partFileName (-2) := by decide

end PartNames

/-! ### Keys -/

/-- A key of the key management, with the name of its status. -/
structure Key where
  material : Bytes
  status : String

/-- The keys by ERN. They are made with 16 or 32 bytes. -/
structure Keys where
  find : String → Option Key
  valid : ∀ ern key, find ern = some key → key.material ≠ [] → ValidKey key.material

/-- `writeKeyForBucket`: no bytes for a bucket without encryption. -/
def writeKeyForBucket (keys : Keys) (bucket : Bucket) : Except String Bytes :=
  if bucket.encryptionKeyErn = "" then .ok []
  else
    match keys.find bucket.encryptionKeyErn with
    | none => .error ("Bucket is encrypted under a key that no longer exists, keyErn: " ++
        bucket.encryptionKeyErn)
    | some key =>
      if key.material = [] then
        .error ("Bucket is encrypted under a key that has no key material, keyErn: " ++
          bucket.encryptionKeyErn)
      else if key.status ≠ "AVAILABLE" then
        .error ("Bucket is encrypted under a key that is " ++ key.status ++
          " and can no longer encrypt, keyErn: " ++ bucket.encryptionKeyErn ++
          " - point the bucket at another key with \"esm enable-encryption\"")
      else .ok key.material

def readKeyForObject (keys : Keys) (keyErn : String) : Except String Bytes :=
  if keyErn = "" then .ok []
  else
    match keys.find keyErn with
    | none => .error ("Object is encrypted under a key that no longer exists, keyErn: " ++ keyErn)
    | some key =>
      if key.material = [] then
        .error ("Object is encrypted under a key that has no key material, keyErn: " ++ keyErn)
      else .ok key.material

/-! ### Files -/

def kAssemblyBufferSize : ℕ := 64 * 1024

def kContentTypeSniffBytes : ℕ := 2000

/-- What the files do while an upload is completed. Chunks are counted from zero. -/
structure Faults where
  opensTarget : Bool
  opensPart : Text → Bool
  readsPart : Text → ℕ → Bool
  writesTarget : Text → ℕ → Bool
  closesTarget : Bool
  opensAssembled : Bool
  readsAssembled : ℕ → Bool
  sniffs : Bool
  persists : Bool

/-- A loop that reads chunks until nothing comes. A read that fails brings nothing. -/
def readChunks (reads : ℕ → Bool) : ℕ → List Bytes → List Bytes
  | _, [] => []
  | index, chunk :: rest =>
    if reads index then chunk :: readChunks reads (index + 1) rest else []

abbrev PartFile := Text × Bytes

def Faults.partChunks (faults : Faults) (part : PartFile) : List Bytes :=
  readChunks (faults.readsPart part.1) 0 (chunks kAssemblyBufferSize part.2)

/-- The chunks are written behind what is there, as they are read. -/
def Faults.copyChunks (faults : Faults) (name : Text) : ℕ → List Bytes → Bytes → Option Bytes
  | _, [], assembled => some assembled
  | index, chunk :: rest, assembled =>
    if faults.writesTarget name index then
      faults.copyChunks name (index + 1) rest (assembled ++ chunk)
    else none

/-- The parts are copied one after the other. One that does not open ends it. -/
def Faults.copyParts (faults : Faults) : List PartFile → Bytes → Option Bytes
  | [], assembled => some assembled
  | part :: rest, assembled =>
    if faults.opensPart part.1 then do
      let longer ← faults.copyChunks part.1 0 (faults.partChunks part) assembled
      faults.copyParts rest longer
    else none

/-- What is read of a part where nobody asks whether it opened. -/
def Faults.piecesOf (faults : Faults) (part : PartFile) : List Bytes :=
  if faults.opensPart part.1 then faults.partChunks part else []

/-- `md5SumFile` reads the file in chunks of its own. -/
def Faults.readBack (faults : Faults) (assembled : Bytes) : Bytes :=
  (readChunks faults.readsAssembled 0 (chunks (2 ^ 16) assembled)).flatten

/-! ### The upload -/

/-- What an upload is made for, and the functions that are only called. -/
structure Env where
  uploadId : String
  bucketErn : String
  key : Text
  md5 : Bytes → String
  detect : Bytes → Text → String
  gcm : Gcm
  lawful : gcm.Lawful
  keys : Keys

/-- The parts in the directory of the upload while there is one, the row of its key, and the
files. -/
structure Store where
  directory : Option (List PartFile)
  object : Option Object
  files : Place → Option Bytes

/-- A status of the answer, and its text. -/
abbrev Refusal := ℕ × String

def writeFile (name : Text) (bytes : Bytes) (parts : List PartFile) : List PartFile :=
  parts.filter (·.1 ≠ name) ++ [(name, bytes)]

/-- The first part makes the row UPLOADING. -/
def Object.receive (object : Object) : Object :=
  if object.status = .created then { object with status := .uploading } else object

/-- A call of upload-part: the header, the body, and how many bytes of it the file takes, if it
opens. -/
structure PartRequest where
  partNumber : Text
  body : Bytes
  written : Option ℕ

/-- `handleUploadPart`: the size that is acknowledged. -/
def handleUploadPart (env : Env) (req : PartRequest) (store : Store) : Except Refusal ℕ × Store :=
  match Core.HttpSignature.stol req.partNumber with
  | none => (.error (400, "Missing or invalid x-euclid-part-number header"), store)
  | some partNumber =>
    match store.directory with
    | none => (.error (404, "Upload not found, id: " ++ env.uploadId), store)
    | some parts =>
      let received := { store with object := store.object.map Object.receive }
      match req.written with
      | none => (.error (500, "Could not write upload part"), received)
      | some count =>
        (.ok req.body.length,
          { received with
            directory := some (writeFile (partFileName partNumber) (req.body.take count) parts) })

/-! ### The completion -/

/-- What a call of complete-upload finds, and the names that are made for it. -/
structure Completion where
  bucket : Option Bucket
  denied : Option Refusal
  storageDir : Option String
  internalName : String
  ern : String
  versionId : String
  ivs : Ivs
  faults : Faults

/-- The assembled file, the size and the checksum that are taken on the way, and the content
type. -/
structure Assembled where
  file : Bytes
  size : ℕ
  md5Sum : String
  contentType : String

def inNameOrder (parts : List PartFile) : List PartFile :=
  parts.insertionSort fun first second => first.1 ≤ second.1

def assembleClear (env : Env) (faults : Faults) (parts : List PartFile) : Option Assembled :=
  if faults.opensTarget = false then none
  else
    match faults.copyParts parts [] with
    | none => none
    | some assembled =>
      if faults.closesTarget = false ∨ faults.opensAssembled = false then none
      else some
        { file := assembled
          size := assembled.length
          md5Sum := env.md5 (faults.readBack assembled)
          contentType :=
            if faults.sniffs then
              env.detect (assembled.take kContentTypeSniffBytes) env.key
            else "application/octet-stream" }

def assembleEncrypted (env : Env) (ivs : Ivs) (faults : Faults) (material : Bytes)
    (parts : List PartFile) : Option Assembled :=
  let pieces := parts.flatMap faults.piecesOf
  if faults.opensTarget = false ∨ faults.closesTarget = false then none
  else
    match ObjectEncryptor.encryptPieces env.gcm ivs material pieces with
    | .error _ => none
    | .ok (size, file) => some
        { file := file
          size := size
          md5Sum := env.md5 pieces.flatten
          contentType :=
            env.detect (pieces.flatten.take kContentTypeSniffBytes) env.key }

def assemble (env : Env) (completion : Completion) (material : Bytes)
    (parts : List PartFile) : Option Assembled :=
  if material = [] then assembleClear env completion.faults parts
  else assembleEncrypted env completion.ivs completion.faults material parts

inductive PassEnd where
  | gaveUp
  | unchanged
  | stored
  deriving DecidableEq

/-- The row that the pass writes. -/
def completedObject (env : Env) (completion : Completion) (bucket : Bucket)
    (internalDir : String) (assembled : Assembled) : Object :=
  { Object.blank with
    bucketErn := env.bucketErn
    key := env.key
    internalName := completion.internalName
    internalDir := internalDir
    ern := completion.ern
    size := assembled.size
    status := .completed
    directory := isDirectoryKey env.key
    contentType := assembled.contentType
    md5Sum := assembled.md5Sum
    encryptionKeyErn := bucket.encryptionKeyErn
    versionId := if bucket.versioning then completion.versionId else "" }

/-- The row gets its status back, if it is still the one that was there. -/
def backTo (existing : Object) (current : Object) : Object :=
  if current.internalName = existing.internalName then { current with status := existing.status }
  else current

/-- The background pass. `existing` is the row as it was before the call, `store` as the call left
it. -/
def backgroundPass (env : Env) (completion : Completion) (bucket : Bucket)
    (material : Bytes) (internalDir : String) (parts : List PartFile) (existing : Option Object)
    (store : Store) : PassEnd × Store :=
  match assemble env completion material parts with
  | none => (.gaveUp, store)
  | some assembled =>
    match decideUploadOutcome bucket.versioning existing assembled.md5Sum with
    | .unchanged =>
      (.unchanged,
        { store with
          directory := none
          object :=
            store.object.map fun current => (existing.map (backTo · current)).getD current })
    | outcome =>
      if completion.faults.persists = false then (.gaveUp, store)
      else
        let object := completedObject env completion bucket internalDir assembled
        let files := Function.update store.files object.place (some assembled.file)
        (.stored,
          { directory := none
            object := some object
            files :=
              match outcome, existing with
              | .replace, some previous =>
                if previous.internalName ≠ object.internalName then removeObjectFile files previous
                else files
              | _, _ => files })

/-- The row is marked while the pass runs. -/
def Store.accept (store : Store) : Store :=
  { store with object := store.object.map fun object => { object with status := .uploaded } }

/-- `handleCompleteUpload`: the size that is answered, and the end of the pass behind it. -/
def handleCompleteUpload (env : Env) (completion : Completion) (store : Store) :
    Except Refusal (ℕ × PassEnd) × Store :=
  match store.directory with
  | none => (.error (404, "Upload not found, id: " ++ env.uploadId), store)
  | some directory =>
    match completion.bucket with
    | none => (.error (404, "Bucket not found, ern: " ++ env.bucketErn), store)
    | some bucket =>
      match completion.denied with
      | some refusal => (.error refusal, store)
      | none =>
        match writeKeyForBucket env.keys bucket with
        | .error msg => (.error (409, msg), store)
        | .ok material =>
          let parts := inNameOrder directory
          if parts = [] then
            (.error (400, "Upload has no parts, id: " ++ env.uploadId), store)
          else
            match completion.storageDir with
            | none => (.error (500, "Could not store object"), store)
            | some internalDir =>
              let pass := backgroundPass env completion bucket material internalDir parts
                store.object store.accept
              (.ok ((parts.map fun part => part.2.length).sum, pass.1), pass.2)

end Euclid.Esm
