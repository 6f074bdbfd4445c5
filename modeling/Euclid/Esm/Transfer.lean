/-
This file translates `transferObject` with everything in it that the store or the files may refuse,
and shows when a move leaves an object under one key with its versions.

The row of the source is deleted before the row of the target is written, and the versions are moved
behind both. A listing, a deletion and a move of versions that fail are only logged; a row that
cannot be written ends the call there.
-/

import Euclid.Esm.Completion

namespace Euclid.Esm

open List Option Function

open Core (Text Ivs ValidKey)
open Core.ObjectCipher (decryptWholeFile transcode)

/-! ### The call -/

/-- A call of copy-object, move-object or rename-object, with the names that are made for it. -/
structure Transfer where
  sourceBucketErn : String
  sourceKey : Text
  targetBucketErn : String
  targetKey : Text
  keepSource : Bool
  accountId : String
  denied : Bool
  storageDir : Option String
  internalName : String
  ern : String
  versionId : String
  ivs : Ivs

/-- Which steps of a call work. A lookup that fails finds nothing; `looks` is that of the target,
and `finds` stands for the others. -/
structure TransferSteps where
  finds : Bool
  looks : Bool
  lists : Bool
  writes : Bool
  persists : Bool
  deletes : Bool
  upserts : Bool
  moves : Bool
  removes : Bool

def TransferSteps.all : TransferSteps := ⟨true, true, true, true, true, true, true, true, true⟩

/-- What a call that is not refused goes on with. There is a file if the bytes are written anew. -/
structure TransferPlan where
  source : Object
  target : Object
  sourceVersions : List Object
  file : Option Bytes

open TransferPlan

/-- The bytes of the target: encrypted anew, or a copy. -/
def Transfer.content (env : Env) (req : Transfer) (reEncrypt : Bool)
    (sourceMaterial targetMaterial : Bytes) (source : Object) (stored : Bytes) : Option Bytes :=
  if reEncrypt then
    ((transcode env.gcm req.ivs sourceMaterial stored source.internalName targetMaterial
      req.internalName).toOption).map Prod.snd
  else some stored

/-- `transferObject` before it changes a row. -/
def Transfer.checked (env : Env) (steps : TransferSteps) (req : Transfer)
    (before : Installation) : Option TransferPlan := do
  guard (req.sourceBucketErn ≠ "" ∧ req.sourceKey ≠ [])
  guard (req.targetBucketErn ≠ "" ∧ req.targetKey ≠ [])
  guard ((req.sourceBucketErn, req.sourceKey) ≠ (req.targetBucketErn, req.targetKey))
  guard (steps.finds = true)
  let sourceBucket ← findBucketByErn before.buckets req.sourceBucketErn
  let targetBucket ← findBucketByErn before.buckets req.targetBucketErn
  guard (sourceBucket.accountId = req.accountId ∧ targetBucket.accountId = req.accountId)
  guard (req.denied = false)
  let source ← findObjectByBucketAndKey before.objects req.sourceBucketErn req.sourceKey
  guard (source.lifecycleState ≠ .archived)
  guard (steps.looks = true →
    findObjectByBucketAndKey before.objects req.targetBucketErn req.targetKey = none)
  let sourceMaterial ← (readKeyForObject env.keys source.encryptionKeyErn).toOption
  let targetMaterial ← (writeKeyForBucket env.keys targetBucket).toOption
  let reEncrypt : Bool := source.encryptionKeyErn ≠ targetBucket.encryptionKeyErn
  let sourceVersions :=
    if req.keepSource ∨ steps.lists = false then []
    else listObjectVersions before.versions source.ern
  guard (req.keepSource ∨ reEncrypt = false ∨ sourceVersions = [])
  let target := { source with
    bucketErn := req.targetBucketErn
    key := req.targetKey
    ern := req.ern
    encryptionKeyErn := targetBucket.encryptionKeyErn
    versionId :=
      if req.keepSource then (if targetBucket.versioning then req.versionId else "")
      else source.versionId }
  if req.keepSource ∨ reEncrypt then do
    let internalDir ← req.storageDir
    guard (steps.writes = true)
    let stored ← before.files source.place
    let file ← req.content env reEncrypt sourceMaterial targetMaterial source stored
    guard (steps.persists = true)
    return ⟨source, { target with internalName := req.internalName, internalDir := internalDir },
      sourceVersions, some file⟩
  else return ⟨source, target, sourceVersions, none⟩

/-- The rows when that of the target is written. -/
def TransferPlan.rows (plan : TransferPlan) (steps : TransferSteps) (keepSource : Bool)
    (before : Installation) : Objects :=
  if keepSource ∨ steps.deletes = false then before.objects
  else deleteObjectByErn before.objects plan.source.ern

def Installation.adjust (installation : Installation) (bucketErn : String)
    (sizeDelta objectDelta directoryDelta : Int) : Installation :=
  { installation with
    buckets := adjustBucketCounters bucketErn sizeDelta objectDelta directoryDelta
      installation.buckets }

def transferObject (env : Env) (steps : TransferSteps) (req : Transfer)
    (before : Installation) : Installation :=
  match req.checked env steps before with
  | none => before
  | some plan =>
    let source := plan.source
    let target := plan.target
    let rows := plan.rows steps req.keepSource before
    let files :=
      match plan.file with
      | some file => Function.update before.files target.place (some file)
      | none => before.files
    match if steps.upserts then upsertObject rows target else none with
    | none => { before with objects := rows, files := files }
    | some objects =>
      let stored := { before with
        objects := objects
        versions :=
          if req.keepSource = false ∧ plan.sourceVersions ≠ [] ∧ steps.moves then
            moveObjectVersions before.versions source.ern target.bucketErn target.key target.ern
          else before.versions
        files :=
          if req.keepSource = false ∧ plan.file.isSome ∧ steps.removes then
            removeObjectFile files source
          else files }
      let arrived :=
        if isDirectoryKey target.key then stored.adjust target.bucketErn 0 0 1
        else stored.adjust target.bucketErn target.size 1 0
      if req.keepSource then arrived
      else if isDirectoryKey source.key then arrived.adjust source.bucketErn 0 0 (-1)
      else arrived.adjust source.bucketErn (-target.size) (-1) 0

/-! ### What is read -/

/-- The bytes that the file of an object gives under the object's key. -/
def Env.bytesOf (env : Env) (files : Place → Option Bytes) (object : Object) : Option Bytes := do
  let material ← (readKeyForObject env.keys object.encryptionKeyErn).toOption
  let file ← files object.place
  (decryptWholeFile env.gcm material file object.internalName).toOption

/-- A key gives out the bytes, and they have the size that its row says. -/
def Installation.Reads (installation : Installation) (env : Env) (bucketErn : String)
    (key : Text) (bytes : Bytes) : Prop :=
  ∃ object, findObjectByBucketAndKey installation.objects bucketErn key = some object ∧
    object.status = .completed ∧ object.lifecycleState ≠ .archived ∧
    env.bytesOf installation.files object = some bytes ∧ object.size = bytes.length

/-- The versions that were kept under one ERN are all kept under another, and no longer under the
one. -/
def Follow (before after : List Object) (oldErn newErn : String) : Prop :=
  (∀ version ∈ before, version.ern = oldErn → ∃ kept ∈ after, kept.ern = newErn ∧
    kept.versionId = version.versionId ∧ kept.place = version.place) ∧
  (oldErn ≠ newErn → ∀ version ∈ after, version.ern ≠ oldErn)

/-- The bytes are read under one of the two keys and not under the other, and the versions are with
them. -/
def Transfer.Whole (env : Env) (req : Transfer) (ern : String) (bytes : Bytes)
    (before after : Installation) : Prop :=
  (after.Reads env req.sourceBucketErn req.sourceKey bytes ∧
    ¬after.Reads env req.targetBucketErn req.targetKey bytes ∧
    Follow before.versions after.versions ern ern) ∨
  (¬after.Reads env req.sourceBucketErn req.sourceKey bytes ∧
    after.Reads env req.targetBucketErn req.targetKey bytes ∧
    Follow before.versions after.versions ern req.ern)

/-! ### What a call that goes on has read -/

variable {env : Env} {steps : TransferSteps} {req : Transfer} {before : Installation}
  {plan : TransferPlan}

/-- A file that is transcoded gives the bytes of the one that it is made of. -/
theorem transcode_reads {gcm : Core.Gcm} (lawful : gcm.Lawful) {ivs : Ivs}
    {sourceKey source targetKey target plaintext : Bytes} {path targetPath : String} {length : ℕ}
    (valid : targetKey ≠ [] → ValidKey targetKey)
    (done : transcode gcm ivs sourceKey source path targetKey targetPath = .ok (length, target))
    (reads : decryptWholeFile gcm sourceKey source path = .ok plaintext) (other : String) :
    decryptWholeFile gcm targetKey target other = .ok plaintext := by
  unfold decryptWholeFile at reads
  unfold transcode at done
  cases streams : Core.ObjectCipher.streamPlaintext gcm sourceKey source path with
  | error failed => rw [streams] at done; exact absurd done (by simp [bind, Except.bind])
  | ok pieces =>
    rw [streams, Core.ObjectCipher.ok_bind] at done reads
    obtain rfl : pieces.flatten = plaintext := Except.ok.inj reads
    by_cases clear : targetKey = []
    · subst clear
      rw [if_pos rfl] at done
      split at done
      · obtain rfl : pieces.flatten = target := (Prod.mk.inj (Except.ok.inj done)).2
        exact congrArg Except.ok (flatten_chunks Core.kChunkSize_pos _)
      · exact absurd done (by simp [throw, throwThe, MonadExceptOf.throw])
    · rw [if_neg clear, Core.encryptPieces_eq lawful (valid clear)] at done
      split at done
      · rename_i fits
        obtain rfl := (Prod.mk.inj (Except.ok.inj done)).2
        rw [Core.stored_length lawful.toSized] at fits
        exact (Core.stored_readsBack lawful (valid clear) fits).whole other
      · nomatch done

theorem ok_of_toOption {Fault Result : Type} {answer : Except Fault Result} {result : Result}
    (some : answer.toOption = .some result) : answer = .ok result := by
  cases answer with
  | error fault => exact absurd some (by simp [Except.toOption])
  | ok other => exact congrArg Except.ok (Option.some.inj some)

/-- What a move knows that is not refused: its rows and its versions, and what its file gives. -/
structure TransferPlan.Of (env : Env) (steps : TransferSteps) (req : Transfer)
    (before : Installation) (plan : TransferPlan) : Prop where
  apart : (req.sourceBucketErn, req.sourceKey) ≠ (req.targetBucketErn, req.targetKey)
  found : findObjectByBucketAndKey before.objects req.sourceBucketErn req.sourceKey =
    some plan.source
  address : plan.target.address = (req.targetBucketErn, req.targetKey)
  ern : plan.target.ern = req.ern
  status : plan.target.status = plan.source.status
  size : plan.target.size = plan.source.size
  versions : plan.sourceVersions =
    if steps.lists then listObjectVersions before.versions plan.source.ern else []
  kept : plan.file = none → ∀ files, env.bytesOf files plan.target = env.bytesOf files plan.source
  written : plan.file ≠ none → plan.target.internalName = req.internalName ∧
    plan.sourceVersions = []
  reads : ∀ file bytes files, plan.file = some file →
    env.bytesOf before.files plan.source = some bytes →
    files plan.target.place = some file → env.bytesOf files plan.target = some bytes

theorem Transfer.checked_of (move : req.keepSource = false)
    (checked : req.checked env steps before = some plan) : plan.Of env steps req before := by
  simp only [Transfer.checked, bind_eq_bind, bind_eq_some_iff, guard_eq_some',
    move, Bool.false_eq_true, false_or, if_false] at checked
  obtain ⟨-, -, -, -, -, apart, -, -, sourceBucket, -, targetBucket, -, -, -, -, -,
    source, found, -,
    -, -, -, sourceMaterial, readable, targetMaterial, usable, -, kept, done⟩ := checked
  have listed :
    (if steps.lists = false then [] else listObjectVersions before.versions source.ern) =
      if steps.lists then listObjectVersions before.versions source.ern else [] := by
    cases steps.lists <;> rfl
  rw [listed] at kept done
  by_cases same : source.encryptionKeyErn = targetBucket.encryptionKeyErn
  · rw [if_neg (by simp [same])] at done
    obtain rfl := some.inj done
    exact ⟨apart, found, rfl, rfl, rfl, rfl, rfl,
      fun _ files => by simp only [Env.bytesOf, same]; rfl,
      fun file => absurd rfl file, nofun⟩
  rw [if_pos (by simp [same])] at done
  simp only [bind_eq_some_iff, guard_eq_some'] at done
  obtain ⟨internalDir, -, -, -, stored, present, file, content, -, -, rest⟩ := done
  obtain rfl := some.inj rest
  refine ⟨apart, found, rfl, rfl, rfl, rfl, rfl, nofun,
    fun _ => ⟨rfl, kept.resolve_left (by simp [same])⟩, ?_⟩
  rintro _ bytes files ⟨⟩ reads placed
  rw [Transfer.content, if_pos (by simp [same]), map_eq_some_iff] at content
  obtain ⟨⟨length, target⟩, done, rfl⟩ := content
  have key := readKey_of_writeKey (ok_of_toOption usable)
  simp only [Env.bytesOf, bind_eq_bind, readable, present, bind_some] at reads
  have whole := transcode_reads env.lawful key.2 (ok_of_toOption done) (ok_of_toOption reads)
    req.internalName
  simp only [Env.bytesOf, bind_eq_bind, key.1, placed, Except.toOption, bind_some]
  rw [whole]

/-! ### What a move leaves -/

variable {objects : Objects} {object : Object}

theorem mem_deleteObjectByErn {ern : String} :
    object ∈ deleteObjectByErn objects ern ↔ object ∈ objects ∧ object.ern ≠ ern := by
  show object ∈ objects.documents.filter _ ↔ _
  rw [mem_filter, decide_eq_true_iff, mem_singleton]
  exact Iff.rfl

namespace TransferPlan

/-- Whether the store takes the row of the target. -/
def Stored (steps : TransferSteps) (before : Installation) (plan : TransferPlan) : Prop :=
  steps.upserts = true ∧ ¬(plan.rows steps false before).IsTaken plan.target

/-- An archived object that nobody saw is under the key of the target. -/
def Hidden (steps : TransferSteps) (before : Installation) (plan : TransferPlan) : Prop :=
  ∃ other ∈ plan.rows steps false before,
    other.address = plan.target.address ∧ other.lifecycleState = .archived

/-- The file of the source goes, because the bytes are written anew. -/
def Dropped (steps : TransferSteps) (plan : TransferPlan) : Prop :=
  plan.file ≠ none ∧ steps.removes = true ∧ plan.source.internalName ≠ ""

def files (before : Installation) (plan : TransferPlan) : Place → Option Bytes :=
  match plan.file with
  | some file => Function.update before.files plan.target.place (some file)
  | none => before.files

variable {bytes : Bytes} (of : plan.Of env steps req before)

include of

theorem Of.bytesOf_files {object : Object} (new : object.internalName ≠ req.internalName) :
    env.bytesOf (plan.files before) object = env.bytesOf before.files object := by
  unfold files
  split
  · rename_i file written
    have name := (of.written (by simp [written])).1
    have apart : object.place ≠ plan.target.place := fun same =>
      new ((congrArg Prod.snd same).trans name)
    simp only [Env.bytesOf, update_of_ne apart]
  · rfl

theorem Of.bytesOf_target (reads : env.bytesOf before.files plan.source = some bytes) :
    env.bytesOf (plan.files before) plan.target = some bytes := by
  unfold files
  split
  · rename_i file written
    exact of.reads file bytes _ written reads (update_self ..)
  · rename_i kept
    rw [of.kept kept, reads]

theorem Of.bytesOf_removed
    (new : plan.source.internalName ≠ req.internalName) (written : plan.file ≠ none)
    (files : Place → Option Bytes) :
    env.bytesOf (removeObjectFile files plan.source) plan.target =
      env.bytesOf files plan.target := by
  have apart : plan.target.place ≠ plan.source.place := fun same =>
    new ((congrArg Prod.snd same).symm.trans (of.written written).1)
  unfold removeObjectFile
  split
  · rfl
  · simp only [Env.bytesOf, update_of_ne apart]

omit of

theorem bytesOf_source_removed (named : plan.source.internalName ≠ "")
    (files : Place → Option Bytes) :
    env.bytesOf (removeObjectFile files plan.source) plan.source = none := by
  unfold removeObjectFile
  rw [if_neg named]
  simp only [Env.bytesOf, update_self]
  cases (readKeyForObject env.keys plan.source.encryptionKeyErn).toOption <;> rfl

end TransferPlan

section

variable (move : req.keepSource = false) (checked : req.checked env steps before = some plan)

include move checked

theorem transferObject_of_stored (stored : plan.Stored steps before) :
    let rows := plan.rows steps false before
    let after := transferObject env steps req before
    (∃ free, after.objects = rows.put (upsertedObject rows plan.target) free) ∧
      after.versions = (if plan.sourceVersions ≠ [] ∧ steps.moves then
        moveObjectVersions before.versions plan.source.ern plan.target.bucketErn
          plan.target.key plan.target.ern else before.versions) ∧
      after.files = if plan.file ≠ none ∧ steps.removes then
        removeObjectFile (plan.files before) plan.source
        else plan.files before := by
  obtain ⟨upserts, free⟩ := stored
  have taken : upsertObject (plan.rows steps false before) plan.target =
      some ((plan.rows steps false before).put
        (upsertedObject (plan.rows steps false before) plan.target) free) :=
    dif_pos free
  intro rows after
  have written : plan.file.isSome ↔ plan.file ≠ none := isSome_iff_ne_none
  dsimp only [after, rows, transferObject]
  rw [checked]
  dsimp only
  rw [move, if_pos upserts, taken]
  simp only [Bool.false_eq_true, if_false, true_and, written]
  split <;> split <;> exact ⟨⟨free, rfl⟩, rfl, rfl⟩

theorem transferObject_of_refused (refused : ¬plan.Stored steps before) :
    transferObject env steps req before =
      { before with
        objects := plan.rows steps false before
        files := plan.files before } := by
  have none : (if steps.upserts then
      upsertObject (plan.rows steps false before) plan.target else none) = .none := by
    split
    · rename_i upserts
      exact dif_neg fun free => refused ⟨upserts, free⟩
    · rfl
  unfold transferObject
  rw [checked]
  dsimp only
  rw [move, none]
  rfl

end

/-! ### When a move is whole -/

variable {bucketErn : String} {key : Text}

theorem find_eq_some :
    findObjectByBucketAndKey objects bucketErn key = some object ↔
      object ∈ objects ∧ object.address = (bucketErn, key) :=
  Catalog.find?_eq_some

namespace TransferPlan

theorem mem_rows {object : Object} : object ∈ plan.rows steps false before ↔
    object ∈ before.objects ∧ (steps.deletes = true → object.ern ≠ plan.source.ern) := by
  unfold rows
  cases steps.deletes with
  | false => simp
  | true =>
    rw [if_neg (by simp), mem_deleteObjectByErn]
    simp

variable {bytes : Bytes}

theorem Of.mem_rows_source (of : plan.Of env steps req before) {object : Object} :
    (object ∈ plan.rows steps false before ∧
      object.address = (req.sourceBucketErn, req.sourceKey)) ↔
      steps.deletes = false ∧ object = plan.source := by
  have source := find_eq_some.mp of.found
  rw [mem_rows]
  constructor
  · rintro ⟨⟨mem, kept⟩, address⟩
    obtain rfl := Catalog.key_inj mem source.1 (address.trans source.2.symm)
    exact ⟨Bool.eq_false_iff.mpr fun deletes => kept deletes rfl, rfl⟩
  · rintro ⟨stays, rfl⟩
    exact ⟨⟨source.1, fun deletes => absurd deletes (by simp [stays])⟩, source.2⟩

variable (of : plan.Of env steps req before) (move : req.keepSource = false)
  (checked : req.checked env steps before = some plan)
  (reads : before.Reads env req.sourceBucketErn req.sourceKey bytes)
  (other : ¬before.Reads env req.targetBucketErn req.targetKey bytes)
  (new : ∀ object ∈ before.objects, object.internalName ≠ req.internalName)

include of reads in
theorem source_reads : plan.source.status = .completed ∧ plan.source.lifecycleState ≠ .archived ∧
    env.bytesOf before.files plan.source = some bytes ∧ plan.source.size = bytes.length := by
  obtain ⟨object, found, rest⟩ := reads
  obtain rfl := some.inj (of.found.symm.trans found)
  exact rest

include of move checked reads other new in
theorem reads_of_refused (refused : ¬plan.Stored steps before) :
    let after := transferObject env steps req before
    (after.Reads env req.sourceBucketErn req.sourceKey bytes ↔ steps.deletes = false) ∧
      ¬after.Reads env req.targetBucketErn req.targetKey bytes ∧
      after.versions = before.versions := by
  rw [transferObject_of_refused move checked refused]
  refine ⟨⟨?_, fun stays => ?_⟩, ?_, rfl⟩
  · rintro ⟨object, found, -⟩
    exact (of.mem_rows_source.mp (find_eq_some.mp found)).1
  · have source := source_reads of reads
    have there := of.mem_rows_source.mpr ⟨stays, rfl⟩
    refine ⟨_, find_eq_some.mpr there, source.1, source.2.1, ?_, source.2.2.2⟩
    rw [of.bytesOf_files (new _ (mem_rows.mp there.1).1), source.2.2.1]
  · rintro ⟨object, found, completed, standard, content, size⟩
    have there := find_eq_some.mp found
    have mem := (mem_rows.mp there.1).1
    rw [of.bytesOf_files (new object mem)] at content
    exact other ⟨object, find_eq_some.mpr ⟨mem, there.2⟩, completed, standard, content, size⟩

include of move checked reads new in
/-- A row that is written: the target gives out the bytes, unless an archived object was there, and
the source does so too if its row and its file are left. -/
theorem reads_of_stored (stored : plan.Stored steps before) :
    let after := transferObject env steps req before
    (after.Reads env req.sourceBucketErn req.sourceKey bytes ↔
      steps.deletes = false ∧ ¬plan.Dropped steps) ∧
      (after.Reads env req.targetBucketErn req.targetKey bytes ↔ ¬plan.Hidden steps before) := by
  intro after
  obtain ⟨⟨free, objects⟩, -, files⟩ := transferObject_of_stored move checked stored
  have source := source_reads of reads
  have mine := find_eq_some.mp of.found
  have fresh := new _ mine.1
  constructor
  · constructor
    · rintro ⟨object, found, -, -, content, -⟩
      rw [objects, find_eq_some, Catalog.mem_put] at found
      rcases found with ⟨rfl | ⟨mem, -⟩, address⟩
      · exact absurd (of.address.symm.trans address).symm of.apart
      · obtain ⟨stays, rfl⟩ := of.mem_rows_source.mp ⟨mem, address⟩
        refine ⟨stays, fun ⟨written, removes, named⟩ => ?_⟩
        rw [files, if_pos ⟨written, removes⟩, bytesOf_source_removed named] at content
        nomatch content
    · rintro ⟨stays, held⟩
      have there := of.mem_rows_source.mpr ⟨stays, rfl⟩
      refine ⟨_, ?_, source.1, source.2.1, ?_, source.2.2.2⟩
      · rw [objects, find_eq_some, Catalog.mem_put]
        refine ⟨.inr ⟨there.1, fun same => of.apart ?_⟩, there.2⟩
        exact (there.2.symm.trans same).trans of.address
      · rw [files]
        split
        · rename_i removed
          have unnamed : plan.source.internalName = "" :=
            not_not.mp fun named => held ⟨removed.1, removed.2, named⟩
          rw [removeObjectFile, if_pos unnamed, of.bytesOf_files fresh, source.2.2.1]
        · rw [of.bytesOf_files fresh, source.2.2.1]
  · have found : findObjectByBucketAndKey after.objects req.targetBucketErn req.targetKey =
        some (upsertedObject (plan.rows steps false before) plan.target) := by
      rw [objects, find_eq_some]
      exact ⟨Catalog.mem_put_self free, of.address⟩
    have content : env.bytesOf after.files plan.target = some bytes := by
      rw [files]
      split
      · rename_i removed
        rw [of.bytesOf_removed fresh removed.1, of.bytesOf_target source.2.2.1]
      · exact of.bytesOf_target source.2.2.1
    have target := of.address
    constructor
    · rintro ⟨object, found', -, standard, -⟩ ⟨old, there, address, archived⟩
      obtain rfl := some.inj (found.symm.trans found')
      refine standard ?_
      have earlier : findObjectByBucketAndKey (plan.rows steps false before)
          plan.target.bucketErn plan.target.key = some old :=
        find_eq_some.mpr ⟨there, address⟩
      simp only [upsertedObject, Object.keepingLifecycle, earlier, getD_some, archived]
    · intro shown
      refine ⟨_, found, of.status.trans source.1, fun archived => shown ?_, content,
        of.size.trans source.2.2.2⟩
      simp only [upsertedObject, Object.keepingLifecycle] at archived
      cases earlier : findObjectByBucketAndKey (plan.rows steps false before)
          plan.target.bucketErn plan.target.key with
      | none => rw [earlier] at archived; exact absurd archived (by decide)
      | some old =>
        rw [earlier] at archived
        have there := find_eq_some.mp earlier
        exact ⟨old, there.1, there.2, archived⟩

end TransferPlan

variable {versions : List Object} {ern newErn : String}

theorem not_listed (none : listObjectVersions versions ern = []) : ∀ version ∈ versions,
    version.ern ≠ ern := fun version mem => by
  simpa using filter_eq_nil_iff.mp none version mem

theorem follow_self {versions : List Object} {ern : String} : Follow versions versions ern ern :=
  ⟨fun version mem same => ⟨version, mem, same, rfl, rfl⟩, fun apart => absurd rfl apart⟩

theorem follow_left_iff : Follow versions versions ern newErn ↔
    listObjectVersions versions ern = [] ∨ ern = newErn := by
  constructor
  · rintro ⟨-, gone⟩
    refine or_iff_not_imp_right.mpr fun apart => filter_eq_nil_iff.mpr fun version mem => ?_
    simpa using gone apart version mem
  · rintro (none | rfl)
    · exact ⟨fun version mem same => absurd same (not_listed none version mem),
        fun _ => not_listed none⟩
    · exact follow_self

theorem follow_moved :
    Follow versions (moveObjectVersions versions ern bucketErn key newErn) ern newErn := by
  refine ⟨fun version mem same => ⟨_, mem_map_of_mem mem, ?_⟩, fun apart version mem => ?_⟩
  · rw [if_pos same]
    exact ⟨rfl, rfl, rfl⟩
  · obtain ⟨old, -, rfl⟩ := mem_map.mp mem
    split
    · exact apart.symm
    · assumption

theorem not_follow_moved (apart : ern ≠ newErn) (some : listObjectVersions versions ern ≠ []) :
    ¬Follow versions (moveObjectVersions versions ern bucketErn key newErn) ern ern := by
  rintro ⟨all, -⟩
  obtain ⟨version, listed⟩ := exists_mem_of_ne_nil _ some
  obtain ⟨mem, same⟩ := mem_filter.mp listed
  obtain ⟨kept, there, stays, -⟩ := all version mem (of_decide_eq_true same)
  exact follow_moved.2 apart kept there stays

/-- Which failures are safe: none that matters; or the row of the source goes, that of the target is
written over no archived object, and the versions, if there are any, are listed and moved; or the
row of the source stays and either that of the target is not written, or only one of the two gives
out the bytes and the versions are with it. -/
def TransferPlan.Safe (steps : TransferSteps) (ern : String) (before : Installation)
    (plan : TransferPlan) : Prop :=
  let versions := listObjectVersions before.versions plan.source.ern
  let moved := steps.lists = true ∧ steps.moves = true
  if steps.deletes then
    plan.Stored steps before ∧ ¬plan.Hidden steps before ∧
      (versions = [] ∨ moved ∨ plan.source.ern = ern)
  else
    ¬plan.Stored steps before ∨
      plan.Hidden steps before ∧ ¬plan.Dropped steps ∧ (versions = [] ∨ ¬moved) ∨
      ¬plan.Hidden steps before ∧ plan.Dropped steps ∧ versions = []

/-- A call is safe that is refused, or that cannot write its file. -/
def Transfer.Safe (env : Env) (steps : TransferSteps) (req : Transfer)
    (before : Installation) : Prop :=
  ∀ plan, req.checked env steps before = some plan → plan.Safe steps req.ern before

/-- The versions follow the row that is written if there are none or they are moved. -/
theorem TransferPlan.follow_iff (of : plan.Of env steps req before)
    (move : req.keepSource = false) (checked : req.checked env steps before = some plan)
    (stored : plan.Stored steps before) :
    let versions := listObjectVersions before.versions plan.source.ern
    let after := transferObject env steps req before
    (Follow before.versions after.versions plan.source.ern req.ern ↔
      versions = [] ∨ (steps.lists = true ∧ steps.moves = true) ∨ plan.source.ern = req.ern) ∧
      (plan.source.ern ≠ req.ern →
        (Follow before.versions after.versions plan.source.ern plan.source.ern ↔
          versions = [] ∨ ¬(steps.lists = true ∧ steps.moves = true))) := by
  intro versions after
  obtain ⟨-, left, -⟩ := transferObject_of_stored move checked stored
  have listed := of.versions
  rw [of.ern] at left
  by_cases moved : plan.sourceVersions ≠ [] ∧ steps.moves = true
  · have lists : steps.lists = true := by
      by_contra failed
      rw [if_neg failed] at listed
      exact moved.1 listed
    rw [if_pos lists] at listed
    have some : versions ≠ [] := fun none => moved.1 (listed.trans none)
    rw [left, if_pos moved]
    refine ⟨iff_of_true follow_moved (.inr (.inl ⟨lists, moved.2⟩)), fun apart => ?_⟩
    exact iff_of_false (not_follow_moved apart some) fun held => held.elim some
      fun not => not ⟨lists, moved.2⟩
  · have none : steps.lists = true ∧ steps.moves = true → versions = [] := fun ⟨lists, moves⟩ => by
      rw [if_pos lists] at listed
      exact not_not.mp fun some => moved ⟨listed ▸ some, moves⟩
    rw [left, if_neg moved, follow_left_iff]
    exact ⟨⟨Or.imp_right .inr, fun held => held.elim .inl (Or.imp_left none)⟩,
      fun _ => iff_of_true follow_self (or_iff_not_imp_right.mpr fun both =>
        none (not_not.mp both))⟩

/-- Whatever steps of a move fail, the object is read under exactly one of the two keys afterwards
and its versions are with it, if and only if the failures are safe. -/
theorem transferObject_whole_iff (env : Env) (steps : TransferSteps) (req : Transfer)
    (before : Installation) {source : Object} {bytes : Bytes} (move : req.keepSource = false)
    (found : findObjectByBucketAndKey before.objects req.sourceBucketErn
      req.sourceKey = some source)
    (reads : before.Reads env req.sourceBucketErn req.sourceKey bytes)
    (other : ¬before.Reads env req.targetBucketErn req.targetKey bytes)
    (new : ∀ object ∈ before.objects, object.internalName ≠ req.internalName) :
    req.Whole env source.ern bytes before (transferObject env steps req before) ↔
      req.Safe env steps before := by
  cases checked : req.checked env steps before with
  | none =>
    have same : transferObject env steps req before = before := by
      unfold transferObject
      rw [checked]
    rw [same]
    refine iff_of_true (.inl ⟨reads, other, follow_self⟩) fun plan goesOn => ?_
    exact absurd (checked.symm.trans goesOn) (by simp)
  | some plan =>
    have of := Transfer.checked_of move checked
    obtain rfl := some.inj (of.found.symm.trans found)
    have safe : req.Safe env steps before ↔ plan.Safe steps req.ern before := by
      refine ⟨fun all => all plan checked, fun safe again checked' => ?_⟩
      rwa [some.inj (checked'.symm.trans checked)]
    rw [safe]
    unfold Transfer.Whole Safe
    dsimp only
    by_cases stored : plan.Stored steps before
    · have follow := follow_iff of move checked stored
      obtain ⟨fromSource, fromTarget⟩ :=
        reads_of_stored of move checked reads new stored
      rw [fromSource, fromTarget, follow.1]
      by_cases deletes : steps.deletes = true
      · rw [if_pos deletes, deletes]
        simp [stored]
      · have stays := Bool.eq_false_iff.mpr deletes
        have apart : plan.source.ern ≠ req.ern := fun same =>
          have there := of.mem_rows_source.mpr ⟨stays, rfl⟩
          stored.2
            ⟨_, there.1, fun address => of.apart ((there.2.symm.trans address).trans of.address),
            same.trans of.ern.symm⟩
        have dropped : plan.Dropped steps → (steps.lists = true ∧ steps.moves = true) →
            listObjectVersions before.versions plan.source.ern = [] :=
          fun held both => by
            have none := (of.written held.1).2
            rwa [of.versions, if_pos both.1] at none
        rw [if_neg deletes, follow.2 apart, stays]
        by_cases hidden : plan.Hidden steps before
        · constructor
          · rintro (⟨⟨-, kept⟩, -, follows⟩ | ⟨-, shown, -⟩)
            · exact .inr (.inl ⟨hidden, kept, follows⟩)
            · exact absurd hidden shown
          · rintro (refused | ⟨-, kept, follows⟩ | ⟨shown, -⟩)
            · exact absurd stored refused
            · exact .inl ⟨⟨rfl, kept⟩, not_not.mpr hidden, follows⟩
            · exact absurd hidden shown
        · constructor
          · rintro (⟨-, hides, -⟩ | ⟨gone, -, follows⟩)
            · exact absurd hidden hides
            · have held : plan.Dropped steps := by_contra fun kept => gone ⟨rfl, kept⟩
              refine .inr (.inr ⟨hidden, held, ?_⟩)
              rcases follows with none | both | same
              exacts [none, dropped held both, absurd same apart]
          · rintro (refused | ⟨hides, -⟩ | ⟨-, held, none⟩)
            · exact absurd stored refused
            · exact absurd hides hidden
            · exact .inr ⟨fun ⟨_, kept⟩ => kept held, hidden, .inl none⟩
    · obtain ⟨fromSource, notTarget, versions⟩ :=
        reads_of_refused of move checked reads other new stored
      rw [fromSource, versions]
      by_cases deletes : steps.deletes = true
      · rw [if_pos deletes, deletes]
        simp [stored, notTarget]
      · rw [if_neg deletes, Bool.eq_false_iff.mpr deletes]
        exact iff_of_true (.inl ⟨rfl, notTarget, follow_self⟩) (.inl stored)

/-! ### A renaming -/

namespace Renaming

def bucket : Bucket where
  name := "files"
  ern := "ern:esm:bucket:files"
  accountId := "100000000001"
  nameSpace := ""
  encryptionKeyErn := ""
  versioning := false
  maxVersions := 0
  size := 2
  objects := 1
  directories := 0

def source : Object :=
  { Object.blank with
    bucketErn := bucket.ern
    key := "old".toList
    internalName := "0f0e0d0c-0b0a-4908-8706-050403020100"
    ern := "ern:esm:object:files/old"
    size := 2
    status := .completed }

def start : Installation where
  objects := ⟨[source], nodup_singleton _, nodup_singleton _⟩
  versions := []
  buckets := [bucket]
  jobs := []
  files place := if place = source.place then some [97, 98] else none

def call : Transfer where
  sourceBucketErn := bucket.ern
  sourceKey := "old".toList
  targetBucketErn := bucket.ern
  targetKey := "new".toList
  keepSource := false
  accountId := "100000000001"
  denied := false
  storageDir := some ""
  internalName := "6f1d2c3a-0b4e-4a7d-9c58-1e2f3a4b5c6d"
  ern := "ern:esm:object:files/new"
  versionId := ""
  ivs := .zeros

def renamed : TransferPlan where
  source := source
  target := { source with key := "new".toList, ern := call.ern }
  sourceVersions := []
  file := none

theorem checked (upserts : Bool) :
    call.checked TwoBytes.env { TransferSteps.all with upserts := upserts } start = some renamed :=
  rfl

theorem reads : start.Reads TwoBytes.env call.sourceBucketErn call.sourceKey [97, 98] :=
  ⟨source, rfl, rfl, by decide, rfl, rfl⟩

theorem other : ¬start.Reads TwoBytes.env call.targetBucketErn call.targetKey [97, 98] := by
  rintro ⟨object, found, -⟩
  have none : findObjectByBucketAndKey start.objects call.targetBucketErn
    call.targetKey = none := rfl
  exact absurd (none.symm.trans found) (by simp)

theorem new : ∀ object ∈ start.objects, object.internalName ≠ call.internalName := by
  intro object mem
  obtain rfl : object = source := mem_singleton.mp mem
  decide

end Renaming

open Renaming in
theorem renaming_is_whole : call.Whole TwoBytes.env source.ern [97, 98] start
    (transferObject TwoBytes.env .all call start) := by
  refine (transferObject_whole_iff TwoBytes.env .all call start rfl rfl reads other new).mpr
    fun plan goesOn => ?_
  obtain rfl := some.inj ((Renaming.checked true).symm.trans goesOn)
  have deleted (object : Object) : object ∉ (renamed.rows .all false start).documents :=
    not_mem_nil
  exact ⟨⟨rfl, fun ⟨object, there, _⟩ => deleted object there⟩,
    fun ⟨object, there, _⟩ => deleted object there, .inl rfl⟩

open Renaming in
/-- The row of the target cannot be written, and that of the source is gone already. -/
theorem unwritten_target_loses_object :
    ¬∀ (env : Env) (steps : TransferSteps) (req : Transfer) (before : Installation)
      (source : Object) (bytes : Bytes), req.keepSource = false →
      findObjectByBucketAndKey before.objects req.sourceBucketErn req.sourceKey = some source →
      before.Reads env req.sourceBucketErn req.sourceKey bytes →
      ¬before.Reads env req.targetBucketErn req.targetKey bytes →
      (∀ object ∈ before.objects, object.internalName ≠ req.internalName) →
      req.Whole env source.ern bytes before (transferObject env steps req before) := by
  intro always
  have whole := always TwoBytes.env { TransferSteps.all with upserts := false } call start source
    [97, 98] rfl rfl reads other new
  obtain ⟨fromSource, notTarget, -⟩ := reads_of_refused
    (Transfer.checked_of rfl (Renaming.checked false)) rfl (Renaming.checked false) reads other new
    fun stored => absurd stored.1 (by decide)
  rcases whole with ⟨source, -⟩ | ⟨-, target, -⟩
  · exact absurd (fromSource.mp source) (by decide)
  · exact notTarget target

end Euclid.Esm
