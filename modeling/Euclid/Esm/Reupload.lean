/-
This file follows an upload in parts to a key that holds an object already, and shows when the key
stays readable until the new object is stored.

A run may end in every state that it goes through. A lookup that fails finds nothing.
-/

import Euclid.Esm.Completion

namespace Euclid.Esm

open List Option

open Core (Text)

/-! ### The calls -/

/-- `upsertObject`, on the row of the key. -/
def Store.upsert (store : Store) (object : Object) : Store :=
  { store with
    object := some ({ object with directory := isDirectoryKey object.key }.keepingLifecycle
      store.object) }

/-- The row of the key is what it is among all rows. -/
theorem Store.upsert_object {store : Store} {objects after : Objects} {object : Object}
    (own : findObjectByBucketAndKey objects object.bucketErn object.key = store.object)
    (written : upsertObject objects object = some after) :
    (store.upsert object).object =
      findObjectByBucketAndKey after object.bucketErn object.key := by
  rw [findObjectByBucketAndKey_upsertObject written, upsertedObject, own]
  rfl

/-- What create-upload meets. The row is not written either if the call is refused. -/
structure CreateUpload where
  finds : Bool
  upserts : Bool
  makes : Bool
  ern : String

def handleCreateUpload (env : Env) (create : CreateUpload) (store : Store) : Store :=
  if create.upserts = false then store
  else
    let existing := if create.finds then store.object else none
    let object := existing.getD .blank
    let seeded := store.upsert { object with
      bucketErn := env.bucketErn
      key := env.key
      ern := if object.ern = "" then create.ern else object.ern
      status := statusForCreatedUpload (existing.map Object.status) }
    { seeded with directory := if create.makes then some [] else none }

/-- The calls that follow. `marks` says whether the row can be marked when a completion is accepted,
and `writes` whether the pass behind it comes to write the new one. -/
inductive UploadCall where
  | uploadPart (req : PartRequest)
  | abortUpload (denied finds removes : Bool)
  | completeUpload (finds marks writes : Bool) (completion : Completion)

/-- What a completion is accepted with: the bucket, its key, the storage directory and the parts. -/
def Completion.accepted (env : Env) (store : Store) (completion : Completion) :
    Option (Bucket × Bytes × String × List PartFile) := do
  let directory ← store.directory
  let bucket ← completion.bucket
  guard (completion.denied = none)
  let material ← (writeKeyForBucket env.keys bucket).toOption
  guard (inNameOrder directory ≠ [])
  let internalDir ← completion.storageDir
  return (bucket, material, internalDir, inNameOrder directory)

/-- The states that a call goes through, and the one to go on with, unless the new row is
written. -/
def UploadCall.states (env : Env) (replaces : Bool) (store : Store) :
    UploadCall → List Store × Option Store
  | .uploadPart req =>
    let after := (handleUploadPart env req store).2
    ([after], some after)
  | .abortUpload denied finds removes =>
    if denied = true ∨ store.directory = none then ([], some store)
    else
      let current := if finds then store.object else none
      let after := { store with
        object :=
          if removeObjectOnAbandonedUpload replaces (current.map Object.status) then none
          else store.object
        directory := if removes then none else store.directory }
      ([after], some after)
  | .completeUpload finds marks writes completion =>
    match completion.accepted env store with
    | none => ([], some store)
    | some (bucket, material, internalDir, parts) =>
      let existing := if finds then store.object else none
      if existing ≠ none ∧ marks = false then ([], some store)
      else
        let marked := if finds then store.accept else store
        let pass := backgroundPass env completion bucket material internalDir parts existing marked
        if pass.1 ≠ .stored then ([marked, pass.2], some pass.2)
        else if writes then ([marked], none)
        else
          let place := (internalDir, completion.internalName)
          let left := { marked with
            directory := none
            files := Function.update marked.files place (pass.2.files place) }
          ([marked, left], some left)

/-! ### Runs -/

/-- The states of a run, until the new row is written. -/
def uploadStates (env : Env) (replaces : Bool) : Store → List UploadCall → List Store
  | store, [] => [store]
  | store, call :: rest =>
    let (reached, next) := call.states env replaces store
    store :: (reached ++ (next.map fun next => uploadStates env replaces next rest).getD [])

/-- The key gives out the bytes. -/
def Env.Serves (env : Env) (bytes : Bytes) (store : Store) : Prop :=
  ∃ object, store.object = some object ∧ object.status = .completed ∧
    object.lifecycleState ≠ .archived ∧ env.contents store object = some bytes

/-- A completion is accepted, and the row that it finds is marked. -/
def UploadCall.Marks (env : Env) (store : Store) : UploadCall → Prop
  | .completeUpload finds marks _ completion =>
    finds = true ∧ marks = true ∧ completion.accepted env store ≠ none
  | _ => False

/-- No call of a run marks the row. -/
def NeverMarks (env : Env) (replaces : Bool) : Store → List UploadCall → Prop
  | _, [] => True
  | store, call :: rest => ¬call.Marks env store ∧
    ∀ next, (call.states env replaces store).2 = some next → NeverMarks env replaces next rest

/-! ### What a call keeps -/

section

variable {env : Env} {replaces : Bool} {object : Object} {bytes : Bytes} {store : Store}

/-- The row of a state still names the file of an object, and can be read. -/
structure Keeps (env : Env) (object : Object) (bytes : Bytes) (store : Store) : Prop where
  serves : env.Serves bytes store
  names : ∀ current, store.object = some current → current.internalName = object.internalName

/-- A call makes a name that is not the object's. -/
def UploadCall.New (object : Object) : UploadCall → Prop
  | .completeUpload _ _ _ completion => completion.internalName ≠ object.internalName
  | _ => True

variable (keeps : Keeps env object bytes store)

include keeps in
theorem Keeps.of_same {after : Store}
    (row : after.object = store.object) (file : ∀ current, store.object = some current →
      after.files current.place = store.files current.place) : Keeps env object bytes after := by
  obtain ⟨⟨current, there, completed, standard, content⟩, names⟩ := keeps
  refine ⟨⟨current, row.trans there, completed, standard, ?_⟩, fun other => row ▸ names other⟩
  unfold Env.contents at content ⊢
  rwa [file current there]

theorem receive_completed (completed : object.status = .completed) : object.receive = object :=
  if_neg (by simp [completed])

include keeps in
theorem Keeps.uploadPart (req : PartRequest) :
    Keeps env object bytes (handleUploadPart env req store).2 := by
  obtain ⟨current, there, completed, -⟩ := keeps.serves
  have row : store.object.map Object.receive = store.object := by
    rw [there, map_some, receive_completed completed]
  unfold handleUploadPart
  split
  · exact keeps
  · split
    · exact keeps
    · dsimp only
      split <;> exact keeps.of_same row fun _ _ => rfl

include keeps in
theorem Keeps.abortUpload (finds : Bool) :
    removeObjectOnAbandonedUpload replaces
      ((if finds then store.object else none).map Object.status) = false := by
  obtain ⟨current, there, completed, -⟩ := keeps.serves
  cases finds <;> cases replaces <;> simp [removeObjectOnAbandonedUpload, there, completed]

theorem backgroundPass_of_none {completion : Completion} {bucket : Bucket} {material : Bytes}
    {internalDir : String} {parts : List PartFile}
    (unfinished : (backgroundPass env completion bucket material internalDir parts none store).1 ≠
      .stored) :
    (backgroundPass env completion bucket material internalDir parts none store).2 = store := by
  have outcome (md5Sum : String) :
    decideUploadOutcome bucket.versioning none md5Sum = .replace := by
    cases bucket.versioning <;> rfl
  unfold backgroundPass at unfinished ⊢
  cases assembles : assemble env completion material parts with
  | none => rfl
  | some assembled =>
    simp only [assembles, outcome] at unfinished ⊢
    by_cases persists : completion.faults.persists = false
    · rw [if_pos persists]
    · rw [if_neg persists] at unfinished
      exact absurd rfl unfinished

theorem each_and_last {Holds : Store → Prop} {reached : List Store} {last : Store}
    (each : ∀ store ∈ reached, Holds store) (kept : Holds last) :
    (∀ store ∈ (reached, some last).1, Holds store) ∧
      ∀ next, (reached, some last).2 = some next → Holds next :=
  ⟨each, by rintro _ ⟨⟩; exact kept⟩

include keeps in
/-- A call that does not mark the row leaves it to be read, in every state that it goes through. -/
theorem Keeps.call {call : UploadCall} (new : call.New object) (unmarked : ¬call.Marks env store) :
    (∀ reached ∈ (call.states env replaces store).1, Keeps env object bytes reached) ∧
      ∀ next, (call.states env replaces store).2 = some next → Keeps env object bytes next := by
  cases call with
  | uploadPart req =>
    have kept := keeps.uploadPart req
    unfold UploadCall.states
    dsimp only
    generalize (handleUploadPart env req store).2 = after at kept ⊢
    exact each_and_last (forall_mem_singleton.mpr kept) kept
  | abortUpload denied finds removes =>
    unfold UploadCall.states
    dsimp only
    split
    · exact each_and_last (forall_mem_nil _) keeps
    · rw [keeps.abortUpload, if_neg Bool.false_ne_true]
      have kept : Keeps env object bytes { store with
          directory := if removes then none else store.directory } :=
        keeps.of_same rfl fun _ _ => rfl
      exact each_and_last (forall_mem_singleton.mpr kept) kept
  | completeUpload finds marks writes completion =>
    unfold UploadCall.states
    dsimp only
    split
    · exact each_and_last (forall_mem_nil _) keeps
    · rename_i bucket material internalDir parts accepted
      obtain ⟨current, there, -⟩ := keeps.serves
      cases finds with
      | true =>
        have failed : marks = false := Bool.eq_false_iff.mpr fun works =>
          unmarked ⟨rfl, works, by simp [accepted]⟩
        rw [if_pos ⟨by simp [there], failed⟩]
        exact each_and_last (forall_mem_nil _) keeps
      | false =>
        simp only [Bool.false_eq_true, if_false]
        rw [if_neg (by simp)]
        split
        · rename_i unfinished
          rw [backgroundPass_of_none unfinished]
          exact each_and_last (by simp [keeps]) keeps
        · split
          · exact ⟨forall_mem_singleton.mpr keeps, fun _ ended => absurd ended (by simp)⟩
          · generalize (backgroundPass env completion bucket material internalDir parts none
              store).2.files (internalDir, completion.internalName) = file
            have kept : Keeps env object bytes { store with
                directory := none
                files := Function.update store.files (internalDir, completion.internalName)
                  file } := keeps.of_same rfl fun row named =>
              Function.update_of_ne (fun same => new ((congrArg Prod.snd same).symm.trans
                (keeps.names row named))) _ _
            exact each_and_last (by simp [keeps, kept]) kept

/-! ### Runs that are served -/

include keeps in
theorem Keeps.createUpload {create : CreateUpload}
    (found : create.upserts = true → create.finds = true) :
    Keeps env object bytes (handleCreateUpload env create store) := by
  unfold handleCreateUpload
  cases upserts : create.upserts with
  | false => exact keeps
  | true =>
    obtain ⟨⟨current, there, completed, standard, content⟩, names⟩ := keeps
    rw [found upserts, there]
    have named := names current there
    refine ⟨⟨_, rfl, completed, ?_, content⟩, fun other same => ?_⟩
    · show (Object.keepingLifecycle _ store.object).lifecycleState ≠ _
      rw [there]
      exact standard
    · obtain rfl := some.inj same
      exact named

theorem not_serves_of_status (there : store.object = some object)
    (status : object.status ≠ .completed) : ¬env.Serves bytes store := by
  rintro ⟨other, same, completed, -⟩
  exact status (some.inj (there.symm.trans same) ▸ completed)

include keeps in
theorem not_serves_of_marks {call : UploadCall} (marked : call.Marks env store) :
    ∃ reached ∈ (call.states env replaces store).1, ¬env.Serves bytes reached := by
  cases call with
  | uploadPart | abortUpload => exact marked.elim
  | completeUpload finds marks writes completion =>
    obtain ⟨rfl, rfl, accepted⟩ := marked
    obtain ⟨current, there, -⟩ := keeps.serves
    have row : store.accept.object = some { current with status := .uploaded } := by
      rw [Store.accept, there]
      rfl
    have unread : ¬env.Serves bytes store.accept := not_serves_of_status row (by simp)
    unfold UploadCall.states
    dsimp only
    split
    · rename_i refused
      exact absurd refused accepted
    · simp only [if_true]
      rw [if_neg (by simp)]
      split
      · exact ⟨_, .head _, unread⟩
      · split <;> exact ⟨_, .head _, unread⟩

include keeps in
theorem uploadStates_serve_iff {calls : List UploadCall} (new : ∀ call ∈ calls, call.New object) :
    (∀ state ∈ uploadStates env replaces store calls, env.Serves bytes state) ↔
      NeverMarks env replaces store calls := by
  induction calls generalizing store with
  | nil => exact iff_of_true (forall_mem_singleton.mpr keeps.serves) trivial
  | cons call rest ih =>
    have mine := new call (.head _)
    have later := fun other mem => new other (.tail _ mem)
    unfold uploadStates NeverMarks
    rw [forall_mem_cons, forall_mem_append]
    constructor
    · rintro ⟨-, reached, follow⟩
      have unmarked : ¬call.Marks env store := fun marked => by
        obtain ⟨state, mem, unread⟩ := not_serves_of_marks keeps marked
        exact unread (reached state mem)
      refine ⟨unmarked, fun next goesOn => ?_⟩
      rw [goesOn] at follow
      exact (ih ((keeps.call mine unmarked).2 next goesOn) later).mp follow
    · rintro ⟨unmarked, follow⟩
      obtain ⟨reached, goesOn⟩ : (∀ state ∈ (call.states env replaces store).1,
            Keeps env object bytes state) ∧
          ∀ next, (call.states env replaces store).2 = some next → Keeps env object bytes next :=
        keeps.call mine unmarked
      refine ⟨keeps.serves, fun state mem => (reached state mem).serves, ?_⟩
      cases continues : (call.states env replaces store).2 with
      | none => exact forall_mem_nil _
      | some next => exact (ih (goesOn next continues) later).mpr (follow next continues)

/-- In every run of an upload to a key that gives out an object, the key gives it out in every state
before the new row is written, if and only if create-upload finds the row that it writes and no
completion gets as far as marking it. -/
theorem reupload_serves_iff (env : Env) (start : Store) {object : Object} {bytes : Bytes}
    (there : start.object = some object) (serves : env.Serves bytes start) (create : CreateUpload)
    (calls : List UploadCall) (new : ∀ call ∈ calls, call.New object) :
    (∀ state ∈ uploadStates env create.finds (handleCreateUpload env create start) calls,
        env.Serves bytes state) ↔
      (create.upserts = true → create.finds = true) ∧
        NeverMarks env create.finds (handleCreateUpload env create start) calls := by
  have keeps : Keeps env object bytes start :=
    ⟨serves, fun current same => some.inj (there.symm.trans same) ▸ rfl⟩
  by_cases found : create.upserts = true → create.finds = true
  · rw [uploadStates_serve_iff (keeps.createUpload found) new]
    exact ⟨fun never => ⟨found, never⟩, And.right⟩
  · refine iff_of_false (fun all => ?_) fun held => found held.1
    obtain ⟨upserts, lost⟩ := Classical.not_imp.mp found
    have first : handleCreateUpload env create start ∈
        uploadStates env create.finds (handleCreateUpload env create start) calls := by
      cases calls <;> exact .head _
    have seeded : ∃ row, (handleCreateUpload env create start).object = some row ∧
        row.status ≠ .completed := by
      unfold handleCreateUpload
      rw [upserts, Bool.eq_false_iff.mpr lost]
      exact ⟨_, rfl, show ObjectStatus.created ≠ .completed by decide⟩
    obtain ⟨row, there, status⟩ := seeded
    exact not_serves_of_status there status (all _ first)

end

/-! ### Two bytes that are uploaded anew -/

namespace TwoBytes

def current : Object :=
  { Object.blank with
    bucketErn := "ern:esm:bucket:files"
    key := "letters.txt".toList
    internalName := "6f1d2c3a-0b4e-4a7d-9c58-1e2f3a4b5c6d"
    ern := "ern:esm:object:files/letters.txt"
    size := 2
    status := .completed
    md5Sum := "187ef4436122d1cc2f40dc2b92f0eba0" }

/-- The key holds two bytes. -/
def stored : Store where
  directory := none
  object := some current
  files place := if place = current.place then some [97, 98] else none

theorem stored_serves : env.Serves [97, 98] stored := ⟨current, rfl, rfl, by decide, rfl⟩

def create : CreateUpload := ⟨true, true, true, "ern:esm:object:files/letters.txt"⟩

def part : UploadCall := .uploadPart ⟨"1".toList, [97], some 1⟩

/-- A completion whose pass cannot keep the file that it assembles. -/
def failing : UploadCall :=
  .completeUpload true true true
    { completion fun _ _ => true with faults := { faults fun _ _ => true with persists := false } }

end TwoBytes

open TwoBytes in
theorem aborted_upload_serves :
    (uploadStates env true (handleCreateUpload env create TwoBytes.stored)
      [part, .abortUpload false true true]).length = 5 ∧
    ∀ state ∈ uploadStates env true (handleCreateUpload env create TwoBytes.stored)
      [part, .abortUpload false true true], env.Serves [97, 98] state :=
  ⟨rfl, (reupload_serves_iff env TwoBytes.stored rfl stored_serves create _ fun call mem => by
      rcases mem_cons.mp mem with rfl | mem
      · trivial
      · obtain rfl := mem_singleton.mp mem
        trivial).mpr ⟨fun _ => rfl, id, fun _ _ => ⟨id, fun _ _ => trivial⟩⟩⟩

open TwoBytes in
/-- A completion marks the row before its pass has a file, and a pass that fails leaves it
marked. -/
theorem failing_pass_blinds_key : ¬∀ (env : Env) (start : Store) (object : Object)
    (bytes : Bytes) (create : CreateUpload) (calls : List UploadCall), start.object = some object →
    env.Serves bytes start → (create.upserts = true → create.finds = true) →
    (∀ call ∈ calls, call.New object) →
    ∀ state ∈ uploadStates env create.finds (handleCreateUpload env create start) calls,
      env.Serves bytes state := by
  intro always
  have new : ∀ call ∈ [part, failing], call.New current := by
    intro call mem
    rcases mem_cons.mp mem with rfl | mem
    · trivial
    · obtain rfl := mem_singleton.mp mem
      exact fun same => absurd same (by decide)
  have serves :=
    always env TwoBytes.stored current [97, 98] create [part, failing] rfl stored_serves
    (fun _ => rfl) new
  have keeps : Keeps env current [97, 98] TwoBytes.stored :=
    ⟨stored_serves, fun other same => some.inj same ▸ rfl⟩
  have never := (uploadStates_serve_iff (keeps.createUpload fun _ => rfl) new).mp serves
  exact (never.2 _ rfl).1 ⟨rfl, rfl, by decide⟩

end Euclid.Esm
