/-
This file follows the handlers that read the row of an object, change one thing in it and write the
whole row back, while other operations replace the row or take it away.

The row is the one of a key, and a written row goes to the key that was read. put-object, the pass
behind complete-upload and a move to the key replace the row; a deletion and a move from the key
take it away.
-/

import Euclid.Esm.Repository
import Euclid.Interleaving

namespace Euclid.Esm.WriteBack

open Option

variable {Value Thread : Type} [DecidableEq Thread]

structure Row (Value : Type) where
  object : Object
  attributes : String → Option Value

inductive Handler (Value : Type) where
  | addObjectAttribute (name : String) (value : Value)
  | setObjectAttribute (name : String) (value : Value)
  | deleteObjectAttribute (name : String)
  | uploadPart
  | completeUpload

namespace Handler

/-- What a handler makes of the row that it reads, unless it refuses or has nothing to write. -/
def edit : Handler Value → Row Value → Option (Row Value)
  | addObjectAttribute name value, row =>
    if name = "" ∨ (row.attributes name).isSome then none
    else some { row with attributes := Function.update row.attributes name (some value) }
  | setObjectAttribute name value, row =>
    if name = "" ∨ (row.attributes name).isNone then none
    else some { row with attributes := Function.update row.attributes name (some value) }
  | deleteObjectAttribute name, row =>
    if name = "" ∨ (row.attributes name).isNone then none
    else some { row with attributes := Function.update row.attributes name none }
  | uploadPart, row =>
    if row.object.status = .created then
      some { row with object := { row.object with status := .uploading } }
    else none
  | completeUpload, row => some { row with object := { row.object with status := .uploaded } }

/-- A row without what a handler is about. -/
def forget : Handler Value → Row Value → Row Value
  | addObjectAttribute name _, row | setObjectAttribute name _, row
  | deleteObjectAttribute name, row =>
    { row with attributes := Function.update row.attributes name none }
  | uploadPart, row | completeUpload, row =>
    { row with object := { row.object with status := .unknown } }

end Handler

/-- `upsertObject`. The lifecycle fields are those of the row that is there. -/
def upsertObject (current : Option (Row Value)) (row : Row Value) : Row Value :=
  { row with
    object := { row.object with directory := isDirectoryKey row.object.key }.keepingLifecycle
      (current.map Row.object) }

/-- The object of the row is what it is among all rows. -/
theorem upsertObject_object {current : Option (Row Value)} {row : Row Value}
    {objects after : Objects}
    (own : findObjectByBucketAndKey objects row.object.bucketErn row.object.key =
      current.map Row.object)
    (written : Esm.upsertObject objects row.object = some after) :
    some (upsertObject current row).object =
      findObjectByBucketAndKey after row.object.bucketErn row.object.key := by
  rw [findObjectByBucketAndKey_upsertObject written, upsertedObject, own]
  rfl

/-! ### Steps -/

/-- A handler between its two statements. -/
structure Pending (Value : Type) where
  handler : Handler Value
  read : Row Value
  written : Row Value
  edits : handler.edit read = some written

/-- The row of the key, and what the threads are about to write. -/
structure State (Value Thread : Type) where
  row : Option (Row Value)
  pending : Thread → Option (Pending Value)

inductive Event (Value Thread : Type) where
  | read (tid : Thread) (handler : Handler Value)
  | write (tid : Thread)
  | replaced (row : Row Value)
  | deleted

/-- What a handler goes on with that reads the row. -/
def reading (handler : Handler Value) (row : Option (Row Value)) : Option (Pending Value) :=
  match row with
  | none => none
  | some read =>
    match edits : handler.edit read with
    | none => none
    | some written => some ⟨handler, read, written, edits⟩

def step (state : State Value Thread) : Event Value Thread → State Value Thread
  | .read tid handler =>
    { state with
      pending := Function.update state.pending tid (reading handler state.row) }
  | .write tid =>
    match state.pending tid with
    | none => state
    | some pending =>
      { row := some (upsertObject state.row pending.written)
        pending := Function.update state.pending tid none }
  | .replaced row => { state with row := some row }
  | .deleted => { state with row := none }

/-! ### What a write changes -/

/-- A write leaves a row that was there, and changes it in nothing but what the handler is about. -/
def ChangesOnlyItsOwn (state : State Value Thread) (event : Event Value Thread) : Prop :=
  ∀ tid pending, event = .write tid → state.pending tid = some pending →
    ∃ current after, state.row = some current ∧ (step state event).row = some after ∧
      pending.handler.forget after = pending.handler.forget current

/-- A row without its lifecycle and without the flag that its key decides. -/
def Row.core (row : Row Value) : Row Value :=
  { row with object := { row.object with directory := false }.keepingLifecycle none }

/-- The row that is overwritten is the one that was read, but for its lifecycle and what the handler
is about. -/
def StillAsRead (state : State Value Thread) (event : Event Value Thread) : Prop :=
  ∀ tid pending, event = .write tid → state.pending tid = some pending →
    ∃ current, state.row = some current ∧
      pending.handler.forget pending.read.core = pending.handler.forget current.core ∧
      isDirectoryKey pending.read.object.key = current.object.directory

theorem forget_upsertObject_iff {handler : Handler Value} {read current : Row Value} :
    handler.forget (upsertObject (some current) read) = handler.forget current ↔
      handler.forget read.core = handler.forget current.core ∧
        isDirectoryKey read.object.key = current.object.directory := by
  obtain ⟨⟨⟩, _⟩ := read
  obtain ⟨⟨⟩, _⟩ := current
  cases handler <;>
    simp only [Handler.forget, upsertObject, Row.core, Object.keepingLifecycle, Row.mk.injEq,
      Object.mk.injEq, map_some, getD_some] <;> tauto

theorem Pending.forget_upsertObject (pending : Pending Value) (current : Option (Row Value)) :
    pending.handler.forget (upsertObject current pending.written) =
      pending.handler.forget (upsertObject current pending.read) := by
  obtain ⟨handler, read, written, edits⟩ := pending
  unfold Handler.edit at edits
  cases handler with
  | addObjectAttribute | setObjectAttribute | deleteObjectAttribute =>
    dsimp only at edits ⊢
    split at edits
    · nomatch edits
    · obtain rfl := some.inj edits
      simp only [Handler.forget, upsertObject, Function.update_idem]
  | uploadPart =>
    dsimp only at edits ⊢
    split at edits
    · obtain rfl := some.inj edits
      rfl
    · nomatch edits
  | completeUpload =>
    obtain rfl := some.inj edits
    rfl

theorem step_changes_iff (state : State Value Thread) (event : Event Value Thread) :
    ChangesOnlyItsOwn state event ↔ StillAsRead state event := by
  refine forall_congr' fun tid => forall_congr' fun pending => forall_congr' fun write =>
    forall_congr' fun held => ?_
  subst write
  have row : (step state (.write tid)).row = some (upsertObject state.row pending.written) := by
    unfold step
    dsimp only
    rw [held]
  rw [row]
  constructor
  · rintro ⟨current, after, there, same, kept⟩
    obtain rfl := some.inj same
    rw [there, pending.forget_upsertObject] at kept
    exact ⟨current, there, forget_upsertObject_iff.mp kept⟩
  · rintro ⟨current, there, kept⟩
    refine ⟨current, _, there, rfl, ?_⟩
    rw [there, pending.forget_upsertObject]
    exact forget_upsertObject_iff.mpr kept

/-- In every run, every handler's write changes nothing but the attribute or the status that it is
about, and brings back no row, if and only if at every write the row is still there as it was
read. -/
theorem writes_change_own_iff (start : State Value Thread) (events : List (Event Value Thread)) :
    Always step ChangesOnlyItsOwn start events ↔ Always step StillAsRead start events :=
  always_congr step_changes_iff start events

/-! ### A tag that is added while an object is replaced -/

namespace Tagging

def old : Row String where
  object := { Object.blank with
    bucketErn := "ern:esm:bucket:files"
    key := "letters.txt".toList
    internalName := "0f0e0d0c-0b0a-4908-8706-050403020100"
    ern := "ern:esm:object:files/letters.txt"
    size := 1
    status := .completed }
  attributes _ := none

def new : Row String :=
  { old with object := { old.object with
    internalName := "6f1d2c3a-0b4e-4a7d-9c58-1e2f3a4b5c6d"
    size := 2 } }

def start : State String ℕ where
  row := some old
  pending _ := none

end Tagging

open Tagging in
/-- put-object replaces the object, and the handler puts back the row with the old file. -/
theorem tag_restores_old_row : ¬∀ (start : State String ℕ) (events : List (Event String ℕ)),
    Always step ChangesOnlyItsOwn start events := by
  intro always
  have changes := (always start [.read 0 (.addObjectAttribute "owner" "billing"), .replaced new,
    .write 0]).2.2.1
  obtain ⟨current, after, there, written, kept⟩ := changes 0 _ rfl rfl
  obtain rfl := some.inj there
  obtain rfl := some.inj written
  have sizes : (1 : Int) = 2 := congrArg (fun row => row.object.size) kept
  exact absurd sizes (by decide)

end Euclid.Esm.WriteBack
