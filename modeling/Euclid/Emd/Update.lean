/-
This file applies an update document to a document, and says what that does to its `_id`.

The fields of the document are read into a map ordered by name, every operator of the update
writes fields of the map in turn, and the result is written out in the map's order. No
operator treats `_id` differently from any other name, so what a document is identified by
afterwards is what the last operator that names `_id` leaves there.
-/

import Euclid.Emd.Matching

namespace Euclid.Emd

/-! ### The fields of a document by name -/

def Document.erase (name : String) (doc : Document) : Document :=
  doc.filter fun entry => entry.1 ≠ name

/-- `insert_or_assign`, on a map ordered by name. -/
def Document.assign (name : String) (value : Value) (doc : Document) : Document :=
  let others := doc.erase name
  others.takeWhile (fun entry => entry.1 < name) ++
    (name, value) :: others.dropWhile fun entry => entry.1 < name

/-- The map of a document: a later field replaces an earlier one of its name. -/
def Document.fields (doc : Document) : Document :=
  doc.foldl (fun fields entry => fields.assign entry.1 entry.2) []

/-! ### Positional updates -/

/-- The text before the first `.$` of a name and the text after it. -/
def splitAtDollar : List Char → Option (List Char × List Char)
  | '.' :: '$' :: rest => some ([], rest)
  | first :: rest => (splitAtDollar rest).map fun parts => (first :: parts.1, parts.2)
  | [] => none

/-- Whether an array entry satisfies every condition, the first that fails deciding. -/
def satisfiesEach (env : Env) (cand : Document) : List (String × Value) → Except Fault Bool
  | [] => .ok true
  | (path, condition) :: rest =>
    match matchesCondition env (valuesAt cand path) condition with
    | .ok true => satisfiesEach env cand rest
    | other => other

/-- The first document of an array that satisfies every condition. -/
def indexIn (env : Env) (conditions : List (String × Value)) :
    Nat → List Value → Except Fault (Option Nat)
  | _, [] => .ok none
  | index, .document cand :: rest =>
    match satisfiesEach env cand conditions with
    | .ok true => .ok (some index)
    | .ok false => indexIn env conditions (index + 1) rest
    | .error fault => .error fault
  | index, _ :: rest => indexIn env conditions (index + 1) rest

/-- The conditions a filter places on the entries of an array, under the paths inside. -/
def conditionsOn (arrayField : String) (filter : Document) : List (String × Value) :=
  (filter.filter fun condition => beginsWith (arrayField ++ ".") condition.1).map fun condition =>
    (String.ofList (condition.1.toList.drop (arrayField ++ ".").length), condition.2)

def positionalIndex (env : Env) (doc filter : Document)
    (arrayField : String) : Except Fault (Option Nat) :=
  match doc.field arrayField with
  | some (.array entries) =>
    if (conditionsOn arrayField filter).isEmpty then .ok none
    else indexIn env (conditionsOn arrayField filter) 0 entries
  | _ => .ok none

/-- One field of an array entry set, or appended where the entry does not have it. -/
def replaceField (subField : String) (value : Value) (entry : Value) : Document :=
  let fields := match entry with
    | .document fields => fields
    | _ => []
  let replaced := fields.map fun field => if field.1 = subField then (subField, value) else field
  if fields.any fun field => field.1 = subField then replaced else replaced ++ [(subField, value)]

/-- One entry of an array with the update applied to it. -/
def positionalArray (existing : Value) (index : Nat) (subField : String) (value : Value) :
    Except Fault Value := do
  let entries ← existing.getArray
  .ok (.array (entries.mapIdx fun at_ entry =>
    if at_ ≠ index then entry
    else if subField = "" then value
    else .document (replaceField subField value entry)))

/-! ### Operators -/

def requireTopLevel (field op : String) : Except Fault Unit :=
  if '.' ∈ field.toList then
    .error (.runtimeError ("EMD does not implement " ++ op ++ " on the nested path " ++ field))
  else .ok ()

def setField (env : Env) (doc filter : Document) (fields : Document)
    (entry : String × Value) : Except Fault Document :=
  match splitAtDollar entry.1.toList with
  | some (arrayField, rest) =>
    if rest ≠ [] ∧ rest.head? ≠ some '.' then
      .error (.runtimeError ("EMD does not implement $set on the nested path " ++ entry.1))
    else do
      let index ← positionalIndex env doc filter (String.ofList arrayField)
      match index, fields.field (String.ofList arrayField) with
      | some index, some existing =>
        let array ← positionalArray existing index (String.ofList (rest.drop 1)) entry.2
        .ok (fields.assign (String.ofList arrayField) array)
      | _, _ => .ok fields
  | none => do
    requireTopLevel entry.1 "$set"
    .ok (fields.assign entry.1 entry.2)

/-- One field of an operator that works on the top level only. -/
def topLevelField (op : String) (written : Option Value → Value → Value) (fields : Document)
    (entry : String × Value) : Except Fault Document := do
  requireTopLevel entry.1 op
  .ok (fields.assign entry.1 (written (fields.field entry.1) entry.2))

/-- What `$inc` leaves in a field. -/
def incremented (existing : Option Value) (operand : Value) : Value :=
  let wasDouble := match existing with
    | some (.double _) => true
    | _ => false
  let isDouble := match operand with
    | .double _ => true
    | _ => false
  if wasDouble || isDouble then
    .double ((existing.map Value.asDouble).getD 0 + operand.asDouble).toBits
  else .int64 ((existing.map Value.asLong).getD 0 + operand.asLong)

/-- The entries a field already holds, none if it is no array. -/
def entriesOf : Option Value → List Value
  | some (.array entries) => entries
  | _ => []

def pushed (existing : Option Value) (operand : Value) : Value :=
  .array (entriesOf existing ++ [operand])

def pulled (existing : Option Value) (operand : Value) : Value :=
  .array ((entriesOf existing).filter fun entry => !entry.equals operand)

def unsetField (fields : Document) (entry : String × Value) : Except Fault Document :=
  .ok (fields.erase entry.1)

def applyStage (env : Env) (moment : Nat) (doc filter : Document)
    (inserting : Bool) (fields : Document) (stage : String × Value) : Except Fault Document :=
  if ¬beginsWith "$" stage.1 then
    .error (.runtimeError ("EMD expects an update document of operators, not the field " ++
      stage.1))
  else do
    let body ← stage.2.getDocument
    if stage.1 = "$set" then body.foldlM (setField env doc filter) fields
    else if stage.1 = "$setOnInsert" then
      if inserting then body.foldlM (topLevelField stage.1 fun _ operand => operand) fields
      else .ok fields
    else if stage.1 = "$currentDate" then
      body.foldlM (topLevelField stage.1 fun _ _ => .date (env.systemClock moment)) fields
    else if stage.1 = "$inc" then body.foldlM (topLevelField stage.1 incremented) fields
    else if stage.1 = "$unset" then body.foldlM unsetField fields
    else if stage.1 = "$push" then body.foldlM (topLevelField stage.1 pushed) fields
    else if stage.1 = "$pull" then body.foldlM (topLevelField stage.1 pulled) fields
    else .error (.runtimeError ("EMD does not implement the update operator " ++ stage.1))

def applyUpdate (env : Env) (moment : Nat) (doc update : Document)
    (inserting : Bool) (filter : Document) : Except Fault Document :=
  update.foldlM (applyStage env moment doc filter inserting) doc.fields

/-! ### Documents that are created -/

def seedFromFilter (filter : Document) : Document :=
  filter.filter fun condition =>
    !beginsWith "$" condition.1 && !decide ('.' ∈ condition.1.toList) &&
      condition.2.operators.isNone

def withId (doc : Document) (id : Oid) : Document :=
  ("_id", .oid id) :: doc.filter fun entry => entry.1 ≠ "_id"

def Value.asOid : Value → Option Oid
  | .oid id => some id
  | _ => none

/-- `oidOf`: the `_id` of a document when it is an ObjectId. -/
def oidOf (doc : Document) : Option Oid := (doc.field "_id").bind Value.asOid

def upsertId (doc filter : Document) (fresh : Oid) : Oid :=
  (oidOf doc).getD ((oidOf filter).getD fresh)

/-! ### What an update leaves in `_id` -/

/-- The fields of a document named `_id`, each as the ObjectId it is, if it is one. -/
def identities (doc : Document) : List (Option Oid) :=
  (doc.filter fun entry => entry.1 = "_id").map fun entry => entry.2.asOid

/-- What one operator leaves in a field it names: an ObjectId only if it is set to one. -/
def leavesIn (op : String) (operand : Value) : List (Option Oid) :=
  if op = "$unset" then []
  else if op = "$set" ∨ op = "$setOnInsert" then [operand.asOid]
  else [none]

/-- What the fields of a body named `_id` leave there, in order. -/
def idWritesOf (op : String) (body : Document) : List (List (Option Oid)) :=
  (body.filter fun entry => entry.1 = "_id").map fun entry => leavesIn op entry.2

/-- What one operator of an update leaves in `_id`, each time it names it. -/
def stageWrites (inserting : Bool) (stage : String × Value) : List (List (Option Oid)) :=
  match stage.2 with
  | .document body =>
    if stage.1 = "$setOnInsert" ∧ inserting = false then [] else idWritesOf stage.1 body
  | _ => []

/-- What the operators of an update that name `_id` leave there, in order. -/
def idWrites (inserting : Bool) (update : Document) : List (List (Option Oid)) :=
  update.flatMap (stageWrites inserting)

theorem oidOf_eq (doc : Document) : oidOf doc = (identities doc).head?.join := by
  unfold oidOf identities Document.field
  rw [List.head?_map, List.head?_filter]
  cases doc.find? fun entry => decide (entry.1 = "_id") <;> rfl

theorem identities_append (first second : Document) :
    identities (first ++ second) = identities first ++ identities second := by
  simp [identities]

theorem identities_cons (entry : String × Value) (rest : Document) :
    identities (entry :: rest) =
      if entry.1 = "_id" then entry.2.asOid :: identities rest else identities rest := by
  unfold identities
  split <;> simp [*]

theorem identities_erase (name : String) (doc : Document) :
    identities (doc.erase name) = if name = "_id" then [] else identities doc := by
  unfold identities Document.erase
  rw [List.filter_filter]
  split
  · next isId =>
    subst isId
    simp
  · next differs =>
    congr 2
    funext entry
    by_cases isId : entry.1 = "_id"
    · simp [isId, Ne.symm differs]
    · simp [isId]

theorem identities_assign (name : String) (value : Value) (doc : Document) :
    identities (doc.assign name value) =
      if name = "_id" then [value.asOid] else identities doc := by
  unfold Document.assign
  have others := identities_erase name doc
  rw [← List.takeWhile_append_dropWhile (p := fun entry => decide (entry.1 < name))
    (l := doc.erase name), identities_append] at others
  rw [identities_append, identities_cons]
  split
  · next isId =>
    rw [if_pos isId] at others
    obtain ⟨before, after⟩ := List.append_eq_nil_iff.mp others
    rw [before, after]
    rfl
  · next differs =>
    rw [if_neg differs] at others
    exact others

theorem identities_withId (doc : Document) (id : Oid) : identities (withId doc id) = [some id] := by
  unfold withId
  rw [identities_cons, if_pos rfl]
  have others := identities_erase "_id" doc
  rw [if_pos rfl] at others
  exact congrArg _ others

theorem idWritesOf_cons (op : String) (entry : String × Value) (rest : Document) :
    idWritesOf op (entry :: rest) =
      if entry.1 = "_id" then leavesIn op entry.2 ::
        idWritesOf op rest else idWritesOf op rest := by
  unfold idWritesOf
  split <;> simp [*]

/-- Reading a document into a map keeps the last of its fields named `_id`. -/
theorem identities_fields (doc : Document) :
    identities doc.fields = (idWritesOf "$set" doc).getLastD [] := by
  suffices general : ∀ fields : Document,
      identities (doc.foldl (fun fields entry => fields.assign entry.1 entry.2) fields) =
        (idWritesOf "$set" doc).getLastD (identities fields) from general []
  induction doc with
  | nil => exact fun _ => rfl
  | cons entry rest ih =>
    intro fields
    rw [List.foldl_cons, ih, identities_assign, idWritesOf_cons]
    by_cases isId : entry.1 = "_id"
    · rw [if_pos isId, if_pos isId, List.getLastD_cons]
      rfl
    · rw [if_neg isId, if_neg isId]

end Euclid.Emd
