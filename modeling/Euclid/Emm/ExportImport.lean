/-
This file translates the export of a collection and its import, and proves when every entity
comes back.

A document is replaced under its own id, so what a file leaves in an empty store is one document
for each it holds, and the same file again replaces each of them by itself. Whether the entity is
the one that was exported is then a question of its reader.
-/

import Euclid.Database.Entities
import Euclid.Emd.UniqueIndex

namespace Euclid.Emm.ExportImport

open Emd Database List Document Collection

/-! ### Backends -/

/-- What a collection is kept in: MongoDB, or the store in the process. -/
inductive Backend where
  | mongo
  | inMemory (env : Env) (moment : Nat)

def unindexed (documents : List Document) : Collection := { documents, uniqueKeys := [] }

def underId (id : Value) (doc : Document) : Document :=
  ("_id", id) :: doc.filter fun entry => entry.1 ≠ "_id"

def hasId (id : Value) (doc : Document) : Bool :=
  (doc.field "_id").any fun own => own.equals id

/-- The first document with an id replaced, or a new one. -/
def replaceById (id : Value) (doc : Document) : List Document → List Document
  | [] => [underId id doc]
  | head :: rest =>
    if hasId id head then underId id doc :: rest else head :: replaceById id doc rest

/-- `Collection::replace_one`, on an id and with upsert. -/
def Backend.replaceOne : Backend → Value → Document → Collection → Except Fault Collection
  | .mongo, id, doc, target =>
    .ok { target with documents := replaceById id doc target.documents }
  | .inMemory env moment, id, doc, target =>
    (Collection.replaceOne env moment [("_id", id)] doc true target).map Prod.snd

/-! ### Export and import -/

def exportCollection (collection : Collection) : List Json :=
  collection.documents.map fun doc => toJson (.document doc)

/-- `WriteCollection`, of the documents a filter selects. -/
def writeCollection (collection : Collection) (filter : Document → Bool) : List Json :=
  (collection.documents.filter filter).map fun doc => toJson (.document doc)

structure ImportOutcome where
  imported : Nat
  failed : Nat

section

variable (special : List (String × Json) → Except Fault Value) (backend : Backend)

/-- One document of a file, read and stored. -/
def storeDocument (collection : Collection) (doc : Json) : Except Fault (Option Collection) := do
  let value ← fromJson special doc
  let bsonDoc ← value.getDocument
  match bsonDoc.field "_id" with
  | none => return none
  | some idElement => return some (← backend.replaceOne idElement bsonDoc collection)

def importDocument (state : ImportOutcome × Collection) (doc : Json) : ImportOutcome × Collection :=
  match storeDocument special backend state.2 doc with
  | .ok (some written) => ({ state.1 with imported := state.1.imported + 1 }, written)
  -- Without an id it would be a second copy on every import, and what is malformed is stepped over.
  | _ => ({ state.1 with failed := state.1.failed + 1 }, state.2)

def importCollection (collection : Collection) (docs : List Json) : ImportOutcome × Collection :=
  docs.foldl (importDocument special backend) ({ imported := 0, failed := 0 }, collection)

/-- The file of the whole collection, or of what a filter selects. -/
def fileOf (collection : Collection) : Option (Document → Bool) → List Json
  | none => exportCollection collection
  | some filter => writeCollection collection filter

def inFile (collection : Collection) : Option (Document → Bool) → List Document
  | none => collection.documents
  | some filter => collection.documents.filter filter

/-- What a file leaves in an empty store. -/
def restoredFrom (docs : List Json) : Collection :=
  (importCollection special backend .empty docs).2

/-- Every document of a file is in the store it was imported into, under its id and read as the
same entity, there is nothing else, and importing the file again changes nothing. -/
structure Restores (reader : Reader) (docs : List Json) (documents : List Document) : Prop where
  restored : ∀ doc ∈ documents, ∃ stored ∈ (restoredFrom special backend docs).documents,
    oidOf stored = oidOf doc ∧
      ∃ entity, reader.fromDocument stored = .ok entity ∧ reader.fromDocument doc = .ok entity
  ids : (restoredFrom special backend docs).documents.map oidOf = documents.map oidOf
  again : (importCollection special backend (restoredFrom special backend docs) docs).2 =
    restoredFrom special backend docs

end

/-! ### Replacing under an id -/

theorem equals_oid (value : Value) (id : Oid) : value.equals (.oid id) = true ↔
    value = .oid id := by
  cases value with
  | oid other =>
    simp only [Value.equals, Value.isNumeric, Value.compare, Value.compareAlike, Value.sign,
      Value.type, Bool.false_and, Value.oid.injEq]
    rcases BitVec.lt_trichotomy other id with less | rfl | more
    · simp [less, BitVec.ne_of_lt less]
    · simp
    · simp [more, (BitVec.ne_of_lt more).symm, BitVec.lt_asymm more]
  | other kind bytes =>
    cases kind <;> simp [Value.equals, Value.isNumeric, Value.type, OtherType.typeCode]
  | _ => simp [Value.equals, Value.isNumeric, Value.type]

variable {doc : Document} {id : Oid}

theorem hasId_iff : hasId (.oid id) doc = true ↔ doc.field "_id" = some (.oid id) := by
  unfold hasId
  cases doc.field "_id" with
  | none => simp
  | some value => simp [equals_oid]

variable {documents : List Document}

theorem replaceById_of_new {id : Value} (fresh : ∀ other ∈ documents, hasId id other = false) :
    replaceById id doc documents = documents ++ [underId id doc] := by
  induction documents with
  | nil => rfl
  | cons head rest ih =>
    rw [replaceById, fresh head (.head _), if_neg Bool.false_ne_true,
      ih fun other stored => fresh other (.tail _ stored)]
    rfl

theorem replaceById_self {id : Value} (stored : ∃ other ∈ documents, hasId id other = true)
    (same : ∀ other ∈ documents, hasId id other = true → other = underId id doc) :
    replaceById id doc documents = documents := by
  induction documents with
  | nil => obtain ⟨other, absent, -⟩ := stored; nomatch absent
  | cons head rest ih =>
    rw [replaceById]
    split
    · rename_i own
      rw [← same head (.head _) own]
    · rename_i different
      congr 1
      refine ih ?_ fun other stored => same other (.tail _ stored)
      obtain ⟨other, mem, own⟩ := stored
      rcases mem_cons.mp mem with rfl | later
      · exact absurd own different
      · exact ⟨other, later, own⟩

theorem matchesFilter_id (env : Env) (doc : Document) (id : Oid) :
    matchesFilter env doc [("_id", .oid id)] = .ok (hasId (.oid id) doc) := by
  have topLevel : '.' ∉ "_id".toList := by decide
  have entry : matchesEntry env doc ("_id", .oid id) =
      .ok (hasId (.oid id) doc) := by
    rw [matchesEntry, if_neg (by decide), if_neg (by decide)]
    show Except.ok (satisfied (valuesAt doc "_id") fun value => value.equals (.oid id)) = _
    unfold valuesAt hasId
    rw [pathParts_of_topLevel topLevel]
    show Except.ok ((doc.field "_id").toList.any _) = _
    cases doc.field "_id" <;> simp
  unfold matchesFilter
  rw [entry]
  cases hasId (.oid id) doc <;> rfl

theorem firstMatch_id (env : Env) (id : Oid) (doc : Document) (before documents : List Document) :
    (firstMatch env [("_id", .oid id)] before documents = .ok none ∧
      ∀ other ∈ documents, hasId (.oid id) other = false) ∨
    ∃ place, firstMatch env [("_id", .oid id)] before documents = .ok (some place) ∧
      hasId (.oid id) place.document = true ∧
      before ++ documents = place.before ++ place.document :: place.after ∧
      before ++ replaceById (.oid id) doc documents =
        place.before ++ underId (.oid id) doc :: place.after := by
  induction documents generalizing before with
  | nil => exact .inl ⟨rfl, nofun⟩
  | cons head rest ih =>
    cases own : hasId (.oid id) head with
    | true =>
      refine .inr ⟨{ before, document := head, after := rest }, ?_, own, rfl, ?_⟩
      · rw [firstMatch, matchesFilter_id, own]
      · rw [replaceById, if_pos own]
    | false =>
      have step : firstMatch env [("_id", .oid id)] before (head :: rest) =
          firstMatch env [("_id", .oid id)] (before ++ [head]) rest := by
        rw [firstMatch, matchesFilter_id, own]
      have replaced : replaceById (.oid id) doc (head :: rest) =
          head :: replaceById (.oid id) doc rest := by
        rw [replaceById, own, if_neg Bool.false_ne_true]
      rw [step, replaced]
      rcases ih (before ++ [head]) with
        ⟨unmatched, absent⟩ | ⟨place, found, has, whole, after⟩
      · refine .inl ⟨unmatched, fun other stored => ?_⟩
        rcases mem_cons.mp stored with rfl | later
        · exact own
        · exact absent other later
      · rw [append_assoc] at whole after
        exact .inr ⟨place, found, has, whole, after⟩

/-- The store in the process replaces a document as MongoDB does. -/
theorem replaceOne_inMemory {env : Env} {moment : Nat}
    (own : doc.field "_id" = some (.oid id)) {documents : List Document} :
    (Backend.inMemory env moment).replaceOne (.oid id) doc (unindexed documents) =
      .ok (unindexed (replaceById (.oid id) doc documents)) := by
  have oid : ∀ {doc : Document}, doc.field "_id" = some (.oid id) →
      oidOf doc = some id := fun found => by rw [oidOf, found]; rfl
  show (Collection.replaceOne env moment [("_id", .oid id)] doc true
    (unindexed documents)).map Prod.snd = _
  unfold replaceOne
  dsimp only [unindexed]
  rcases firstMatch_id env id doc [] documents with
    ⟨unmatched, fresh⟩ | ⟨place, found, has, whole, after⟩
  · rw [unmatched, replaceById_of_new fresh]
    show (do
      let written ← create env (unindexed documents)
        (withId doc (upsertId doc [("_id", .oid id)] (env.freshOid moment)))
      Except.ok (_, written)).map Prod.snd = _
    rw [upsertId, oid own]
    rfl
  · rw [found]
    dsimp only [bind, Except.bind]
    rw [oid (hasId_iff.mp has)]
    show (if sameDocument place.document (withId doc id) then _ else _ :
      Except Fault (UpdateResult × Collection)).map Prod.snd = _
    have total : documents = place.before ++ place.document :: place.after := whole
    have replaced : replaceById (.oid id) doc documents =
        place.before ++ withId doc id :: place.after := after
    rw [replaced]
    split
    · rename_i same
      rw [total, eq_of_sameFields _ _ same]
      rfl
    · rfl

theorem Backend.replaceOne_oid (backend : Backend)
    (own : doc.field "_id" = some (.oid id)) (documents : List Document) :
    backend.replaceOne (.oid id) doc (unindexed documents) =
      .ok (unindexed (replaceById (.oid id) doc documents)) := by
  cases backend with
  | mongo => rfl
  | inMemory env moment => exact replaceOne_inMemory own

/-! ### What an import leaves -/

/-- A document as it is after a file. -/
def restoredOf (doc : Document) : Document :=
  underId ((doc.field "_id").getD .null) (narrowFields doc)

section

variable {doc : Document}

theorem field_restoredOf (own : doc.field "_id" = some (.oid id)) (name : String) :
    (restoredOf doc).field name = (doc.field name).map narrow := by
  have others : ∀ fields : Document, name ≠ "_id" →
      field (fields.filter fun entry => entry.1 ≠ "_id") name = fields.field name :=
    fun fields different => by
      have erased := field_erase fields "_id" name
      rwa [if_neg different] at erased
  unfold restoredOf underId
  rw [field_cons, own]
  by_cases same : name = "_id"
  · rw [if_pos same.symm, same, own]
    rfl
  · rw [if_neg (Ne.symm same), others _ same, field_narrowFields]

theorem distinct_restoredOf (distinct : doc.Distinct) : (restoredOf doc).Distinct := by
  have others := distinct_erase (distinct_narrowFields distinct) "_id"
  have absent : "_id" ∉ (erase "_id" (narrowFields doc)).map Prod.fst := by
    rw [← field_eq_none, field_erase, if_pos rfl]
  exact nodup_cons.mpr ⟨absent, others⟩

theorem oidOf_restoredOf (own : doc.field "_id" = some (.oid id)) :
    oidOf (restoredOf doc) = some id := by
  rw [oidOf, field_restoredOf own, own]
  rfl

end

variable {reader : Reader}

section

variable (special : List (String × Json) → Except Fault Value) (backend : Backend)

theorem importDocument_stored (stored : reader.Stored doc) (own : doc.field "_id" = some (.oid id))
    (outcome : ImportOutcome) (documents : List Document) :
    importDocument special backend (outcome, unindexed documents) (toJson (.document doc)) =
      ({ outcome with imported := outcome.imported + 1 },
        (unindexed (replaceById (.oid id) (narrowFields doc) documents))) := by
  have read : fromJson special (toJson (.document doc)) =
      .ok (.document (narrowFields doc)) :=
    fromJson_toJson special (.document doc) stored.plain
  have field : field (narrowFields doc) "_id" = some (.oid id) := by
    rw [field_narrowFields, own]
    rfl
  have written : storeDocument special backend (unindexed documents)
      (toJson (.document doc)) = .ok (some (unindexed
        (replaceById (.oid id) (narrowFields doc) documents))) := by
    unfold storeDocument
    rw [read]
    show (match Document.field (narrowFields doc) "_id" with
      | none => Except.ok none
      | some idElement => do
        let written ← backend.replaceOne idElement (narrowFields doc) (unindexed documents)
        return some written) = _
    rw [field]
    show (do
      let written ← backend.replaceOne (.oid id) (narrowFields doc) (unindexed documents)
      return some written) = _
    rw [backend.replaceOne_oid field]
    rfl
  unfold importDocument
  rw [written]

theorem foldl_importDocument (stored : ∀ doc ∈ documents, reader.Stored doc)
    (distinct : (documents.map oidOf).Nodup) (outcome : ImportOutcome) {before : List Document}
    (fresh : ∀ other ∈ before, oidOf other ∉ documents.map oidOf) :
    ((documents.map fun doc => toJson (.document doc)).foldl
        (importDocument special backend) (outcome, unindexed before)).2 =
      unindexed (before ++ documents.map restoredOf) := by
  induction documents generalizing outcome before with
  | nil => simp
  | cons doc rest ih =>
    obtain ⟨id, own⟩ := (stored doc (.head _)).identified
    have identity : oidOf doc = some id := by rw [oidOf, own]; rfl
    obtain ⟨absent, others⟩ := nodup_cons.mp distinct
    have new : ∀ other ∈ before, hasId (.oid id) other = false := fun other mem => by
      refine Bool.eq_false_iff.mpr fun has => fresh other mem ?_
      rw [oidOf, hasId_iff.mp has, map_cons, identity]
      exact .head _
    have written : underId (.oid id) (narrowFields doc) = restoredOf doc := by
      rw [restoredOf, own]
      rfl
    rw [map_cons, foldl_cons,
      importDocument_stored special backend (stored doc (.head _)) own,
      replaceById_of_new new, written, ih
        (fun other mem => stored other (.tail _ mem)) others]
    · rw [append_assoc]
      rfl
    · intro other mem
      rcases mem_append.mp mem with early | last
      · exact fun inRest => fresh other early (.tail _ inRest)
      · rw [mem_singleton.mp last, oidOf_restoredOf own, ← identity]
        exact absent

theorem foldl_importDocument_again {stored : List Document}
    (each : ∀ doc ∈ documents, reader.Stored doc ∧ restoredOf doc ∈ stored)
    (distinct : (stored.map oidOf).Nodup) (outcome : ImportOutcome) :
    ((documents.map fun doc => toJson (.document doc)).foldl
        (importDocument special backend) (outcome, unindexed stored)).2 = unindexed stored := by
  induction documents generalizing outcome with
  | nil => rfl
  | cons doc rest ih =>
    obtain ⟨own, there⟩ := each doc (.head _)
    obtain ⟨id, named⟩ := own.identified
    have written : underId (.oid id) (narrowFields doc) = restoredOf doc := by
      rw [restoredOf, named]
      rfl
    have has : hasId (.oid id) (restoredOf doc) = true :=
      hasId_iff.mpr (by rw [field_restoredOf named, named]; rfl)
    have unchanged : replaceById (.oid id) (narrowFields doc) stored = stored := by
      refine replaceById_self ⟨_, there, has⟩ fun other mem same => ?_
      rw [written]
      refine inj_on_of_nodup_map distinct mem there ?_
      rw [oidOf, hasId_iff.mp same, oidOf_restoredOf named]
      rfl
    rw [map_cons, foldl_cons, importDocument_stored special backend own named, unchanged]
    exact ih (fun other mem => each other (.tail _ mem)) _

variable {reader : Reader} {documents : List Document}
  (stored : ∀ doc ∈ documents, reader.Stored doc)

include stored

theorem oidOf_restoredOf_eq (mem : doc ∈ documents) : oidOf (restoredOf doc) = oidOf doc := by
  obtain ⟨id, own⟩ := (stored doc mem).identified
  rw [oidOf_restoredOf own, oidOf, own]
  rfl

theorem restoredFrom_file (distinct : (documents.map oidOf).Nodup) :
    restoredFrom special backend (documents.map fun doc => toJson (.document doc)) =
      unindexed (documents.map restoredOf) := by
  have imported := foldl_importDocument special backend stored distinct
    { imported := 0, failed := 0 } (fun _ absent => absurd absent not_mem_nil)
  exact imported

/-- Every document of a file comes back exactly when every one keeps what it holds. -/
theorem restores_iff (distinct : (documents.map oidOf).Nodup) :
    Restores special backend reader (documents.map fun doc => toJson (.document doc))
        documents ↔ ∀ doc ∈ documents, reader.Keeps doc := by
  have left := restoredFrom_file special backend stored distinct
  have ids : (documents.map restoredOf).map oidOf = documents.map oidOf := by
    rw [map_map]
    exact map_congr_left fun doc mem => oidOf_restoredOf_eq stored mem
  have same : ∀ doc ∈ documents,
      (reader.fromDocument (restoredOf doc) = reader.fromDocument doc ↔
        reader.Keeps doc) := fun doc mem => by
    obtain ⟨id, own⟩ := (stored doc mem).identified
    exact Reader.fromDocument_eq_iff (stored doc mem)
      (distinct_restoredOf (stored doc mem).distinct) (field_restoredOf own)
  constructor
  · intro restores doc mem
    obtain ⟨found, inStore, identity, entity, read, before⟩ := restores.restored doc mem
    rw [left] at inStore
    have there : restoredOf doc ∈ documents.map restoredOf := mem_map_of_mem mem
    have nodup : ((documents.map restoredOf).map oidOf).Nodup := by rwa [ids]
    have equal : found = restoredOf doc :=
      inj_on_of_nodup_map nodup inStore there
        (identity.trans (oidOf_restoredOf_eq stored mem).symm)
    exact (same doc mem).mp (by rw [← equal, read, before])
  · intro keeps
    refine ⟨fun doc mem => ?_, ?_, ?_⟩
    · obtain ⟨members, ok⟩ := Reader.fromDocument_ok (stored doc mem)
      have read : reader.fromDocument doc = .ok (reader.finish members) := by
        rw [Reader.fromDocument, ok]
        rfl
      refine ⟨restoredOf doc, ?_, oidOf_restoredOf_eq stored mem, _, ?_, read⟩
      · rw [left]
        exact mem_map_of_mem mem
      · rw [(same doc mem).mpr (keeps doc mem), read]
    · rw [left]
      exact ids
    · rw [left]
      exact foldl_importDocument_again special backend
        (fun doc mem => ⟨stored doc mem, mem_map_of_mem mem⟩)
        (by rwa [ids]) { imported := 0, failed := 0 }

end

/-! ### Files of exported collections -/

theorem fileOf_eq (collection : Collection) (selection : Option (Document → Bool)) :
    fileOf collection selection =
      (inFile collection selection).map fun doc => toJson (.document doc) := by
  cases selection <;> rfl

theorem inFile_sublist (collection : Collection) (selection : Option (Document → Bool)) :
    (inFile collection selection).Sublist collection.documents := by
  cases selection with
  | none => exact List.Sublist.refl _
  | some filter => exact filter_sublist

/-- An export and its import restore every document of a collection that is in the file, on either
backend and as often as the file is imported, exactly when no `long` attribute and no count of
samples among them fits thirty-two bits, and no number of an archived object that does is other
than zero. -/
theorem import_restores (special : List (String × Json) → Except Fault Value) (backend : Backend)
    (exported : ExportedCollection) (collection : Collection)
    (stored : ∀ doc ∈ collection.documents, exported.reader.Stored doc)
    (distinct : (collection.documents.map oidOf).Nodup) (selection : Option (Document → Bool)) :
    Restores special backend exported.reader (fileOf collection selection)
        (inFile collection selection) ↔
      ∀ doc ∈ inFile collection selection, exported.reader.Keeps doc := by
  have kept := inFile_sublist collection selection
  rw [fileOf_eq]
  exact restores_iff special backend (fun doc mem => stored doc (kept.subset mem))
    (distinct.sublist (kept.map oidOf))

theorem mem_of_field {name : String} {value : Value}
    (found : doc.field name = some value) : (name, value) ∈ doc := by
  obtain ⟨entry, there, rfl⟩ := Option.map_eq_some_iff.mp found
  have same := List.find?_some there
  rw [← of_decide_eq_true same]
  exact mem_of_find?_eq_some there

theorem stored_of_entries (distinct : doc.Distinct) (plain : isPlainFields doc = true) (id : Oid)
    (identified : doc.field "_id" = some (.oid id))
    (written : ∀ entry ∈ doc, ∀ kind, reader.kindOf entry.1 = some kind →
      kind.Writes entry.2) : reader.Stored doc where
  distinct := distinct
  plain := plain
  identified := ⟨id, identified⟩
  written := fun _ _ kind found known => written _ (mem_of_field found) kind known

def archivedObject : Document :=
  [("_id", .oid 1), ("key", .string "report.csv"), ("lifecycleState", .string "ARCHIVED"),
    ("archiveFile", .string "2026-08.zip"), ("archiveOffset", .int64 4096)]

/-- A message with a counter among its attributes. -/
def countingMessage (counter : Int64) : Document :=
  [("_id", .oid 2), ("body", .string "one more"),
    ("attributes", .document (attributes [("counter", .long counter)]))]

def dataPoint : Document :=
  [("_id", .oid 3), ("name", .string "euclid.calls"), ("value", .double 0), ("samples", .int64 12)]

theorem stored_archivedObject : Esm.objectReader.Stored archivedObject := by
  refine stored_of_entries (by simp [Distinct, archivedObject]) rfl 1 rfl
    fun entry mem kind known => ?_
  simp only [archivedObject, mem_cons, not_mem_nil, or_false] at mem
  rcases mem with rfl | rfl | rfl | rfl | rfl <;> rw [← Option.some.inj known] <;> exact ⟨_, rfl⟩

theorem stored_countingMessage {counter : Int64} :
    Eqs.messageReader.Stored (countingMessage counter) := by
  have plain : isPlainFields (countingMessage counter) = true := by
    simp only [countingMessage, attributes, Variant.toDocument, isPlainFields, isPlainField,
      isPlain, map_cons, map_nil]
    decide
  refine stored_of_entries (by simp [Distinct, countingMessage]) plain 2 rfl
    fun entry mem kind known => ?_
  simp only [countingMessage, mem_cons, not_mem_nil, or_false] at mem
  rcases mem with rfl | rfl | rfl <;> rw [← Option.some.inj known] <;> exact ⟨_, rfl⟩

theorem stored_dataPoint : Emo.monitoringDataReader.Stored dataPoint := by
  refine stored_of_entries (by simp [Distinct, dataPoint]) rfl 3 rfl fun entry mem kind known => ?_
  simp only [dataPoint, mem_cons, not_mem_nil, or_false] at mem
  rcases mem with rfl | rfl | rfl | rfl <;> rw [← Option.some.inj known] <;> exact ⟨_, rfl⟩

/-- Whatever a file holds that the writer of this one does not write, refused. -/
def refuseAll (_ : List (String × Json)) : Except Fault Value := .error .elementType

/-- A counter beyond thirty-two bits comes back. -/
theorem import_restores_counter : Restores refuseAll .mongo Eqs.messageReader
      (fileOf (unindexed [countingMessage 5000000000]) none) [countingMessage 5000000000] := by
  refine (import_restores refuseAll .mongo .eqsMessage (unindexed [countingMessage 5000000000])
    (fun doc mem => ?_) (by simp [unindexed]) none).mpr fun doc mem => ?_
  · rw [mem_singleton.mp mem]
    exact stored_countingMessage
  · rw [mem_singleton.mp mem]
    intro name value kind found known
    have stored := mem_of_field found
    simp only [countingMessage, mem_cons, not_mem_nil, or_false, Prod.mk.injEq] at stored
    rcases stored with ⟨rfl, rfl⟩ | ⟨rfl, rfl⟩ | ⟨rfl, rfl⟩ <;> rw [← Option.some.inj known]
    · trivial
    · trivial
    · exact keeps_attributes.mpr (by simp [Variant.Keeps, Fits])

/-- An archived object loses where it is in the archive, and a message with a small counter and a
data point of few samples cannot be read any more. -/
theorem small_numbers_are_lost :
    ¬Restores refuseAll .mongo Esm.objectReader (fileOf (unindexed [archivedObject]) none)
        [archivedObject] ∧
      ¬Restores refuseAll .mongo Eqs.messageReader (fileOf (unindexed [countingMessage 7]) none)
        [countingMessage 7] ∧
      ¬Restores refuseAll .mongo Emo.monitoringDataReader (fileOf (unindexed [dataPoint]) none)
        [dataPoint] := by
  refine ⟨fun restores => ?_, fun restores => ?_, fun restores => ?_⟩
  · have stored : ∀ doc ∈ [archivedObject], Esm.objectReader.Stored doc :=
      fun _ mem => mem_singleton.mp mem ▸ stored_archivedObject
    have keeps := (restores_iff refuseAll .mongo stored (by simp)).mp restores
    have offset := keeps _ (.head _) "archiveOffset" _ _ rfl rfl
    exact absurd (offset (by decide)) (by decide)
  · have stored : ∀ doc ∈ [countingMessage 7], Eqs.messageReader.Stored doc :=
      fun _ mem => mem_singleton.mp mem ▸ stored_countingMessage
    have keeps := (restores_iff refuseAll .mongo stored (by simp)).mp restores
    have counter := keeps _ (.head _) "attributes" _ _ rfl rfl
    exact keeps_attributes.mp counter _ (.head _) (by decide)
  · have stored : ∀ doc ∈ [dataPoint], Emo.monitoringDataReader.Stored doc :=
      fun _ mem => mem_singleton.mp mem ▸ stored_dataPoint
    have keeps := (restores_iff refuseAll .mongo stored (by simp)).mp restores
    exact keeps _ (.head _) "samples" _ _ rfl rfl (by decide)

end Euclid.Emm.ExportImport
