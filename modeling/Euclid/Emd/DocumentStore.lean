/-
This file is the document store: collections of documents, and the calls that write them.

A collection holds its documents in the order they were inserted, and the key fields of its
unique indexes. A document is checked against all others before it is stored, so a call that
throws has written nothing, except that a call over many documents has already written or
erased the ones it came to before.
-/

import Euclid.Emd.Update

namespace Euclid.Emd

structure Collection where
  documents : List Document
  uniqueKeys : List (List String)

def Collection.empty : Collection := { documents := [], uniqueKeys := [] }

abbrev Store := String → Collection

def Store.empty : Store := fun _ => .empty

structure UpdateResult where
  matched : Nat
  modified : Nat
  upsertedId : Option Oid

/-- Whether the bytes of two documents are the same. -/
def sameDocument (left right : Document) : Bool := Value.sameFields left right

/-! ### Unique keys -/

/-- The filter that finds a document with the same key, unless part of the key is missing. -/
def keyFilter (document : Document) : List String → Option Document
  | [] => some []
  | key :: keys =>
    match valuesAt document key with
    | [] => none
    | value :: _ => (keyFilter document keys).map ((key, value) :: ·)

def duplicateKey (keys : List String) : Fault :=
  .runtimeError ("E11000 duplicate key: another document already has this " ++
    keys.foldl (fun names key => names ++ ((if names = "" then "" else ", ") ++ key)) "")

/-- Whether one of the other documents has a key. -/
def checkKey (env : Env) (keys : List String) (filter : Document) :
    List Document → Except Fault Unit
  | [] => .ok ()
  | other :: rest =>
    match matchesFilter env other filter with
    | .ok true => .error (duplicateKey keys)
    | .ok false => checkKey env keys filter rest
    | .error fault => .error fault

/-- `CheckUnique`, against the documents other than the one being replaced. -/
def checkUnique (env : Env) (others : List Document) (document : Document) :
    List (List String) → Except Fault Unit
  | [] => .ok ()
  | keys :: rest =>
    match keyFilter document keys with
    | some filter =>
      match checkKey env keys filter others with
      | .ok () => checkUnique env others document rest
      | .error fault => .error fault
    | none => checkUnique env others document rest

/-! ### Calls on one collection -/

/-- A document and those before and after it. -/
structure Place where
  before : List Document
  document : Document
  after : List Document

def firstMatch (env : Env) (filter : Document) :
    List Document → List Document → Except Fault (Option Place)
  | _, [] => .ok none
  | before, document :: after =>
    match matchesFilter env document filter with
    | .ok true => .ok (some { before, document, after })
    | .ok false => firstMatch env filter (before ++ [document]) after
    | .error fault => .error fault

namespace Collection

/-- The documents with one put in the place of another. -/
def replaceAt (target : Collection) (place : Place) (document : Document) : Collection :=
  { target with documents := place.before ++ document :: place.after }

def append (target : Collection) (document : Document) : Collection :=
  { target with documents := target.documents ++ [document] }

/-- A new document, checked and stored. -/
def create (env : Env) (target : Collection) (created : Document) : Except Fault Collection := do
  checkUnique env target.documents created target.uniqueKeys
  .ok (target.append created)

/-- A document written over another, checked and stored. -/
def rewrite (env : Env) (target : Collection) (place : Place)
    (updated : Document) : Except Fault Collection := do
  checkUnique env (place.before ++ place.after) updated target.uniqueKeys
  .ok (target.replaceAt place updated)

/-- A document written over another unless it is the same. -/
def rewriteIfChanged (env : Env) (target : Collection) (place : Place)
    (updated : Document) : Except Fault (UpdateResult × Collection) :=
  if sameDocument place.document updated then
    .ok ({ matched := 1, modified := 0, upsertedId := none }, target)
  else do
    let written ← target.rewrite env place updated
    .ok ({ matched := 1, modified := 1, upsertedId := none }, written)

def insertOne (env : Env) (moment : Nat) (document : Document)
    (target : Collection) : Except Fault (Oid × Collection) := do
  let id := (oidOf document).getD (env.freshOid moment)
  let written ← target.create env (withId document id)
  .ok (id, written)

/-- The document an upsert creates from its filter and its update. -/
def upserted (env : Env) (moment : Nat) (filter update : Document) : Except Fault Document :=
  applyUpdate env moment (seedFromFilter filter) update true []

def updateOne (env : Env) (moment : Nat) (filter update : Document)
    (upsert : Bool) (target : Collection) : Except Fault (UpdateResult × Collection) := do
  match ← firstMatch env filter [] target.documents with
  | some place =>
    let updated ← applyUpdate env moment place.document update false filter
    target.rewriteIfChanged env place updated
  | none =>
    if upsert then
      let applied ← upserted env moment filter update
      let id := upsertId applied filter (env.freshOid moment)
      let written ← target.create env (withId applied id)
      .ok ({ matched := 0, modified := 0, upsertedId := some id }, written)
    else .ok ({ matched := 0, modified := 0, upsertedId := none }, target)

/-- The documents of a collection from one on, updated one after another. -/
def updateEach (env : Env) (moment : Nat) (uniqueKeys : List (List String))
    (filter update : Document) : List Document → List Document → UpdateResult →
    Except Fault UpdateResult × List Document
  | before, [], result => (.ok result, before)
  | before, document :: after, result =>
    match matchesFilter env document filter with
    | .error fault => (.error fault, before ++ document :: after)
    | .ok false =>
      updateEach env moment uniqueKeys filter update (before ++ [document]) after result
    | .ok true =>
      let found := { result with matched := result.matched + 1 }
      match applyUpdate env moment document update false filter with
      | .error fault => (.error fault, before ++ document :: after)
      | .ok updated =>
        if sameDocument document updated then
          updateEach env moment uniqueKeys filter update (before ++ [document]) after found
        else
          match checkUnique env (before ++ after) updated uniqueKeys with
          | .error fault => (.error fault, before ++ document :: after)
          | .ok () =>
            updateEach env moment uniqueKeys filter update (before ++ [updated]) after
              { found with modified := found.modified + 1 }

def updateMany (env : Env) (moment : Nat) (filter update : Document)
    (target : Collection) : Except Fault UpdateResult × Collection :=
  let (result, documents) := updateEach env moment target.uniqueKeys filter update []
    target.documents { matched := 0, modified := 0, upsertedId := none }
  (result, { target with documents })

def replaceOne (env : Env) (moment : Nat) (filter replacement : Document)
    (upsert : Bool) (target : Collection) : Except Fault (UpdateResult × Collection) := do
  match ← firstMatch env filter [] target.documents with
  | some place =>
    match oidOf place.document with
    | some id => target.rewriteIfChanged env place (withId replacement id)
    | none => .error .elementType
  | none =>
    if upsert then
      let id := upsertId replacement filter (env.freshOid moment)
      let written ← target.create env (withId replacement id)
      .ok ({ matched := 0, modified := 0, upsertedId := some id }, written)
    else .ok ({ matched := 0, modified := 0, upsertedId := none }, target)

def findOneAndUpdate (env : Env) (moment : Nat) (filter update : Document)
    (upsert returnAfter : Bool) (target : Collection) :
    Except Fault (Option Document × Collection) := do
  match ← firstMatch env filter [] target.documents with
  | some place =>
    let updated ← applyUpdate env moment place.document update false filter
    let written ← target.rewrite env place updated
    .ok (some (if returnAfter then updated else place.document), written)
  | none =>
    if upsert then
      let applied ← upserted env moment filter update
      let created := withId applied (env.freshOid moment)
      let written ← target.create env created
      .ok (if returnAfter then some created else none, written)
    else .ok (none, target)

def findOneAndDelete (env : Env) (filter : Document) (target : Collection) :
    Except Fault (Option Document × Collection) := do
  match ← firstMatch env filter [] target.documents with
  | some place =>
    .ok (some place.document, { target with documents := place.before ++ place.after })
  | none => .ok (none, target)

/-- The documents of a collection from one on, erased one after another. -/
def deleteEach (env : Env) (filter : Document) (single : Bool) :
    List Document → List Document → Nat → Except Fault Nat × List Document
  | before, [], deleted => (.ok deleted, before)
  | before, document :: after, deleted =>
    match matchesFilter env document filter with
    | .error fault => (.error fault, before ++ document :: after)
    | .ok false => deleteEach env filter single (before ++ [document]) after deleted
    | .ok true =>
      if single then (.ok (deleted + 1), before ++ after)
      else deleteEach env filter single before after (deleted + 1)

def delete (env : Env) (filter : Document) (single : Bool)
    (target : Collection) : Except Fault Nat × Collection :=
  let (deleted, documents) := deleteEach env filter single [] target.documents 0
  (deleted, { target with documents })

def createIndex (keys : Document) (unique : Bool) (target : Collection) : Collection :=
  if ¬unique then target
  else if keys.map Prod.fst ∈ target.uniqueKeys then target
  else { target with uniqueKeys := target.uniqueKeys ++ [keys.map Prod.fst] }

end Collection

/-! ### Calls on the store -/

/-- A call that writes, with its arguments. -/
inductive Call where
  | createIndex (keys : Document) (unique : Bool)
  | insertOne (document : Document)
  | updateOne (filter update : Document) (upsert : Bool)
  | updateMany (filter update : Document)
  | replaceOne (filter replacement : Document) (upsert : Bool)
  | findOneAndUpdate (filter update : Document) (upsert returnAfter : Bool)
  | findOneAndDelete (filter : Document)
  | delete (filter : Document) (single : Bool)

inductive Answer where
  | done
  | inserted (id : Oid)
  | updated (result : UpdateResult)
  | found (document : Option Document)
  | deleted (count : Nat)

/-- A call that throws before it writes anything. -/
def whole {Returned : Type} (answer : Returned → Answer) (target : Collection) :
    Except Fault (Returned × Collection) → Except Fault Answer × Collection
  | .ok (returned, written) => (.ok (answer returned), written)
  | .error fault => (.error fault, target)

/-- A call on one collection: what it returns or throws, and the collection after it. -/
def Call.run (env : Env) (moment : Nat) (target : Collection) :
    Call → Except Fault Answer × Collection
  | .createIndex keys unique => (.ok .done, target.createIndex keys unique)
  | .insertOne document => whole .inserted target (target.insertOne env moment document)
  | .updateOne filter update upsert =>
    whole .updated target (target.updateOne env moment filter update upsert)
  | .updateMany filter update =>
    let (result, written) := target.updateMany env moment filter update
    (result.map .updated, written)
  | .replaceOne filter replacement upsert =>
    whole .updated target (target.replaceOne env moment filter replacement upsert)
  | .findOneAndUpdate filter update upsert returnAfter =>
    whole .found target (target.findOneAndUpdate env moment filter update upsert returnAfter)
  | .findOneAndDelete filter => whole .found target (target.findOneAndDelete env filter)
  | .delete filter single =>
    let (deleted, written) := target.delete env filter single
    (deleted.map .deleted, written)

def step (env : Env) (moment : Nat) (name : String) (call : Call)
    (store : Store) : Except Fault Answer × Store :=
  let (answer, written) := call.run env moment (store name)
  (answer, Function.update store name written)

/-- The store after calls one after another, from a moment on. -/
def runCalls (env : Env) : Nat → List (String × Call) → Store → Store
  | _, [], store => store
  | moment, (name, call) :: calls, store =>
    runCalls env (moment + 1) calls (step env moment name call store).2

/-! ### Runs -/

/-- The stores a run of calls reaches from the empty one, each call meeting a condition on
itself and the collection it is made on. -/
inductive Reached (env : Env) (Meets : Nat → Call → Collection → Prop) :
    Nat → Store → Prop where
  | empty : Reached env Meets 0 .empty
  | step {moment : Nat} {store : Store} (name : String) (call : Call)
      (reached : Reached env Meets moment store)
      (meets : Meets moment call (store name)) :
      Reached env Meets (moment + 1) (step env moment name call store).2

variable {env : Env} {Meets : Nat → Call → Collection → Prop}

theorem Reached.invariant {Keeps : Collection → Prop} (initially : Keeps .empty)
    (preserved : ∀ moment call target, Meets moment call target → Keeps target →
      Keeps (call.run env moment target).2)
    {moment : Nat} {store : Store} (reached : Reached env Meets moment store) :
    ∀ name, Keeps (store name) := by
  induction reached with
  | empty => exact fun _ => initially
  | step name call reached meets hypothesis =>
    intro other
    unfold Emd.step
    by_cases same : other = name
    · subst same
      simpa using preserved _ _ _ meets (hypothesis other)
    · simpa [same] using hypothesis other

/-- Whether every call of a run meets the condition where it is made. -/
def AllMeet (env : Env) (Meets : Nat → Call → Collection → Prop) :
    Nat → List (String × Call) → Store → Prop
  | _, [], _ => True
  | moment, (name, call) :: calls, store =>
    Meets moment call (store name) ∧
      AllMeet env Meets (moment + 1) calls (step env moment name call store).2

theorem Reached.runCalls :
    ∀ {calls : List (String × Call)} {moment : Nat} {store : Store},
      Reached env Meets moment store → AllMeet env Meets moment calls store →
      Reached env Meets (moment + calls.length) (runCalls env moment calls store)
  | [], _, _, reached, _ => reached
  | (name, call) :: calls, moment, _, reached, meet => by
    rw [List.length_cons, Nat.add_comm calls.length 1, ← Nat.add_assoc]
    exact (reached.step name call meet.1).runCalls meet.2

variable {place : Place}

theorem firstMatch_place {filter : Document} :
    ∀ {before documents : List Document},
      firstMatch env filter before documents = .ok (some place) →
      place.before ++ place.document :: place.after = before ++ documents
  | before, [], found => by cases found
  | before, document :: after, found => by
    unfold firstMatch at found
    split at found
    · cases found
      rfl
    · rw [firstMatch_place found, List.append_assoc]
      rfl
    · cases found

variable {written : Collection} {target : Collection} {updated : Document}

theorem Collection.rewriteIfChanged_cases {result : UpdateResult}
    (wrote : target.rewriteIfChanged env place updated = .ok (result, written)) :
    written = target ∨ target.rewrite env place updated = .ok written := by
  unfold rewriteIfChanged at wrote
  split at wrote
  · cases wrote
    exact .inl rfl
  · cases rewritten : target.rewrite env place updated with
    | error fault => rw [rewritten] at wrote; cases wrote
    | ok next =>
      rw [rewritten] at wrote
      cases wrote
      exact .inr rfl

theorem Collection.rewrite_ok (wrote : target.rewrite env place updated = .ok written) :
    checkUnique env (place.before ++ place.after) updated target.uniqueKeys = .ok () ∧
      written = target.replaceAt place updated := by
  unfold rewrite at wrote
  cases checked : checkUnique env (place.before ++ place.after) updated target.uniqueKeys with
  | error fault => rw [checked] at wrote; cases wrote
  | ok done =>
    rw [checked] at wrote
    cases wrote
    exact ⟨rfl, rfl⟩

theorem Collection.create_ok
    {created : Document} (wrote : target.create env created = .ok written) :
    checkUnique env target.documents created target.uniqueKeys = .ok () ∧
      written = target.append created := by
  unfold create at wrote
  cases checked : checkUnique env target.documents created target.uniqueKeys with
  | error fault => rw [checked] at wrote; cases wrote
  | ok done =>
    rw [checked] at wrote
    cases wrote
    exact ⟨rfl, rfl⟩

end Euclid.Emd
