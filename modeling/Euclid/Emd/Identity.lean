/-
This file proves when the `_id` of a document is its identity.

Every document is stored under exactly one `_id`, and it is an ObjectId, except that an update
may write something else there. No two documents have the same one as long as a document is
not created under an id that is stored already, and an update keeps the id of what it matches
as long as the last of its fields that names `_id`, if there is one, sets it to that very id.
A replacement always keeps it.
-/

import Euclid.Emd.UniqueIndex
import Euclid.Emd.Writes

namespace Euclid.Emd

open List

/-! ### What an update leaves in `_id` -/

/-- What is held as `_id`. -/
def Content.identities (content : Content) : List (Option Oid) :=
  (content "_id").toList.map Value.asOid

variable {doc : Document}

theorem identities_of_distinct (distinct : doc.Distinct) :
    identities doc = Content.identities doc.field := by
  induction doc with
  | nil => rfl
  | cons entry rest ih =>
    obtain ⟨absent, distinct⟩ := nodup_cons.mp distinct
    rw [identities_cons, ih distinct, Content.identities, Content.identities, field_cons]
    split
    · next isId => rw [field_eq_none.mpr (isId ▸ absent)]; rfl
    · rfl

variable {moment : Nat} {env : Env} {filter : Document}

/-- Where no entry of an array called `_id` is picked out, a write leaves what its operator does. -/
theorem identities_onContent {content : Content}
    (noneOfIt : positionalIndex env doc filter "_id" = .ok none) (write : Write) :
    Content.identities (write.onContent env moment doc filter content) =
      if write.name = "_id" then leavesIn write.op write.operand else content.identities := by
  unfold Write.onContent
  split
  · next arrayField subField inArray =>
    have notId : write.name ≠ "_id" := by
      intro isId
      have noDollar : splitAtDollar "_id".toList = none := by decide
      rw [Write.inArray, isId, noDollar] at inArray
      split at inArray <;> cases inArray
    rw [if_neg notId]
    split
    · next picked _ =>
      have differs : "_id" ≠ arrayField := by
        rintro rfl
        rw [noneOfIt] at picked
        cases picked
      rw [Content.identities, Function.update_of_ne differs]
      rfl
    · rfl
  · rw [Content.identities]
    by_cases isId : write.name = "_id"
    · rw [if_pos isId, isId, Function.update_self]
      unfold Write.leaves leavesIn
      by_cases unset : write.op = "$unset"
      · rw [if_pos unset, if_pos unset]; rfl
      by_cases sets : write.op = "$set" ∨ write.op = "$setOnInsert"
      · rw [if_neg unset, if_pos sets, if_neg unset, if_pos sets]; rfl
      have increments (existing : Option Value) :
        (incremented existing write.operand).asOid = none := by
        unfold incremented
        extract_lets
        split <;> rfl
      rw [if_neg unset, if_neg sets, if_neg unset, if_neg sets]
      split
      · rfl
      split
      · exact congrArg (fun left => [left]) (increments _)
      split <;> rfl
    · rw [if_neg isId, Function.update_of_ne (Ne.symm isId)]
      rfl

/-- An update leaves what the last field of that name leaves, in the document and then in the
update. -/
theorem identities_applyUpdate {update result : Document}
    {inserting : Bool} (noneOfIt : positionalIndex env doc filter "_id" = .ok none)
    (applied : applyUpdate env moment doc update inserting filter = .ok result) :
    identities result =
      (idWrites inserting update).getLastD ((idWritesOf "$set" doc).getLastD []) := by
  have holds := holds_applyUpdate applied
  rw [identities_of_distinct holds.ordered.distinct, holds.holds, contentAfter, ← identities_fields,
    identities_of_distinct (ordered_fields doc).distinct]
  have written : idWrites inserting update =
      ((writesOf inserting update).filter fun write => write.name = "_id").map fun write =>
        leavesIn write.op write.operand := by
    rw [idWrites, writesOf, filter_flatMap, map_flatMap]
    refine flatMap_congr fun stage _ => ?_
    unfold stageWrites stageWritten
    cases stage.2 with
    | document body =>
      dsimp only
      split
      · rfl
      · rw [filter_map, map_map]
        rfl
    | _ => rfl
  rw [written]
  generalize doc.fields.field = content
  induction writesOf inserting update generalizing content with
  | nil => rfl
  | cons write rest ih =>
    rw [foldl_cons, ih, identities_onContent noneOfIt, filter_cons]
    by_cases isId : write.name = "_id"
    · rw [if_pos isId, if_pos (decide_eq_true isId), map_cons, getLastD_cons]
    · rw [if_neg isId, if_neg (by simp [isId])]

/-! ### The ids a call names -/

/-- The ObjectId an update leaves in the `_id` of a document, if it leaves one. -/
def idAfter (inserting : Bool) (doc update : Document) : Option Oid :=
  ((idWrites inserting update).getLastD ((idWritesOf "$set" doc).getLastD [])).head?.join

/-- The id a call creates a document under: the one its document or its update names, else the
one its filter names, else a fresh one. -/
def Call.CreatesUnder (env : Env) (moment : Nat) (target : Collection) (id : Oid) : Call → Prop
  | .insertOne doc => id = (oidOf doc).getD (env.freshOid moment)
  | .updateOne filter update upsert =>
    (upsert = true ∧ firstMatch env filter [] target.documents = .ok none) ∧
      id = (idAfter true (seedFromFilter filter) update).getD
        ((oidOf filter).getD (env.freshOid moment))
  | .replaceOne filter replacement upsert =>
    (upsert = true ∧ firstMatch env filter [] target.documents = .ok none) ∧
      id = upsertId replacement filter (env.freshOid moment)
  | .findOneAndUpdate filter _ upsert _ =>
    (upsert = true ∧ firstMatch env filter [] target.documents = .ok none) ∧
      id = env.freshOid moment
  | _ => False

def Call.Updates (env : Env) (target : Collection) (doc update : Document) : Call → Prop
  | .updateOne filter applied _ => FirstMatch env filter target doc ∧ update = applied
  | .updateMany filter applied =>
    (doc ∈ target.documents ∧ matchesFilter env doc filter = .ok true) ∧ update = applied
  | .findOneAndUpdate filter applied _ _ =>
    FirstMatch env filter target doc ∧ update = applied
  | _ => False

/-- A call that creates a document creates it under an id that is not stored, and one that
updates a document leaves its id there. -/
structure SparesIds (env : Env) (moment : Nat) (call : Call)
    (target : Collection) : Prop where
  unused : ∀ id, call.CreatesUnder env moment target id → some id ∉ target.documents.map oidOf
  kept : ∀ doc update id, call.Updates env target doc update →
    oidOf doc = some id → (idWrites false update).getLastD [some id] = [some id]

/-! ### The invariant -/

/-- Every document has one `_id`, an ObjectId, and no two have the same. -/
structure Identified (target : Collection) : Prop where
  single : ∀ doc ∈ target.documents, ∃ id, identities doc = [some id]
  distinct : (target.documents.map oidOf).Nodup

variable {doc : Document} {id : Oid}

section

variable (identified : identities doc = [some id])

include identified

theorem oidOf_of_identities : oidOf doc = some id := by
  rw [oidOf_eq, identified]
  rfl

theorem field_of_identities : doc.field "_id" = some (.oid id) := by
  have named : (doc.field "_id").bind Value.asOid = some id := oidOf_of_identities identified
  obtain ⟨value, found, isOid⟩ := Option.bind_eq_some_iff.mp named
  cases value with
  | oid stored => cases isOid; exact found
  | _ => cases isOid

theorem positionalIndex_of_identities : positionalIndex env doc filter "_id" = .ok none := by
  unfold positionalIndex
  rw [field_of_identities identified]

end

theorem positionalIndex_nil {name : String} : positionalIndex env doc [] name = .ok none := by
  unfold positionalIndex conditionsOn
  split <;> rfl

variable {target : Collection} {env : Env} {call : Call} (spares : SparesIds env moment call target)

include spares in
theorem identities_of_rewrites {updated : Document} (identified : identities doc = [some id])
    (rewrites : call.Rewrites env moment target doc updated) : identities updated = [some id] := by
  have named := oidOf_of_identities identified
  have updates {update filter : Document} (isUpdated : call.Updates env target doc update)
      (applied : applyUpdate env moment doc update false filter = .ok updated) :
      identities updated = [some id] := by
    have loaded : (idWritesOf "$set" doc).getLastD [] = [some id] := by
      have single : idWritesOf "$set" doc = (identities doc).map fun written => [written] := by
        unfold idWritesOf identities
        rw [map_map]
        rfl
      rw [single, identified]
      rfl
    rw [identities_applyUpdate (positionalIndex_of_identities identified)
      applied, loaded]
    exact spares.kept doc update id isUpdated named
  cases call with
  | updateOne filter update upsert => exact updates ⟨rewrites.1, rfl⟩ rewrites.2
  | updateMany filter update => exact updates ⟨rewrites.1, rfl⟩ rewrites.2
  | findOneAndUpdate filter update upsert returnAfter =>
    exact updates ⟨rewrites.1, rfl⟩ rewrites.2
  | replaceOne filter replacement upsert =>
    obtain ⟨_, kept, isKept, rfl⟩ := rewrites
    rw [named] at isKept
    cases isKept
    exact identities_withId replacement id
  | _ => exact rewrites.elim

variable {created : Document}

theorem identities_of_creates (creates : call.Creates env moment target created) :
    ∃ id, call.CreatesUnder env moment target id ∧ identities created = [some id] := by
  cases call with
  | insertOne doc => exact ⟨_, rfl, creates ▸ identities_withId _ _⟩
  | updateOne filter update upsert =>
    obtain ⟨upserts, missed, applied, seeded, rfl⟩ := creates
    refine ⟨_, ⟨⟨upserts, missed⟩, ?_⟩, identities_withId _ _⟩
    unfold upsertId
    rw [oidOf_eq applied,
      identities_applyUpdate positionalIndex_nil seeded]
    rfl
  | replaceOne filter replacement upsert =>
    obtain ⟨upserts, missed, rfl⟩ := creates
    exact ⟨_, ⟨⟨upserts, missed⟩, rfl⟩, identities_withId _ _⟩
  | findOneAndUpdate filter update upsert returnAfter =>
    obtain ⟨upserts, missed, applied, rfl, _⟩ := creates
    exact ⟨_, ⟨⟨upserts, missed⟩, rfl⟩, identities_withId _ _⟩
  | _ => exact creates.elim

/-! ### What a call preserves -/

theorem identified_append (identified : Identified target) (named : identities created = [some id])
    (unused : some id ∉ target.documents.map oidOf) : Identified (target.append created) where
  single := by
    intro doc mem
    rcases mem_append.mp mem with stored | isCreated
    · exact identified.single doc stored
    · rw [mem_singleton.mp isCreated]
      exact ⟨id, named⟩
  distinct := by
    have apart : (target.documents.map oidOf).Disjoint [some id] := by
      simpa using unused
    unfold Collection.append
    rw [map_append, map_singleton, oidOf_of_identities named]
    exact nodup_append'.mpr ⟨identified.distinct, nodup_singleton _, apart⟩

include spares in
/-- What the writes of a call to stored documents leave: every document is identified, and none
has an id that was not there. -/
theorem identified_effects (identified : Identified target) {written : Collection}
    (effects : Effects env moment call target target written) :
    Identified written ∧
      (¬call.Erases → written.documents.map oidOf = target.documents.map oidOf) := by
  induction effects with
  | refl => exact ⟨identified, fun _ => rfl⟩
  | tail _ effect ih =>
    obtain ⟨⟨single, distinct⟩, sameIds⟩ := ih
    cases effect with
    | rewritten place updated found rewrites unique =>
      rw [← found] at single distinct sameIds
      obtain ⟨id, named⟩ := single place.document (by simp)
      have kept := identities_of_rewrites spares named rewrites
      have alike : (place.before ++ updated :: place.after).map oidOf =
          (place.before ++ place.document :: place.after).map oidOf := by
        simp [oidOf_of_identities named, oidOf_of_identities kept]
      refine ⟨⟨?_, alike ▸ distinct⟩, fun erasesNone => alike.trans (sameIds erasesNone)⟩
      intro doc mem
      rcases mem_append.mp mem with before | fromHere
      · exact single doc (mem_append_left _ before)
      rcases mem_cons.mp fromHere with rfl | after
      · exact ⟨id, kept⟩
      · exact single doc (mem_append_right _ (.tail _ after))
    | erased place found erases =>
      rw [← found] at single distinct
      have fewer : (place.before ++ place.after).Sublist
          (place.before ++ place.document :: place.after) :=
        (List.Sublist.refl _).append (sublist_cons_self _ _)
      refine ⟨⟨fun doc mem => single doc (fewer.subset mem),
        distinct.sublist (fewer.map oidOf)⟩, fun erasesNone => absurd erases erasesNone⟩

include spares in
/-- A call that spares the ids leaves every document identified, and one that erases nothing
leaves every id where it was. -/
theorem identified_run (identified : Identified target) :
    Identified (call.run env moment target).2 ∧
      (¬call.Erases → target.documents.map oidOf <+:
        (call.run env moment target).2.documents.map oidOf) := by
  have written : Written env moment call target (call.run env moment target).2 := run_written call
  generalize (call.run env moment target).2 = result at written ⊢
  cases written with
  | indexed keys unique creates =>
    have sameDocuments : (target.createIndex keys unique).documents = target.documents := by
      unfold Collection.createIndex
      split
      · rfl
      split <;> rfl
    refine ⟨⟨?_, ?_⟩, fun _ => ?_⟩
    · rw [sameDocuments]; exact identified.single
    · rw [sameDocuments]; exact identified.distinct
    · rw [sameDocuments]
  | created doc creates unique =>
    obtain ⟨id, createsUnder, named⟩ := identities_of_creates creates
    refine ⟨identified_append identified named (spares.unused id createsUnder), fun _ => ?_⟩
    unfold Collection.append
    rw [map_append]
    exact prefix_append _ _
  | changed effects =>
    obtain ⟨stillIdentified, sameIds⟩ := identified_effects spares identified effects
    exact ⟨stillIdentified, fun erasesNone => (sameIds erasesNone) ▸ prefix_refl _⟩

/-- In every state reached by calls that spare the ids, every document has an ObjectId for its
`_id`, no two of a collection have the same, and no update or replacement that spares them
changes the id of a document that was there. -/
theorem ids_kept {env : Env} {moment : Nat} {store : Store}
    (reached : Reached env (SparesIds env) moment store) :
    (∀ name, (∀ doc ∈ (store name).documents, ∃ id, doc.field "_id" = some (.oid id)) ∧
      ((store name).documents.map oidOf).Nodup) ∧
    ∀ name call, SparesIds env moment call (store name) → ¬call.Erases →
      ∀ other, (store other).documents.map oidOf <+:
        ((step env moment name call store).2 other).documents.map oidOf := by
  have identified : ∀ name, Identified (store name) := by
    refine reached.invariant ⟨fun _ mem => (not_mem_nil mem).elim, .nil⟩ ?_
    exact fun moment call target spares identified => (identified_run spares identified).1
  refine ⟨fun name => ⟨?_, (identified name).distinct⟩, ?_⟩
  · intro doc mem
    obtain ⟨id, named⟩ := (identified name).single doc mem
    exact ⟨id, field_of_identities named⟩
  · intro name call spares erasesNone other
    unfold step
    by_cases same : other = name
    · subst same
      simpa using (identified_run spares (identified other)).2 erasesNone
    · simp [same]

/-- A user, and an update of it that leaves its id alone. -/
def renamedUser : List (String × Call) :=
  [("user", .insertOne [("_id", .oid 7), ("name", .string "ada")]),
    ("user", .updateOne [("name", .string "ada")]
      [("$set", .document [("name", .string "bob")])] true)]

theorem ids_kept_renamed :
    (runCalls countingEnvironment 0 renamedUser .empty "user").documents.map oidOf = [some 7] ∧
      ((runCalls countingEnvironment 0 renamedUser .empty "user").documents.map oidOf).Nodup := by
  have spares : AllMeet countingEnvironment (SparesIds countingEnvironment) 0 renamedUser
      .empty := by
    refine ⟨⟨?_, ?_⟩, ⟨?_, ?_⟩, trivial⟩
    · exact fun id _ => not_mem_nil
    · exact fun _ _ _ updates => updates.elim
    · rintro id ⟨_, rfl⟩
      decide
    · rintro doc update id ⟨_, rfl⟩ _
      rfl
  exact ⟨by decide, ((ids_kept (Reached.empty.runCalls spares)).1 "user").2⟩

/-- Two documents inserted under one id. -/
def insertedTwice : List (String × Call) :=
  [("user", .insertOne [("_id", .oid 7), ("name", .string "ada")]),
    ("user", .insertOne [("_id", .oid 7), ("name", .string "bob")])]

/-- Nothing keeps a caller from inserting a second document under an id that is stored. -/
theorem id_not_unique : ¬∀ (env : Env) (moment : Nat) (store : Store),
      Reached env (fun _ _ _ => True) moment store →
      ∀ name, ((store name).documents.map oidOf).Nodup := by
  intro distinct
  have meet : AllMeet countingEnvironment (fun _ _ _ => True) 0 insertedTwice .empty :=
    ⟨trivial, trivial, trivial⟩
  have reached := Reached.empty.runCalls meet
  exact absurd (distinct _ _ _ reached "user") (by decide)

end Euclid.Emd
