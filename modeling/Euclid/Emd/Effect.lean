/-
This file says once what a call can do to a collection.

A call that creates a document appends one, after it was checked against all others. Any other
writes over documents after they were checked against the rest, or erases them, one after
another; a call over many documents may stop between two.
-/

import Euclid.Emd.DocumentStore

namespace Euclid.Emd

open List Collection

/-! ### The documents a call writes -/

def Call.Creates (env : Env) (moment : Nat) (target : Collection) (created : Document) : Call → Prop
  | .insertOne document =>
    created = withId document ((oidOf document).getD (env.freshOid moment))
  | .updateOne filter update upsert =>
    upsert = true ∧ firstMatch env filter [] target.documents = .ok none ∧
      ∃ applied, upserted env moment filter update = .ok applied ∧
        created = withId applied (upsertId applied filter (env.freshOid moment))
  | .replaceOne filter replacement upsert =>
    upsert = true ∧ firstMatch env filter [] target.documents = .ok none ∧
      created = withId replacement (upsertId replacement filter (env.freshOid moment))
  | .findOneAndUpdate filter update upsert _ =>
    upsert = true ∧ firstMatch env filter [] target.documents = .ok none ∧
      ∃ applied, created = withId applied (env.freshOid moment) ∧
        upserted env moment filter update = .ok applied
  | _ => False

/-- The document the first match of a filter finds. -/
def FirstMatch (env : Env) (filter : Document) (target : Collection) (document : Document) : Prop :=
  ∃ place : Place, firstMatch env filter [] target.documents = .ok (some place) ∧
    place.document = document

/-- The documents a call may write over one that was stored before it. -/
def Call.Rewrites (env : Env) (moment : Nat) (target : Collection)
    (document updated : Document) : Call → Prop
  | .updateOne filter update _ =>
    FirstMatch env filter target document ∧
      applyUpdate env moment document update false filter = .ok updated
  | .updateMany filter update =>
    (document ∈ target.documents ∧ matchesFilter env document filter = .ok true) ∧
      applyUpdate env moment document update false filter = .ok updated
  | .replaceOne filter replacement _ =>
    FirstMatch env filter target document ∧
      ∃ id, oidOf document = some id ∧ updated = withId replacement id
  | .findOneAndUpdate filter update _ _ =>
    FirstMatch env filter target document ∧
      applyUpdate env moment document update false filter = .ok updated
  | _ => False

def Call.Erases : Call → Prop
  | .findOneAndDelete _ => True
  | .delete _ _ => True
  | _ => False

/-! ### What a call writes -/

/-- A write to a document that is stored already. -/
inductive Effect (env : Env) (Rewrites : Document → Document → Prop)
    (Erases : Prop) : Collection → Collection → Prop where
  | rewritten {target : Collection} (place : Place) (updated : Document)
      (found : place.before ++ place.document :: place.after = target.documents)
      (rewrites : Rewrites place.document updated)
      (unique : checkUnique env (place.before ++ place.after) updated target.uniqueKeys = .ok ()) :
      Effect env Rewrites Erases target (target.replaceAt place updated)
  | erased {target : Collection} (place : Place)
      (found : place.before ++ place.document :: place.after = target.documents)
      (erases : Erases) :
      Effect env Rewrites Erases target { target with documents := place.before ++ place.after }

/-- Writes to stored documents, one after another. -/
abbrev Effects (env : Env) (moment : Nat) (call : Call) (target : Collection) :
    Collection → Collection → Prop :=
  Relation.ReflTransGen (Effect env (call.Rewrites env moment target · ·) call.Erases)

inductive Written (env : Env) (moment : Nat) (call : Call) (target : Collection) :
    Collection → Prop where
  | indexed (keys : Document) (unique : Bool) (creates : call = .createIndex keys unique) :
      Written env moment call target (target.createIndex keys unique)
  | created (document : Document) (creates : call.Creates env moment target document)
      (unique : checkUnique env target.documents document target.uniqueKeys = .ok ()) :
      Written env moment call target (target.append document)
  | changed {written : Collection}
      (effects : Effects env moment call target target written) :
      Written env moment call target written

section

variable {env : Env} {moment : Nat} {target : Collection} {call : Call}

theorem whole_written {Returned : Type} {answer : Returned → Answer}
    {outcome : Except Fault (Returned × Collection)}
    (returns : ∀ returned written, outcome = .ok (returned, written) →
      Written env moment call target written) :
    Written env moment call target (whole answer target outcome).2 := by
  cases outcome with
  | error fault => exact .changed .refl
  | ok result => exact returns result.1 result.2 rfl

variable {written : Collection}

theorem create_written {created : Document} (creates : call.Creates env moment target created)
    (wrote : target.create env created = .ok written) : Written env moment call target written := by
  obtain ⟨unique, rfl⟩ := create_ok wrote
  exact .created created creates unique

variable {filter : Document}

theorem rewrite_written {updated : Document} {place : Place}
    (found : firstMatch env filter [] target.documents = .ok (some place))
    (rewrites : call.Rewrites env moment target place.document updated)
    (wrote : target.rewrite env place updated = .ok written) :
    Written env moment call target written := by
  obtain ⟨unique, rfl⟩ := rewrite_ok wrote
  exact .changed (.single (.rewritten place updated (firstMatch_place found) rewrites unique))

theorem insertOne_written {document : Document} (returned : Oid) (written : Collection)
    (inserted : target.insertOne env moment document = .ok (returned, written)) :
    Written env moment (.insertOne document) target written := by
  obtain ⟨next, wrote, done⟩ := bind_ok inserted
  cases done
  exact create_written rfl wrote

variable {upsert : Bool} {update : Document}

theorem updateOne_written (returned : UpdateResult)
    (written : Collection) (updatedOne : target.updateOne env moment filter update upsert =
      .ok (returned, written)) :
    Written env moment (.updateOne filter update upsert) target written := by
  obtain ⟨first, found, rest⟩ := bind_ok updatedOne
  cases first with
  | some place =>
    obtain ⟨updated, applied, wrote⟩ := bind_ok rest
    rcases rewriteIfChanged_cases wrote with rfl | rewrote
    · exact .changed .refl
    · exact rewrite_written found ⟨⟨place, found, rfl⟩, applied⟩ rewrote
  | none =>
    cases upsert with
    | false => cases rest; exact .changed .refl
    | true =>
      obtain ⟨applied, seeded, rest⟩ := bind_ok rest
      obtain ⟨next, wrote, done⟩ := bind_ok rest
      cases done
      exact create_written ⟨rfl, found, applied, seeded, rfl⟩ wrote

theorem replaceOne_written {replacement : Document} (returned : UpdateResult) (written : Collection)
    (replaced : target.replaceOne env moment filter replacement upsert = .ok (returned, written)) :
    Written env moment (.replaceOne filter replacement upsert) target written := by
  obtain ⟨first, found, rest⟩ := bind_ok replaced
  cases first with
  | some place =>
    cases identity : oidOf place.document with
    | none => simp only [identity] at rest; cases rest
    | some id =>
      simp only [identity] at rest
      rcases rewriteIfChanged_cases rest with rfl | rewrote
      · exact .changed .refl
      · exact rewrite_written found ⟨⟨place, found, rfl⟩, id, identity, rfl⟩ rewrote
  | none =>
    cases upsert with
    | false => cases rest; exact .changed .refl
    | true =>
      obtain ⟨next, wrote, done⟩ := bind_ok rest
      cases done
      exact create_written ⟨rfl, found, rfl⟩ wrote

theorem findOneAndUpdate_written {returnAfter : Bool}
    (returned : Option Document) (written : Collection)
    (updatedOne : target.findOneAndUpdate env moment filter update upsert returnAfter =
      .ok (returned, written)) :
    Written env moment (.findOneAndUpdate filter update upsert returnAfter) target written := by
  obtain ⟨first, found, rest⟩ := bind_ok updatedOne
  cases first with
  | some place =>
    obtain ⟨updated, applied, rest⟩ := bind_ok rest
    obtain ⟨next, wrote, done⟩ := bind_ok rest
    cases done
    exact rewrite_written found ⟨⟨place, found, rfl⟩, applied⟩ wrote
  | none =>
    cases upsert with
    | false => cases rest; exact .changed .refl
    | true =>
      obtain ⟨applied, seeded, rest⟩ := bind_ok rest
      obtain ⟨next, wrote, done⟩ := bind_ok rest
      cases done
      exact create_written ⟨rfl, found, applied, rfl, seeded⟩ wrote

theorem findOneAndDelete_written (returned : Option Document) (written : Collection)
    (deleted : target.findOneAndDelete env filter = .ok (returned, written)) :
    Written env moment (.findOneAndDelete filter) target written := by
  obtain ⟨first, found, rest⟩ := bind_ok deleted
  cases first with
  | some place =>
    cases rest
    exact .changed (.single (.erased place (firstMatch_place found) trivial))
  | none => cases rest; exact .changed .refl

/-- The loop of `UpdateMany`: the documents it has passed are what it made of them, and those
still ahead are as they were. -/
theorem updateEach_effects (filter update : Document) :
    ∀ (before after : List Document) (result : UpdateResult), after ⊆ target.documents →
      Effects env moment (.updateMany filter update) target
        { target with documents := before ++ after }
        { target with
          documents := (updateEach env moment target.uniqueKeys filter update
            before after result).2 }
  | before, [], result, _ => by
    rw [append_nil]
    exact .refl
  | before, document :: after, result, stored => by
    have ahead : after ⊆ target.documents := fun _ mem => stored (.tail _ mem)
    -- The loop goes on behind a document that stays.
    have passed (result' : UpdateResult) := by
      have goesOn := updateEach_effects filter update (before ++ [document]) after result' ahead
      rwa [append_assoc, singleton_append] at goesOn
    unfold updateEach
    cases found : matchesFilter env document filter with
    | error fault => exact .refl
    | ok holds =>
      cases holds with
      | false => exact passed result
      | true =>
        cases applied : applyUpdate env moment document update false filter with
        | error fault => exact .refl
        | ok updated =>
          by_cases same : sameDocument document updated = true
          · simp only [same, if_true]
            exact passed _
          · simp only [same, Bool.false_eq_true, if_false]
            cases unique : checkUnique env (before ++ after) updated target.uniqueKeys with
            | error fault => exact .refl
            | ok done =>
              refine .head (.rewritten { before, document, after } updated rfl
                ⟨⟨stored (.head _), found⟩, applied⟩ unique) ?_
              have goesOn := updateEach_effects filter update (before ++ [updated]) after
                { result with matched := result.matched + 1, modified := result.modified + 1 } ahead
              rwa [append_assoc, singleton_append] at goesOn

theorem deleteEach_effects (filter : Document) (single : Bool) :
    ∀ (before after : List Document) (deleted : Nat),
      Effects env moment (.delete filter single) target { target with documents := before ++ after }
        { target with
          documents := (deleteEach env filter single before after deleted).2 }
  | before, [], deleted => by
    rw [append_nil]
    exact .refl
  | before, document :: after, deleted => by
    have erased : Effects env moment (.delete filter single) target
        { target with documents := before ++ document :: after }
        { target with documents := before ++ after } :=
      .single (.erased { before, document, after } rfl trivial)
    unfold deleteEach
    cases found : matchesFilter env document filter with
    | error fault => exact .refl
    | ok holds =>
      cases holds with
      | false =>
        have goesOn := deleteEach_effects filter single (before ++ [document]) after deleted
        rwa [append_assoc, singleton_append] at goesOn
      | true =>
        cases single with
        | true => exact erased
        | false => exact erased.trans (deleteEach_effects filter false before after (deleted + 1))

theorem run_written (call : Call) :
    Written env moment call target (call.run env moment target).2 := by
  cases call with
  | createIndex keys unique => exact .indexed keys unique rfl
  | insertOne document => exact whole_written insertOne_written
  | updateOne filter update upsert =>
    exact whole_written updateOne_written
  | updateMany filter update =>
    exact .changed (updateEach_effects filter update [] target.documents _ (List.Subset.refl _))
  | replaceOne filter replacement upsert =>
    exact whole_written replaceOne_written
  | findOneAndUpdate filter update upsert returnAfter =>
    exact whole_written findOneAndUpdate_written
  | findOneAndDelete filter => exact whole_written findOneAndDelete_written
  | delete filter single =>
    exact .changed (deleteEach_effects filter single [] target.documents 0)

end

end Euclid.Emd
