/-
This file says when a document that is counted as modified has changed.

A document is counted when it is not stored again byte for byte. An update writes the fields in the
order of their names and a replacement puts `_id` first, so a document that was stored in another
order is counted although every field keeps its value.
-/

import Euclid.Emd.UniqueIndex
import Euclid.Emd.Writes

namespace Euclid.Emd

open List Collection

/-! ### The bytes of a document -/

mutual

theorem same_refl : ∀ value : Value, value.same value = true
  | .document fields => sameFields_refl fields
  | .array entries => sameEntries_refl entries
  | .int32 _ | .int64 _ | .double _ | .string _ | .bool _ | .date _ | .oid _ | .null
  | .other _ _ => by simp [Value.same]
termination_by structural value => value

theorem sameField_refl : ∀ field : String × Value, Value.sameField field field = true
  | (_, value) => by simp [Value.sameField, same_refl value]
termination_by structural field => field

theorem sameFields_refl : ∀ fields : List (String × Value), Value.sameFields fields fields = true
  | [] => rfl
  | field :: rest => by simp [Value.sameFields, sameField_refl field, sameFields_refl rest]
termination_by structural fields => fields

theorem sameEntries_refl : ∀ entries : List Value, Value.sameEntries entries entries = true
  | [] => rfl
  | entry :: rest => by simp [Value.sameEntries, same_refl entry, sameEntries_refl rest]
termination_by structural entries => entries

end

instance : DecidableEq Value := fun left right =>
  decidable_of_iff (left.same right = true)
    ⟨eq_of_same left right, fun same => same ▸ same_refl left⟩

theorem sameDocument_iff {left right : Document} : sameDocument left right = true ↔ left = right :=
  ⟨eq_of_sameFields left right, fun same => same ▸ sameFields_refl left⟩

/-! ### What a change is -/

/-- A field was added or removed, or has another value. -/
def Differs (before after : Document) : Prop := ¬List.Perm before after

instance (before after : Document) : Decidable (Differs before after) :=
  inferInstanceAs (Decidable ¬_)

theorem not_differs_self (doc : Document) : ¬Differs doc doc := not_not.mpr (Perm.refl _)

def Changes (env : Env) (moment : Nat) (filter update doc : Document) : Prop :=
  doc.Distinct → doc.field ≠ contentAfter env moment doc update false filter

/-- What an update makes of a document tells whether it was changed, if it was in order or was
changed. -/
theorem told_iff {env : Env} {moment : Nat} {filter update doc updated : Document}
    (applied : applyUpdate env moment doc update false filter = .ok updated) :
    (doc ≠ updated → Differs doc updated) ↔ doc.Ordered ∨ Changes env moment filter update doc := by
  have holds := holds_applyUpdate applied
  have changes : Differs doc updated ↔ Changes env moment filter update doc := by
    rw [Differs, perm_iff holds.ordered.distinct, holds.holds, not_and]
    rfl
  rw [← changes]
  constructor
  · intro told
    by_cases same : doc = updated
    · exact .inl (same ▸ holds.ordered)
    · exact .inr (told same)
  · rintro (ordered | differs) apart
    · exact fun perm => apart (eq_of_ordered ordered holds.ordered perm)
    · exact differs

/-! ### What is counted -/

def Call.matched (env : Env) (target : Collection) : Call → List Document
  | .updateOne filter _ _ | .replaceOne filter _ _ =>
    (target.documents.find? (isMatch env filter)).toList
  | .updateMany filter _ => target.documents.filter (isMatch env filter)
  | _ => []

/-- A document is in order or is changed by the update; the replacement is the document or changes
it. -/
def Call.Tells (env : Env) (moment : Nat) (doc : Document) : Call → Prop
  | .updateOne filter update _ | .updateMany filter update =>
    doc.Ordered ∨ Changes env moment filter update doc
  | .replaceOne _ replacement _ => ∀ id, oidOf doc = some id →
    doc = withId replacement id ∨ Differs doc (withId replacement id)
  | _ => True

/-- What is reported is how many documents were matched, and how many of them differ from what they
were. -/
structure Honest (matched before after : List Document) (result : UpdateResult) : Prop where
  matched : result.matched = matched.length
  modified : result.modified = (before.zip after).countP fun pair => Differs pair.1 pair.2

section Counted

variable {env : Env} {moment : Nat} {target : Collection} {documents afters : List Document}
  {result : UpdateResult}

/-- A run over documents that reports those it stored otherwise is honest if those differ. -/
theorem honest_iff {matched : List Document} (found : result.matched = matched.length)
    (stored : result.modified = (documents.zip afters).countP fun pair => pair.1 ≠ pair.2) :
    Honest matched documents afters result ↔
      ∀ pair ∈ documents.zip afters, pair.1 ≠ pair.2 → Differs pair.1 pair.2 := by
  have fewer : ((documents.zip afters).filter fun pair => decide (Differs pair.1 pair.2)) =
      ((documents.zip afters).filter fun pair => pair.1 ≠ pair.2).filter fun pair =>
        Differs pair.1 pair.2 := by
    rw [filter_filter]
    refine filter_congr fun pair _ => ?_
    by_cases differs : Differs pair.1 pair.2
    · have apart : pair.1 ≠ pair.2 := fun same => not_differs_self _ (same ▸ differs)
      simp [differs, apart]
    · simp [differs]
  have counts : Honest matched documents afters result ↔
      result.modified = (documents.zip afters).countP fun pair => Differs pair.1 pair.2 :=
    ⟨Honest.modified, fun modified => ⟨found, modified⟩⟩
  rw [counts, stored, countP_eq_length_filter, countP_eq_length_filter, fewer, eq_comm,
    length_filter_eq_length_iff]
  simp only [mem_filter, decide_eq_true_eq, and_imp]

theorem zip_self_append (documents rest : List Document) :
    documents.zip (documents ++ rest) = documents.map fun doc => (doc, doc) := by
  induction documents with
  | nil => simp
  | cons doc documents ih => simp [ih]

theorem zip_place (before after : List Document) (doc updated : Document) :
    (before ++ doc :: after).zip (before ++ updated :: after) =
      (before.map fun doc => (doc, doc)) ++ (doc, updated) :: after.map fun doc => (doc, doc) := by
  have rest := zip_self_append after []
  have first := zip_self_append before []
  rw [append_nil] at rest first
  rw [zip_append rfl, zip_cons_cons, rest, first]

/-- What an update passes: what does not match, and what it is applied to. -/
def Passed (env : Env) (moment : Nat) (filter update doc after : Document) : Prop :=
  if isMatch env filter doc then applyUpdate env moment doc update false filter = .ok after
    else after = doc

variable {filter : Document} {update : Document}

/-- The loop of `UpdateMany` counts what matches and what it stores otherwise. -/
theorem updateEach_counts {before documents : List Document}
    {final : UpdateResult} {written : List Document}
    (ran : updateEach env moment target.uniqueKeys filter update before documents result =
      (.ok final, written)) :
    ∃ afters, written = before ++ afters ∧
      Forall₂ (Passed env moment filter update) documents afters ∧
      final.matched = result.matched + documents.countP (isMatch env filter) ∧
      final.modified = result.modified + (documents.zip afters).countP fun pair =>
        pair.1 ≠ pair.2 := by
  induction documents generalizing before result with
  | nil =>
    cases ran
    exact ⟨[], by simp, .nil, by simp, by simp⟩
  | cons doc rest ih =>
    unfold updateEach at ran
    cases found : matchesFilter env doc filter with
    | error fault => rw [found] at ran; cases ran
    | ok holds =>
      have matched : isMatch env filter doc = holds := by rw [isMatch, found]
      rw [found] at ran
      cases holds with
      | false =>
        obtain ⟨afters, rfl, passed, counted, stored⟩ := ih ran
        exact ⟨doc :: afters, by simp, .cons (by simp [Passed, matched]) passed,
          by simp [counted, matched], by simp [stored]⟩
      | true =>
        cases applied : applyUpdate env moment doc update false filter with
        | error fault => simp only [applied] at ran; cases ran
        | ok updated =>
          have passes : Passed env moment filter update doc updated := by
            simp [Passed, matched, applied]
          by_cases same : sameDocument doc updated = true
          · simp only [applied, same, if_true] at ran
            obtain ⟨afters, rfl, passed, counted, stored⟩ := ih ran
            obtain rfl := sameDocument_iff.mp same
            exact ⟨doc :: afters, by simp, .cons passes passed,
              by simp [counted, matched]; omega, by simp [stored]⟩
          · simp only [applied, same, Bool.false_eq_true, if_false] at ran
            split at ran
            · cases ran
            · obtain ⟨afters, rfl, passed, counted, stored⟩ := ih ran
              have apart : doc ≠ updated := fun alike => same (sameDocument_iff.mpr alike)
              exact ⟨updated :: afters, by simp, .cons passes passed,
                by simp [counted, matched]; omega, by simp [stored, apart]; omega⟩

theorem told_of_passed (passed : Forall₂ (Passed env moment filter update) documents afters) :
    (∀ pair ∈ documents.zip afters, pair.1 ≠ pair.2 → Differs pair.1 pair.2) ↔
      ∀ doc ∈ documents.filter (isMatch env filter), doc.Ordered ∨
        Changes env moment filter update doc := by
  induction passed with
  | nil => simp
  | cons first _ ih =>
    rw [zip_cons_cons, forall_mem_cons, ih, filter_cons]
    unfold Passed at first
    split at first
    · next matched =>
      rw [if_pos matched, forall_mem_cons, told_iff first]
    · next missed =>
      rw [if_neg missed, first]
      simp

theorem find_of_firstMatch {first : Option Place} {before documents : List Document}
    (found : firstMatch env filter before documents = .ok first) :
    documents.find? (isMatch env filter) = first.map Place.document := by
  induction documents generalizing before with
  | nil => cases found; rfl
  | cons doc rest ih =>
    rw [List.find?_cons]
    unfold firstMatch at found
    unfold isMatch
    split at found
    · next holds => cases found; rw [holds]; rfl
    · next fails => rw [fails]; exact ih found
    · cases found

variable {written : Collection}

theorem honest_place {place : Place} {updated : Document}
    (there : place.before ++ place.document :: place.after = target.documents)
    (wrote : target.rewriteIfChanged env place updated = .ok (result, written)) :
    Honest [place.document] target.documents written.documents result ↔
      (place.document ≠ updated → Differs place.document updated) := by
  have reported : result.matched = 1 ∧
    result.modified = (if place.document = updated then 0 else 1) ∧
      written.documents = place.before ++ updated :: place.after := by
    unfold rewriteIfChanged at wrote
    split at wrote
    · next same =>
      cases wrote
      obtain alike := sameDocument_iff.mp same
      exact ⟨rfl, by simp [alike], by rw [← there, alike]⟩
    · next differs =>
      obtain ⟨next, rewrote, done⟩ := bind_ok wrote
      obtain ⟨-, rfl⟩ := rewrite_ok rewrote
      cases done
      exact ⟨rfl, by rw [if_neg (mt sameDocument_iff.mpr differs)], rfl⟩
  obtain ⟨found, modified, left⟩ := reported
  rw [← there, left, honest_iff found, zip_place]
  · simp only [forall_mem_append, forall_mem_cons, forall_mem_map]
    simp
  · rw [modified, zip_place, countP_append, countP_cons, countP_map, countP_map]
    by_cases alike : place.document = updated <;> simp [alike, Function.comp_def]

theorem honest_none {rest : List Document} {id : Option Oid} :
    Honest [] documents (documents ++ rest) { matched := 0, modified := 0, upsertedId := id } where
  matched := rfl
  modified := by
    rw [zip_self_append, countP_map]
    simp [Function.comp_def, not_differs_self]

theorem whole_ok {Returned : Type} {answer : Returned → Answer}
    {outcome : Except Fault (Returned × Collection)} {returned : Answer}
    (ran : whole answer target outcome = (.ok returned, written)) :
    ∃ made, returned = answer made ∧ outcome = .ok (made, written) := by
  cases outcome with
  | error fault => cases ran
  | ok result => cases ran; exact ⟨_, rfl, rfl⟩

theorem updateOne_honest {upsert : Bool}
    (ran : target.updateOne env moment filter update upsert = .ok (result, written)) :
    Honest ((target.documents.find? (isMatch env filter)).toList) target.documents
      written.documents result ↔
      ∀ doc ∈ target.documents.find? (isMatch env filter), doc.Ordered ∨
        Changes env moment filter update doc := by
  obtain ⟨first, found, rest⟩ := bind_ok ran
  rw [find_of_firstMatch found]
  cases first with
  | some place =>
    obtain ⟨updated, applied, wrote⟩ := bind_ok rest
    refine (honest_place (firstMatch_place found) wrote).trans ((told_iff applied).trans ?_)
    simp
  | none =>
    refine iff_of_true ?_ (by simp)
    cases upsert with
    | false =>
      cases rest
      have nothing : Honest [] target.documents (target.documents ++ []) ⟨0, 0, none⟩ := honest_none
      rwa [append_nil] at nothing
    | true =>
      obtain ⟨applied, -, rest⟩ := bind_ok rest
      obtain ⟨next, wrote, done⟩ := bind_ok rest
      obtain ⟨-, rfl⟩ := create_ok wrote
      cases done
      exact honest_none

theorem replaceOne_honest {replacement : Document} {upsert : Bool}
    (ran : target.replaceOne env moment filter replacement upsert = .ok (result, written)) :
    Honest ((target.documents.find? (isMatch env filter)).toList) target.documents
      written.documents result ↔
      ∀ doc ∈ target.documents.find? (isMatch env filter), ∀ id, oidOf doc = some id →
        doc = withId replacement id ∨ Differs doc (withId replacement id) := by
  obtain ⟨first, found, rest⟩ := bind_ok ran
  rw [find_of_firstMatch found]
  cases first with
  | some place =>
    cases identity : oidOf place.document with
    | none => simp only [identity] at rest; cases rest
    | some id =>
      simp only [identity] at rest
      refine (honest_place (firstMatch_place found) rest).trans ?_
      simp [identity, or_iff_not_imp_left]
  | none =>
    refine iff_of_true ?_ (by simp)
    cases upsert with
    | false =>
      cases rest
      have nothing : Honest [] target.documents (target.documents ++ []) ⟨0, 0, none⟩ := honest_none
      rwa [append_nil] at nothing
    | true =>
      obtain ⟨next, wrote, done⟩ := bind_ok rest
      obtain ⟨-, rfl⟩ := create_ok wrote
      cases done
      exact honest_none

theorem updateMany_honest
    (ran : target.updateMany env moment filter update = (.ok result, written)) :
    Honest (target.documents.filter (isMatch env filter))
      target.documents written.documents result ↔
      ∀ doc ∈ target.documents.filter (isMatch env filter),
        doc.Ordered ∨ Changes env moment filter update doc := by
  obtain ⟨outcome, rfl⟩ := Prod.mk.injEq .. ▸ ran
  obtain ⟨afters, left, passed, found, stored⟩ := updateEach_counts (Prod.ext outcome rfl)
  rw [Nat.zero_add] at found stored
  rw [nil_append] at left
  rw [countP_eq_length_filter] at found
  subst left
  exact (honest_iff found stored).trans (told_of_passed passed)

/-- A call reports what it did if and only if what it matches tells. -/
theorem reports_honestly_iff {call : Call} {result : UpdateResult} {written : Collection}
    (ran : call.run env moment target = (.ok (.updated result), written)) :
    Honest (call.matched env target) target.documents written.documents result ↔
      ∀ doc ∈ call.matched env target, call.Tells env moment doc := by
  cases call with
  | updateOne filter update upsert =>
    obtain ⟨made, same, ran⟩ := whole_ok ran
    cases same
    rw [Call.matched, updateOne_honest ran]
    simp [Call.Tells]
  | replaceOne filter replacement upsert =>
    obtain ⟨made, same, ran⟩ := whole_ok ran
    cases same
    rw [Call.matched, replaceOne_honest ran]
    simp [Call.Tells]
  | updateMany filter update =>
    cases outcome : target.updateMany env moment filter update with
    | mk answer left =>
      rw [Call.run, outcome] at ran
      cases answer with
      | error fault => cases ran
      | ok made => cases ran; exact updateMany_honest outcome
  | createIndex keys unique => cases ran
  | insertOne document => obtain ⟨_, same, _⟩ := whole_ok ran; cases same
  | findOneAndUpdate filter update upsert returnAfter =>
    obtain ⟨_, same, _⟩ := whole_ok ran; cases same
  | findOneAndDelete filter => obtain ⟨_, same, _⟩ := whole_ok ran; cases same
  | delete filter single =>
    cases outcome : target.delete env filter single with
    | mk answer left =>
      rw [Call.run, outcome] at ran
      cases answer <;> cases ran

end Counted

/-! ### A field that is set to the value it has -/

def sizeOfOne : Call :=
  .updateOne [("_id", .oid 7)] [("$set", .document [("size", .int32 1)])] false

def storedUser (fields : Document) : Collection :=
  { empty with documents := [("_id", .oid 7) :: fields] }

def inOrder : Collection := storedUser [("name", .string "ada"), ("size", .int32 1)]

theorem in_order_reported :
    Honest (sizeOfOne.matched countingEnvironment inOrder) inOrder.documents inOrder.documents
      { matched := 1, modified := 0, upsertedId := none } := by
  refine (@reports_honestly_iff countingEnvironment 0 inOrder sizeOfOne _ _ ?_).mpr
    fun doc mem => .inl ?_
  · rfl
  · obtain rfl := mem_singleton.mp mem
    decide

/-- The name is stored behind the size, and the update is counted. -/
theorem out_of_order_counted : ¬∀ (env : Env) (moment : Nat)
    (target written : Collection) (call : Call)
    (result : UpdateResult), call.run env moment target = (.ok (.updated result), written) →
    result.modified = (target.documents.zip written.documents).countP fun pair =>
      Differs pair.1 pair.2 := by
  intro always
  have counted :=
    always countingEnvironment 0 (storedUser [("size", .int32 1), ("name", .string "ada")]) _
    sizeOfOne _ rfl
  exact absurd counted (by decide)

end Euclid.Emd
