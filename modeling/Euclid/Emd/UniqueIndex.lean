/-
This file proves what a unique index promises: no two documents agree on its key.

The check builds a filter out of the key of the document that is about to be stored, and asks
the matcher of every other document. For scalars at the top level the matcher compares the
fields as the store does, or refuses the name, so that a document that passes agrees with no
other; every call stores only documents that passed.
-/

import Euclid.Emd.Effect

namespace Euclid.Emd

open List Collection

/-! ### Agreeing on a key -/

/-- Two documents hold scalars the store calls equal in every field of a key. -/
def Agree (keys : List String) (left right : Document) : Prop :=
  ∀ key ∈ keys, ∃ first second, left.field key = some first ∧ right.field key = some second ∧
    first.IsScalar ∧ second.IsScalar ∧ first.equals second = true

variable {keys : List String}

theorem Agree.symm {left right : Document} (agree : Agree keys left right) :
    Agree keys right left := by
  intro key mem
  obtain ⟨first, second, inLeft, inRight, scalar, scalar', equal⟩ := agree key mem
  exact ⟨second, first, inRight, inLeft, scalar', scalar, Value.equals_comm first second ▸ equal⟩

/-- No two documents of a collection agree on a key of fields at the top level. -/
def Keyed (target : Collection) : Prop :=
  ∀ keys ∈ target.uniqueKeys, (∀ key ∈ keys, '.' ∉ key.toList) →
    target.documents.Pairwise fun left right => ¬Agree keys left right

/-! ### The check -/

theorem pathParts_of_topLevel {key : String} (topLevel : '.' ∉ key.toList) :
    pathParts key = [key] := by
  have undivided : key.toList.splitOn '.' = [key.toList] := by
    refine splitOnP_eq_singleton fun character mem => ?_
    exact beq_eq_false_iff_ne.mpr fun same => topLevel (same ▸ mem)
  unfold pathParts
  rw [undivided, map_singleton, String.ofList_toList]

variable {doc : Document}

theorem keyFilter_of_agree {other : Document} :
    ∀ keys : List String, (∀ key ∈ keys, '.' ∉ key.toList) → Agree keys doc other →
      ∃ filter, keyFilter doc keys = some filter ∧
        ∀ entry ∈ filter, entry.2.IsScalar ∧ pathParts entry.1 = [entry.1] ∧
          ∃ stored, other.field entry.1 = some stored ∧ stored.equals entry.2
  | [], _, _ => ⟨[], rfl, fun _ mem => (not_mem_nil mem).elim⟩
  | key :: keys, topLevel, agree => by
    obtain ⟨filter, made, asks⟩ := keyFilter_of_agree keys
      (fun key' mem => topLevel key' (.tail _ mem))
      (fun key' mem => agree key' (.tail _ mem))
    obtain ⟨value, stored, found, inOther, scalar, _, equal⟩ := agree key (.head _)
    have parts := pathParts_of_topLevel (topLevel key (.head _))
    refine ⟨(key, value) :: filter, ?_, ?_⟩
    · unfold keyFilter
      simp [valuesAt, parts, resolve, found, made]
    · intro entry mem
      rcases mem_cons.mp mem with rfl | inRest
      · exact ⟨scalar, parts, stored, inOther, Value.equals_comm value stored ▸ equal⟩
      · exact asks entry inRest

variable {env : Env} {filter : Document}

theorem checkKey_ok :
    ∀ {others : List Document}, checkKey env keys filter others = .ok () →
      ∀ other ∈ others, matchesFilter env other filter = .ok false
  | first :: rest, passed, other, mem => by
    unfold checkKey at passed
    split at passed
    · cases passed
    · next differs =>
      rcases mem_cons.mp mem with rfl | inRest
      · exact differs
      · exact checkKey_ok passed other inRest
    · cases passed

theorem checkUnique_ok {others : List Document} :
    ∀ {uniqueKeys : List (List String)}, checkUnique env others doc uniqueKeys = .ok () →
      ∀ keys ∈ uniqueKeys, (∀ key ∈ keys, '.' ∉ key.toList) →
        ∀ other ∈ others, ¬Agree keys doc other
  | first :: rest, passed, keys, mem, topLevel, other, inOthers => by
    unfold checkUnique at passed
    rcases mem_cons.mp mem with rfl | inRest
    · intro agree
      obtain ⟨filter, made, asks⟩ := keyFilter_of_agree keys topLevel agree
      simp only [made] at passed
      cases checked : checkKey env keys filter others with
      | error fault => rw [checked] at passed; cases passed
      | ok done =>
        exact matchesFilter_of_scalars env filter asks (checkKey_ok checked other inOthers)
    · have passedRest : checkUnique env others doc rest = .ok () := by
        cases made : keyFilter doc first with
        | none => simpa [made] using passed
        | some filter =>
          cases checked : checkKey env first filter others with
          | error fault => simp [made, checked] at passed
          | ok done => simpa [made, checked] using passed
      exact checkUnique_ok passedRest keys inRest topLevel other inOthers

/-! ### What a write preserves -/

variable {target : Collection}

theorem keyed_append (unique : checkUnique env target.documents doc target.uniqueKeys = .ok ())
    (keyed : Keyed target) : Keyed (target.append doc) := by
  intro keys mem topLevel
  have agreesWithNone := checkUnique_ok unique keys mem topLevel
  refine pairwise_append.mpr ⟨keyed keys mem topLevel, pairwise_singleton _ _, ?_⟩
  intro other stored created isCreated agree
  rw [mem_singleton.mp isCreated] at agree
  exact agreesWithNone other stored agree.symm

theorem Effect.keyed {Rewrites : Document → Document → Prop} {Erases : Prop} {written : Collection}
    (effect : Effect env Rewrites Erases target written)
    (keyed : Keyed target) : Keyed written := by
  cases effect with
  | rewritten place updated found rewrites unique =>
    intro keys mem topLevel
    have apart := keyed keys mem topLevel
    have agreesWithNone := checkUnique_ok unique keys mem topLevel
    rw [← found, pairwise_middle fun differ agree => differ agree.symm] at apart
    refine (pairwise_middle fun differ agree => differ agree.symm).mpr ?_
    rw [pairwise_cons] at apart ⊢
    exact ⟨agreesWithNone, apart.2⟩
  | erased place found erases =>
    intro keys mem topLevel
    have apart := keyed keys mem topLevel
    rw [← found] at apart
    exact apart.sublist ((List.Sublist.refl _).append (sublist_cons_self _ _))

/-- A unique index is created on a collection without documents only. -/
def IndexesEarly (_moment : Nat) : Call → Collection → Prop
  | .createIndex _ true, target => target.documents = []
  | _, _ => True

theorem keyed_run {env : Env} (moment : Nat) (call : Call) (target : Collection)
    (early : IndexesEarly moment call target) (keyed : Keyed target) :
    Keyed (call.run env moment target).2 := by
  have written : Written env moment call target (call.run env moment target).2 := run_written call
  generalize (call.run env moment target).2 = result at written ⊢
  cases written with
  | indexed keys unique creates =>
    subst creates
    unfold createIndex
    cases unique with
    | false => exact keyed
    | true =>
      have noDocuments : target.documents = [] := early
      by_cases known : keys.map Prod.fst ∈ target.uniqueKeys
      · simpa [known] using keyed
      · simp only [known, not_true_eq_false, if_false]
        intro keys' _ _
        simp [noDocuments]
  | created doc creates unique => exact keyed_append unique keyed
  | changed effects =>
    induction effects with
    | refl => exact keyed
    | tail _ effect ih => exact effect.keyed ih

/-! ### Calls that throw -/

/-- The calls that write more than one document: `UpdateMany`, and `Delete` of all matches. -/
def Call.OverMany : Call → Prop
  | .updateMany _ _ => True
  | .delete _ single => single = false
  | _ => False

theorem deleteEach_error {fault : Fault} :
    ∀ {before after : List Document} {deleted : Nat},
      (deleteEach env filter true before after deleted).1 = .error fault →
      (deleteEach env filter true before after deleted).2 = before ++ after
  | before, [], deleted, threw => by cases threw
  | before, doc :: after, deleted, threw => by
    unfold deleteEach at threw ⊢
    cases found : matchesFilter env doc filter with
    | error fault' => rfl
    | ok holds =>
      cases holds with
      | true => simp [found] at threw
      | false =>
        simp only [found] at threw ⊢
        rw [deleteEach_error threw, append_assoc, singleton_append]

theorem run_error {moment : Nat} {call : Call} {fault : Fault} (single : ¬call.OverMany)
    (threw : (call.run env moment target).1 = .error fault) :
    (call.run env moment target).2.documents = target.documents := by
  have wholly {Returned : Type} {answer : Returned → Answer}
      {outcome : Except Fault (Returned × Collection)}
      (threw : (whole answer target outcome).1 = .error fault) :
      (whole answer target outcome).2.documents = target.documents := by
    cases outcome with
    | error fault' => rfl
    | ok result => cases threw
  cases call with
  | createIndex keys unique => cases threw
  | updateMany filter update => exact absurd trivial single
  | delete filter single' =>
    cases single' with
    | false => exact absurd rfl single
    | true =>
      suffices failed : (deleteEach env filter true [] target.documents 0).1 =
          .error fault from deleteEach_error failed
      simp only [Call.run, delete] at threw
      cases deleted : (deleteEach env filter true [] target.documents 0).1 with
      | ok count => rw [deleted] at threw; cases threw
      | error fault' => rw [deleted] at threw; cases threw; rfl
  | _ => exact wholly threw

/-- Whatever calls are made, as long as every unique index is created while its collection is
empty: no two documents of a collection agree on the key of an index at the top level, and a
call on one document that throws leaves every collection as it was. -/
theorem indexes_unique {env : Env} {moment : Nat} {store : Store}
    (reached : Reached env IndexesEarly moment store) :
    (∀ name, ∀ keys ∈ (store name).uniqueKeys, (∀ key ∈ keys, '.' ∉ key.toList) →
      (store name).documents.Pairwise fun left right => ¬Agree keys left right) ∧
    ∀ name call fault, ¬call.OverMany →
      (step env moment name call store).1 = .error fault →
      ∀ other, ((step env moment name call store).2 other).documents = (store other).documents := by
  refine ⟨?_, ?_⟩
  · refine reached.invariant ?_ keyed_run
    intro keys mem
    exact (not_mem_nil mem).elim
  · intro name call fault single threw other
    unfold step
    by_cases same : other = name
    · subst same
      simpa using run_error single threw
    · simp [same]

/-- A world whose ObjectIds count the calls, and which has no regular expressions. -/
def countingEnvironment : Env where
  systemClock := fun _ => 0
  freshOid := fun moment => BitVec.ofNat 96 moment
  regex := fun _ => none

/-- Two users and an index on their names; a third of a name that is taken is refused. -/
def namedUsers : List (String × Call) :=
  [("user", .createIndex [("name", .null)] true),
    ("user", .insertOne [("name", .string "ada")]),
    ("user", .insertOne [("name", .string "bob")]),
    ("user", .insertOne [("name", .string "ada")])]

theorem indexes_unique_named :
    (runCalls countingEnvironment 0 namedUsers .empty "user").documents.length = 2 ∧
      (runCalls countingEnvironment 0 namedUsers .empty "user").documents.Pairwise
        fun left right => ¬Agree ["name"] left right := by
  have early : AllMeet countingEnvironment IndexesEarly 0 namedUsers .empty :=
    ⟨rfl, trivial, trivial, trivial, trivial⟩
  refine ⟨by decide,
    (indexes_unique (Reached.empty.runCalls early)).1 "user" ["name"] ?_ (by decide)⟩
  decide

/-- Two documents of one `a`, with a `b` on either side of `"m"`. -/
def eitherSide : List (String × Call) :=
  [("rows", .insertOne [("a", .string "x"), ("b", .string "c")]),
    ("rows", .insertOne [("a", .string "x"), ("b", .string "z")])]

/-- A filter that matches a document with a smaller `b`, and asks one with a larger `b` what
the store cannot answer. -/
def halfAnswered : Document :=
  [("$or", .array [.document [("a", .string "x")],
    .document [("b", .document [("$gt", .string "m"), ("$near", .null)])]])]

/-- A `Delete` of all matches may throw when it has erased some already. -/
theorem delete_throws_halfway : ¬∀ (env : Env) (moment : Nat) (store : Store),
      Reached env IndexesEarly moment store →
      ∀ name call fault, (∀ filter update, call ≠ .updateMany filter update) →
        (step env moment name call store).1 = .error fault →
        ∀ other, ((step env moment name call store).2 other).documents =
          (store other).documents := by
  intro unchanged
  have early : AllMeet countingEnvironment IndexesEarly 0 eitherSide .empty :=
    ⟨trivial, trivial, trivial⟩
  have erasedNone :=
    unchanged _ _ _ (Reached.empty.runCalls early) "rows" (.delete halfAnswered false)
    (.runtimeError "EMD does not implement the query operator $near")
    (nofun) (by rfl) "rows"
  have sameLength := congrArg List.length erasedNone
  exact absurd sameLength (by decide)

end Euclid.Emd
