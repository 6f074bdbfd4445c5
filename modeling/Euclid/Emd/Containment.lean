/-
This file says when a condition finds the documents whose array holds a value.

In MongoDB a condition that names a value asks for it and for an array that holds it. The store
compares the operand with what the path leads to, and a path that ends in an array leads to the
array itself, which no scalar equals; only arrays on the way are looked into. So an array that holds
the operand is found only where the path leads to the operand elsewhere too.
-/

import Euclid.Emd.Comparison

namespace Euclid.Emd

open List

/-! ### Where a path leads -/

/-- A path leads from a document to a value: through the documents it names, and where it names an
array, through every document in it. -/
inductive LeadsTo : List String → Document → Value → Prop where
  | field {name : String} {doc : Document} {value : Value} (held : doc.field name = some value) :
      LeadsTo [name] doc value
  | inside {name : String} {rest : List String} {doc inner : Document} {value : Value}
      (held : doc.field name = some (.document inner)) (onward : LeadsTo rest inner value) :
      LeadsTo (name :: rest) doc value
  | across {name : String} {rest : List String} {doc inner : Document} {entries : List Value}
      {value : Value} (held : doc.field name = some (.array entries))
      (mem : .document inner ∈ entries) (onward : LeadsTo rest inner value) :
      LeadsTo (name :: rest) doc value

variable {value : Value}

theorem leadsTo_single {name : String} {doc : Document} :
    LeadsTo [name] doc value ↔ doc.field name = some value := by
  constructor
  · intro leads
    cases leads with
    | field held => exact held
    | inside held onward => cases onward
    | across held mem onward => cases onward
  · exact LeadsTo.field

theorem mem_resolve {path : List String} {doc : Document} :
    value ∈ resolve path doc ↔ LeadsTo path doc value := by
  induction path generalizing doc with
  | nil => exact ⟨fun found => absurd found not_mem_nil, by rintro ⟨⟩⟩
  | cons name rest ih =>
    cases rest with
    | nil => rw [leadsTo_single, resolve, Option.mem_toList]
    | cons next others =>
      constructor
      · intro found
        unfold resolve at found
        split at found
        · rename_i inner held
          exact .inside held (ih.mp found)
        · rename_i entries held
          obtain ⟨entry, mem, found⟩ := mem_flatMap.mp found
          split at found
          · exact .across held mem (ih.mp found)
          · cases found
        · cases found
      · intro leads
        unfold resolve
        cases leads with
        | inside held onward =>
          rw [held]
          exact ih.mpr onward
        | across held mem onward =>
          rw [held]
          exact mem_flatMap.mpr ⟨_, mem, ih.mpr onward⟩

/-! ### Containment -/

/-- A value is the operand, or an array that holds it. -/
def Value.Answers (operand value : Value) : Prop :=
  value.equals operand ∨ ∃ entries, value = .array entries ∧ ∃ entry ∈ entries, entry.equals operand

/-- The conditions on a path that name operands find a document exactly if a value there is one of
them, or an array that holds one. -/
structure FindsHeld (env : Env) (doc : Document) (path : String)
    (operands : List Value) : Prop where
  plain : ∀ operand ∈ operands, Selects env doc path operand ↔
    ∃ value, LeadsTo (pathParts path) doc value ∧ operand.Answers value
  isIn : Selects env doc path (.document [("$in", .array operands)]) ↔
    ∃ operand ∈ operands, ∃ value, LeadsTo (pathParts path) doc value ∧ operand.Answers value

section

variable {env : Env} {doc : Document} {path : String} (plain : beginsWith "$" path = false)
include plain

variable {operand : Value}

theorem selects_scalar_iff (scalar : operand.IsScalar) :
    Selects env doc path operand ↔
      ∃ value, LeadsTo (pathParts path) doc value ∧ value.equals operand := by
  rw [selects_iff plain scalar.plain.2 rfl, matchesCondition, scalar.plain.1,
    Except.ok.injEq, satisfied,
    any_eq_true]
  exact exists_congr fun value => and_congr_left fun _ => mem_resolve

theorem selects_in_iff (operands : List Value) :
    Selects env doc path (.document [("$in", .array operands)]) ↔
      ∃ operand ∈ operands, ∃ value, LeadsTo (pathParts path) doc value ∧ value.equals operand := by
  have evaluated : matchesOperator env (valuesAt doc path) "$in" (.array operands) =
    .ok (operands.any fun operand => satisfied (valuesAt doc path) fun value =>
      value.equals operand) := rfl
  rw [selects_iff plain rfl rfl, matchesCondition_op _ _ (by decide), evaluated, Except.ok.injEq,
    any_eq_true]
  refine exists_congr fun operand => and_congr_right fun _ => ?_
  rw [satisfied, any_eq_true]
  exact exists_congr fun value => and_congr_left fun _ => mem_resolve

/-- The conditions that name scalars find what is held exactly if each that an array at the path
holds is a value at the path itself. -/
theorem finds_held_iff {operands : List Value} (scalars : ∀ operand ∈ operands, operand.IsScalar) :
    FindsHeld env doc path operands ↔
      ∀ operand ∈ operands, ∀ entries, LeadsTo (pathParts path) doc (.array entries) →
        (∃ entry ∈ entries, entry.equals operand) →
        ∃ value, LeadsTo (pathParts path) doc value ∧ value.equals operand := by
  constructor
  · intro finds operand mem entries leads holds
    rw [← selects_scalar_iff plain (scalars operand mem), finds.plain operand mem]
    exact ⟨_, leads, .inr ⟨entries, rfl, holds⟩⟩
  · intro also
    have answered : ∀ operand ∈ operands,
        ((∃ value, LeadsTo (pathParts path) doc value ∧ value.equals operand) ↔
          ∃ value, LeadsTo (pathParts path) doc value ∧ operand.Answers value) := by
      intro operand mem
      constructor
      · rintro ⟨value, leads, equal⟩
        exact ⟨value, leads, .inl equal⟩
      · rintro ⟨value, leads, equal | ⟨entries, rfl, holds⟩⟩
        · exact ⟨value, leads, equal⟩
        · exact also operand mem entries leads holds
    constructor
    · intro operand mem
      rw [selects_scalar_iff plain (scalars operand mem), answered operand mem]
    · rw [selects_in_iff plain]
      exact exists_congr fun operand => and_congr_right (answered operand)

theorem not_selects_of_arrays
    (arrays : ∀ value, LeadsTo (pathParts path) doc value → ∃ entries, value = .array entries)
    (scalar : operand.IsScalar) : ¬Selects env doc path operand := by
  rw [selects_scalar_iff plain scalar]
  rintro ⟨value, leads, equal⟩
  obtain ⟨entries, rfl⟩ := arrays value leads
  have alike : Value.type (.array entries) = operand.type := by
    simp only [Value.equals, Value.isNumeric, Bool.false_and, Bool.false_eq_true, if_false,
      decide_eq_true_eq] at equal
    exact equal.1
  cases operand with
  | document fields => exact scalar
  | array entries => exact scalar
  | other kind bytes => cases kind <;> cases alike
  | _ => cases alike

end

/-! ### A document with tags -/

def taggedDocument : Document := [("tags", .array [.string "red", .string "round"])]

theorem leadsTo_tags : LeadsTo (pathParts "tags") taggedDocument value ↔
    value = .array [.string "red", .string "round"] := by
  have held : taggedDocument.field "tags" = some (.array [.string "red", .string "round"]) := rfl
  rw [pathParts_of_topLevel (by decide), leadsTo_single, held, Option.some.injEq, eq_comm]

/-- A tag it does not have is rightly not found. -/
theorem blue_not_held : FindsHeld countingEnvironment taggedDocument "tags" [.string "blue"] := by
  refine (finds_held_iff (by decide) ?_).mpr ?_
  · exact forall_mem_singleton.mpr trivial
  · intro operand mem entries leads holds
    cases leadsTo_tags.mp leads
    obtain rfl := mem_singleton.mp mem
    exact absurd holds (by simp only [exists_mem_cons_iff]; decide)

theorem held_not_found : ¬∀ (env : Env) (doc : Document) (path : String) (entries : List Value)
      (operand : Value), beginsWith "$" path = false → operand.IsScalar →
      (∀ value, LeadsTo (pathParts path) doc value ↔ value = .array entries) →
      (Selects env doc path operand ↔ ∃ entry ∈ entries, entry.equals operand) := by
  intro always
  have found :=
    (always countingEnvironment taggedDocument "tags" _ (.string "red") (by decide) trivial
    fun _ => leadsTo_tags).mpr ⟨_, .head _, by decide⟩
  have scalar : (Value.string "red").IsScalar := trivial
  have onlyArray : ∀ value, LeadsTo (pathParts "tags") taggedDocument value →
    ∃ entries, value = .array entries := fun value leads => ⟨_, leadsTo_tags.mp leads⟩
  exact not_selects_of_arrays (by decide) onlyArray scalar found

end Euclid.Emd
