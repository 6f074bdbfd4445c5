/-
This file decides whether a document matches a filter.

A filter is a document of conditions, all of which have to hold. A condition is a value to
be equal to, a document of operators, or one of the three connectives over filters. The
first condition that fails decides, so a later one the store cannot answer is only refused
if it is reached; the branches of a connective are all asked.
-/

import Euclid.Emd.Value

namespace Euclid.Emd

/-- What the store throws: its own errors, a value of another type than was asked for, and a
pattern that is no regular expression. -/
inductive Fault where
  | runtimeError (msg : String)
  | elementType
  | regexError

/-- What the store takes from outside: the clock, fresh ObjectIds, and regular expressions. -/
structure Env where
  systemClock : Nat → Int64
  freshOid : Nat → Oid
  regex : String → Option (String → Bool)

/-! ### Texts -/

def beginsWith (start text : String) : Bool := start.toList.isPrefixOf text.toList

def pathParts (path : String) : List String := (path.toList.splitOn '.').map String.ofList

/-! ### Paths -/

/-- `resolve`: every value a path reaches, more than one where it crosses an array. -/
def resolve : List String → Document → List Value
  | [], _ => []
  | [head], doc => (doc.field head).toList
  | head :: tail, doc =>
    match doc.field head with
    | some (.document inner) => resolve tail inner
    | some (.array entries) => entries.flatMap fun entry =>
      match entry with
      | .document inner => resolve tail inner
      | _ => []
    | _ => []

def valuesAt (doc : Document) (path : String) : List Value := resolve (pathParts path) doc

/-! ### Conditions -/

/-- The entries of an array, or the refusal to read anything else as one. -/
def Value.getArray : Value → Except Fault (List Value)
  | .array entries => .ok entries
  | _ => .error .elementType

/-- The fields of a document, or the refusal to read anything else as one. -/
def Value.getDocument : Value → Except Fault Document
  | .document fields => .ok fields
  | _ => .error .elementType

/-- Whether some value satisfies a predicate: `satisfied`. -/
def satisfied (values : List Value) (predicate : Value → Bool) : Bool := values.any predicate

def matchesOperator (env : Env) (values : List Value) (name : String)
    (operand : Value) : Except Fault Bool :=
  if name = "$eq" then .ok (satisfied values fun value => value.equals operand)
  else if name = "$ne" then .ok (!satisfied values fun value => value.equals operand)
  else if name = "$gt" then .ok (satisfied values fun value => decide (0 < value.compare operand))
  else if name = "$gte" then .ok (satisfied values fun value => decide (0 ≤ value.compare operand))
  else if name = "$lt" then .ok (satisfied values fun value => decide (value.compare operand < 0))
  else if name = "$lte" then .ok (satisfied values fun value => decide (value.compare operand ≤ 0))
  else if name = "$in" ∨ name = "$nin" then do
    let cands ← operand.getArray
    let anyIn := cands.any fun cand =>
      satisfied values fun value => value.equals cand
    .ok (if name = "$in" then anyIn else !anyIn)
  else if name = "$exists" then
    let wanted := match operand with
      | .bool wanted => wanted
      | _ => true
    .ok (values.isEmpty != wanted)
  else if name = "$regex" then
    match operand with
    | .string pattern =>
      match env.regex pattern with
      | some found => .ok (satisfied values fun value =>
          match value with
          | .string text => found text
          | _ => false)
      | none => .error .regexError
    | _ => .error .elementType
  else if name = "$size" then .ok false
  else .error (.runtimeError ("EMD does not implement the query operator " ++ name))

/-- The operators of an operator document, in order. -/
def matchesOperators (env : Env) (values : List Value) : Document → Except Fault Bool
  | [] => .ok true
  | (name, operand) :: rest =>
    match matchesOperator env values name operand with
    | .ok true => matchesOperators env values rest
    | other => other

/-- The operators of a condition, if it is a document of them. -/
def Value.operators : Value → Option Document
  | .document ((name, operand) :: rest) =>
    if beginsWith "$" name then some ((name, operand) :: rest) else none
  | _ => none

def matchesCondition (env : Env) (values : List Value) (condition : Value) : Except Fault Bool :=
  match condition.operators with
  | some operators => matchesOperators env values operators
  | none => .ok (satisfied values fun value => value.equals condition)

/-- The size an array is asked to have, if the first operator of a condition is that. -/
def Value.sizeAsked : Value → Option Value
  | .document ((name, operand) :: _) => if name = "$size" then some operand else none
  | _ => none

def hasSize (size : Value) : Option Value → Bool
  | some (.array entries) => decide ((entries.length : Int) = size.asLong.toInt)
  | _ => false

/-- What the three connectives make of their branches. -/
def connective (key : String) (branches : List Bool) : Bool :=
  if key = "$and" then branches.all id
  else if key = "$or" then branches.any id
  else !branches.any id

/-! ### Filters -/

mutual

/-- `matches`. -/
def matchesFilter (env : Env) (doc : Document) : List (String × Value) → Except Fault Bool
  | [] => .ok true
  | condition :: rest =>
    match matchesEntry env doc condition with
    | .ok true => matchesFilter env doc rest
    | other => other
termination_by structural filter => filter

def matchesEntry (env : Env) (doc : Document) : String × Value → Except Fault Bool
  | (key, value) =>
    if key = "$and" ∨ key = "$or" ∨ key = "$nor" then
      (matchesBranches env doc value).map (connective key)
    else if beginsWith "$" key then
      .error (.runtimeError ("EMD does not implement the query operator " ++ key))
    else
      match value.sizeAsked with
      | some size => .ok (hasSize size (doc.field key))
      | none => matchesCondition env (valuesAt doc key) value
termination_by structural entry => entry

/-- The branches of a connective, all of them asked. -/
def matchesBranches (env : Env) (doc : Document) : Value → Except Fault (List Bool)
  | .array branches => matchesEach env doc branches
  | _ => .error .elementType
termination_by structural value => value

def matchesEach (env : Env) (doc : Document) : List Value → Except Fault (List Bool)
  | [] => .ok []
  | .document branch :: rest =>
    match matchesFilter env doc branch with
    | .ok holds => (matchesEach env doc rest).map (holds :: ·)
    | .error fault => .error fault
  | _ :: _ => .error .elementType
termination_by structural branches => branches

end

/-! ### A value at the top level -/

variable {value : Value}

theorem Value.IsScalar.plain (scalar : value.IsScalar) :
    value.operators = none ∧ value.sizeAsked = none := by
  cases value with
  | document fields => exact scalar.elim
  | _ => exact ⟨rfl, rfl⟩

theorem matchesEntry_of_scalar (env : Env) {doc : Document} {key : String}
    (scalar : value.IsScalar) (plain : beginsWith "$" key = false)
    (topLevel : pathParts key = [key]) :
    matchesEntry env doc (key, value) =
      .ok ((doc.field key).any fun stored => stored.equals value) := by
  have notConnective : ¬(key = "$and" ∨ key = "$or" ∨ key = "$nor") := by
    rintro (rfl | rfl | rfl) <;> exact absurd plain (by decide)
  obtain ⟨noOperators, noSize⟩ := scalar.plain
  unfold matchesEntry
  rw [if_neg notConnective, plain, if_neg Bool.false_ne_true, noSize]
  simp only [matchesCondition, noOperators, valuesAt, topLevel, resolve, satisfied]
  cases doc.field key <;> simp

theorem matchesEntry_of_dollar (env : Env) (doc : Document) {key : String}
    (scalar : value.IsScalar) (dollar : beginsWith "$" key = true) :
    ∃ fault, matchesEntry env doc (key, value) = .error fault := by
  unfold matchesEntry
  by_cases isConnective : key = "$and" ∨ key = "$or" ∨ key = "$nor"
  · rw [if_pos isConnective]
    cases value with
    | array entries => exact scalar.elim
    | _ => exact ⟨.elementType, rfl⟩
  · rw [if_neg isConnective, dollar, if_pos rfl]
    exact ⟨_, rfl⟩

theorem matchesFilter_of_scalars (env : Env) {doc : Document} :
    ∀ filter : Document,
      (∀ entry ∈ filter, entry.2.IsScalar ∧ pathParts entry.1 = [entry.1] ∧
        ∃ stored, doc.field entry.1 = some stored ∧ stored.equals entry.2) →
      matchesFilter env doc filter ≠ .ok false
  | [], _ => by simp [matchesFilter]
  | (key, value) :: rest, agree => by
    obtain ⟨scalar, topLevel, stored, found, equal⟩ := agree (key, value) (.head _)
    have remaining := matchesFilter_of_scalars env rest fun entry mem =>
      agree entry (.tail _ mem)
    unfold matchesFilter
    cases plain : beginsWith "$" key with
    | true =>
      obtain ⟨fault, refused⟩ := matchesEntry_of_dollar env doc scalar plain
      simp [refused]
    | false =>
      have holds : matchesEntry env doc (key, value) = .ok true := by
        rw [matchesEntry_of_scalar env scalar plain topLevel]
        simp only at found equal
        simp [found, equal]
      simpa [holds] using remaining

end Euclid.Emd
