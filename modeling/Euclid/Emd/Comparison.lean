/-
This file compares what the comparisons of the store find with what they mean in MongoDB.

Two values are the same there if they are so with every number in them read as a number. The store
looks into no document, array or binary, makes doubles of integers, lets a NaN tie with all numbers,
and has an order between values of two types as well.
-/

import Euclid.Emd.Sorting
import Mathlib.Order.Extension.Linear

namespace Euclid.Emd

open List Binary64

/-! ### What a comparison means -/

/-- The form of a value: a number is how large it is, a NaN nothing. -/
inductive Form where
  | number (amount : Option Int)
  | scalar (value : Value)
  | document (fields : List (String × Form))
  | array (entries : List Form)

namespace Value

/-- How large a number is, in units of the smallest double. -/
def amount : Value → Option Int
  | .int32 value => some (value.toInt * scale)
  | .int64 value => some (value.toInt * scale)
  | .double bits => (Binary64.rank bits).map Binary64.size
  | _ => none

mutual

def form : Value → Form
  | .document fields => .document (formFields fields)
  | .array entries => .array (formEntries entries)
  | value => if value.isNumeric then .number value.amount else .scalar value
termination_by structural value => value

def formField : String × Value → String × Form
  | (name, value) => (name, value.form)
termination_by structural field => field

def formFields : List (String × Value) → List (String × Form)
  | [] => []
  | field :: rest => formField field :: formFields rest
termination_by structural fields => fields

def formEntries : List Value → List Form
  | [] => []
  | entry :: rest => entry.form :: formEntries rest
termination_by structural entries => entries

end

/-- Two values are of one kind: both numbers, or of one type. -/
def OneKind (left right : Value) : Prop :=
  (left.isNumeric && right.isNumeric) = true ∨ left.type = right.type

/-- Documents, arrays and the other types have an order as well, whichever it is. -/
def Below [LinearOrder Form] : Value → Value → Prop
  | .string left, .string right => left < right
  | .bool left, .bool right => left < right
  | .date left, .date right => left < right
  | .oid left, .oid right => left < right
  | left, right =>
    if left.isNumeric && right.isNumeric then
      ∃ lower upper, left.amount = some lower ∧ right.amount = some upper ∧ lower < upper
    else left.form < right.form

end Value

/-- The operators of a range. -/
inductive Bound where
  | gt
  | gte
  | lt
  | lte

namespace Bound

def op : Bound → String
  | gt => "$gt"
  | gte => "$gte"
  | lt => "$lt"
  | lte => "$lte"

def Stands [LinearOrder Form] (stored operand : Value) : Bound → Prop
  | gt => operand.Below stored
  | gte => operand.Below stored ∨ stored.form = operand.form
  | lt => stored.Below operand
  | lte => stored.Below operand ∨ stored.form = operand.form

end Bound

def Selects (env : Env) (doc : Document) (name : String) (condition : Value) : Prop :=
  matchesFilter env doc [(name, condition)] = .ok true

/-- The comparisons of stored values with operands mean what they mean in MongoDB: equality, the
filters on a field that holds the values, the ranges on a field that holds one of them, and the
removal from an array. -/
structure Means [LinearOrder Form] (env : Env) (values operands : List Value) : Prop where
  equals : ∀ stored ∈ values, ∀ operand ∈ operands,
    stored.equals operand ↔ stored.form = operand.form
  plain : ∀ doc name, valuesAt doc name = values → beginsWith "$" name = false →
    ∀ operand ∈ operands, operand.operators = none →
      (Selects env doc name operand ↔ ∃ stored ∈ values, stored.form = operand.form)
  eq : ∀ doc name, valuesAt doc name = values → beginsWith "$" name = false → ∀ operand ∈ operands,
    (Selects env doc name (.document [("$eq", operand)]) ↔
      ∃ stored ∈ values, stored.form = operand.form)
  ne : ∀ doc name, valuesAt doc name = values → beginsWith "$" name = false → ∀ operand ∈ operands,
    (Selects env doc name (.document [("$ne", operand)]) ↔
      ∀ stored ∈ values, stored.form ≠ operand.form)
  isIn : ∀ doc name, valuesAt doc name = values → beginsWith "$" name = false →
    (Selects env doc name (.document [("$in", .array operands)]) ↔
      ∃ operand ∈ operands, ∃ stored ∈ values, stored.form = operand.form)
  pulls : ∀ operand ∈ operands, ∀ entry,
    entry ∈ entriesOf (some (pulled (some (.array values)) operand)) ↔
    entry ∈ values ∧ entry.form ≠ operand.form
  ranges : ∀ stored ∈ values, stored.type ≠ 4 → ∀ operand ∈ operands, ∀ bound : Bound, ∀ doc name,
    valuesAt doc name = [stored] → beginsWith "$" name = false →
      (Selects env doc name (.document [(bound.op, operand)]) ↔
        stored.OneKind operand ∧ bound.Stands stored operand)

/-- The store tells two values apart if they are not the same: of two numbers both or neither is a
NaN, and none but the same numbers are one double; and two documents, arrays or values of another
type that the store has no comparison for are the same. -/
def Value.Told (left right : Value) : Prop :=
  if left.isNumeric && right.isNumeric then
    (left.rank = none ↔ right.rank = none) ∧ (left.rank = right.rank → left.amount = right.amount)
  else left.type = right.type → left.type ∈ [2, 7, 8, 9, 10] ∨ left.form = right.form

open Value

/-! ### Numbers -/

namespace Value

variable {value : Value}

theorem amount_none_iff : value.amount = none ↔ value.rank = none := by
  cases value with
  | double bits => exact Option.map_eq_none_iff
  | int32 value => exact iff_of_false nofun nofun
  | int64 value => exact iff_of_false nofun nofun
  | _ => exact iff_of_true rfl rfl

theorem rounds_of_amount {amount : Int} (large : value.amount = some amount) :
    ∃ rank, value.rank = some rank ∧ Rounds rank amount := by
  cases value with
  | int32 value =>
    obtain rfl := Option.some.inj large
    exact ⟨_, rfl, rounds_ofInt _⟩
  | int64 value =>
    obtain rfl := Option.some.inj large
    exact ⟨_, rfl, rounds_ofInt _⟩
  | double bits =>
    obtain ⟨rank, found, rfl⟩ := Option.map_eq_some_iff.mp large
    exact ⟨rank, found, rounds_size rank⟩
  | _ => cases large

theorem form_of_numeric (numeric : value.isNumeric) : value.form = .number value.amount := by
  cases value with
  | int32 | int64 | double => rfl
  | _ => cases numeric

theorem rank_of_amount {left right : Value} (same : left.amount = right.amount) :
    left.rank = right.rank := by
  cases large : left.amount with
  | none => rw [amount_none_iff.mp large, amount_none_iff.mp (same.symm.trans large)]
  | some amount =>
    obtain ⟨rank, found, rounds⟩ := rounds_of_amount large
    obtain ⟨rank', found', rounds'⟩ := rounds_of_amount (same.symm.trans large)
    rw [found, found', le_antisymm (rounds.le rounds' le_rfl) (rounds'.le rounds le_rfl)]

theorem sign_below (lower upper : Int) : sign below (some lower) (some upper) =
    if lower < upper then -1 else if upper < lower then 1 else 0 := by
  simp only [sign, below, decide_eq_true_eq]

section Numbers

variable {left right : Value} (numbers : (left.isNumeric && right.isNumeric) = true)
include numbers

theorem form_iff_of_numbers : left.form = right.form ↔ left.amount = right.amount := by
  obtain ⟨isLeft, isRight⟩ := Bool.and_eq_true_iff.mp numbers
  rw [form_of_numeric isLeft, form_of_numeric isRight, Form.number.injEq]

theorem told_iff_of_numbers : left.Told right ↔
    (left.rank = none ↔ right.rank = none) ∧
      (left.rank = right.rank → left.amount = right.amount) := by
  rw [Told, if_pos numbers]

theorem below_iff_of_numbers [LinearOrder Form] : left.Below right ↔
    ∃ lower upper, left.amount = some lower ∧ right.amount = some upper ∧ lower < upper := by
  unfold Below
  split
  · cases numbers
  · cases numbers
  · cases numbers
  · cases numbers
  · rw [if_pos numbers]

theorem tie_iff_of_numbers :
    compare left right = 0 ↔ left.rank = none ∨ right.rank = none ∨ left.rank = right.rank := by
  obtain ⟨isLeft, isRight⟩ := Bool.and_eq_true_iff.mp numbers
  rw [compare_of_numbers isLeft isRight]
  cases left.rank with
  | none => simp [sign, below]
  | some lower =>
    cases right.rank with
    | none => simp [sign, below]
    | some upper =>
      rw [sign_below]
      simp only [reduceCtorEq, false_or, Option.some.injEq]
      split_ifs with before after
      · exact iff_of_false id before.ne
      · exact iff_of_false (by decide) after.ne'
      · exact iff_of_true rfl (by omega)

theorem tie_iff_form_of_numbers :
    (compare left right = 0 ↔ left.form = right.form) ↔ left.Told right := by
  rw [tie_iff_of_numbers numbers, form_iff_of_numbers numbers, told_iff_of_numbers numbers]
  constructor
  · intro iff
    refine ⟨⟨fun nan => ?_, fun nan => ?_⟩, fun same => iff.mp (.inr (.inr same))⟩
    · rw [← rank_of_amount (iff.mp (.inl nan)), nan]
    · rw [rank_of_amount (iff.mp (.inr (.inl nan))), nan]
  · rintro ⟨nan, exactly⟩
    refine ⟨?_, fun same => .inr (.inr (rank_of_amount same))⟩
    rintro (none | none | same)
    · exact exactly (none.trans (nan.mp none).symm)
    · exact exactly ((nan.mpr none).trans none.symm)
    · exact exactly same

theorem below_iff_neg_of_numbers [LinearOrder Form] (told : left.Told right) :
    left.Below right ↔ compare left right < 0 := by
  obtain ⟨-, exactly⟩ := (told_iff_of_numbers numbers).mp told
  obtain ⟨isLeft, isRight⟩ := Bool.and_eq_true_iff.mp numbers
  rw [below_iff_of_numbers numbers, compare_of_numbers isLeft isRight]
  cases lower : left.amount with
  | none => simp [sign, below, amount_none_iff.mp lower]
  | some first =>
    cases upper : right.amount with
    | none => simp [sign, below, amount_none_iff.mp upper]
    | some second =>
      obtain ⟨rank, found, rounds⟩ := rounds_of_amount lower
      obtain ⟨rank', found', rounds'⟩ := rounds_of_amount upper
      have apart : rank = rank' → first = second := by
        rintro rfl
        exact Option.some.inj (lower.symm.trans ((exactly (found.trans found'.symm)).trans upper))
      have order : first < second ↔ rank < rank' := by
        constructor
        · intro before
          exact lt_of_le_of_ne (rounds.le rounds' before.le) fun same => before.ne (apart same)
        · intro before
          exact lt_of_not_ge fun upTo => before.not_ge (rounds'.le rounds upTo)
      rw [found, found', sign_below]
      simp only [Option.some.injEq, exists_and_left, exists_eq_left', order]
      split_ifs <;> omega

end Numbers

/-! ### Values of one type -/

section Alike

variable {left right : Value}

theorem sign_of_view {Ordered Source : Type} [LinearOrder Source] (view : Ordered → Source)
    (apart : view.Injective) {less : Ordered → Ordered → Bool}
    (agrees : ∀ first second, less first second = decide (view first < view second))
    (first second : Ordered) :
    (sign less first second = 0 ↔ first = second) ∧
      (sign less first second < 0 ↔ less first second) := by
  simp only [sign, agrees, decide_eq_true_eq]
  rcases lt_trichotomy (view first) (view second) with before | same | after
  · rw [if_pos before]
    exact ⟨iff_of_false (by decide) fun same => before.ne (congrArg view same), by simp [before]⟩
  · rw [if_neg same.not_lt, if_neg same.not_gt]
    exact ⟨iff_of_true rfl (apart same), by simp [same]⟩
  · rw [if_neg after.not_gt, if_pos after]
    exact ⟨iff_of_false (by decide) fun same => after.ne (congrArg view same.symm),
      by simp [after.le]⟩

/-- A type that the store has a comparison for. -/
theorem listed_cases (listed : left.type ∈ [2, 7, 8, 9, 10]) (alike : left.type = right.type) :
    (compareAlike left right = 0 ↔ left.form = right.form) ∧
      ∀ [LinearOrder Form], left.Below right ↔ compareAlike left right < 0 := by
  simp only [mem_cons, not_mem_nil, or_false] at listed
  rcases listed with kind | kind | kind | kind | kind
  · obtain ⟨first, rfl⟩ := string_of_type kind
    obtain ⟨second, rfl⟩ := string_of_type (alike.symm.trans kind)
    obtain ⟨tie, below⟩ := sign_of_view id Function.injective_id (fun _ _ => rfl) first second
    refine ⟨tie.trans ?_, (below.trans decide_eq_true_iff).symm⟩
    simp [form, isNumeric]
  · obtain ⟨first, rfl⟩ := oid_of_type kind
    obtain ⟨second, rfl⟩ := oid_of_type (alike.symm.trans kind)
    obtain ⟨tie, below⟩ := sign_of_view BitVec.toNat (fun _ _ => BitVec.eq_of_toNat_eq)
      (fun _ _ => rfl) first second
    refine ⟨tie.trans ?_, (below.trans decide_eq_true_iff).symm⟩
    simp [form, isNumeric]
  · obtain ⟨first, rfl⟩ := bool_of_type kind
    obtain ⟨second, rfl⟩ := bool_of_type (alike.symm.trans kind)
    cases first <;> cases second <;> simp [compareAlike, form, isNumeric, sign, Below]
  · obtain ⟨first, rfl⟩ := date_of_type kind
    obtain ⟨second, rfl⟩ := date_of_type (alike.symm.trans kind)
    obtain ⟨tie, below⟩ := sign_of_view Int64.toInt (fun _ _ => Int64.toInt_inj.mp)
      (fun _ _ => decide_eq_decide.mpr Int64.lt_iff_toInt_lt) first second
    refine ⟨tie.trans ?_, (below.trans decide_eq_true_iff).symm⟩
    simp [form, isNumeric]
  · have null : ∀ value : Value, value.type = 10 → value = .null := by
      intro value kind
      cases value with
      | null => rfl
      | _ => exact absurd kind (by simp [type, OtherType.typeCode_ne])
    obtain rfl := null left kind
    obtain rfl := null right (alike.symm.trans kind)
    refine ⟨by simp [compareAlike], fun {_} => ?_⟩
    simp [Below, compareAlike, isNumeric]

theorem unlisted_cases (unlisted : left.type ∉ [2, 7, 8, 9, 10]) (alike : left.type = right.type)
    (other : (left.isNumeric && right.isNumeric) = false) :
    compareAlike left right = 0 ∧ ∀ [LinearOrder Form], left.Below right ↔
      left.form < right.form := by
  cases left with
  | string | bool | date | oid | null => exact absurd unlisted (by simp [type])
  | _ => exact ⟨by simp [compareAlike], fun {_} => by simp [Below, other]⟩

theorem oneKind_of_form (same : left.form = right.form) : left.OneKind right := by
  cases left <;> cases right <;> simp_all [form, OneKind, isNumeric, type]

theorem told_order (kind : left.OneKind right) :
    ((compare left right = 0 ↔ left.form = right.form) ↔ left.Told right) ∧
      ∀ [LinearOrder Form], left.Told right → (left.Below right ↔ compare left right < 0) := by
  by_cases numbers : (left.isNumeric && right.isNumeric) = true
  · exact ⟨tie_iff_form_of_numbers numbers, fun {_} => below_iff_neg_of_numbers numbers⟩
  · have alike := kind.resolve_left numbers
    have told : left.Told right ↔ (left.type ∈ [2, 7, 8, 9, 10] ∨ left.form = right.form) := by
      rw [Told, if_neg numbers]
      exact ⟨fun told => told alike, fun told _ => told⟩
    rw [Bool.not_eq_true] at numbers
    rw [told, compare_of_mixed numbers, if_pos alike]
    by_cases listed : left.type ∈ [2, 7, 8, 9, 10]
    · obtain ⟨tie, below⟩ := listed_cases listed alike
      exact ⟨iff_of_true tie (.inl listed), fun {_} _ => below⟩
    · obtain ⟨tie, below⟩ := unlisted_cases listed alike numbers
      rw [tie]
      refine ⟨by simp [listed], fun {_} told => ?_⟩
      rw [below, told.resolve_left listed]
      simp

/-- `equals` is right about two values exactly if it tells them apart. -/
theorem equals_iff_form : (left.equals right ↔ left.form = right.form) ↔ left.Told right := by
  by_cases kind : left.OneKind right
  · rw [← (told_order kind).1]
    unfold equals
    split
    · rw [decide_eq_true_iff]
    · rename_i mixed
      rw [decide_eq_true_iff, and_iff_right (kind.resolve_left mixed)]
  · obtain ⟨mixed, apart⟩ := not_or.mp kind
    refine iff_of_true (iff_of_false ?_ fun same => kind (oneKind_of_form same)) ?_
    · rw [equals, if_neg mixed]
      simp [apart]
    · rw [Told, if_neg mixed]
      exact fun alike => absurd alike apart

theorem OneKind.symm (kind : left.OneKind right) : right.OneKind left :=
  kind.imp (fun numbers => by rwa [Bool.and_comm]) Eq.symm

theorem Told.symm (told : left.Told right) : right.Told left := by
  rw [← equals_iff_form] at told ⊢
  rw [equals_comm, told, eq_comm]

end Alike

end Value

/-- What a range asks of the order of the sort. -/
def Bound.Holds (order : Int) : Bound → Prop
  | gt => 0 < order
  | gte => 0 ≤ order
  | lt => order < 0
  | lte => order ≤ 0

section Filters

variable {env : Env} {doc : Document} {name : String} {values : List Value} {condition : Value}

theorem selects_iff (plain : beginsWith "$" name = false)
    (noSize : condition.sizeAsked = none) (reached : valuesAt doc name = values) :
    Selects env doc name condition ↔ matchesCondition env values condition = .ok true := by
  have notConnective : ¬(name = "$and" ∨ name = "$or" ∨ name = "$nor") := by
    rintro (rfl | rfl | rfl) <;> exact absurd plain (by decide)
  unfold Selects matchesFilter matchesEntry
  rw [if_neg notConnective, plain, if_neg Bool.false_ne_true, noSize, reached]
  split
  · rename_i holds
    simp [matchesFilter, holds]
  · rfl

theorem sizeAsked_of_operators (noOperators : condition.operators = none) :
    condition.sizeAsked = none := by
  unfold sizeAsked
  split
  · rename_i op operand rest
    rw [operators, ite_eq_right_iff] at noOperators
    refine if_neg fun size => ?_
    exact absurd (noOperators (by rw [size]; decide)) (by simp)
  · rfl

theorem matchesCondition_op (op : String) (operand : Value) (dollar : beginsWith "$" op = true) :
    matchesCondition env values (.document [(op, operand)]) = matchesOperator env values
      op operand := by
  simp only [matchesCondition, operators, dollar, if_true, matchesOperators]
  split
  · rename_i holds
    exact holds.symm
  · rfl

variable {operand : Value} {stored : Value}

theorem bound_iff (bound : Bound) (plain : beginsWith "$" name = false)
    (reached : valuesAt doc name = [stored]) :
    Selects env doc name (.document [(bound.op, operand)]) ↔
      bound.Holds (stored.compare operand) := by
  rw [selects_iff plain (by cases bound <;> rfl) reached,
    matchesCondition_op _ _ (by cases bound <;> decide)]
  cases bound <;> simp [matchesOperator, Bound.op, satisfied, Bound.Holds]

theorem holds_iff_stands [LinearOrder Form] (told : stored.Told operand)
    (kind : stored.OneKind operand) (bound : Bound) :
    bound.Holds (stored.compare operand) ↔ bound.Stands stored operand := by
  obtain ⟨tie, below⟩ := told_order kind
  have tie := tie.mpr told
  have above := (told_order kind.symm).2 told.symm
  rw [compare_opposite stored operand] at above
  cases bound with
  | gt =>
    simp only [Bound.Holds, Bound.Stands, above]
    omega
  | gte =>
    simp only [Bound.Holds, Bound.Stands, above, ← tie]
    omega
  | lt => exact (below told).symm
  | lte =>
    simp only [Bound.Holds, Bound.Stands, below told, ← tie]
    omega

theorem ranges_iff [LinearOrder Form] (told : stored.Told operand) :
    (∀ bound : Bound, bound.Holds (stored.compare operand) ↔
      stored.OneKind operand ∧ bound.Stands stored operand) ↔ stored.OneKind operand := by
  constructor
  · intro right
    by_contra other
    obtain ⟨mixed, apart⟩ := not_or.mp other
    have order : stored.compare operand < 0 ∨ 0 < stored.compare operand := by
      rw [compare_of_mixed (by simpa using mixed), if_neg apart]
      split <;> simp
    rcases order with below | above
    · exact other ((right .lt).mp below).1
    · exact other ((right .gt).mp above).1
  · intro kind bound
    rw [holds_iff_stands told kind bound, and_iff_right kind]

theorem satisfied_iff
    (right : ∀ stored ∈ values, stored.equals operand ↔ stored.form = operand.form) :
    satisfied values (fun stored => stored.equals operand) = true ↔
      ∃ stored ∈ values, stored.form = operand.form := by
  rw [satisfied, any_eq_true]
  exact exists_congr fun stored => and_congr_right fun mem => right stored mem

end Filters

/-- The comparisons mean what they mean in MongoDB exactly where the store tells every value from
every operand, and both are numbers or of one type. -/
theorem comparisons_mean_iff [LinearOrder Form] (env : Env) (values operands : List Value) :
    Means env values operands ↔ ∀ stored ∈ values, ∀ operand ∈ operands,
      stored.Told operand ∧ (stored.type ≠ 4 → stored.OneKind operand) := by
  constructor
  · intro means stored isStored operand isOperand
    have told := equals_iff_form.mp (means.equals stored isStored operand isOperand)
    refine ⟨told, fun plain => (ranges_iff told).mp fun bound => ?_⟩
    have reached : valuesAt [("f", stored)] "f" = [stored] := rfl
    rw [← bound_iff bound (by decide) reached]
    exact means.ranges stored isStored plain operand isOperand bound _ _ reached (by decide)
  · intro each
    have right : ∀ operand ∈ operands, ∀ stored ∈ values,
        stored.equals operand ↔ stored.form = operand.form :=
          fun operand isOperand stored isStored =>
      equals_iff_form.mpr (each stored isStored operand isOperand).1
    exact {
      equals := fun stored isStored operand isOperand => right operand isOperand stored isStored
      plain := by
        intro doc name reached plain operand isOperand noOperators
        rw [selects_iff plain (sizeAsked_of_operators noOperators) reached, matchesCondition,
          noOperators, Except.ok.injEq,
          satisfied_iff (right operand isOperand)]
      eq := by
        intro doc name reached plain operand isOperand
        have evaluated : matchesOperator env values "$eq" operand =
          .ok (satisfied values fun stored => stored.equals operand) := rfl
        rw [selects_iff plain rfl reached, matchesCondition_op _ _ (by decide), evaluated,
          Except.ok.injEq, satisfied_iff (right operand isOperand)]
      ne := by
        intro doc name reached plain operand isOperand
        have evaluated : matchesOperator env values "$ne" operand =
          .ok (!satisfied values fun stored => stored.equals operand) := rfl
        rw [selects_iff plain rfl reached, matchesCondition_op _ _ (by decide), evaluated,
          Except.ok.injEq, Bool.not_eq_true', ← Bool.not_eq_true,
            satisfied_iff (right operand isOperand)]
        simp
      isIn := by
        intro doc name reached plain
        have evaluated : matchesOperator env values "$in" (.array operands) =
          .ok (operands.any fun operand => satisfied values fun stored =>
            stored.equals operand) := rfl
        rw [selects_iff plain rfl reached, matchesCondition_op _ _ (by decide), evaluated,
          Except.ok.injEq, any_eq_true]
        exact exists_congr fun operand => and_congr_right fun isOperand =>
          satisfied_iff (right operand isOperand)
      pulls := by
        intro operand isOperand entry
        rw [pulled, entriesOf, entriesOf, mem_filter, Bool.not_eq_true', ← Bool.not_eq_true]
        exact and_congr_right fun mem => not_congr (right operand isOperand entry mem)
      ranges := by
        intro stored isStored notArray operand isOperand bound doc name reached plain
        obtain ⟨told, kind⟩ := each stored isStored operand isOperand
        rw [bound_iff bound plain reached]
        exact (ranges_iff told).mpr (kind notArray) bound }

theorem exists_order : Nonempty (LinearOrder Form) := by
  let _ : PartialOrder Form :=
    { le := Eq, le_refl := Eq.refl, le_trans := fun _ _ _ =>
      Eq.trans, le_antisymm := fun _ _ same _ => same }
  exact ⟨(inferInstance : LinearOrder (LinearExtension Form))⟩

/-- An empty document equals one with a field. -/
theorem not_comparisons_mean : ¬∀ [LinearOrder Form] (env : Env)
    (values operands : List Value), Means env values operands := by
  intro means
  obtain ⟨order⟩ := exists_order
  have same := ((means countingEnvironment [.document []] [.document [("a", .null)]]).equals _
    (mem_singleton_self _) _ (mem_singleton_self _)).mp rfl
  simp [form, formFields] at same

end Euclid.Emd
