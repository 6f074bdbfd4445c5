/-
This file finds documents in an order, and says when the order is one.

Numbers compare by value and everything else that differs in type by the code of the type, and a
double has the lowest code and the integers almost the highest. So a type in between is above a
double and below an integer whatever their values, and a NaN ties with all numbers. Values that
meet neither are ranked, and a sort by them is a sort.
-/

import Euclid.Emd.UniqueIndex
import Euclid.Ranking
import Mathlib.Data.String.Basic

namespace Euclid.Emd

open Bool Value Binary64

/-! ### Finding -/

structure FindOptions where
  sort : Option Document
  skip : Int64
  limit : Int64

/-- The documents that match a filter, in the order they were inserted. -/
def matching (env : Env) (filter : Document) : List Document → Except Fault (List Document)
  | [] => .ok []
  | doc :: rest =>
    match matchesFilter env doc filter with
    | .ok true => (matching env filter rest).map (doc :: ·)
    | .ok false => matching env filter rest
    | .error fault => .error fault

/-- The first value a path reaches is what a document is sorted by. -/
def sortValue (name : String) (doc : Document) : Option Value := (valuesAt doc name).head?

/-- What the comparator of `Find` says of two documents. A document without the field comes before
one that has it. -/
def sortsBefore : Document → Document → Document → Bool
  | [], _, _ => false
  | (name, direction) :: rest, left, right =>
    let order := missingFirst compare (sortValue name left) (sortValue name right)
    if order = 0 then sortsBefore rest left right
    else if 0 ≤ direction.asLong then decide (order < 0)
    else decide (0 < order)

/-- What is left of the documents found after those skipped and up to the limit. -/
def FindOptions.page (options : FindOptions) (found : List Document) : List Document :=
  let rest := if 0 < options.skip then found.drop options.skip.toNatClampNeg else found
  if 0 < options.limit then rest.take options.limit.toNatClampNeg else rest

/-- `Find`, on a collection. -/
def Collection.find (env : Env) (filter : Document) (options : FindOptions)
    (target : Collection) : Except Fault (List Document) := do
  let found ← matching env filter target.documents
  let sorted := match options.sort with
    | some sort => stableSort (sortsBefore sort) found
    | none => found
  return options.page sorted

/-! ### The order of values -/

theorem OtherType.typeCode_ne (kind : OtherType) :
    ∀ code ∈ [1, 2, 3, 4, 7, 8, 9, 10, 16, 18], kind.typeCode ≠ code := by
  cases kind <;> decide

namespace Value

/-- What keeps values in order: beside a NaN there is one number at most, up to width, and a value
whose type lies between those of two numbers does so because the numbers are in that order. -/
structure Sortable (values : List Value) : Prop where
  numbers : ∀ nan ∈ values, nan.isNumeric → nan.rank = none → ∀ left ∈ values, ∀ right ∈ values,
    ∀ lower upper, left.rank = some lower → right.rank = some upper → lower = upper
  between : ∀ left ∈ values, ∀ middle ∈ values, ∀ right ∈ values, left.isNumeric →
    middle.isNumeric = false → right.isNumeric → left.type < middle.type →
      middle.type < right.type → below left.rank right.rank

variable {value : Value}

theorem isNumeric_iff : value.isNumeric ↔ value.type = 1 ∨ value.type = 16 ∨ value.type = 18 := by
  cases value with
  | other kind bytes =>
    have differs := kind.typeCode_ne
    simp [isNumeric, type, differs]
  | _ => simp [isNumeric, type]

theorem isNumeric_of_rank {rank : Int} (found : value.rank = some rank) : value.isNumeric := by
  cases value with
  | int32 | int64 | double => rfl
  | _ => cases found

/-! ### Values of one type -/

theorem string_of_type (kind : value.type = 2) : ∃ text, value = .string text := by
  cases value with
  | string text => exact ⟨text, rfl⟩
  | _ => exact absurd kind (by simp [type, OtherType.typeCode_ne])

theorem oid_of_type (kind : value.type = 7) : ∃ id, value = .oid id := by
  cases value with
  | oid id => exact ⟨id, rfl⟩
  | _ => exact absurd kind (by simp [type, OtherType.typeCode_ne])

theorem bool_of_type (kind : value.type = 8) : ∃ truth, value = .bool truth := by
  cases value with
  | bool truth => exact ⟨truth, rfl⟩
  | _ => exact absurd kind (by simp [type, OtherType.typeCode_ne])

theorem date_of_type (kind : value.type = 9) : ∃ moment, value = .date moment := by
  cases value with
  | date moment => exact ⟨moment, rfl⟩
  | _ => exact absurd kind (by simp [type, OtherType.typeCode_ne])

/-- What a value of one of the types with an order is ordered by. -/
def text : Value → String
  | .string text => text
  | _ => ""

def number : Value → Int
  | .bool truth => truth.toNat
  | .date moment => moment.toInt
  | .oid id => id.toNat
  | _ => 0

theorem ranks_alike (values : List Value) (kind : ℕ) (alike : ∀ value ∈ values, value.type = kind) :
    Ranks compareAlike values := by
  by_cases isText : kind = 2
  · subst isText
    refine Ranks.of_view text fun left isLeft right isRight => ?_
    obtain ⟨first, rfl⟩ := string_of_type (alike left isLeft)
    obtain ⟨second, rfl⟩ := string_of_type (alike right isRight)
    simp only [compareAlike, sign, decide_eq_true_eq, text]
    rfl
  refine Ranks.of_view number fun left isLeft right isRight => ?_
  have isKind := alike left isLeft
  have isKind' := (alike right isRight).trans isKind.symm
  cases left with
  | string => exact absurd isKind.symm isText
  | bool first =>
    obtain ⟨second, rfl⟩ := bool_of_type isKind'
    cases first <;> cases second <;> rfl
  | date first =>
    obtain ⟨second, rfl⟩ := date_of_type isKind'
    simp only [compareAlike, sign, decide_eq_true_eq, number, Int64.lt_iff_toInt_lt]
    rfl
  | oid first =>
    obtain ⟨second, rfl⟩ := oid_of_type isKind'
    simp only [compareAlike, sign, decide_eq_true_eq, number, BitVec.lt_def, Nat.cast_lt]
  | other kind bytes =>
    cases right with
    | other kind' bytes' => rfl
    | _ => exact absurd isKind'.symm (kind.typeCode_ne _ (by simp [type]))
  | _ =>
    cases right with
    | other kind' bytes => exact absurd isKind' (kind'.typeCode_ne _ (by simp [type]))
    | _ => first | rfl | exact absurd isKind' (by simp [type])

/-! ### Values of any type -/

theorem compare_of_numbers {left right : Value} (isLeft : left.isNumeric)
    (isRight : right.isNumeric) :
    compare left right = sign below left.rank right.rank := by
  rw [compare, isLeft, isRight]
  rfl

theorem compare_of_mixed {left right : Value}
    (mixed : (left.isNumeric && right.isNumeric) = false) :
    compare left right = if left.type = right.type then compareAlike left right
      else if left.type < right.type then -1 else 1 := by
  rw [compare, mixed]
  rfl

theorem compare_opposite (left right : Value) : compare right left = -compare left right := by
  by_cases numbers : left.isNumeric && right.isNumeric
  · obtain ⟨isLeft, isRight⟩ := and_eq_true_iff.mp numbers
    rw [compare_of_numbers isLeft isRight, compare_of_numbers isRight isLeft]
    cases left.rank with
    | none => cases right.rank <;> rfl
    | some lower =>
      cases right.rank with
      | none => rfl
      | some upper =>
        simp only [sign, below, decide_eq_true_eq]
        split_ifs <;> omega
  · rw [not_eq_true] at numbers
    rw [compare_of_mixed numbers, compare_of_mixed (by rwa [Bool.and_comm])]
    by_cases alike : left.type = right.type
    · rw [if_pos alike, if_pos alike.symm]
      exact (ranks_alike [left, right] left.type (by simp [alike])).opposite
        left (by simp) right (by simp)
    · rw [if_neg alike, if_neg (Ne.symm alike)]
      split_ifs <;> omega

theorem nonpos_iff_of_mixed {left right : Value}
    (mixed : (left.isNumeric && right.isNumeric) = false) :
    compare left right ≤ 0 ↔
      left.type < right.type ∨ left.type = right.type ∧ compareAlike left right ≤ 0 := by
  rw [compare_of_mixed mixed]
  split_ifs <;> simp [*]

theorem nonpos_iff_of_numbers {left right : Value} (isLeft : left.isNumeric)
    (isRight : right.isNumeric) : compare left right ≤ 0 ↔ below right.rank left.rank = false := by
  rw [compare_of_numbers isLeft isRight]
  unfold sign
  split_ifs with before after
  · exact iff_of_true (by decide) (below_asymm before)
  · simp [after]
  · simp [after]

theorem type_ne {number other : Value} (isNumber : number.isNumeric)
    (isOther : other.isNumeric = false) : number.type ≠ other.type := by
  intro same
  rw [← not_eq_true, isNumeric_iff, ← same, ← isNumeric_iff] at isOther
  exact isOther isNumber

section Ranked

variable {values : List Value}

/-- Where the middle one of three values is a number, nothing lies between two numbers unless they
are in order. -/
theorem Sortable.trans (sortable : Sortable values) {left middle right : Value}
    (isLeft : left ∈ values) (isMiddle : middle ∈ values) (isRight : right ∈ values)
    (upTo : compare left middle ≤ 0) (upTo' : compare middle right ≤ 0) :
    compare left right ≤ 0 := by
  by_cases mixed : (left.isNumeric && right.isNumeric) = false
  · rw [nonpos_iff_of_mixed mixed]
    by_cases leftMiddle : (left.isNumeric && middle.isNumeric) = false
    · rw [nonpos_iff_of_mixed leftMiddle] at upTo
      by_cases middleRight : (middle.isNumeric && right.isNumeric) = false
      · rw [nonpos_iff_of_mixed middleRight] at upTo'
        by_cases alike : left.type = middle.type ∧ middle.type = right.type
        · have ranks := ranks_alike [left, middle, right] left.type (by simp [alike.1, alike.2])
          refine .inr ⟨alike.1.trans alike.2, ranks.trans left (by simp) middle (by simp) right
            (by simp) ?_ ?_⟩ <;> omega
        · exact .inl (by omega)
      · -- Two numbers behind a value of another type.
        rw [not_eq_false, and_eq_true_iff] at middleRight
        have other : left.isNumeric = false := by simpa [middleRight.1] using leftMiddle
        have differs := type_ne middleRight.2 other
        by_contra above
        have inside :=
          sortable.between right isRight left isLeft middle isMiddle middleRight.2 other
          middleRight.1 (by omega)
          (upTo.resolve_right fun same => type_ne middleRight.1 other same.1.symm)
        rw [nonpos_iff_of_numbers middleRight.1 middleRight.2, inside] at upTo'
        cases upTo'
    · -- Two numbers in front of a value of another type.
      rw [not_eq_false, and_eq_true_iff] at leftMiddle
      have other : right.isNumeric = false := by simpa [leftMiddle.1] using mixed
      rw [nonpos_iff_of_mixed (by simp [other])] at upTo'
      have differs := type_ne leftMiddle.1 other
      have differs' := type_ne leftMiddle.2 other
      by_contra above
      have inside := sortable.between middle isMiddle right isRight left isLeft leftMiddle.2 other
        leftMiddle.1 (by omega) (by omega)
      rw [nonpos_iff_of_numbers leftMiddle.1 leftMiddle.2, inside] at upTo
      cases upTo
  · rw [not_eq_false, and_eq_true_iff] at mixed
    rw [nonpos_iff_of_numbers mixed.1 mixed.2]
    by_cases number : middle.isNumeric
    · rw [nonpos_iff_of_numbers mixed.1 number] at upTo
      rw [nonpos_iff_of_numbers number mixed.2] at upTo'
      cases lower : left.rank with
      | none => cases right.rank <;> rfl
      | some first =>
        cases upper : right.rank with
        | none => rfl
        | some last =>
          cases between : middle.rank with
          | none =>
            rw [sortable.numbers middle isMiddle number between left isLeft right isRight first last
              lower upper]
            exact decide_eq_false (lt_irrefl _)
          | some inner =>
            rw [lower, between] at upTo
            rw [between, upper] at upTo'
            have least := of_decide_eq_false upTo
            have most := of_decide_eq_false upTo'
            exact decide_eq_false (by omega)
    · rw [not_eq_true] at number
      rw [nonpos_iff_of_mixed (by simp [number])] at upTo upTo'
      have differs := type_ne mixed.1 number
      have differs' := type_ne mixed.2 number
      exact below_asymm (sortable.between left isLeft middle isMiddle right isRight mixed.1
        number mixed.2 (by omega) (by omega))

/-- The order of a sort is a total preorder of exactly the values that can be sorted. -/
theorem ranks_iff_sortable : Ranks compare values ↔ Sortable values := by
  constructor
  · intro ranks
    refine ⟨fun nan isNan number unordered left isLeft right isRight lower upper first last => ?_,
      fun left isLeft middle isMiddle right isRight number other number' before before' => ?_⟩
    · -- A NaN ties with every number.
      have ties : ∀ value ∈ values, value.isNumeric → compare nan value = 0 := by
        intro value _ isNumber
        rw [compare_of_numbers number isNumber, unordered]
        cases value.rank <;> rfl
      have isLeftNumber := isNumeric_of_rank first
      have isRightNumber := isNumeric_of_rank last
      have tie := ties left isLeft isLeftNumber
      have tie' := ties right isRight isRightNumber
      have opposite := compare_opposite nan left
      have opposite' := compare_opposite nan right
      have upTo := ranks.trans left isLeft nan isNan right isRight (by omega) (by omega)
      have upTo' := ranks.trans right isRight nan isNan left isLeft (by omega) (by omega)
      rw [nonpos_iff_of_numbers isLeftNumber isRightNumber, first, last] at upTo
      rw [nonpos_iff_of_numbers isRightNumber isLeftNumber, first, last] at upTo'
      have least := of_decide_eq_false upTo
      have most := of_decide_eq_false upTo'
      omega
    · have mixed : (left.isNumeric && middle.isNumeric) = false := by simp [other]
      have mixed' : (middle.isNumeric && right.isNumeric) = false := by simp [other]
      have upTo := (nonpos_iff_of_mixed mixed).mpr (.inl before)
      have upTo' := (nonpos_iff_of_mixed mixed').mpr (.inl before')
      rw [← not_eq_false]
      intro notBelow
      have back := (nonpos_iff_of_numbers number' number).mpr notBelow
      have through := ranks.trans middle isMiddle right isRight left isLeft upTo' back
      rw [nonpos_iff_of_mixed (by simp [other])] at through
      omega
  · intro sortable
    exact ⟨fun left _ right _ => compare_opposite left right,
      fun _ isLeft _ isMiddle _ isRight => sortable.trans isLeft isMiddle isRight⟩

end Ranked

end Value

/-! ### The order of documents -/

/-- The values by which documents are sorted under one name. -/
def sortValues (name : String) (docs : List Document) : List Value :=
  docs.filterMap (sortValue name)

/-- The comparator as a sign: the first name under which two documents differ decides. -/
def sortOrder : Document → Document → Document → Int
  | [], _, _ => 0
  | (name, direction) :: rest, left, right =>
    lexically (fun left right =>
      let order := missingFirst compare (sortValue name left) (sortValue name right)
      if 0 ≤ direction.asLong then order else -order) (sortOrder rest) left right

theorem sortsBefore_eq (sort left right : Document) :
    sortsBefore sort left right = decide (sortOrder sort left right < 0) := by
  induction sort with
  | nil => rfl
  | cons key rest ih =>
    obtain ⟨name, direction⟩ := key
    have ties := em (missingFirst compare (sortValue name left) (sortValue name right) = 0)
    unfold sortsBefore sortOrder lexically
    by_cases ascending : 0 ≤ direction.asLong
    · rcases ties with ties | ties <;> simp [ascending, ties, ih]
    · rcases ties with ties | ties <;> simp [ascending, ties, ih]

theorem ranks_sortOrder {docs : List Document} :
    ∀ {sort : Document}, (∀ key ∈ sort, Sortable (sortValues key.1 docs)) →
      Ranks (sortOrder sort) docs
  | [], _ => Ranks.constant
  | (name, direction) :: rest, sortable => by
    have ranks : Ranks (fun left right =>
        missingFirst compare (sortValue name left) (sortValue name right)) docs := by
      refine Ranks.comap (Ranks.missingFirst ?_)
      rw [List.filterMap_map]
      exact ranks_iff_sortable.mpr (sortable _ (.head _))
    refine Ranks.lexically ?_ (ranks_sortOrder fun key mem =>
      sortable key (.tail _ mem))
    by_cases ascending : 0 ≤ direction.asLong
    · simpa only [ascending, if_true] using ranks
    · simpa only [ascending, if_false] using ranks.reversed

/-- Values are ranked exactly if they are sortable; and where the values under each name of a sort
are, the comparator is a strict weak order, and what is found is the documents that match, in that
order, those that tie as they were inserted, from those skipped up to the limit. -/
theorem find_sorts (values : List Value) : (Ranks compare values ↔ Sortable values) ∧
    ∀ (env : Env) (filter sort : Document) (skip limit : Int64) (target : Collection)
      (found : List Document), matching env filter target.documents = .ok found →
      (∀ key ∈ sort, Sortable (sortValues key.1 found)) →
      StrictWeak (sortsBefore sort) found ∧ ∃ sorted : List Document,
        target.find env filter ⟨some sort, skip, limit⟩ =
          .ok (FindOptions.page ⟨some sort, skip, limit⟩ sorted) ∧
        sorted.Perm found ∧
        sorted.Pairwise (fun left right => sortsBefore sort right left = false) ∧
        ∀ doc ∈ found, sorted.filter (fun other => sortOrder sort doc other = 0) =
          found.filter fun other => sortOrder sort doc other = 0 := by
  refine ⟨ranks_iff_sortable, fun env filter sort skip limit target found same sortable => ?_⟩
  have ranks := ranks_sortOrder sortable
  refine ⟨ranks.strictWeak (sortsBefore_eq sort), stableSort (sortsBefore sort) found, ?_,
    stableSort_perm _ _, stableSort_ordered ranks (sortsBefore_eq sort),
    fun doc mem => stableSort_stable ranks (sortsBefore_eq sort) mem⟩
  unfold Collection.find
  rw [same]
  rfl

/-- Two documents that are found in the order of their numbers. -/
theorem numbers_found_sorted : StrictWeak (sortsBefore [("n", .int32 1)])
    [[("n", .int32 2)], [("n", .int64 1)]] :=
  ((find_sorts []).2 countingEnvironment [] [("n", .int32 1)] 0 0
    ⟨[[("n", .int32 2)], [("n", .int64 1)]], []⟩ _ rfl (by
      intro key mem
      obtain rfl := List.mem_singleton.mp mem
      have values : sortValues "n" [[("n", .int32 2)], [("n", .int64 1)]] = [.int32 2, .int64 1] :=
        rfl
      rw [values]
      refine ⟨fun nan isNan _ unordered => ?_, fun left isLeft middle isMiddle => ?_⟩
      · simp at isNan
        rcases isNan with rfl | rfl <;> cases unordered
      · simp at isMiddle
        rcases isMiddle with rfl | rfl <;> intro _ _ _ other <;> cases other)).1

/-- Two as a double, a text above it, and one as an integer above the text. -/
def cycle : List Value := [.double 0x4000000000000000, .string "", .int32 1]

/-- One is above the text and the text above two, and yet two is above one. -/
theorem compare_cycles : ¬∀ values : List Value, Ranks compare values := by
  intro ranks
  have through := (ranks cycle).trans (.double 0x4000000000000000) (by simp [cycle]) (.string "")
    (by simp [cycle]) (.int32 1) (by simp [cycle]) (by decide) (by decide)
  exact absurd through (by decide)

end Euclid.Emd
