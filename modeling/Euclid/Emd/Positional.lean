/-
This file says when a positional update changes the entry of an array that its filter picks out.

The conditions a filter places on the entries at its top level are asked of one entry after the
other. Those within an `$and` are not, and none that asks for a size is met, so another entry may be
changed, or none.
-/

import Euclid.Emd.Modified

namespace Euclid.Emd

open List Function

/-! ### What a filter asks of an entry -/

mutual

/-- The conditions of a filter, and those of the filters within its `$and`. -/
def conjuncts : Value → List (String × Value)
  | .document fields => conjunctsOf fields
  | .array entries => conjunctsEach entries
  | _ => []
termination_by structural value => value

def conjunctsField : String × Value → List (String × Value)
  | (key, condition) => if key = "$and" then conjuncts condition else [(key, condition)]
termination_by structural field => field

def conjunctsOf : List (String × Value) → List (String × Value)
  | [] => []
  | field :: rest => conjunctsField field ++ conjunctsOf rest
termination_by structural fields => fields

def conjunctsEach : List Value → List (String × Value)
  | [] => []
  | entry :: rest => conjuncts entry ++ conjunctsEach rest
termination_by structural entries => entries

end

/-- An entry is a document that satisfies every condition a filter places on the entries of its
array, if it places one. -/
def isPicked (env : Env) (arrayField : String) (filter : Document) : Value → Bool
  | .document entry => !(conditionsOn arrayField (conjunctsOf filter)).isEmpty &&
      (conditionsOn arrayField (conjunctsOf filter)).all fun condition =>
        isMatch env [condition] entry
  | _ => false

/-- What comes of the conditions at the top level, and no size is met. -/
def askedOf (env : Env) (arrayField : String) (filter : Document) : Value → Except Fault Bool
  | .document entry => satisfiesEach env entry (conditionsOn arrayField filter)
  | _ => .ok false

def isFound (env : Env) (arrayField : String) (filter : Document) (entry : Value) : Bool :=
  match askedOf env arrayField filter entry with
  | .ok holds => holds && !(conditionsOn arrayField filter).isEmpty
  | .error _ => false

/-- No condition is refused before an entry is found. -/
def Unrefused (env : Env) (arrayField : String) (filter : Document) : List Value → Prop
  | [] => True
  | entry :: rest => (∃ holds, askedOf env arrayField filter entry = .ok holds) ∧
      (isFound env arrayField filter entry = false → Unrefused env arrayField filter rest)

/-! ### Sets of one entry -/

/-- One field of a `$set`: the entry, or a field of it. -/
structure EntrySet where
  subField : Option String
  value : Value
  named : ∀ name ∈ subField, name ≠ "" ∧ '.' ∉ name.toList

open EntrySet

def EntrySet.name (arrayField : String) (set : EntrySet) : String :=
  arrayField ++ ".$" ++ (set.subField.map ("." ++ ·)).getD ""

/-- The field as the update names it. -/
def EntrySet.field (arrayField : String) (set : EntrySet) : String × Value :=
  (set.name arrayField, set.value)

def EntrySet.on (entry : Value) (set : EntrySet) : Value :=
  match set.subField with
  | none => set.value
  | some name => .document (replaceField name set.value entry)

/-- The entries after the sets of one, if there is one. -/
def setAt (sets : List EntrySet) (entries : List Value) : Option Nat → List Value
  | none => entries
  | some index => entries.modify index fun entry => sets.foldl EntrySet.on entry

/-- A document with other entries in an array. -/
def withEntries (arrayField : String) (entries : List Value) (doc : Document) : Document :=
  doc.map fun field => if field.1 = arrayField then (arrayField, .array entries) else field

section

variable {env : Env} {moment : Nat} {doc filter fields : Document} {arrayField : String}
  {entries : List Value} {index : Option Nat}

theorem indexIn_cons (start : Nat) (entry : Value) (rest : List Value) :
    indexIn env (conditionsOn arrayField filter) start (entry :: rest) =
      match askedOf env arrayField filter entry with
      | .ok true => .ok (some start)
      | .ok false => indexIn env (conditionsOn arrayField filter) (start + 1) rest
      | .error fault => .error fault := by
  cases entry with
  | document cand => rfl
  | _ => rfl

theorem indexIn_ok_iff (some_ : conditionsOn arrayField filter ≠ []) {start : Nat} :
    indexIn env (conditionsOn arrayField filter) start entries = .ok index ↔
      Unrefused env arrayField filter entries ∧
        index = (entries.findIdx? (isFound env arrayField filter)).map (· + start) := by
  induction entries generalizing start with
  | nil => simp [indexIn, Unrefused, eq_comm]
  | cons entry rest ih =>
    rw [indexIn_cons, Unrefused, List.findIdx?_cons, isFound]
    cases asked : askedOf env arrayField filter entry with
    | error fault => simp
    | ok met =>
      cases met with
      | true => simpa [some_] using eq_comm
      | false =>
        have later : (fun found => found + start) ∘ (fun found => found + 1) = fun found =>
          found + (start + 1) :=
          funext fun found => by rw [comp_apply, Nat.add_assoc, Nat.add_comm 1]
        simp only [ih, Bool.false_and, Bool.false_eq_true, if_false, Option.map_map, later]
        simp

theorem unrefused_of_asked
    (asked : ∀ entry, ∃ holds, askedOf env arrayField filter entry = .ok holds) :
    Unrefused env arrayField filter entries := by
  induction entries with
  | nil => trivial
  | cons entry rest ih => exact ⟨asked entry, fun _ => ih⟩

theorem positionalIndex_ok_iff (array : doc.field arrayField = some (.array entries)) :
    positionalIndex env doc filter arrayField = .ok index ↔
      Unrefused env arrayField filter entries ∧
      index = entries.findIdx? (isFound env arrayField filter) := by
  rw [positionalIndex, array]
  dsimp only
  split
  · next none_ =>
    have asked (entry : Value) : ∃ holds, askedOf env arrayField filter entry = .ok holds := by
      cases entry with
      | document cand => exact ⟨true, by rw [askedOf, isEmpty_iff.mp none_, satisfiesEach]⟩
      | _ => exact ⟨false, rfl⟩
    have found (entry : Value) : isFound env arrayField filter entry = false := by
      obtain ⟨holds, asked⟩ := asked entry
      simp [isFound, asked, none_]
    have unrefused : Unrefused env arrayField filter entries := unrefused_of_asked asked
    rw [List.findIdx?_eq_none_iff.mpr fun entry _ => found entry]
    simpa [unrefused] using eq_comm
  · next some_ =>
    rw [indexIn_ok_iff (by simpa using some_)]
    simp

variable (plain : '.' ∉ arrayField.toList)

include plain

theorem splitAtDollar_name (set : EntrySet) :
    ∃ rest, splitAtDollar (set.name arrayField).toList = some (arrayField.toList, rest) ∧
      ¬(rest ≠ [] ∧ rest.head? ≠ some '.') ∧
        String.ofList (rest.drop 1) = set.subField.getD "" := by
  refine ⟨((set.subField.map ("." ++ ·)).getD "").toList, ?_, ?_, ?_⟩
  · rw [name, String.toList_append, String.toList_append, append_assoc]
    exact splitAtDollar_positional _ _ plain
  all_goals
    cases set.subField with
    | none => simp
    | some name => simp [String.toList_append]

theorem setField_entry (set : EntrySet)
    (picked : positionalIndex env doc filter arrayField = .ok index)
    (held : fields.field arrayField = some (.array entries)) :
    ∃ next, setField env doc filter fields (set.field arrayField) = .ok next ∧
      next.field = update fields.field arrayField (some (.array (setAt [set] entries index))) := by
  obtain ⟨rest, split, dotted, named⟩ := splitAtDollar_name plain set
  rw [setField, EntrySet.field, split]
  dsimp only
  rw [if_neg dotted, String.ofList_toList, picked]
  cases index with
  | none => exact ⟨fields, rfl, by rw [setAt, ← held, update_eq_self]⟩
  | some index =>
    obtain ⟨array, wrote⟩ : ∃ array,
      positionalArray (.array entries) index (set.subField.getD "") set.value =
      .ok array := ⟨_, rfl⟩
    obtain ⟨_, ⟨⟩, rfl⟩ := positionalArray_ok wrote
    have same : (fun entry => if set.subField.getD "" = "" then set.value
        else .document (replaceField (set.subField.getD "") set.value entry)) =
          (EntrySet.on · set) := by
      funext entry
      unfold EntrySet.on
      cases sub : set.subField with
      | none => rfl
      | some name => exact if_neg (set.named name sub).1
    rw [same] at wrote
    refine ⟨fields.assign arrayField (.array (entries.modify index (EntrySet.on · set))), ?_, ?_⟩
    · simp only [bind, Except.bind, held, named, wrote]
    · funext other
      rw [field_assign, update_apply]
      rfl

theorem foldlM_setField (sets : List EntrySet)
    (picked : positionalIndex env doc filter arrayField = .ok index)
    (held : fields.field arrayField = some (.array entries)) :
    ∃ result,
      (sets.map (EntrySet.field arrayField)).foldlM (setField env doc filter) fields = .ok result ∧
      result.field = update fields.field arrayField (some (.array (setAt sets entries index))) := by
  induction sets generalizing fields entries with
  | nil =>
    refine ⟨fields, rfl, ?_⟩
    have same : setAt [] entries index = entries := by
      cases index with
      | none => rfl
      | some index => exact modify_id index entries
    rw [same, ← held, update_eq_self]
  | cons set rest ih =>
    obtain ⟨next, wrote, left⟩ := setField_entry plain set picked held
    have there : next.field arrayField = some (.array (setAt [set] entries index)) := by
      rw [left, update_self]
    obtain ⟨result, wrote', left'⟩ := ih there
    refine ⟨result, ?_, ?_⟩
    · rw [map_cons, foldlM_cons, wrote]
      exact wrote'
    · rw [left', left, update_idem]
      cases index with
      | none => rfl
      | some index => rw [setAt, setAt, modify_modify_eq]; rfl

omit plain

/-! ### Which entry is changed -/

theorem getElem?_setAt (sets : List EntrySet) (entries : List Value)
    (index : Option Nat) (at_ : Nat) :
    (setAt sets entries index)[at_]? =
      if index = some at_ then entries[at_]?.map (sets.foldl EntrySet.on ·) else entries[at_]? := by
  cases index with
  | none => rfl
  | some index =>
    rw [setAt, List.getElem?_modify]
    by_cases here : index = at_ <;> simp [here]

variable {sets : List EntrySet}

/-- Setting the first entry that is found changes nothing if it does not change that entry. -/
theorem setAt_eq_self_iff {found : Value → Bool} :
    setAt sets entries (entries.findIdx? found) = entries ↔
      ∀ entry ∈ entries.find? found, sets.foldl EntrySet.on entry = entry := by
  rw [List.find?_eq_bind_findIdx?_getElem?]
  cases entries.findIdx? found with
  | none => simp [setAt]
  | some index =>
    rw [Option.bind_some, List.ext_getElem?_iff]
    simp only [getElem?_setAt, Option.some.injEq]
    constructor
    · intro same entry there
      have here := same index
      rw [if_pos rfl, Option.mem_def.mp there] at here
      exact Option.some.inj here
    · intro idle at_
      split
      · next here =>
        subst here
        cases there : entries[index]? with
        | none => rfl
        | some entry => exact congrArg some (idle entry there)
      · rfl

/-- Setting one of two entries comes to the same if they are one, or if neither changes. -/
theorem setAt_eq_iff {first second : Option Nat} :
    setAt sets entries first = setAt sets entries second ↔
      first = second ∨ setAt sets entries first = entries ∧
        setAt sets entries second = entries := by
  constructor
  · intro same
    by_cases one : first = second
    · exact .inl one
    have unchanged : setAt sets entries first = entries := by
      refine ext_getElem? fun at_ => ?_
      by_cases here : first = some at_
      · rw [same, getElem?_setAt, if_neg fun other => one (here.trans other.symm)]
      · rw [getElem?_setAt, if_neg here]
    exact .inr ⟨unchanged, same ▸ unchanged⟩
  · rintro (rfl | ⟨left, right⟩)
    · rfl
    · rw [left, right]

theorem field_withEntries (entries : List Value) (there : doc.field arrayField ≠ none) :
    (withEntries arrayField entries doc).field =
      update doc.field arrayField (some (.array entries)) := by
  funext name
  rw [withEntries, field_map_replaced, update_apply]
  split
  · next same =>
    obtain ⟨stored, held⟩ := Option.ne_none_iff_exists'.mp there
    rw [same, held]
    rfl
  · exact Option.map_id'

theorem distinct_withEntries (entries : List Value) :
    (withEntries arrayField entries doc).Distinct ↔ doc.Distinct := by
  have names : (withEntries arrayField entries doc).map Prod.fst = doc.map Prod.fst := by
    rw [withEntries, map_map]
    refine map_congr_left fun field _ => ?_
    by_cases own : field.1 = arrayField <;> simp [own]
  rw [Document.Distinct, names, Document.Distinct]

include plain in
theorem picked_of_setField {set : EntrySet} {next : Document}
    (wrote : setField env doc filter fields (set.field arrayField) = .ok next) :
    ∃ index, positionalIndex env doc filter arrayField = .ok index := by
  obtain ⟨rest, split, dotted, -⟩ := splitAtDollar_name plain set
  rw [setField, field, split] at wrote
  dsimp only at wrote
  rw [if_neg dotted, String.ofList_toList] at wrote
  obtain ⟨index, picked, -⟩ := bind_ok wrote
  exact ⟨index, picked⟩

/-! ### Positional updates -/

/-- The update sets the first entry that satisfies every condition, and leaves all else as it
was. -/
def SetsPicked (env : Env) (moment : Nat) (doc filter : Document) (inserting : Bool)
    (arrayField : String)
    (entries : List Value) (sets : List EntrySet) : Prop :=
  ∃ result, applyUpdate env moment doc [("$set", .document (sets.map (field arrayField)))]
      inserting filter = .ok result ∧
    List.Perm (withEntries arrayField
      (setAt sets entries (entries.findIdx? (isPicked env arrayField filter))) doc) result

/-- A positional update sets the entry that its filter picks if and only if every field has a name
of its own, no condition is refused before an entry is found, and what is found is what is picked or
neither is changed. -/
theorem sets_picked_iff (env : Env) (moment : Nat) (doc filter : Document) (inserting : Bool)
    {arrayField : String} (plain : '.' ∉ arrayField.toList) {entries : List Value}
    (array : doc.field arrayField = some (.array entries)) (set : EntrySet) (sets : List EntrySet) :
    SetsPicked env moment doc filter inserting arrayField entries (set :: sets) ↔
      doc.Distinct ∧ Unrefused env arrayField filter entries ∧
        (entries.findIdx? (isFound env arrayField filter) =
            entries.findIdx? (isPicked env arrayField filter) ∨
          (∀ entry ∈ entries.find? (isFound env arrayField filter),
            (set :: sets).foldl EntrySet.on entry = entry) ∧
          ∀ entry ∈ entries.find? (isPicked env arrayField filter),
            (set :: sets).foldl EntrySet.on entry = entry) := by
  rw [← setAt_eq_self_iff, ← setAt_eq_self_iff, ← setAt_eq_iff, SetsPicked]
  have applies : applyUpdate env moment doc
      [("$set", .document ((set :: sets).map (field arrayField)))] inserting filter =
        ((set :: sets).map (field arrayField)).foldlM (setField env doc filter) doc.fields := by
    have stage : applyStage env moment doc filter inserting doc.fields
        ("$set", .document ((set :: sets).map (field arrayField))) =
          ((set :: sets).map (field arrayField)).foldlM (setField env doc filter) doc.fields := by
      have operator : beginsWith "$" "$set" = true := by decide
      rw [applyStage, operator, if_neg (by simp)]
      rfl
    simp only [applyUpdate, foldlM_cons, stage, foldlM_nil, bind_pure]
  -- What the update comes to, if the names are distinct and an entry is found or none is.
  have comes (distinct : doc.Distinct) {index : Option Nat}
      (picked : positionalIndex env doc filter arrayField = .ok index) :=
    foldlM_setField plain (set :: sets) picked ((field_fields distinct arrayField).trans array)
  have there : doc.field arrayField ≠ none := by simp [array]
  rw [applies]
  constructor
  · rintro ⟨result, applied, perm⟩
    have distinct' := (holds_applyUpdate (applies.trans applied)).ordered.distinct
    obtain ⟨distinct, same⟩ := (perm_iff distinct').mp perm
    rw [distinct_withEntries] at distinct
    have first := applied
    rw [map_cons, foldlM_cons] at first
    obtain ⟨next, wrote, -⟩ := bind_ok first
    obtain ⟨index, picked⟩ := picked_of_setField plain wrote
    obtain ⟨unrefused, rfl⟩ := (positionalIndex_ok_iff array).mp picked
    obtain ⟨result', applied', left⟩ := comes distinct picked
    obtain rfl := Except.ok.inj (applied.symm.trans applied')
    refine ⟨distinct, unrefused, ?_⟩
    have here := congrFun same arrayField
    rw [field_withEntries _ there, left, update_self, update_self] at here
    exact (Value.array.inj (Option.some.inj here)).symm
  · rintro ⟨distinct, unrefused, same⟩
    have picked := (positionalIndex_ok_iff array).mpr ⟨unrefused, rfl⟩
    obtain ⟨result, applied, left⟩ := comes distinct picked
    have distinct' := (holds_applyUpdate (applies.trans applied)).ordered.distinct
    refine ⟨result, applied, (perm_iff distinct').mpr ⟨(distinct_withEntries _).mpr distinct, ?_⟩⟩
    rw [field_withEntries _ there, left, same, funext (field_fields distinct)]

end

/-! ### Two lines of an order -/

/-- Two lines of one article, of two sizes. -/
def order : Document :=
  [("lines", .array [.document [("article", .int32 1), ("size", .int32 1)],
    .document [("article", .int32 1), ("size", .int32 2)]])]

def setSize : EntrySet where
  subField := some "size"
  value := .int32 3
  named := by decide

theorem line_set : SetsPicked countingEnvironment 0 order [("lines.size", .int32 2)] false "lines"
    [.document [("article", .int32 1), ("size", .int32 1)],
      .document [("article", .int32 1), ("size", .int32 2)]] [setSize] := by
  refine (sets_picked_iff countingEnvironment 0 order _ false (by decide) rfl setSize []).mpr
    ⟨show (order.map Prod.fst).Nodup by decide, ?_, .inl (by decide)⟩
  exact ⟨⟨_, rfl⟩, fun _ => ⟨⟨_, rfl⟩, fun _ => trivial⟩⟩

/-- A condition within an `$and` is not asked, and the other line is set. -/
theorem other_line_set : ¬∀ (env : Env) (moment : Nat) (doc filter : Document) (inserting : Bool)
    (arrayField : String) (entries : List Value) (sets : List EntrySet), '.' ∉ arrayField.toList →
    doc.field arrayField = some (.array entries) → sets ≠ [] →
    conditionsOn arrayField (conjunctsOf filter) ≠ [] →
      SetsPicked env moment doc filter inserting arrayField entries sets := by
  intro always
  have sets := always countingEnvironment 0 order [("lines.article", .int32 1),
    ("$and", .array [.document [("lines.size", .int32 2)]])] false "lines" _ [setSize]
      (by decide) rfl
    (by simp) (by decide)
  obtain ⟨-, -, same⟩ :=
    (sets_picked_iff countingEnvironment 0 order _ false (by decide) rfl setSize []).mp sets
  rcases same with same | ⟨idle, -⟩
  · exact absurd same (by decide)
  · exact absurd (idle _ rfl) (by decide)

end Euclid.Emd
