/-
This file says what a document holds under a name after its fields are written, and what a
positional update leaves of an array.

A document whose names are distinct holds one value under each, and so does the map an update
works on. Setting a field of one entry of an array changes that entry and no other.
-/

import Euclid.Emd.DocumentStore
import Mathlib.Data.String.Basic

namespace Euclid.Emd

open List Option

/-! ### Names -/

/-- No name stands twice in a document. -/
def Document.Distinct (doc : Document) : Prop := (doc.map Prod.fst).Nodup

open Document

theorem field_cons (entry : String × Value) (rest : Document) (name : String) :
    field (entry :: rest) name = if entry.1 = name then some entry.2 else field rest name := by
  unfold field
  rw [List.find?_cons]
  by_cases own : entry.1 = name <;> simp [own]

theorem field_append (first second : Document) (name : String) :
    field (first ++ second) name = (field first name).or (field second name) := by
  induction first with
  | nil => rfl
  | cons entry rest ih =>
    rw [cons_append, field_cons, field_cons, ih]
    split <;> rfl

variable {doc : Document}

theorem field_eq_none {name : String} : doc.field name = none ↔ name ∉ doc.map Prod.fst := by
  induction doc with
  | nil => simp [field]
  | cons entry rest ih =>
    rw [field_cons, map_cons, mem_cons, not_or]
    by_cases own : entry.1 = name
    · simp [own]
    · simp [own, ih, Ne.symm own]

theorem field_erase (doc : Document) (name other : String) :
    (doc.erase name).field other = if other = name then none else doc.field other := by
  induction doc with
  | nil => simp [erase, field]
  | cons entry rest ih =>
    unfold erase at ih ⊢
    rw [filter_cons, field_cons]
    by_cases erased : entry.1 = name
    · rw [if_neg (by simp [erased]), ih]
      split
      · rfl
      · rename_i different
        rw [if_neg (fun same => different (same.symm.trans erased))]
    · rw [if_pos (by simp [erased]), field_cons, ih]
      by_cases same : entry.1 = other
      · rw [if_pos same, if_pos same, if_neg (same ▸ erased)]
      · rw [if_neg same, if_neg same]

/-- An assignment is read back, and leaves the other fields. -/
theorem field_assign (doc : Document) (name other : String) (value : Value) :
    (doc.assign name value).field other = if other = name then some value else doc.field other := by
  have parts : doc.erase name = (doc.erase name).takeWhile (fun entry => entry.1 < name) ++
      (doc.erase name).dropWhile (fun entry => entry.1 < name) :=
    takeWhile_append_dropWhile.symm
  have whole := field_erase doc name other
  rw [parts, field_append] at whole
  unfold assign
  rw [field_append, field_cons]
  split at whole
  · rename_i same
    rw [(or_eq_none_iff.mp whole).1, if_pos same, if_pos same.symm]
    rfl
  · rename_i different
    rw [if_neg different, if_neg (Ne.symm different)]
    exact whole

theorem distinct_erase (distinct : doc.Distinct) (name : String) : (doc.erase name).Distinct :=
  distinct.sublist (filter_sublist.map Prod.fst)

theorem distinct_assign (distinct : doc.Distinct) (name : String)
    (value : Value) : (doc.assign name value).Distinct := by
  have others := distinct_erase distinct name
  have absent : name ∉ (doc.erase name).map Prod.fst := by
    rw [← field_eq_none, field_erase, if_pos rfl]
  rw [← takeWhile_append_dropWhile (p := fun entry => decide (entry.1 < name))
    (l := doc.erase name)] at others absent
  unfold Distinct assign at *
  rw [map_append] at others absent
  rw [map_append, map_cons, nodup_middle, nodup_cons]
  exact ⟨absent, others⟩

theorem distinct_foldl_assign {entries : Document} {fields : Document}
    (distinct : fields.Distinct) :
    Distinct (entries.foldl (fun fields entry => fields.assign entry.1 entry.2) fields) := by
  induction entries generalizing fields with
  | nil => exact distinct
  | cons entry rest ih =>
    exact ih (distinct_assign distinct entry.1 entry.2)

theorem distinct_fields (doc : Document) : doc.fields.Distinct :=
  distinct_foldl_assign .nil

theorem field_fields (distinct : doc.Distinct) (name : String) :
    doc.fields.field name = doc.field name := by
  suffices general : ∀ fields : Document,
      field (doc.foldl (fun fields entry => fields.assign entry.1 entry.2) fields)
        name = (doc.field name).or (fields.field name) by
    exact (general []).trans (or_none)
  induction doc with
  | nil => exact fun _ => rfl
  | cons entry rest ih =>
    intro fields
    obtain ⟨absent, distinctRest⟩ := nodup_cons.mp distinct
    rw [foldl_cons, ih distinctRest, field_assign, field_cons]
    by_cases own : entry.1 = name
    · rw [field_eq_none.mpr (own ▸ absent), if_pos own, if_pos own.symm]
      rfl
    · rw [if_neg own, if_neg (Ne.symm own)]

/-! ### Equal values -/

/-- Only the same text is equal to a text. -/
theorem equals_string (value : Value) (text : String) :
    value.equals (.string text) = true ↔ value = .string text := by
  cases value with
  | string other =>
    simp only [Value.equals, Value.isNumeric, Value.compare, Value.compareAlike, Value.sign,
      Value.type, Bool.false_and, Value.string.injEq]
    rcases lt_trichotomy other text with less | rfl | more
    · simp [less, less.ne]
    · simp
    · simp [more, more.ne', not_lt.mpr more.le]
  | other kind bytes =>
    cases kind <;> simp [Value.equals, Value.isNumeric, Value.type, OtherType.typeCode]
  | _ => simp [Value.equals, Value.isNumeric, Value.type]

theorem equals_document (left right : Document) :
    (Value.document left).equals (.document right) = true := rfl

mutual

/-- Values that the store takes for the same are the same, field by field. -/
theorem eq_of_same : ∀ left right : Value, Value.same left right = true → left = right
  | .document left, .document right, same => congrArg _ (eq_of_sameFields left right same)
  | .array left, .array right, same => congrArg _ (eq_of_sameEntries left right same)
  | .int32 _, .int32 _, same | .int64 _, .int64 _, same | .double _, .double _, same
  | .string _, .string _, same | .bool _, .bool _, same | .date _, .date _, same
  | .oid _, .oid _, same => by simpa [Value.same] using same
  | .null, .null, _ => rfl
  | .other _ _, .other _ _, same => by simpa [Value.same] using same
termination_by structural left => left

theorem eq_of_sameField : ∀ left right : String × Value, Value.sameField left right = true →
    left = right
  | (_, value), (_, value'), same => by
    simp only [Value.sameField, Bool.and_eq_true, beq_iff_eq] at same
    rw [same.1, eq_of_same value value' same.2]
termination_by structural left => left

theorem eq_of_sameFields : ∀ left right : List (String × Value),
    Value.sameFields left right = true → left = right
  | [], [], _ => rfl
  | left :: lefts, right :: rights, same => by
    simp only [Value.sameFields, Bool.and_eq_true] at same
    rw [eq_of_sameField left right same.1, eq_of_sameFields lefts rights same.2]
termination_by structural left => left

theorem eq_of_sameEntries : ∀ left right : List Value, Value.sameEntries left right = true →
    left = right
  | [], [], _ => rfl
  | left :: lefts, right :: rights, same => by
    simp only [Value.sameEntries, Bool.and_eq_true] at same
    rw [eq_of_same left right same.1, eq_of_sameEntries lefts rights same.2]
termination_by structural left => left

end

/-! ### One entry of an array -/

/-- The field of an array's entry, if the entry is a document. -/
def Value.field (entry : Value) (name : String) : Option Value :=
  match entry with
  | .document fields => Document.field fields name
  | _ => none

section

variable (subField : String) (value : Value) (fields : Document) (name : String)

theorem field_map_replaced :
    field (fields.map fun field =>
        if field.1 = subField then (subField, value) else field) name =
      (field fields name).map fun stored =>
        if name = subField then value else stored := by
  induction fields with
  | nil => rfl
  | cons entry rest ih =>
    rw [map_cons, field_cons, field_cons, ih]
    by_cases own : entry.1 = subField
    · by_cases same : name = subField
      · simp [own, same]
      · simp [own, same, Ne.symm same]
    · by_cases same : entry.1 = name
      · simp [same, same ▸ own]
      · simp [own, same]

theorem field_replaceField :
    field (replaceField subField value (.document fields)) name =
      if name = subField then some value else field fields name := by
  unfold replaceField
  dsimp only
  split
  · rename_i there
    have mem : subField ∈ fields.map Prod.fst := by simpa using there
    rw [field_map_replaced]
    split
    · rename_i same
      obtain ⟨stored, own⟩ := ne_none_iff_exists'.mp
        (mt field_eq_none.mp (not_not_intro (same ▸ mem)))
      rw [own]
      rfl
    · cases field fields name <;> rfl
  · rename_i missing
    have absent : subField ∉ fields.map Prod.fst := by simpa using missing
    rw [field_append, field_map_replaced, field_cons]
    by_cases same : name = subField
    · rw [same, field_eq_none.mpr absent]
      simp
    · simp only [if_neg same, if_neg (Ne.symm same)]
      cases field fields name <;> rfl

end

/-- Fields of an entry set one after the other. -/
def setEntry (sets : Document) (entry : Value) : Value :=
  sets.foldl (fun entry field => .document (replaceField field.1 field.2 entry)) entry

/-- What is set in an entry is read there, and the rest is as before. -/
theorem field_setEntry (sets : Document) (fields : Document) (name : String) :
    (setEntry sets (.document fields)).field name =
      (Document.field sets.reverse name).or (fields.field name) := by
  induction sets generalizing fields with
  | nil => rfl
  | cons set rest ih =>
    rw [reverse_cons, field_append, Option.or_assoc]
    refine (ih _).trans ?_
    rw [field_replaceField, field_cons]
    by_cases own : name = set.1
    · rw [if_pos own, if_pos own.symm]
      rfl
    · rw [if_neg own, if_neg (Ne.symm own)]
      rfl

theorem setEntry_document (sets : Document) (fields : Document) :
    ∃ written, setEntry sets (.document fields) = .document written := by
  induction sets generalizing fields with
  | nil => exact ⟨fields, rfl⟩
  | cons set rest ih => exact ih _

/-- A positional path rewrites the entry that was found, and no other. -/
theorem positionalArray_eq (entries : List Value) (index : Nat) {subField : String}
    (named : subField ≠ "") (value : Value) :
    positionalArray (.array entries) index subField value =
      .ok (.array (entries.modify index fun entry =>
        .document (replaceField subField value entry))) := by
  have same : (entries.mapIdx fun at_ entry => if at_ ≠ index then entry
      else if subField = "" then value else .document (replaceField subField value entry)) =
      entries.modify index fun entry => .document (replaceField subField value entry) := by
    refine ext_getElem? fun at_ => ?_
    rw [List.getElem?_mapIdx, List.getElem?_modify]
    cases entries[at_]? with
    | none => rfl
    | some entry =>
      by_cases here : index = at_
      · simp [here, named]
      · simp [here, Ne.symm here]
  exact congrArg (fun entries => Except.ok (Value.array entries)) same

/-- The part of a name from `.$` on, where the name is one of an array's entries. -/
theorem splitAtDollar_positional (array rest : List Char) (plain : '.' ∉ array) :
    splitAtDollar (array ++ '.' :: '$' :: rest) = some (array, rest) := by
  induction array with
  | nil => rfl
  | cons first others ih =>
    obtain ⟨different, plainOthers⟩ := not_or.mp (mt mem_cons.mpr plain)
    rw [cons_append, splitAtDollar, ih plainOthers]
    · rfl
    · intro rest' same
      exact fun _ => absurd same.symm different

theorem splitAtDollar_plain {name : List Char} (plain : '.' ∉ name) :
    splitAtDollar name = none := by
  induction name with
  | nil => rfl
  | cons first others ih =>
    obtain ⟨different, plainOthers⟩ := not_or.mp (mt mem_cons.mpr plain)
    rw [splitAtDollar, ih plainOthers]
    · rfl
    · intro rest' same
      exact fun _ => absurd same.symm different

end Euclid.Emd
