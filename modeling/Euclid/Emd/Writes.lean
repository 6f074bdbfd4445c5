/-
This file takes an update apart into its writes, and says what each makes of what is held by name.

An operator of an update writes one field of its body after the other. What a write makes of a
document depends on nothing but what is held under each name, and the document that results has its
fields in the order of their names: two that hold the same are the same.
-/

import Euclid.Emd.Fields
import Mathlib.Data.List.TakeWhile

namespace Euclid.Emd

open List

/-! ### Fields in the order of their names -/

/-- The names of a document go upwards. -/
def Document.Ordered (doc : Document) : Prop := (doc.map Prod.fst).Pairwise (· < ·)

open Document

instance (doc : Document) : Decidable doc.Ordered := inferInstanceAs (Decidable (List.Pairwise _ _))

variable {doc : Document}

theorem Document.Ordered.distinct (ordered : doc.Ordered) : doc.Distinct :=
  ordered.imp fun less => less.ne

theorem ordered_erase (ordered : doc.Ordered) (name : String) : (doc.erase name).Ordered :=
  ordered.sublist (filter_sublist.map Prod.fst)

theorem ordered_assign (ordered : doc.Ordered) (name : String) (value : Value) :
    (doc.assign name value).Ordered := by
  have others := ordered_erase ordered name
  have parts := takeWhile_append_dropWhile (p := fun entry => decide (entry.1 < name))
    (l := doc.erase name)
  have below : ∀ other ∈ ((doc.erase name).takeWhile fun entry => entry.1 < name).map Prod.fst,
      other < name := by
    intro other mem
    obtain ⟨entry, inside, rfl⟩ := mem_map.mp mem
    have less := mem_takeWhile_imp inside
    exact of_decide_eq_true less
  have above : ∀ other ∈ ((doc.erase name).dropWhile fun entry => entry.1 < name).map Prod.fst,
      name < other := by
    intro other mem
    have kept : ∀ entry ∈ doc.erase name, entry.1 ≠ name := fun entry inside =>
      of_decide_eq_true (mem_filter.mp inside).2
    cases rest : (doc.erase name).dropWhile fun entry => entry.1 < name with
    | nil => rw [rest] at mem; nomatch mem
    | cons first others' =>
      have isFirst : first ∈ doc.erase name :=
        (dropWhile_sublist _).subset (rest ▸ mem_cons_self)
      have notBelow :=
        List.head?_dropWhile_not (fun entry : String × Value => decide (entry.1 < name))
        (doc.erase name)
      simp only [rest, List.head?_cons, decide_eq_false_iff_not, not_lt] at notBelow
      have least : name < first.1 := lt_of_le_of_ne notBelow (kept first isFirst).symm
      have upwards : ((first :: others').map Prod.fst).Pairwise (· < ·) :=
        others.sublist ((rest ▸ dropWhile_sublist _).map Prod.fst)
      rw [rest, map_cons] at mem
      rcases mem_cons.mp mem with rfl | later
      · exact least
      · exact least.trans ((pairwise_cons.mp upwards).1 other later)
  unfold Ordered at others
  rw [← parts, map_append, pairwise_append] at others
  unfold Ordered assign
  rw [map_append, map_cons, pairwise_append, pairwise_cons]
  refine ⟨others.1, ⟨above, others.2.1⟩, fun first isBelow second mem => ?_⟩
  rcases mem_cons.mp mem with rfl | later
  · exact below first isBelow
  · exact others.2.2 first isBelow second later

theorem ordered_fields (doc : Document) : doc.fields.Ordered := by
  suffices general : ∀ fields : Document, fields.Ordered →
      Ordered (doc.foldl (fun fields entry => fields.assign entry.1 entry.2) fields) from
    general [] Pairwise.nil
  induction doc with
  | nil => exact fun _ ordered => ordered
  | cons entry rest ih => exact fun fields ordered => ih _ (ordered_assign ordered entry.1 entry.2)

theorem mem_iff_field (distinct : doc.Distinct) (entry : String × Value) :
    entry ∈ doc ↔ doc.field entry.1 = some entry.2 := by
  induction doc with
  | nil => simp [field]
  | cons first rest ih =>
    obtain ⟨absent, distinctRest⟩ := nodup_cons.mp distinct
    rw [mem_cons, ih distinctRest, field_cons]
    by_cases own : first.1 = entry.1
    · rw [if_pos own, Option.some.injEq]
      have elsewhere : field rest entry.1 = none := field_eq_none.mpr (own ▸ absent)
      rw [elsewhere, Prod.ext_iff]
      simp [own, eq_comm]
    · rw [if_neg own, or_iff_right fun same => own (congrArg Prod.fst same.symm)]

/-- The fields of two documents are the same, in whatever order, where the names are distinct and
hold the same. -/
theorem perm_iff {first second : Document} (distinct : second.Distinct) :
    Perm first second ↔ first.Distinct ∧ first.field = second.field := by
  constructor
  · intro perm
    have distinct' : first.Distinct := (perm.map Prod.fst).nodup_iff.mpr distinct
    refine ⟨distinct', funext fun name => Option.ext fun value => ?_⟩
    rw [← mem_iff_field distinct' (name, value), perm.mem_iff, mem_iff_field distinct]
  · rintro ⟨distinct', same⟩
    refine (perm_ext_iff_of_nodup distinct'.of_map distinct.of_map).mpr fun entry => ?_
    rw [mem_iff_field distinct', mem_iff_field distinct, same]

theorem eq_of_ordered {first second : Document} (ordered : first.Ordered)
    (ordered' : second.Ordered)
    (perm : Perm first second) : first = second :=
  perm.eq_of_pairwise (fun _ _ _ _ below above => absurd below above.asymm)
    (pairwise_map.mp ordered) (pairwise_map.mp ordered')

/-! ### The writes of an update -/

def isMatch (env : Env) (filter doc : Document) : Bool :=
  match matchesFilter env doc filter with
  | .ok holds => holds
  | .error _ => false

/-- One field of the body of an operator. -/
structure Write where
  op : String
  name : String
  operand : Value

open Write

/-- What one operator writes. `$setOnInsert` writes only where a document is created. -/
def stageWritten (inserting : Bool) (stage : String × Value) : List Write :=
  match stage.2 with
  | .document body =>
    if stage.1 = "$setOnInsert" ∧ inserting = false then []
    else body.map fun entry => ⟨stage.1, entry.1, entry.2⟩
  | _ => []

def writesOf (inserting : Bool) (update : Document) : List Write :=
  update.flatMap (stageWritten inserting)

/-- What an operator leaves in the field that it names. -/
def Write.leaves (env : Env) (moment : Nat) (write : Write) (existing : Option Value) :
    Option Value :=
  if write.op = "$unset" then none
  else if write.op = "$set" ∨ write.op = "$setOnInsert" then some write.operand
  else if write.op = "$currentDate" then some (.date (env.systemClock moment))
  else if write.op = "$inc" then some (incremented existing write.operand)
  else if write.op = "$push" then some (pushed existing write.operand)
  else some (pulled existing write.operand)

/-- The array a `$set` names one entry of, and the rest of its name. -/
def Write.inArray (write : Write) : Option (String × String) :=
  if write.op = "$set" then
    (splitAtDollar write.name.toList).map fun parts =>
      (String.ofList parts.1, String.ofList (parts.2.drop 1))
  else none

/-- What is held under each name. -/
abbrev Content := String → Option Value

/-- What a write makes of what is held. -/
def Write.onContent (env : Env) (moment : Nat) (doc filter : Document) (content : Content)
    (write : Write) : Content :=
  match write.inArray with
  | some (arrayField, subField) =>
    match positionalIndex env doc filter arrayField, content arrayField with
    | .ok (some index), some (.array entries) =>
      Function.update content arrayField (some (.array (entries.modify index fun entry =>
        if subField = "" then write.operand
        else .document (replaceField subField write.operand entry))))
    | _, _ => content
  | none => Function.update content write.name (write.leaves env moment (content write.name))

/-- What an update makes of what a document holds. -/
def contentAfter (env : Env) (moment : Nat) (doc update : Document) (inserting : Bool)
    (filter : Document) : Content :=
  (writesOf inserting update).foldl (onContent env moment doc filter) doc.fields.field

/-- A map and what it holds after some writes. -/
structure Holds (fields : Document) (content : Content) : Prop where
  ordered : fields.Ordered
  holds : fields.field = content

section Applied

variable {env : Env} {moment : Nat} {doc filter fields result : Document} {content : Content}
  (holds : Holds fields content)

include holds in
theorem Holds.assign (name : String) (value : Value) :
    Holds (fields.assign name value) (Function.update content name (some value)) where
  ordered := ordered_assign holds.ordered name value
  holds := by
    funext other
    rw [field_assign, holds.holds, Function.update_apply]

include holds in
theorem Holds.erase (name : String) :
    Holds (fields.erase name) (Function.update content name none) where
  ordered := ordered_erase holds.ordered name
  holds := by
    funext other
    rw [field_erase, holds.holds, Function.update_apply]

theorem Holds.foldlM {applier : Document → String × Value → Except Fault Document} {op : String}
    (each : ∀ {fields content entry next}, Holds fields content → applier fields entry = .ok next →
      Holds next (onContent env moment doc filter content ⟨op, entry.1, entry.2⟩))
    {body : Document} (holds : Holds fields content)
      (applied : body.foldlM applier fields = .ok result) :
    Holds result ((body.map fun entry => ⟨op, entry.1, entry.2⟩).foldl
      (onContent env moment doc filter) content) := by
  induction body generalizing fields content with
  | nil => cases applied; exact holds
  | cons entry rest ih =>
    rw [foldlM_cons] at applied
    obtain ⟨next, wrote, rest⟩ := bind_ok applied
    exact ih (each holds wrote) rest

variable {entry : String × Value}

theorem Holds.topLevelField {op : String} {written : Option Value → Value → Value}
    (notSet : op ≠ "$set") (holds : Holds fields content)
    (leaves : ∀ existing, leaves env moment ⟨op, entry.1, entry.2⟩ existing =
      some (written existing entry.2))
    (applied : topLevelField op written fields entry = .ok result) :
    Holds result (onContent env moment doc filter content ⟨op, entry.1, entry.2⟩) := by
  obtain ⟨-, -, wrote⟩ := bind_ok applied
  cases wrote
  rw [onContent, inArray, if_neg notSet]
  rw [leaves, ← holds.holds]
  exact holds.holds ▸ holds.assign _ _

/-- What is set in one entry of an array changes it at its place. -/
theorem positionalArray_ok {existing array value : Value} {index : Nat} {subField : String}
    (set : positionalArray existing index subField value = .ok array) :
    ∃ entries, existing = .array entries ∧ array = .array (entries.modify index fun entry =>
      if subField = "" then value else .document (replaceField subField value entry)) := by
  cases existing with
  | array entries =>
    cases set
    refine ⟨entries, rfl, congrArg Value.array (ext_getElem? fun at_ => ?_)⟩
    rw [List.getElem?_mapIdx, List.getElem?_modify]
    by_cases here : index = at_
    · simp [here]
    · simp [here, Ne.symm here]
  | _ => cases set

include holds in
theorem Holds.setField (applied : setField env doc filter fields entry = .ok result) :
    Holds result (onContent env moment doc filter content ⟨"$set", entry.1, entry.2⟩) := by
  unfold Emd.setField at applied
  rw [onContent, inArray, if_pos rfl]
  cases parts : splitAtDollar entry.1.toList with
  | none =>
    rw [parts] at applied
    obtain ⟨-, -, wrote⟩ := bind_ok applied
    cases wrote
    exact holds.assign _ _
  | some parts' =>
    obtain ⟨arrayField, rest⟩ := parts'
    simp only [parts] at applied
    split at applied
    · cases applied
    obtain ⟨index, picked, wrote⟩ := bind_ok applied
    simp only [Option.map_some, picked]
    rw [← holds.holds]
    cases index with
    | none => cases wrote; exact holds.holds ▸ holds
    | some index =>
      cases existing : fields.field (String.ofList arrayField) with
      | none => rw [existing] at wrote; cases wrote; exact holds.holds ▸ holds
      | some value =>
        simp only [existing] at wrote
        obtain ⟨array, set, wrote⟩ := bind_ok wrote
        cases wrote
        obtain ⟨entries, rfl, rfl⟩ := positionalArray_ok set
        exact holds.holds ▸ holds.assign _ _

variable {inserting : Bool}

include holds in
theorem Holds.applyStage {stage : String × Value}
    (applied : applyStage env moment doc filter inserting fields stage = .ok result) :
    Holds result
      ((stageWritten inserting stage).foldl (onContent env moment doc filter) content) := by
  obtain ⟨op, operand⟩ := stage
  unfold Emd.applyStage at applied
  split at applied
  · cases applied
  cases operand with
  | document body =>
    -- The operators that name fields of their own differ in what they leave.
    have onTopLevel {written : Option Value → Value → Value} (notSet : op ≠ "$set")
        (leaves : ∀ name existing operand, leaves env moment ⟨op, name, operand⟩ existing =
          some (written existing operand))
        (applied : body.foldlM (Emd.topLevelField op written) fields = .ok result) :
        Holds result ((body.map fun entry => ⟨op, entry.1, entry.2⟩).foldl
          (onContent env moment doc filter) content) :=
      holds.foldlM (fun held wrote => held.topLevelField notSet (fun _ => leaves ..) wrote) applied
    unfold stageWritten
    dsimp only
    split at applied
    · next isSet =>
      obtain rfl : op = "$set" := isSet
      exact holds.foldlM (fun held wrote => held.setField wrote) applied
    split at applied
    · next notSet isInsert =>
      obtain rfl : op = "$setOnInsert" := isInsert
      cases inserting with
      | true => exact onTopLevel notSet (fun _ _ _ => rfl) applied
      | false => cases applied; exact holds
    next notSet notInsert =>
    rw [if_neg fun both => notInsert both.1]
    split at applied
    · next isDate =>
      obtain rfl : op = "$currentDate" := isDate
      exact onTopLevel notSet (fun _ _ _ => rfl) applied
    split at applied
    · next isInc =>
      obtain rfl : op = "$inc" := isInc
      exact onTopLevel notSet (fun _ _ _ => rfl) applied
    split at applied
    · next isUnset =>
      obtain rfl : op = "$unset" := isUnset
      refine holds.foldlM (fun {_ _ _ next} held wrote => ?_) applied
      cases wrote
      exact held.erase _
    split at applied
    · next isPush =>
      obtain rfl : op = "$push" := isPush
      exact onTopLevel notSet (fun _ _ _ => rfl) applied
    split at applied
    · next isPull =>
      obtain rfl : op = "$pull" := isPull
      exact onTopLevel notSet (fun _ _ _ => rfl) applied
    · cases applied
  | _ => cases applied

/-- An update leaves what its writes make of what the document held, in the order of the names. -/
theorem holds_applyUpdate {update : Document}
    (applied : applyUpdate env moment doc update inserting filter = .ok result) :
    Holds result (contentAfter env moment doc update inserting filter) := by
  suffices general : ∀ {stages fields content}, Holds fields content →
      stages.foldlM (Emd.applyStage env moment doc filter inserting) fields = .ok result →
      Holds result
        ((writesOf inserting stages).foldl (onContent env moment doc filter) content) from
    general ⟨ordered_fields doc, rfl⟩ applied
  intro stages
  induction stages with
  | nil => rintro fields content holds ⟨⟩; exact holds
  | cons stage rest ih =>
    intro fields content holds applied
    rw [foldlM_cons] at applied
    obtain ⟨next, wrote, goesOn⟩ := bind_ok applied
    rw [writesOf, flatMap_cons, foldl_append]
    exact ih (holds.applyStage wrote) goesOn

end Applied

end Euclid.Emd
