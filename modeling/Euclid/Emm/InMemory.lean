/-
This file makes the store in memory what holds the module documents, and proves what its updates
do to the instances of a module.

A positional update sets its fields in the one entry the filter names, and a push appends. A
pull compares an entry with its operand as whole values, and any two documents compare as
equal, so it takes out every instance: the store takes an instance out as a database does only
where the module has no other.
-/

import Euclid.Emm.Records

namespace Euclid.Emm

open Emd List Option Bool Collection Value

/-! ### The store as what holds the modules -/

def findOne (env : Env) (filter : Document) (target : Collection) :
    Except Fault (Option Document) :=
  (firstMatch env filter [] target.documents).map fun place => place.map Place.document

/-- A collection of the store, and how many calls have been made on it. -/
def emd (env : Env) : Backend where
  State := Nat × Collection
  findOne filter state := findOne env filter state.2
  updateOne filter update upsert state :=
    (state.2.updateOne env state.1 filter update upsert).map fun answer =>
      (answer.1, (state.1 + 1, answer.2))

def named (name : String) (doc : Document) : Bool :=
  match doc.field "name" with
  | some (.string own) => decide (own = name)
  | _ => false

/-- A collection of module documents, each with a name of its own, under the index that keeps names
apart. -/
structure Sound (target : Collection) : Prop where
  modules : ∀ doc ∈ target.documents, doc.Distinct ∧ ∃ name, IsModule name doc
  names : target.documents.Pairwise fun first second => first.field "name" ≠ second.field "name"
  keys : ∀ keys ∈ target.uniqueKeys, keys = ["name"]

variable {name : String}

theorem IsModule.named_iff {other : String} {doc : Document}
    (own : IsModule name doc) : named other doc = decide (name = other) := by
  unfold named
  rw [own.name]

/-! ### Matching -/

theorem firstMatch_cases {env : Env} {filter : Document}
    {selects : Document → Bool} (docs before : List Document) (agree : ∀ doc ∈ docs,
      matchesFilter env doc filter = .ok (selects doc)) :
    ((∀ doc ∈ docs, selects doc = false) ∧ firstMatch env filter before docs = .ok none) ∨
      ∃ earlier doc later, docs = earlier ++ doc :: later ∧ selects doc ∧
        firstMatch env filter before docs = .ok (some ⟨before ++ earlier, doc, later⟩) := by
  induction docs generalizing before with
  | nil => exact .inl ⟨nofun, rfl⟩
  | cons doc rest ih =>
    have first := agree doc (.head _)
    unfold firstMatch
    rw [first]
    cases selected : selects doc with
    | true => exact .inr ⟨[], doc, rest, rfl, selected, by rw [append_nil]⟩
    | false =>
      rcases ih (before ++ [doc]) (fun other mem => agree other (.tail _ mem)) with
        ⟨none, missed⟩ | ⟨earlier, found, later, split, own, matched⟩
      · exact .inl ⟨forall_mem_cons.mpr ⟨selected, none⟩, missed⟩
      · refine .inr ⟨doc :: earlier, found, later, by rw [split]; rfl, own, ?_⟩
        rw [matched, append_assoc]
        rfl

section Matching

variable (env : Env) {name : String} {doc : Document}

theorem string_equals (left right : String) :
    (string left).equals (.string right) = decide (left = right) := by
  rw [Bool.eq_iff_iff, equals_string, decide_eq_true_eq, string.injEq]

theorem matches_name (own : IsModule name doc) (other : String) :
    matchesEntry env doc ("name", .string other) = .ok (decide (name = other)) := by
  have scalar : (string other).IsScalar := trivial
  rw [matchesEntry_of_scalar env scalar (by decide) (by decide), own.name,
    any_some, string_equals]

theorem matches_nameFilter (own : IsModule name doc) (other : String) :
    matchesFilter env doc (nameFilter other) = .ok (named other doc) := by
  rw [own.named_iff, nameFilter, matchesFilter, matches_name env own]
  cases decide (name = other) <;> rfl

/-- The module has an instance among its entries. -/
def hasInstance (instanceId : String) (doc : Document) : Bool :=
  (entriesOf (doc.field "instances")).any fun entry => idOf entry = some instanceId

theorem satisfies_id {instanceId : String} {fields : Document} :
    satisfied (fields.field "instanceId").toList (fun value => value.equals (.string instanceId)) =
      decide (idOf (.document fields) = some instanceId) := by
  rw [Bool.eq_iff_iff, decide_eq_true_eq]
  change _ ↔ (match fields.field "instanceId" with
    | some (.string own) => some own
    | _ => none) = some instanceId
  cases fields.field "instanceId" with
  | none => exact ⟨nofun, nofun⟩
  | some value =>
    rw [toList_some, satisfied, any_cons, any_nil, Bool.or_false, equals_string]
    cases value <;> simp

theorem valuesAt_instances (own : IsModule name doc) (instanceId : String) :
    satisfied (valuesAt doc "instances.instanceId")
        (fun value => value.equals (.string instanceId)) = hasInstance instanceId doc := by
  have path : pathParts "instances.instanceId" = ["instances", "instanceId"] := by decide
  unfold valuesAt hasInstance
  rw [path, resolve]
  swap
  · rintro ⟨⟩
  cases held : doc.field "instances" with
  | none => rfl
  | some value =>
    obtain ⟨entries, rfl⟩ := own.array value held
    dsimp only [entriesOf, satisfied]
    rw [any_flatMap]
    refine any_congr rfl fun entry => ?_
    cases entry with
    | document fields => exact satisfies_id
    | _ => rfl

theorem matches_instanceFilter (own : IsModule name doc) (other instanceId : String) :
    matchesFilter env doc (instanceFilter other instanceId) =
      .ok (named other doc && hasInstance instanceId doc) := by
  have second : matchesEntry env doc
      ("instances.instanceId", .string instanceId) = .ok (hasInstance instanceId doc) := by
    rw [← valuesAt_instances own]
    rfl
  rw [own.named_iff, instanceFilter, matchesFilter, matches_name env own]
  cases decide (name = other) with
  | false => rfl
  | true =>
    rw [matchesFilter]
    rw [second]
    cases hasInstance instanceId doc <;> rfl

end Matching

/-! ### Updates of one document -/

variable {fields : Document} {entries : List Value}

section Applying

variable (env : Env) (doc filter : Document)

theorem foldlM_plain (plain : Document) (isPlain : ∀ name ∈ plain.map Prod.fst, '.' ∉ name.toList)
    (distinct : fields.Distinct) :
    ∃ written : Document, plain.foldlM (setField env doc filter) fields = .ok written ∧
      written.Distinct ∧ ∀ name, written.field name =
        (Document.field plain.reverse name).or (fields.field name) := by
  induction plain generalizing fields with
  | nil => exact ⟨fields, rfl, distinct, fun _ => rfl⟩
  | cons entry rest ih =>
    have top := isPlain entry.1 (.head _)
    have set : setField env doc filter fields entry = .ok (fields.assign entry.1 entry.2) := by
      unfold setField
      rw [splitAtDollar_plain top]
      rw [requireTopLevel, if_neg top]
      rfl
    obtain ⟨written, applied, kept, held⟩ := ih
      (fun name mem => isPlain name (.tail _ mem))
      (distinct_assign distinct entry.1 entry.2)
    refine ⟨written, ?_, kept, fun name => ?_⟩
    · rw [foldlM_cons, set]
      exact applied
    · rw [held, reverse_cons, field_append, Option.or_assoc, field_assign, field_cons]
      by_cases own : name = entry.1
      · rw [if_pos own, if_pos own.symm]
        rfl
      · rw [if_neg own, if_neg (Ne.symm own)]
        rfl

/-- Setting fields of the entry at an index changes that entry alone. -/
theorem foldlM_positional {env : Env} {doc filter : Document} {index : Nat}
    (found : positionalIndex env doc filter
      "instances" = .ok (some index)) (sets : Document) (isNamed : ∀ field ∈ sets, field.1 ≠ "")
    (distinct : fields.Distinct) (array : fields.field "instances" = some (.array entries)) :
    ∃ written : Document, (sets.map positional).foldlM (setField env doc filter)
        fields = .ok written ∧ written.Distinct ∧
      written.field "instances" = some (.array (entries.modify index (setEntry sets))) ∧
      ∀ name, name ≠ "instances" → written.field name = fields.field name := by
  induction sets generalizing fields entries with
  | nil =>
    refine ⟨fields, rfl, distinct, ?_, fun _ _ => rfl⟩
    rw [array]
    congr 2
    refine ext_getElem? fun at_ => ?_
    rw [List.getElem?_modify]
    cases entries[at_]? with
    | none => rfl
    | some entry => by_cases here : index = at_ <;> simp [here, setEntry]
  | cons entry rest ih =>
    have own := isNamed entry (.head _)
    have set : setField env doc filter fields (positional entry) =
        .ok (fields.assign "instances" (.array (entries.modify index fun value =>
          .document (replaceField entry.1 entry.2 value)))) := by
      have split : splitAtDollar (positional entry).1.toList =
          some ("instances".toList, '.' :: entry.1.toList) := by
        rw [positional, String.toList_append]
        exact splitAtDollar_positional "instances".toList ('.' :: entry.1.toList) (by decide)
      unfold setField
      rw [split]
      dsimp only
      rw [if_neg (by simp), String.ofList_toList, found]
      simp only [bind, Except.bind, array, drop_succ_cons, drop_zero,
        String.ofList_toList, positionalArray_eq entries index own]
      rfl
    obtain ⟨written, applied, kept, changed, others⟩ := ih
      (fun field mem => isNamed field (.tail _ mem))
      (distinct_assign distinct "instances" _) ((field_assign _ _ _ _).trans (if_pos rfl))
    refine ⟨written, ?_, kept, ?_, fun name other => ?_⟩
    · rw [map_cons, foldlM_cons, set]
      exact applied
    · rw [changed, modify_modify_eq]
      rfl
    · rw [others name other, field_assign, if_neg other]

theorem applyStage_set (moment : Nat) (inserting : Bool) (fields body : Document) :
    applyStage env moment doc filter inserting fields ("$set", .document body) =
      body.foldlM (setField env doc filter) fields := by
  have dollar : ¬¬beginsWith "$" "$set" = true := by decide
  rw [applyStage, if_neg (by exact dollar)]
  simp only [getDocument, bind, Except.bind, if_true]

theorem stampModified_ok (moment : Nat) (inserting : Bool) (distinct : fields.Distinct) :
    ∃ written : Document, applyStage env moment doc filter inserting fields
        stampModified = .ok written ∧ written.Distinct ∧
      ∀ name, name ≠ "modified" → written.field name = fields.field name :=
  ⟨fields.assign "modified" (.date (env.systemClock moment)), rfl,
    distinct_assign distinct _ _, fun name other => by rw [field_assign, if_neg other]⟩

end Applying

/-! ### The entry a filter names -/

theorem satisfiesEach_id (env : Env) (instanceId : String) (fields : Document) :
    satisfiesEach env fields [("instanceId", .string instanceId)] =
      .ok (decide (idOf (.document fields) = some instanceId)) := by
  have read : matchesCondition env (valuesAt fields "instanceId") (.string instanceId) =
      .ok (decide (idOf (.document fields) = some instanceId)) := by
    rw [← satisfies_id]
    rfl
  unfold satisfiesEach
  rw [read]
  cases decide (idOf (.document fields) = some instanceId) <;> rfl

theorem indexIn_id (env : Env) (instanceId : String)
    (start : Nat) (docs : ∀ entry ∈ entries, ∃ fields, entry = .document fields)
    (has : ∃ entry ∈ entries, idOf entry = some instanceId) :
    ∃ index entry, indexIn env [("instanceId", .string instanceId)] start entries =
      .ok (some (start + index)) ∧ entries[index]? = some entry ∧ idOf entry = some instanceId := by
  induction entries generalizing start with
  | nil =>
    obtain ⟨entry, none, _⟩ := has
    cases none
  | cons entry rest ih =>
    obtain ⟨fields, rfl⟩ := docs entry (.head _)
    unfold indexIn
    rw [satisfiesEach_id]
    by_cases own : idOf (.document fields) = some instanceId
    · exact ⟨0, .document fields, by simp [own], rfl, own⟩
    · have later : ∃ entry ∈ rest, idOf entry = some instanceId := by
        obtain ⟨entry, mem, is⟩ := has
        rcases mem_cons.mp mem with rfl | inRest
        · exact absurd is own
        · exact ⟨entry, inRest, is⟩
      obtain ⟨index, found, indexed, at_, is⟩ := ih (start + 1)
        (fun entry mem => docs entry (.tail _ mem)) later
      refine ⟨index + 1, found, ?_, at_, is⟩
      rw [decide_eq_false own]
      exact indexed.trans (by rw [Nat.add_assoc, Nat.add_comm 1])

variable {instanceId : String}

theorem positionalIndex_instances (env : Env) {doc : Document}
    (own : IsModule name doc) (other : String) (has : hasInstance instanceId doc) :
    ∃ entries index entry, doc.field "instances" = some (.array entries) ∧
      positionalIndex env doc (instanceFilter other instanceId) "instances" =
        .ok (some index) ∧ entries[index]? = some entry ∧ idOf entry = some instanceId := by
  have conditions : conditionsOn "instances" (instanceFilter other instanceId) =
      [("instanceId", .string instanceId)] := by
    have first : beginsWith ("instances" ++ ".") "name" = false := by decide
    have second : beginsWith ("instances" ++ ".") "instances.instanceId" = true := by decide
    have rest : String.ofList ("instances.instanceId".toList.drop ("instances" ++ ".").length) =
        "instanceId" := by decide
    unfold conditionsOn instanceFilter
    rw [filter_cons_of_neg (by rw [first]; exact false_ne_true),
      filter_cons_of_pos (by exact second), filter_nil, map_singleton, rest]
  unfold hasInstance at has
  unfold positionalIndex
  have records := own.instances
  cases held : doc.field "instances" with
  | none =>
    rw [held] at has
    cases has
  | some value =>
    obtain ⟨entries, rfl⟩ := own.array value held
    rw [held] at has records
    obtain ⟨index, entry, found, at_, is⟩ := indexIn_id env instanceId 0 records.documents
      (by simpa [entriesOf] using has)
    refine ⟨entries, index, entry, rfl, ?_, at_, is⟩
    rw [Nat.zero_add] at found
    dsimp only
    rw [conditions]
    exact found

theorem setOn_modify (records : AreInstances entries)
    {index : Nat} {entry : Value} (at_ : entries[index]? = some entry)
    (is : idOf entry = some instanceId) (sets : Document) :
    List.Forall₂ (SetOn instanceId sets) entries (entries.modify index (setEntry sets)) := by
  rw [forall₂_iff_get]
  refine ⟨(length_modify ..).symm, fun place bound _ => ?_⟩
  rw [get_eq_getElem, get_eq_getElem, getElem_modify]
  obtain ⟨within, here⟩ := List.getElem?_eq_some_iff.mp at_
  by_cases same : index = place
  · subst same
    rw [if_pos rfl, here, SetOn, if_pos is]
    obtain ⟨fields, rfl⟩ := records.documents entry (mem_of_getElem? at_)
    exact ⟨setEntry_document sets fields, field_setEntry sets fields⟩
  · have different : idOf entries[place] ≠ some instanceId := by
      intro also
      have indexWithin : index < (entries.map idOf).length := by simpa using within
      have placeWithin : place < (entries.map idOf).length := by simpa using bound
      have ids : (entries.map idOf)[index] = (entries.map idOf)[place] := by
        rw [getElem_map, getElem_map, here, is, also]
      exact same (records.distinct.getElem_inj_iff.mp ids)
    rw [if_neg same, SetOn, if_neg different]

theorem AreInstances.setOn {sets : Document} {olds news : List Value}
    (records : AreInstances olds) (keeps : KeepsId instanceId sets)
    (set : List.Forall₂ (SetOn instanceId sets) olds news) : AreInstances news := by
  have ids := map_idOf_of_forall₂ keeps set
  refine ⟨?_, ?_, ids ▸ records.distinct⟩
  · have docs := records.documents
    clear records ids
    induction set with
    | nil => exact nofun
    | @cons old new _ _ first _ ih =>
      obtain ⟨own, others⟩ := forall_mem_cons.mp docs
      refine forall_mem_cons.mpr ⟨?_, ih others⟩
      by_cases is : idOf old = some instanceId
      · rw [SetOn, if_pos is] at first
        exact first.1
      · rw [first.other is]
        exact own
  · intro entry mem
    have there : idOf entry ∈ olds.map idOf := ids ▸ mem_map_of_mem mem
    obtain ⟨old, inOld, same⟩ := mem_map.mp there
    exact same ▸ records.identified old inOld

/-! ### The collection -/

section Collections

variable {env : Env} {moment : Nat} {target : Collection} {name : String} {place : Place}

theorem mem_of_place (split : target.documents = place.before ++ place.document :: place.after) :
    place.document ∈ target.documents := by
  rw [split]
  exact mem_append_right _ (.head _)

/-- The entries of the first document with a name. -/
def heldIn (docs : List Document) (name : String) : Option (List Value) :=
  (docs.find? (named name)).map fun doc => entriesOf (doc.field "instances")

variable {doc : Document}

theorem Sound.isModule (sound : Sound target)
    (mem : doc ∈ target.documents) (own : named name doc) : IsModule name doc := by
  obtain ⟨other, is⟩ := (sound.modules doc mem).2
  rw [is.named_iff, decide_eq_true_eq] at own
  exact own ▸ is

variable {before : List Document} {after : List Document}

theorem Sound.named_other (sound : Sound target) (split : target.documents = before ++ doc :: after)
    (own : named name doc) : ∀ other ∈ before ++ after, named name other = false := by
  intro other mem
  have among : other ∈ target.documents := by
    rw [split]
    rcases mem_append.mp mem with early | late
    · exact mem_append_left _ early
    · exact mem_append_right _ (.tail _ late)
  have here : doc ∈ target.documents := by
    rw [split]
    exact mem_append_right _ (.head _)
  by_contra also
  have names := sound.names
  rw [split] at names
  have apart : other.field "name" ≠ doc.field "name" := by
    obtain ⟨_, rest, across⟩ := pairwise_append.mp names
    rcases mem_append.mp mem with early | late
    · exact across other early doc (.head _)
    · exact ((pairwise_cons.mp rest).1 other late).symm
  exact apart ((sound.isModule among (by simpa using also)).name.trans
    (sound.isModule here own).name.symm)

variable {written : Document}

theorem find_replaced (others : ∀ other ∈ before ++ after, named name other = false)
    (own : IsModule name doc) (is : IsModule name written) (other : String) :
    (before ++ written :: after).find? (named other) =
      if other = name then some written else (before ++ doc :: after).find? (named other) := by
  rw [List.find?_append, List.find?_append, List.find?_cons, List.find?_cons, own.named_iff,
    is.named_iff]
  by_cases same : other = name
  · subst same
    have early : before.find? (named other) = none := List.find?_eq_none.mpr fun early mem => by
      rw [others early (mem_append_left _ mem)]
      exact false_ne_true
    rw [early, decide_eq_true rfl, if_pos rfl]
    rfl
  · rw [decide_eq_false (Ne.symm same), if_neg same]

theorem checkUnique_names {others : List Document}
    (apart : ∀ other ∈ others, ∃ own, IsModule own other ∧ own ≠ name) (is : IsModule name written)
    {uniqueKeys : List (List String)} (keys : ∀ keys ∈ uniqueKeys, keys = ["name"]) :
    checkUnique env others written uniqueKeys = .ok () := by
  have filter : keyFilter written ["name"] = some (nameFilter name) := by
    have values : valuesAt written "name" = [.string name] := by
      have path : pathParts "name" = ["name"] := by decide
      rw [valuesAt, path, resolve, is.name]
      rfl
    rw [keyFilter, values]
    rfl
  have none : checkKey env ["name"] (nameFilter name) others = .ok () := by
    clear is filter
    induction others with
    | nil => rfl
    | cons other rest ih =>
      obtain ⟨own, module, different⟩ := apart other (.head _)
      rw [checkKey, matches_nameFilter env module, module.named_iff, decide_eq_false different]
      exact ih fun other mem => apart other (.tail _ mem)
  induction uniqueKeys with
  | nil => rfl
  | cons first rest ih =>
    rw [checkUnique, keys first (.head _), filter]
    dsimp only
    rw [none]
    exact ih fun other mem => keys other (.tail _ mem)

theorem Sound.others (sound : Sound target)
    (split : target.documents = before ++ doc :: after) (own : named name doc) :
    ∀ other ∈ before ++ after, ∃ another, IsModule another other ∧ another ≠ name := by
  intro other mem
  have among : other ∈ target.documents := by
    rw [split]
    exact perm_middle.mem_iff.mpr (.tail _ mem)
  obtain ⟨another, is⟩ := (sound.modules other among).2
  refine ⟨another, is, fun same => ?_⟩
  have different := sound.named_other split own other mem
  rw [is.named_iff, decide_eq_false_iff_not] at different
  exact different same

theorem rewriteIfChanged_ok (env : Env) (sound : Sound target)
    (split : target.documents = place.before ++ place.document :: place.after)
    (own : named name place.document) (is : IsModule name written) :
    ∃ result, target.rewriteIfChanged env place written =
      .ok (result, target.replaceAt place written) ∧ result.matched = 1 := by
  unfold rewriteIfChanged
  split
  · rename_i same
    have kept : place.document = written := eq_of_sameFields _ _ same
    have stays : target.replaceAt place written = target := by
      unfold replaceAt
      rw [← kept, ← split]
    rw [stays]
    exact ⟨⟨1, 0, none⟩, rfl, rfl⟩
  · unfold rewrite
    rw [checkUnique_names (sound.others split own) is sound.keys]
    exact ⟨⟨1, 1, none⟩, rfl, rfl⟩

/-- Replacing the document of a module keeps the collection sound, and changes what that module
holds. -/
theorem Sound.replaced (sound : Sound target)
    (split : target.documents = place.before ++ place.document :: place.after)
    (own : named name place.document) (distinct : written.Distinct)
    (is : IsModule name written) : Sound (target.replaceAt place written) ∧
      ∀ other, heldIn (target.replaceAt place written).documents other =
        if other = name then some (entriesOf (written.field "instances"))
        else heldIn target.documents other := by
  have before := sound.isModule (mem_of_place split) own
  refine ⟨⟨?_, ?_, sound.keys⟩, fun other => ?_⟩
  · intro doc mem
    rcases mem_cons.mp (perm_middle.mem_iff.mp mem) with rfl | elsewhere
    · exact ⟨distinct, name, is⟩
    · refine sound.modules doc ?_
      rw [split]
      exact perm_middle.mem_iff.mpr (.tail _ elsewhere)
  · have names := sound.names
    rw [split, pairwise_middle (fun apart => Ne.symm apart), pairwise_cons] at names
    unfold replaceAt
    rw [pairwise_middle (fun apart => Ne.symm apart), pairwise_cons]
    refine ⟨fun other mem => ?_, names.2⟩
    rw [is.name, ← before.name]
    exact names.1 other mem
  · unfold heldIn replaceAt
    rw [find_replaced (sound.named_other split own) before is, split]
    split <;> rfl

/-- The document of a new module keeps the collection sound, and is all that comes to it. -/
theorem Sound.created (env : Env) (sound : Sound target) (new : ∀ other ∈ target.documents,
      named name other = false) (distinct : written.Distinct) (is : IsModule name written) :
    target.create env written = .ok (target.append written) ∧
      Sound (target.append written) ∧
      ∀ other, heldIn (target.append written).documents other =
        if other = name then some (entriesOf (written.field "instances"))
        else heldIn target.documents other := by
  have apart : ∀ other ∈ target.documents, ∃ own, IsModule own other ∧ own ≠ name := by
    intro other mem
    obtain ⟨own, module⟩ := (sound.modules other mem).2
    have different := new other mem
    rw [module.named_iff, decide_eq_false_iff_not] at different
    exact ⟨own, module, different⟩
  refine ⟨?_, ⟨?_, ?_, sound.keys⟩, fun other => ?_⟩
  · unfold create
    rw [checkUnique_names apart is sound.keys]
    rfl
  · intro doc mem
    rcases mem_append.mp mem with old | last
    · exact sound.modules doc old
    · rw [mem_singleton.mp last]
      exact ⟨distinct, name, is⟩
  · refine pairwise_append.mpr ⟨sound.names, pairwise_singleton _ _, ?_⟩
    intro other mem last isLast
    obtain ⟨own, module, different⟩ := apart other mem
    rw [mem_singleton.mp isLast, is.name, module.name]
    simpa using different
  · unfold heldIn append
    rw [List.find?_append, List.find?_cons, List.find?_nil, is.named_iff]
    by_cases same : other = name
    · subst same
      have none : target.documents.find? (named other) = none :=
        List.find?_eq_none.mpr fun doc mem => by
          rw [new doc mem]
          exact false_ne_true
      rw [none, decide_eq_true rfl, if_pos rfl]
      rfl
    · rw [decide_eq_false (Ne.symm same), if_neg same]
      exact congrArg _ or_none

theorem Sound.firstMatch_name (sound : Sound target) (env : Env) (name : String) :
    ((∀ doc ∈ target.documents, named name doc = false) ∧
        firstMatch env (nameFilter name) [] target.documents = .ok none) ∨
      ∃ place : Place, target.documents = place.before ++ place.document :: place.after ∧
        named name place.document ∧
        firstMatch env (nameFilter name) [] target.documents = .ok (some place) := by
  rcases firstMatch_cases target.documents [] fun doc mem => by
    obtain ⟨own, is⟩ := (sound.modules doc mem).2
    exact matches_nameFilter env is name with
    ⟨none, missed⟩ | ⟨earlier, doc, later, split, own, found⟩
  · exact .inl ⟨none, missed⟩
  · exact .inr ⟨⟨earlier, doc, later⟩, split, own, found⟩

theorem heldIn_of_none (absent : ∀ doc ∈ target.documents, named name doc = false) :
    heldIn target.documents name = none := by
  unfold heldIn
  rw [List.find?_eq_none.mpr fun doc mem => by
    rw [absent doc mem]
    exact false_ne_true]
  rfl

theorem Sound.heldIn_of_place (sound : Sound target)
    (split : target.documents = place.before ++ place.document :: place.after)
    (own : named name place.document) :
    heldIn target.documents name = some (entriesOf (place.document.field "instances")) := by
  have is := sound.isModule (mem_of_place split) own
  have found := find_replaced (sound.named_other split own) is is name
  rw [if_pos rfl] at found
  unfold heldIn
  rw [split, found]
  rfl

end Collections

section Reading

variable (env : Env) (moment : Nat) {target : Collection}

theorem held_emd (sound : Sound target) :
    (emd env).held (moment, target) = heldIn target.documents := by
  funext name
  unfold Backend.held emd
  dsimp only
  unfold findOne
  rcases sound.firstMatch_name env name with ⟨none, missed⟩ | ⟨place, split, own, found⟩
  · rw [missed, heldIn_of_none none]
    rfl
  · rw [found, sound.heldIn_of_place split own]
    rfl

theorem readable_emd (sound : Sound target) : (emd env).Readable (moment, target) := by
  intro name
  change ∃ answer, findOne env (nameFilter name) target = .ok answer ∧ _
  unfold findOne
  rcases sound.firstMatch_name env name with ⟨_, missed⟩ | ⟨place, split, own, found⟩
  · rw [missed]
    exact ⟨none, rfl, nofun⟩
  · rw [found]
    refine ⟨some place.document, rfl, ?_⟩
    rintro doc ⟨⟩
    exact sound.isModule (mem_of_place split) own

end Reading

/-! ### Each update -/

section Updating

variable {env : Env} {name instanceId : String}

theorem plain_reverse (absent : name ∉ fields.map Prod.fst) :
    Document.field fields.reverse name = none := by
  rw [field_eq_none, map_reverse, mem_reverse]
  exact absent

variable {doc : Document}

/-- Setting fields of a module and of the instance the filter names, on the module's document. -/
theorem applyUpdate_sets (env : Env) (moment : Nat) (distinct : doc.Distinct)
    (own : IsModule name doc) (has : hasInstance instanceId doc) (other : String)
    {onInstance stamps : Document} (plain : Plain fields)
    (keeps : KeepsId instanceId onInstance) (stamp : stamps = [] ∨ stamps = [stampModified]) :
    ∃ updated, applyUpdate env moment doc
        (("$set", .document (fields ++ onInstance.map positional)) :: stamps) false
        (instanceFilter other instanceId) = .ok updated ∧ updated.Distinct ∧
      IsModule name updated ∧ List.Forall₂ (SetOn instanceId onInstance)
        (entriesOf (doc.field "instances")) (entriesOf (updated.field "instances")) := by
  obtain ⟨entries, index, entry, array, found, at_, is⟩ :=
    positionalIndex_instances env own other has
  obtain ⟨first, setFields, distinctFirst, heldFirst⟩ := foldlM_plain env doc
    (instanceFilter other instanceId) fields
    (fun name mem => (plain name mem).1) (distinct_fields doc)
  have arrayFirst : first.field "instances" = some (.array entries) := by
    rw [heldFirst, plain_reverse fun mem => (plain _ mem).2.2 rfl, field_fields distinct,
      none_or, array]
  have nameFirst : first.field "name" = some (.string name) := by
    rw [heldFirst, plain_reverse fun mem => (plain _ mem).2.1 rfl, field_fields distinct,
      none_or, own.name]
  obtain ⟨second, setOn, distinctSecond, arraySecond, others⟩ := foldlM_positional found onInstance
    (fun field mem => (keeps field mem).1) distinctFirst arrayFirst
  have stage : applyStage env moment doc (instanceFilter other instanceId) false
      doc.fields ("$set", .document (fields ++ onInstance.map positional)) = .ok second := by
    rw [applyStage_set, foldlM_append, setFields]
    exact setOn
  have records := own.instances
  rw [array] at records
  have set := setOn_modify records at_ is onInstance
  have finished : ∃ updated, applyUpdate env moment doc
        (("$set", .document (fields ++ onInstance.map positional)) :: stamps) false
        (instanceFilter other instanceId) = .ok updated ∧ updated.Distinct ∧
      ∀ name, name ≠ "modified" → updated.field name = second.field name := by
    unfold applyUpdate
    rw [foldlM_cons, stage]
    rcases stamp with rfl | rfl
    · exact ⟨second, rfl, distinctSecond, fun _ _ => rfl⟩
    · obtain ⟨updated, stamped, kept, same⟩ := stampModified_ok env doc
        (instanceFilter other instanceId) moment false distinctSecond
      refine ⟨updated, ?_, kept, same⟩
      change (do
        let fields ← applyStage env moment doc (instanceFilter other instanceId) false
          second stampModified
        pure fields) = _
      rw [stamped]
  obtain ⟨updated, applied, kept, same⟩ := finished
  have arrayUpdated : updated.field "instances" =
      some (.array (entries.modify index (setEntry onInstance))) := by
    rw [same _ (by decide), arraySecond]
  refine ⟨updated, applied, kept, ⟨?_, ?_, ?_⟩, ?_⟩
  · rw [same _ (by decide), others _ (by decide), nameFirst]
  · rw [arrayUpdated]
    rintro value ⟨⟩
    exact ⟨_, rfl⟩
  · rw [arrayUpdated]
    exact AreInstances.setOn records keeps set
  · rw [arrayUpdated, array]
    exact set

theorem SetIn.refl {held : String → Option (List Value)} (absent : ¬Has held name instanceId)
    (fields : Document) : SetIn name instanceId fields held held := by
  refine ⟨fun _ _ => rfl, ?_⟩
  cases entries : held name with
  | none => exact .none
  | some entries' =>
    refine .some (forall₂_same.mpr fun entry mem => ?_)
    rw [SetOn, if_neg fun own => absent ⟨entries', entries, entry, mem, own⟩]

theorem Sound.firstMatch_instance {target : Collection} (sound : Sound target)
    (env : Env) (name instanceId : String) :
    (¬Has (heldIn target.documents) name instanceId ∧
        firstMatch env (instanceFilter name instanceId) [] target.documents = .ok none) ∨
      ∃ place : Place, target.documents = place.before ++ place.document :: place.after ∧
        named name place.document ∧ hasInstance instanceId place.document ∧
        firstMatch env (instanceFilter name instanceId) [] target.documents = .ok (some place) := by
  rcases firstMatch_cases target.documents [] fun doc mem => by
    obtain ⟨own, is⟩ := (sound.modules doc mem).2
    exact matches_instanceFilter env is name instanceId with
    ⟨none, missed⟩ | ⟨earlier, doc, later, split, both, found⟩
  · refine .inl ⟨?_, missed⟩
    rintro ⟨entries, held, entry, mem, is⟩
    obtain ⟨doc, first, rfl⟩ := map_eq_some_iff.mp held
    have refused := none doc (mem_of_find?_eq_some first)
    rw [List.find?_some first, Bool.true_and] at refused
    have there : hasInstance instanceId doc := any_eq_true.mpr ⟨entry, mem, by simpa using is⟩
    rw [there] at refused
    cases refused
  · obtain ⟨own, has⟩ := and_eq_true_iff.mp both
    exact .inr ⟨⟨earlier, doc, later⟩, split, own, has, found⟩

variable {state : Nat × Collection} {filter update : Document}

theorem emd_misses (sound : Sound state.2)
    (missed : firstMatch env filter [] state.2.documents = .ok none) :
    ∃ result written, (emd env).updateOne filter update false state = .ok (result, written) ∧
      Sound written.2 ∧ result.matched = 0 ∧ (emd env).held written = (emd env).held state := by
  obtain ⟨moment, target⟩ := state
  change ∃ result written, (target.updateOne env moment filter update false).map
      (fun answer => (answer.1, (moment + 1, answer.2))) = .ok (result, written) ∧ _
  unfold updateOne
  rw [missed]
  exact ⟨_, _, rfl, sound, rfl, (held_emd env _ sound).trans (held_emd env moment sound).symm⟩

theorem emd_rewrites (sound : Sound state.2) {inserting : Bool} {place : Place}
    (split : state.2.documents = place.before ++ place.document :: place.after)
    (own : named name place.document)
    (found : firstMatch env filter [] state.2.documents = .ok (some place)) {updated : Document}
    (applied : applyUpdate env state.1 place.document update false filter = .ok updated)
    (distinct : updated.Distinct) (is : IsModule name updated) :
    ∃ result written, (emd env).updateOne filter update inserting state = .ok (result, written) ∧
      Sound written.2 ∧ result.matched = 1 ∧
      OnlyIn name ((emd env).held state) ((emd env).held written) ∧
      (emd env).held state name = some (entriesOf (place.document.field "instances")) ∧
      (emd env).held written name = some (entriesOf (updated.field "instances")) := by
  obtain ⟨moment, target⟩ := state
  have held := held_emd env moment sound
  change ∃ result written, (target.updateOne env moment filter update inserting).map
      (fun answer => (answer.1, (moment + 1, answer.2))) = .ok (result, written) ∧ _
  obtain ⟨result, rewritten, matched⟩ := rewriteIfChanged_ok env sound split own is
  obtain ⟨kept, changed⟩ := sound.replaced split own distinct is
  unfold updateOne
  rw [found]
  simp only [bind, Except.bind, applied, rewritten, Except.map]
  refine ⟨_, _, rfl, kept, matched, fun other different => ?_, ?_, ?_⟩
  · rw [held, held_emd _ _ kept, changed, if_neg different]
  · rw [held, sound.heldIn_of_place split own]
  · rw [held_emd _ _ kept, changed, if_pos rfl]

theorem emd_sets (sound : Sound state.2) {onInstance stamps : Document} (plain : Plain fields)
    (keeps : KeepsId instanceId onInstance) (stamp : stamps = [] ∨ stamps = [stampModified]) :
    ∃ result written, (emd env).updateOne (instanceFilter name instanceId)
        (("$set", .document (fields ++ onInstance.map positional)) :: stamps) false state =
          .ok (result, written) ∧ Sound written.2 ∧
      (0 < result.matched ↔ Has ((emd env).held state) name instanceId) ∧
      SetIn name instanceId onInstance ((emd env).held state) ((emd env).held written) := by
  obtain ⟨moment, target⟩ := state
  have held := held_emd env moment sound
  rcases sound.firstMatch_instance env name instanceId with ⟨absent, missed⟩ |
    ⟨place, split, own, has, found⟩
  · obtain ⟨result, written, done, kept, matched, same⟩ := emd_misses sound missed
    refine ⟨result, written, done, kept, ?_, ?_⟩
    · rw [held, matched]
      exact ⟨fun positive => absurd positive (Nat.lt_irrefl 0), fun has => absurd has absent⟩
    · rw [same, held]
      exact .refl absent onInstance
  · have is := sound.isModule (mem_of_place split) own
    obtain ⟨updated, applied, distinct, isUpdated, set⟩ := applyUpdate_sets
      env moment (sound.modules _ (mem_of_place split)).1 is has name plain keeps stamp
    obtain ⟨result, written, done, kept, matched, only, was, now⟩ :=
      emd_rewrites sound split own found applied distinct isUpdated
    refine ⟨result, written, done, kept, ?_, only, ?_⟩
    · rw [matched]
      refine ⟨fun _ => ?_, fun _ => Nat.one_pos⟩
      obtain ⟨entry, mem, own'⟩ := any_eq_true.mp has
      exact ⟨_, was, entry, mem, by simpa using own'⟩
    · rw [was, now]
      exact .some set

theorem applyStage_setOnInsert (env : Env) (moment : Nat) (doc filter : Document) (inserting : Bool)
    (distinct : fields.Distinct) (value : Value) :
    ∃ written, applyStage env moment doc filter inserting fields
        ("$setOnInsert", .document [("created", value)]) = .ok written ∧ written.Distinct ∧
      ∀ name, name ≠ "created" → written.field name = fields.field name := by
  have dollar : ¬¬beginsWith "$" "$setOnInsert" = true := by decide
  unfold applyStage
  rw [if_neg (by exact dollar)]
  cases inserting with
  | false =>
    exact ⟨fields, by simp [getDocument, bind, Except.bind], distinct, fun _ _ => rfl⟩
  | true =>
    refine ⟨fields.assign "created" value, ?_, distinct_assign distinct _ _,
      fun name other => by rw [field_assign, if_neg other]⟩
    simp [getDocument, bind, Except.bind, topLevelField, requireTopLevel, pure, Except.pure]

section

variable (moment : Nat) (doc filter : Document) (inserting : Bool) (fields : Document)
  (value : Value)

theorem applyStage_push :
    applyStage env moment doc filter inserting fields ("$push", .document [("instances", value)]) =
      .ok (fields.assign "instances" (pushed (fields.field "instances") value)) := by
  have dollar : ¬¬beginsWith "$" "$push" = true := by decide
  unfold applyStage
  rw [if_neg (by exact dollar)]
  simp [getDocument, bind, Except.bind, topLevelField, requireTopLevel, pure, Except.pure]

theorem applyStage_pull :
    applyStage env moment doc filter inserting fields ("$pull", .document [("instances", value)]) =
      .ok (fields.assign "instances" (pulled (fields.field "instances") value)) := by
  have dollar : ¬¬beginsWith "$" "$pull" = true := by decide
  unfold applyStage
  rw [if_neg (by exact dollar)]
  simp [getDocument, bind, Except.bind, topLevelField, requireTopLevel, pure, Except.pure]

end

theorem applyUpdate_pushes (env : Env) (name : String) (moment : Nat) (filter : Document)
    (inserting : Bool) (distinct : doc.Distinct) (plain : Plain fields)
    (entry : Document) (created : Int64) :
    ∃ updated, applyUpdate env moment doc
        [("$set", .document (("name", .string name) :: fields)),
          ("$setOnInsert", .document [("created", .date created)]),
          ("$push", .document [("instances", .document entry)]), stampModified] inserting filter =
          .ok updated ∧ updated.Distinct ∧ updated.field "name" = some (.string name) ∧
      updated.field "instances" =
        some (.array (entriesOf (doc.field "instances") ++ [.document entry])) := by
  have top : ∀ name ∈ "name" :: fields.map Prod.fst, '.' ∉ name.toList :=
    forall_mem_cons.mpr ⟨(by decide : '.' ∉ "name".toList), fun name mem => (plain name mem).1⟩
  obtain ⟨first, setFields, distinctFirst, heldFirst⟩ := foldlM_plain env doc
    filter (("name", .string name) :: fields) top (distinct_fields doc)
  have nameFirst : first.field "name" = some (.string name) := by
    rw [heldFirst, reverse_cons, field_append, plain_reverse fun mem => (plain _ mem).2.1 rfl]
    rfl
  have arrayFirst : first.field "instances" = doc.field "instances" := by
    rw [heldFirst, reverse_cons, field_append,
      plain_reverse fun mem => (plain _ mem).2.2 rfl, field_fields distinct]
    rfl
  obtain ⟨second, inserted, distinctSecond, sameSecond⟩ := applyStage_setOnInsert
    env moment doc filter inserting distinctFirst (.date created)
  obtain ⟨updated, stamped, distinctUpdated, sameUpdated⟩ := stampModified_ok env
    doc filter moment inserting (distinct_assign distinctSecond "instances"
      (pushed (second.field "instances") (.document entry)))
  refine ⟨updated, ?_, distinctUpdated, ?_, ?_⟩
  · unfold applyUpdate
    simp only [foldlM_cons, foldlM_nil, applyStage_set, setFields, inserted,
      applyStage_push, stamped, bind, Except.bind, pure, Except.pure]
  · rw [sameUpdated _ (by decide), field_assign, if_neg (by decide), sameSecond _ (by decide),
      nameFirst]
  · rw [sameUpdated _ (by decide), field_assign, if_pos rfl, sameSecond _ (by decide), arrayFirst]
    rfl

variable {entry : Document}

theorem AreInstances.append (records : AreInstances entries)
    (own : idOf (.document entry) = some instanceId)
    (absent : ∀ other ∈ entries, idOf other ≠ some instanceId) :
    AreInstances (entries ++ [.document entry]) := by
  refine ⟨?_, ?_, ?_⟩
  · intro other mem
    rcases mem_append.mp mem with old | last
    · exact records.documents other old
    · exact ⟨entry, mem_singleton.mp last⟩
  · intro other mem
    rcases mem_append.mp mem with old | last
    · exact records.identified other old
    · rw [mem_singleton.mp last, own]
      rfl
  · rw [map_append, map_singleton, nodup_append]
    refine ⟨records.distinct, nodup_singleton _, ?_⟩
    intro id mem other last same
    rw [mem_singleton.mp last, own] at same
    obtain ⟨old, inOld, is⟩ := mem_map.mp mem
    exact absent old inOld (is.trans same)

theorem withId_field (doc : Document) (id : Oid) (other : name ≠ "_id") :
    Document.field (withId doc id) name = doc.field name := by
  rw [withId, field_cons, if_neg (Ne.symm other)]
  exact (field_erase doc "_id" name).trans (if_neg other)

theorem withId_distinct (distinct : doc.Distinct) (id : Oid) : (withId doc id).Distinct := by
  refine nodup_cons.mpr ⟨?_, distinct_erase distinct "_id"⟩
  change "_id" ∉ (doc.erase "_id").map Prod.fst
  rw [← field_eq_none, field_erase, if_pos rfl]

theorem emd_pushes (sound : Sound state.2)
    (plain : Plain fields) (own : idOf (.document entry) = some instanceId)
    (absent : ¬Has ((emd env).held state) name instanceId) (created : Int64) :
    ∃ result written, (emd env).updateOne (nameFilter name)
        [("$set", .document (("name", .string name) :: fields)),
          ("$setOnInsert", .document [("created", .date created)]),
          ("$push", .document [("instances", .document entry)]), stampModified] true state =
          .ok (result, written) ∧ Sound written.2 ∧
      OnlyIn name ((emd env).held state) ((emd env).held written) ∧
      (emd env).held written name =
        some (((emd env).held state name).getD [] ++ [.document entry]) := by
  rcases sound.firstMatch_name env name with ⟨none, missed⟩ | ⟨place, split, mine, found⟩
  · have seed : seedFromFilter (nameFilter name) = nameFilter name := by
      have plainName : beginsWith "$" "name" = false ∧ '.' ∉ "name".toList := by decide
      unfold seedFromFilter nameFilter
      rw [filter_cons_of_pos (by simp [plainName, operators]), filter_nil]
    have single : (nameFilter name).Distinct := nodup_singleton _
    obtain ⟨moment, target⟩ := state
    obtain ⟨updated, applied, distinct, named, array⟩ := applyUpdate_pushes env name
      moment [] true single plain entry created
    have arrayCreated : ∀ id, Document.field (withId updated id) "instances" =
        some (.array [.document entry]) := by
      intro id
      rw [withId_field _ _ (by decide), array]
      rfl
    have isCreated : ∀ id, IsModule name (withId updated id) := by
      intro id
      refine ⟨(withId_field _ _ (by decide)).trans named, ?_, ?_⟩
      · rw [arrayCreated]
        rintro value ⟨⟩
        exact ⟨_, rfl⟩
      · rw [arrayCreated]
        have empty : AreInstances [] := ⟨nofun, nofun, .nil⟩
        exact empty.append own nofun
    obtain ⟨created, kept, changed⟩ := sound.created env none
      (withId_distinct distinct (upsertId updated (nameFilter name) (env.freshOid moment)))
      (isCreated _)
    change ∃ result written, (target.updateOne env moment (nameFilter name) _ true).map
      (fun answer => (answer.1, (moment + 1, answer.2))) = .ok (result, written) ∧ _
    unfold updateOne
    rw [missed]
    simp only [bind, Except.bind, if_true, upserted, seed, applied, created, Except.map]
    refine ⟨_, _, rfl, kept, fun other different => ?_, ?_⟩
    · rw [held_emd _ _ kept, held_emd _ _ sound, changed, if_neg different]
    · rw [held_emd _ _ kept, held_emd _ _ sound, changed, if_pos rfl, arrayCreated,
        heldIn_of_none none]
      rfl
  · have is := sound.isModule (mem_of_place split) mine
    have holds := (congrFun (held_emd env state.1 sound) name).trans
      (sound.heldIn_of_place split mine)
    obtain ⟨updated, applied, distinct, named, array⟩ := applyUpdate_pushes env name
      state.1 (nameFilter name) false (sound.modules _ (mem_of_place split)).1 plain
      entry created
    have isUpdated : IsModule name updated := by
      refine ⟨named, ?_, ?_⟩
      · rw [array]
        rintro value ⟨⟩
        exact ⟨_, rfl⟩
      · rw [array]
        exact is.instances.append own fun other mem same => absent ⟨_, holds, other, mem, same⟩
    obtain ⟨result, written, done, kept, _, only, was, now⟩ :=
      emd_rewrites sound split mine found applied distinct isUpdated
    refine ⟨result, written, done, kept, only, ?_⟩
    rw [was, now, array]
    rfl

/-- A pull takes every instance out of a module, whatever id it names. -/
theorem emd_pulls (env : Env) (sound : Sound state.2) (name instanceId : String) :
    ∃ result written, (emd env).updateOne (nameFilter name)
        [("$pull", .document [("instances", .document [("instanceId", .string instanceId)])]),
          stampModified] false state = .ok (result, written) ∧ Sound written.2 ∧
      OnlyIn name ((emd env).held state) ((emd env).held written) ∧
      (emd env).held written name = ((emd env).held state name).map fun _ => [] := by
  rcases sound.firstMatch_name env name with ⟨none, missed⟩ | ⟨place, split, mine, found⟩
  · obtain ⟨result, written, done, kept, _, same⟩ := emd_misses sound missed
    refine ⟨result, written, done, kept, fun _ _ => congrFun same _, ?_⟩
    rw [same, held_emd env state.1 sound, heldIn_of_none none]
    rfl
  · have here := mem_of_place split
    have is := sound.isModule here mine
    have distinct := distinct_fields place.document
    have emptied : pulled (place.document.fields.field "instances")
        (.document [("instanceId", .string instanceId)]) = .array [] := by
      rw [field_fields (sound.modules _ here).1, pulled]
      congr 1
      refine filter_eq_nil_iff.mpr fun entry mem => ?_
      obtain ⟨fields, rfl⟩ := is.instances.documents entry mem
      rw [equals_document]
      exact false_ne_true
    obtain ⟨updated, stamped, distinctUpdated, same⟩ := stampModified_ok env
      place.document (nameFilter name) state.1 false
        (distinct_assign distinct "instances" (.array []))
    have array : updated.field "instances" = some (.array []) := by
      rw [same _ (by decide), field_assign, if_pos rfl]
    have isUpdated : IsModule name updated := by
      refine ⟨?_, ?_, ?_⟩
      · rw [same _ (by decide), field_assign, if_neg (by decide),
          field_fields (sound.modules _ here).1, is.name]
      · rw [array]
        rintro value ⟨⟩
        exact ⟨_, rfl⟩
      · rw [array]
        exact ⟨nofun, nofun, .nil⟩
    have applied : applyUpdate env state.1 place.document
        [("$pull", .document [("instances", .document [("instanceId", .string instanceId)])]),
          stampModified] false (nameFilter name) = .ok updated := by
      unfold applyUpdate
      simp only [foldlM_cons, foldlM_nil, applyStage_pull, emptied, stamped, bind,
        Except.bind, pure, Except.pure]
    obtain ⟨result, written, done, kept, _, only, was, now⟩ :=
      emd_rewrites sound split mine found applied distinctUpdated isUpdated
    refine ⟨result, written, done, kept, only, ?_⟩
    rw [was, now, array]
    rfl

end Updating

end Euclid.Emm
