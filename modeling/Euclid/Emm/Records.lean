/-
This file proves that the records of instances are independent, on whatever holds them as a
document database is documented to: a field set through the positional operator is set in the
one entry the filter names, a push appends, and a pull takes out the entries that meet its
condition. What a call does to the records of a module is then said once for each call, and
what a run does to the ids of a module is their sum.
-/

import Euclid.Emd.Fields
import Euclid.Emm.Repository

namespace Euclid.Emm

open List Option

open Emd (Document Value Fault UpdateResult entriesOf)

/-! ### Module documents -/

def idOf (entry : Value) : Option String :=
  match entry.field "instanceId" with
  | some (.string instanceId) => some instanceId
  | _ => none

/-- Entries that are instances with ids of their own. -/
structure AreInstances (entries : List Value) : Prop where
  documents : ∀ entry ∈ entries, ∃ fields, entry = .document fields
  identified : ∀ entry ∈ entries, (idOf entry).isSome
  distinct : (entries.map idOf).Nodup

/-- The document of a module: its instances, if it has any, have ids of their own. -/
structure IsModule (name : String) (doc : Document) : Prop where
  name : doc.field "name" = some (.string name)
  array : ∀ value ∈ doc.field "instances", ∃ entries, value = .array entries
  instances : AreInstances (entriesOf (doc.field "instances"))

/-! ### What holds the records -/

/-- The entries under `instances` of the module with a name, if there is one. -/
def Backend.held (backend : Backend) (state : backend.State) (name : String) :
    Option (List Value) :=
  match backend.findOne (nameFilter name) state with
  | .ok (some doc) => some (entriesOf (doc.field "instances"))
  | _ => none

def Has (held : String → Option (List Value)) (name instanceId : String) : Prop :=
  ∃ entries ∈ held name, ∃ entry ∈ entries, idOf entry = some instanceId

/-- Fields are set in the entry with an id, and every other entry is as it was. -/
def SetOn (instanceId : String) (fields : Document) (before after : Value) : Prop :=
  if idOf before = some instanceId then
    (∃ written, after = .document written) ∧
      ∀ name, after.field name = (Document.field fields.reverse name).or (before.field name)
  else after = before

/-- Every module but one holds what it held. -/
def OnlyIn (name : String) (before after : String → Option (List Value)) : Prop :=
  ∀ other, other ≠ name → after other = before other

/-- Fields are set on one instance of one module. -/
def SetIn (name instanceId : String) (fields : Document)
    (before after : String → Option (List Value)) : Prop :=
  OnlyIn name before after ∧
    Option.Rel (List.Forall₂ (SetOn instanceId fields)) (before name) (after name)

/-- Fields of a module that are neither its name nor its instances, nor parts of anything. -/
def Plain (fields : Document) : Prop :=
  ∀ name ∈ fields.map Prod.fst, '.' ∉ name.toList ∧ name ≠ "name" ∧ name ≠ "instances"

/-- Fields of an instance with a name each, which leave its id as it is. -/
def KeepsId (instanceId : String) (fields : Document) : Prop :=
  ∀ field ∈ fields, field.1 ≠ "" ∧ (field.1 = "instanceId" → field.2 = .string instanceId)

/-- The documents of the modules are there to be read. -/
def Backend.Readable (backend : Backend) (state : backend.State) : Prop :=
  ∀ name, ∃ answer, backend.findOne (nameFilter name) state = .ok answer ∧
    ∀ doc ∈ answer, IsModule name doc

/-- What holds the records sets fields of one entry, and appends entries. -/
structure Backend.Serves (backend : Backend) (Valid : backend.State → Prop) : Prop where
  readable : ∀ state, Valid state → backend.Readable state
  sets : ∀ state name instanceId fields onInstance stamps, Valid state → Plain fields →
    KeepsId instanceId onInstance → (stamps = [] ∨ stamps = [stampModified]) →
    ∃ result written, backend.updateOne (instanceFilter name instanceId)
        (("$set", .document (fields ++ onInstance.map positional)) :: stamps) false state =
          .ok (result, written) ∧
      Valid written ∧ (0 < result.matched ↔ Has (backend.held state) name instanceId) ∧
      SetIn name instanceId onInstance (backend.held state) (backend.held written)
  pushes : ∀ state name instanceId fields (entry : Document) created, Valid state → Plain fields →
    idOf (.document entry) = some instanceId → ¬Has (backend.held state) name instanceId →
    ∃ result written, backend.updateOne (nameFilter name)
        [("$set", .document (("name", .string name) :: fields)),
          ("$setOnInsert", .document [("created", .date created)]),
          ("$push", .document [("instances", .document entry)]), stampModified] true state =
          .ok (result, written) ∧
      Valid written ∧ OnlyIn name (backend.held state) (backend.held written) ∧
      backend.held written name = some ((backend.held state name).getD [] ++ [.document entry])

/-- Where it is allowed to, what holds the records takes out of an array the entries with an id, and
no other. -/
def Backend.PullsWhere (backend : Backend) (Valid : backend.State → Prop)
    (Allowed : backend.State → String → String → Prop) : Prop :=
  ∀ state name instanceId, Valid state → Allowed state name instanceId →
    ∃ result written, backend.updateOne (nameFilter name)
        [("$pull", .document [("instances", .document [("instanceId", .string instanceId)])]),
          stampModified] false state = .ok (result, written) ∧
      Valid written ∧ OnlyIn name (backend.held state) (backend.held written) ∧
      backend.held written name = (backend.held state name).map fun entries =>
          entries.filter fun entry => idOf entry ≠ some instanceId

/-! ### What each call does -/

/-- What a call does to the records: removing leaves the other instances as they are and in their
order, an upsert sets the fields of one instance or appends it, and leaves what an instance says
of its load, and the others set fields of one instance. -/
def InstanceCall.Does (call : InstanceCall) (before after : String → Option (List Value)) : Prop :=
  match call with
  | .removeInstance name instanceId => OnlyIn name before after ∧
      after name = (before name).map fun entries =>
        entries.filter fun entry => idOf entry ≠ some instanceId
  | .upsertInstance _ module instance_ =>
      SetIn module.name instance_.instanceId instance_.toDocument before after ∧
          Has before module.name instance_.instanceId ∧
          Option.Rel (List.Forall₂ fun old new =>
            ∀ figure ∈ loadFigures, Value.field new figure = Value.field old figure)
            (before module.name) (after module.name) ∨
        ¬Has before module.name instance_.instanceId ∧ OnlyIn module.name before after ∧
          after module.name =
            some ((before module.name).getD [] ++ [.document instance_.toDocument])
  | .assignInstance name instanceId nodeName leaseExpiresAt =>
      SetIn name instanceId (assignmentFields nodeName leaseExpiresAt) before after
  | .reportInstanceLoad now name instanceId utilisation backlog activeHandlers =>
      SetIn name instanceId (loadFields now utilisation backlog activeHandlers) before after
  | .reportBackgroundTasks name instanceId tasks =>
      SetIn name instanceId (taskFields tasks) before after
  | .clearInstanceReports name instanceId => SetIn name instanceId clearedFields before after
  | .reportInstanceFromNode now name instanceId _ host pid httpPort moduleState started =>
      SetIn name instanceId (processFields now host pid httpPort moduleState started) before after ∨
        after = before

open InstanceCall

def idsOf (held : Option (List Value)) : List String := (held.getD []).filterMap idOf

/-- What becomes of the ids of a module over a call. -/
def InstanceCall.idsAfter (name : String) (ids : List String) (call : InstanceCall) : List String :=
  match call with
  | .upsertInstance _ module instance_ =>
    if module.name = name ∧ instance_.instanceId ∉ ids then ids ++ [instance_.instanceId] else ids
  | .removeInstance module instanceId =>
    if module = name then ids.filter fun id => id ≠ instanceId else ids
  | _ => ids

/-! ### Setting fields -/

section Setting

variable {name instanceId : String} {fields : Document} {before after : String →
  Option (List Value)}

theorem SetOn.other {old new : Value} (set : SetOn instanceId fields old new)
    (different : idOf old ≠ some instanceId) : new = old := by
  rwa [SetOn, if_neg different] at set

theorem SetOn.idOf_eq {old new : Value} (keeps : KeepsId instanceId fields)
    (set : SetOn instanceId fields old new) : idOf new = idOf old := by
  by_cases own : idOf old = some instanceId
  · rw [SetOn, if_pos own] at set
    unfold idOf
    rw [set.2 "instanceId"]
    cases named : Document.field fields.reverse "instanceId" with
    | none => rfl
    | some value =>
      obtain ⟨field, found, rfl⟩ := map_eq_some_iff.mp named
      have mem := mem_reverse.mp (mem_of_find?_eq_some found)
      rw [some_or, (keeps field mem).2 (by simpa using List.find?_some found)]
      exact own.symm
  · rw [set.other own]

theorem map_idOf_of_forall₂ {olds news : List Value} (keeps : KeepsId instanceId fields)
    (set : List.Forall₂ (SetOn instanceId fields) olds news) : news.map idOf = olds.map idOf := by
  induction set with
  | nil => rfl
  | cons first _ ih =>
    rw [map_cons, map_cons, first.idOf_eq keeps, ih]

variable (set : SetIn name instanceId fields before after)

include set in
theorem SetIn.eq_of_not_has (absent : ¬Has before name instanceId) : after = before := by
  funext other
  by_cases own : other = name
  · subst own
    have related := set.2
    have different : ∀ olds ∈ before other, ∀ entry ∈ olds, idOf entry ≠ some instanceId :=
      fun olds held entry mem own => absent ⟨olds, held, entry, mem, own⟩
    generalize before other = old at related different ⊢
    generalize after other = new at related ⊢
    cases related with
    | none => rfl
    | some entries =>
      replace different := different _ rfl
      congr 1
      induction entries with
      | nil => rfl
      | cons first _ ih =>
        rw [first.other (different _ (.head _)), ih fun entry mem =>
          different entry (.tail _ mem)]
  · exact set.1 other own

include set in
theorem SetIn.idsOf_eq (keeps : KeepsId instanceId fields) (other : String) :
    idsOf (after other) = idsOf (before other) := by
  by_cases own : other = name
  · subst own
    have related := set.2
    generalize before other = old at related ⊢
    generalize after other = new at related ⊢
    cases related with
    | none => rfl
    | some entries =>
      have ids := congrArg (List.filterMap id) (map_idOf_of_forall₂ keeps entries)
      rwa [filterMap_map, filterMap_map] at ids
  · rw [set.1 other own]

end Setting

theorem rel_mono {First Second : Type} {relates implied : First → Second → Prop}
    {first : Option First} {second : Option Second} (related : Option.Rel relates first second)
    (implies : ∀ one other, relates one other → implied one other) :
    Option.Rel implied first second := by
  cases related with
  | none => exact .none
  | some relates => exact .some (implies _ _ relates)

variable {instanceId : String}

theorem mem_idsOf {held : String → Option (List Value)} {name : String} :
    instanceId ∈ idsOf (held name) ↔ Has held name instanceId := by
  unfold idsOf Has
  cases held name with
  | none => simp
  | some entries => simp [mem_filterMap]

variable {instance_ : ModuleInstance}

theorem toDocument_figure {figure : String}
    (own : figure ∈ loadFigures) : Document.field instance_.toDocument.reverse figure = none := by
  rw [Emd.field_eq_none]
  simp only [loadFigures, mem_cons, not_mem_nil, or_false] at own
  rcases own with rfl | rfl | rfl | rfl <;> simp [ModuleInstance.toDocument]

theorem toDocument_keepsId (instance_ : ModuleInstance) :
    KeepsId instance_.instanceId instance_.toDocument := by
  intro field mem
  simp only [ModuleInstance.toDocument, mem_cons, not_mem_nil, or_false] at mem
  rcases mem with rfl | rfl | rfl | rfl | rfl | rfl | rfl | rfl | rfl | rfl | rfl | rfl <;> simp

variable {fields : Document}

theorem keepsId_of_names (names : List String)
    (own : fields.map Prod.fst = names) (others : ∀ name ∈ names, name ≠ "" ∧ name ≠ "instanceId") :
    KeepsId instanceId fields := by
  intro field mem
  obtain ⟨named, other⟩ := others field.1 (own ▸ mem_map_of_mem mem)
  exact ⟨named, fun same => absurd same other⟩

section Fields

variable (instanceId : String)

theorem clearedFields_keepsId : KeepsId instanceId clearedFields :=
  keepsId_of_names ["backgroundTasks", "utilisation", "backlog"] rfl (by decide)

theorem taskFields_keepsId (tasks : Int64) : KeepsId instanceId (taskFields tasks) :=
  keepsId_of_names ["backgroundTasks"] rfl (by decide)

theorem loadFields_keepsId {now : Int64} {utilisation : UInt64} {backlog activeHandlers : Int64} :
    KeepsId instanceId (loadFields now utilisation backlog activeHandlers) :=
  keepsId_of_names ["utilisation", "backlog", "backgroundTasks", "loadReportedAt"] rfl (by decide)

theorem assignmentFields_keepsId {nodeName : String} {leaseExpiresAt : Int64} :
    KeepsId instanceId (assignmentFields nodeName leaseExpiresAt) :=
  keepsId_of_names ["assignedTo", "leaseExpiresAt"] rfl (by decide)

theorem processFields_keepsId (now : Int64) (host : String) (pid httpPort : Int32)
    (moduleState : ModuleState) (started : Int64) :
    KeepsId instanceId (processFields now host pid httpPort moduleState started) :=
  keepsId_of_names ["host", "pid", "httpPort", "state", "started", "modified"] rfl (by decide)

end Fields

theorem moduleFields_plain {module : Module} : Plain (moduleFields module) := by
  change ∀ name ∈ ["executable", "socketPath", "active", "core", "autoRestart", "maxRestarts",
    "minInstances", "maxInstances", "args"], _
  decide

theorem Plain.append {first second : Document} (plain : Plain first) (alsoPlain : Plain second) :
    Plain (first ++ second) := by
  intro name mem
  rw [map_append] at mem
  rcases mem_append.mp mem with one | other
  · exact plain name one
  · exact alsoPlain name other

/-! ### Every call -/

section Served

variable {backend : Backend} {Valid : backend.State → Prop} {state : backend.State}

theorem update_ok {filter written : Document} {upsert : Bool} {next : backend.State}
    {result : UpdateResult}
    (updated : backend.updateOne filter written upsert state = .ok (result, next)) :
    update backend filter written upsert state = (decide (0 < result.matched), next) := by
  rw [update, updated]

variable (serves : backend.Serves Valid)

include serves in
theorem setOnInstance_does (valid : Valid state) (name instanceId : String)
    (keeps : KeepsId instanceId fields) :
    Valid (setOnInstance backend name instanceId fields state).2 ∧
      SetIn name instanceId fields (backend.held state)
        (backend.held (setOnInstance backend name instanceId fields state).2) := by
  obtain ⟨result, written, updated, kept, _, set⟩ :=
    serves.sets state name instanceId [] fields [] valid nofun keeps (.inl rfl)
  rw [nil_append] at updated
  rw [setOnInstance, update_ok updated]
  exact ⟨kept, set⟩

theorem anyOtherRunning_ok {entries : List Value}
    (docs : ∀ entry ∈ entries, ∃ fields, entry = .document fields) :
    ∃ another, anyOtherRunning instanceId entries = .ok another := by
  induction entries with
  | nil => exact ⟨false, rfl⟩
  | cons entry rest ih =>
    obtain ⟨fields, rfl⟩ := docs entry (.head _)
    unfold anyOtherRunning
    split
    · exact ⟨true, rfl⟩
    · exact ih fun other mem => docs other (.tail _ mem)

include serves

theorem startedFields_ok
    (valid : Valid state) (now : Int64) (module : Module) (instance_ : ModuleInstance) :
    ∃ fields, startedFields backend now module instance_ state = .ok fields ∧ Plain fields := by
  unfold startedFields
  split
  · exact ⟨_, rfl, moduleFields_plain⟩
  · obtain ⟨answer, found, sound⟩ := serves.readable state valid module.name
    have read : ∃ another, anotherRuns instance_.instanceId answer = .ok another := by
      unfold anotherRuns
      split
      · rename_i entries held
        obtain ⟨doc, own, array⟩ := bind_eq_some_iff.mp held
        have records := (sound doc own).instances
        rw [array] at records
        exact anyOtherRunning_ok records.documents
      · exact ⟨false, rfl⟩
    obtain ⟨another, known⟩ := read
    refine ⟨if another then moduleFields module
      else moduleFields module ++ [("lastStartTime", .date now)], ?_, ?_⟩
    · simp only [found, known, bind, Except.bind]
    · split
      · exact moduleFields_plain
      · refine moduleFields_plain.append ?_
        change ∀ name ∈ ["lastStartTime"], _
        decide

theorem upsertInstance_does
    (valid : Valid state) {now : Int64} {module : Module} :
    Valid (upsertInstance backend now module instance_ state) ∧
      (InstanceCall.upsertInstance now module instance_).Does (backend.held state)
        (backend.held (upsertInstance backend now module instance_ state)) := by
  obtain ⟨fields, started, plain⟩ := startedFields_ok serves valid now module instance_
  have keeps := toDocument_keepsId instance_
  obtain ⟨result, written, updated, kept, matched, set⟩ := serves.sets state module.name
    instance_.instanceId fields instance_.toDocument [stampModified] valid plain keeps (.inr rfl)
  unfold upsertInstance
  rw [started]
  dsimp only
  rw [updated]
  dsimp only
  by_cases found : 0 < result.matched
  · rw [if_pos found]
    refine ⟨kept, .inl ⟨set, matched.mp found, ?_⟩⟩
    refine rel_mono set.2 fun olds news entries => entries.imp fun old new setOn figure own => ?_
    by_cases is : idOf old = some instance_.instanceId
    · rw [SetOn, if_pos is] at setOn
      rw [setOn.2, toDocument_figure own, none_or]
    · rw [setOn.other is]
  · rw [if_neg found]
    have absent := mt matched.mpr found
    have same := set.eq_of_not_has absent
    obtain ⟨again, pushed, appended, alsoKept, others, own⟩ := serves.pushes written module.name
      instance_.instanceId fields instance_.toDocument now kept plain rfl (by rwa [same])
    rw [update_ok appended]
    rw [same] at others own
    exact ⟨alsoKept, .inr ⟨absent, others, own⟩⟩

variable {Allowed : backend.State → String → String → Prop} {call : InstanceCall}

theorem run_does (pulls : backend.PullsWhere Valid Allowed) (valid : Valid state)
    (allowed : ∀ name instanceId, call = .removeInstance name instanceId →
      Allowed state name instanceId) :
    Valid (call.run backend state) ∧
      call.Does (backend.held state) (backend.held (call.run backend state)) := by
  cases call with
  | upsertInstance now module instance_ => exact upsertInstance_does serves valid
  | removeInstance name instanceId =>
    obtain ⟨result, written, updated, kept, others, own⟩ :=
      pulls state name instanceId valid (allowed name instanceId rfl)
    have removed : removeInstance backend name instanceId state = written := by
      rw [removeInstance, update_ok updated]
    change Valid (removeInstance backend name instanceId state) ∧ _
    rw [run, removed]
    exact ⟨kept, others, own⟩
  | assignInstance name instanceId nodeName leaseExpiresAt =>
    exact setOnInstance_does serves valid name instanceId (assignmentFields_keepsId _)
  | reportInstanceLoad now name instanceId utilisation backlog activeHandlers =>
    exact setOnInstance_does serves valid name instanceId (loadFields_keepsId _)
  | reportBackgroundTasks name instanceId tasks =>
    exact setOnInstance_does serves valid name instanceId (taskFields_keepsId _ _)
  | clearInstanceReports name instanceId =>
    exact setOnInstance_does serves valid name instanceId (clearedFields_keepsId _)
  | reportInstanceFromNode now name instanceId nodeName host pid httpPort moduleState started =>
    have set := setOnInstance_does serves valid name instanceId
      (processFields_keepsId instanceId now host pid httpPort moduleState started)
    unfold run reportInstanceFromNode Does
    dsimp only
    split
    · exact ⟨valid, .inr rfl⟩
    · split
      · split
        · split
          · exact ⟨valid, .inr rfl⟩
          · exact ⟨set.1, .inl set.2⟩
        · exact ⟨valid, .inr rfl⟩
      · exact ⟨valid, .inr rfl⟩

omit serves

/-! ### Every run -/

/-- The ids of every module after a call are those it had, with the one that is added or without the
one that is taken out. -/
theorem InstanceCall.Does.idsOf_eq
    {before after : String → Option (List Value)} (does : call.Does before after) (name : String) :
    idsOf (after name) = call.idsAfter name (idsOf (before name)) := by
  cases call with
  | upsertInstance now module instance_ =>
    unfold idsAfter
    dsimp only
    rcases does with ⟨set, present, _⟩ | ⟨absent, others, own⟩
    · rw [if_neg, set.idsOf_eq (toDocument_keepsId instance_)]
      rintro ⟨rfl, absent⟩
      exact absent (mem_idsOf.mpr present)
    · by_cases same : module.name = name
      · subst same
        rw [if_pos ⟨rfl, mt mem_idsOf.mp absent⟩, own]
        unfold idsOf
        rw [getD_some, filterMap_append]
        rfl
      · rw [if_neg fun both => same both.1, others name (Ne.symm same)]
  | removeInstance module instanceId =>
    unfold idsAfter
    dsimp only
    obtain ⟨others, own⟩ := does
    by_cases same : module = name
    · subst same
      rw [if_pos rfl, own]
      cases before module with
      | none => rfl
      | some entries =>
        unfold idsOf
        rw [map_some, getD_some, getD_some, filterMap_filter,
          filter_filterMap]
        refine filterMap_congr fun entry _ => ?_
        cases idOf entry with
        | none => rfl
        | some id => by_cases taken : id = instanceId <;> simp [taken, Option.filter]
    · rw [if_neg same, others name (Ne.symm same)]
  | assignInstance => exact SetIn.idsOf_eq does (assignmentFields_keepsId _) name
  | reportInstanceLoad => exact SetIn.idsOf_eq does (loadFields_keepsId _) name
  | reportBackgroundTasks => exact SetIn.idsOf_eq does (taskFields_keepsId _ _) name
  | clearInstanceReports => exact SetIn.idsOf_eq does (clearedFields_keepsId _) name
  | reportInstanceFromNode =>
    rcases does with set | same
    · exact set.idsOf_eq (processFields_keepsId _ _ _ _ _ _ _) name
    · rw [same]
      rfl

/-- Every call of a run does what it does, on what is held when it is made. -/
def EachDoes (backend : Backend) : List InstanceCall → backend.State → Prop
  | [], _ => True
  | call :: rest, state =>
    call.Does (backend.held state) (backend.held (call.run backend state)) ∧
      EachDoes backend rest (call.run backend state)

/-- Every removal of a run is allowed where it is made. -/
def EachAllowed (backend : Backend) (Allowed : backend.State → String → String → Prop) :
    List InstanceCall → backend.State → Prop
  | [], _ => True
  | call :: rest, state =>
    (∀ name instanceId, call = .removeInstance name instanceId → Allowed state name instanceId) ∧
      EachAllowed backend Allowed rest (call.run backend state)

/-- In a run of calls each does what it does, every id of a module is there once, and no id is lost
that was not taken out. -/
structure Independent (backend : Backend) (calls : List InstanceCall) (state : backend.State) :
    Prop where
  each : EachDoes backend calls state
  kept : ∀ name, idsOf (backend.held (runCalls backend calls state) name) =
    calls.foldl (idsAfter name) (idsOf (backend.held state name))
  distinct : ∀ name, (idsOf (backend.held (runCalls backend calls state) name)).Nodup

theorem nodup_idsOf (readable : backend.Readable state) (name : String) :
    (idsOf (backend.held state name)).Nodup := by
  unfold Backend.held
  obtain ⟨answer, found, sound⟩ := readable name
  rw [found]
  cases answer with
  | none => exact .nil
  | some doc =>
    have distinct := (sound doc rfl).instances.distinct
    have ids := distinct.filterMap (f := id) fun first second value left right =>
      left.trans right.symm
    rwa [filterMap_map] at ids

include serves in
theorem runCalls_independent (pulls : backend.PullsWhere Valid Allowed)
    (calls : List InstanceCall) (valid : Valid state)
    (allowed : EachAllowed backend Allowed calls state) : Independent backend calls state := by
  induction calls generalizing state with
  | nil => exact ⟨trivial, fun _ => rfl, nodup_idsOf (serves.readable state valid)⟩
  | cons call rest ih =>
    obtain ⟨kept, does⟩ := run_does serves pulls valid allowed.1
    have remaining := ih kept allowed.2
    refine ⟨⟨does, remaining.each⟩, fun name => ?_, remaining.distinct⟩
    rw [foldl_cons, ← does.idsOf_eq name]
    exact remaining.kept name

end Served

end Euclid.Emm
