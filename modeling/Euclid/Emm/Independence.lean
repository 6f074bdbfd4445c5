/-
This file says when the records of instances are independent: always on a database that reads
the operand of a pull as a condition, and on the store in memory where an instance is taken out
only of a module that has no other.
-/

import Euclid.Emm.InMemory

namespace Euclid.Emm

open Emd List

/-! ### The store in memory -/

/-- A module has no instance but one. -/
def NoOther (held : String → Option (List Value)) (name instanceId : String) : Prop :=
  ∀ entries ∈ held name, ∀ entry ∈ entries, idOf entry = some instanceId

/-- The collections the module manager keeps in memory. -/
def Kept (state : Nat × Collection) : Prop := Sound state.2

variable {env : Env}

theorem emd_serves : (emd env).Serves Kept where
  readable := fun (moment, _) sound => readable_emd env moment sound
  sets := fun _ _ _ _ _ _ sound plain keeps stamp => emd_sets sound plain keeps stamp
  pushes := fun _ _ _ _ _ created sound plain own absent =>
    emd_pushes sound plain own absent created

theorem filter_of_noOther {held : String → Option (List Value)} {name instanceId : String}
    (alone : NoOther held name instanceId) :
    ((held name).map fun entries => entries.filter fun entry => idOf entry ≠ some instanceId) =
      (held name).map fun _ => [] := by
  refine Option.map_congr fun entries own => ?_
  exact filter_eq_nil_iff.mpr fun entry mem => by simp [alone entries own entry mem]

theorem emd_pullsWhere : (emd env).PullsWhere Kept fun state => NoOther ((emd env).held state) := by
  intro state name instanceId sound alone
  obtain ⟨result, written, updated, kept, others, own⟩ := emd_pulls env sound name instanceId
  exact ⟨result, written, updated, kept, others, own.trans (filter_of_noOther alone).symm⟩

theorem removeInstance_does_iff {state : Nat × Collection}
    (sound : Kept state) {name instanceId : String} :
    (InstanceCall.removeInstance name instanceId).Does ((emd env).held state)
        ((emd env).held (removeInstance (emd env) name instanceId state)) ↔
      NoOther ((emd env).held state) name instanceId := by
  obtain ⟨result, written, updated, kept, others, own⟩ := emd_pulls env sound name instanceId
  have removed : removeInstance (emd env) name instanceId state = written :=
    congrArg Prod.snd (update_ok updated)
  rw [removed]
  constructor
  · rintro ⟨_, filtered⟩ entries held entry mem
    rw [own, held, Option.map_some, Option.map_some, Option.some_inj] at filtered
    have gone := filter_eq_nil_iff.mp filtered.symm entry mem
    simpa using gone
  · exact fun alone => ⟨others, own.trans (filter_of_noOther alone).symm⟩

/-! ### Every run -/

/-- In every run on the store in memory that takes instances only out of modules that have no other,
and in every run on a database that sets, pushes and pulls as it is documented to, the records of
instances are independent. On the store a removal leaves the others only where there are none. -/
theorem instances_independent (env : Env) :
    (∀ (calls : List InstanceCall) (state : Nat × Collection), Kept state →
      EachAllowed (emd env) (fun state => NoOther ((emd env).held state)) calls
        state → Independent (emd env) calls state) ∧
    (∀ (state : Nat × Collection) (name instanceId : String), Kept state →
      ((InstanceCall.removeInstance name instanceId).Does ((emd env).held state)
          ((emd env).held (removeInstance (emd env) name instanceId state)) ↔
        NoOther ((emd env).held state) name instanceId)) ∧
    ∀ (mongo : Backend) (Valid : mongo.State → Prop), mongo.Serves Valid →
      mongo.PullsWhere Valid (fun _ _ _ => True) →
      ∀ (calls : List InstanceCall) (state : mongo.State), Valid state →
        Independent mongo calls state := by
  refine ⟨fun calls state kept allowed => ?_, fun state name instanceId kept => ?_,
    fun mongo Valid serves pulls calls state valid => ?_⟩
  · exact runCalls_independent emd_serves emd_pullsWhere calls kept allowed
  · exact removeInstance_does_iff kept
  · refine runCalls_independent serves pulls calls valid ?_
    clear valid
    induction calls generalizing state with
    | nil => trivial
    | cons call rest ih => exact ⟨fun _ _ _ => trivial, ih _⟩

/-! ### A module with two instances -/

def stillEnvironment : Env where
  systemClock := fun _ => 0
  freshOid := fun _ => 0
  regex := fun _ => none

def record (instanceId : String) : Value := .document [("instanceId", .string instanceId)]

def oneModule (instanceIds : List String) : Collection where
  documents := [[("name", .string "esm"), ("instances", .array (instanceIds.map record))]]
  uniqueKeys := [["name"]]

theorem oneModule_kept {moment : Nat} {instanceIds : List String} (distinct : instanceIds.Nodup) :
    Kept (moment, oneModule instanceIds) := by
  have ids : (instanceIds.map record).map idOf = instanceIds.map some := by
    rw [map_map]
    rfl
  refine ⟨?_, pairwise_singleton _ _, fun keys mem => mem_singleton.mp mem⟩
  intro doc mem
  rw [mem_singleton.mp mem]
  refine ⟨(by decide : ["name", "instances"].Nodup), "esm", ⟨rfl, ?_, ?_⟩⟩
  · rintro value ⟨⟩
    exact ⟨_, rfl⟩
  · change AreInstances (instanceIds.map record)
    refine ⟨?_, ?_, ids ▸ distinct.map fun _ _ => Option.some.inj⟩
    · intro entry there
      obtain ⟨id, _, rfl⟩ := mem_map.mp there
      exact ⟨_, rfl⟩
    · intro entry there
      obtain ⟨id, _, rfl⟩ := mem_map.mp there
      rfl

/-- Taking one of two instances out of the store takes out both. -/
theorem pull_takes_all : ¬∀ (env : Env) (state : Nat × Collection) (name instanceId : String),
      Kept state → (InstanceCall.removeInstance name instanceId).Does ((emd env).held state)
          ((emd env).held (removeInstance (emd env) name instanceId state)) := by
  intro always
  have kept : Kept (0, oneModule ["a", "b"]) := oneModule_kept (by decide)
  have alone := (removeInstance_does_iff kept).mp
    (always stillEnvironment _ "esm" "a" kept)
  have held : (emd stillEnvironment).held (0, oneModule ["a", "b"]) "esm" =
      some [record "a", record "b"] := rfl
  have other := alone _ held (record "b") (by simp)
  exact absurd other (by decide)

/-! ### A store that reads conditions -/

/-- The document of a module without the instances that have an id. -/
def without (env : Env) (moment : Nat) (instanceId : String) (doc : Document) : Document :=
  (doc.fields.assign "instances" (.array ((entriesOf (doc.field "instances")).filter
    fun entry => idOf entry ≠ some instanceId))).assign "modified" (.date (env.systemClock moment))

/-- The store in memory, but with the operand of a pull read as a condition. -/
def byCondition (env : Env) : Backend where
  State := Nat × Collection
  findOne := (emd env).findOne
  updateOne filter update upsert state :=
    match update with
    | [("$pull", .document [("instances", .document [("instanceId", .string instanceId)])]), _] =>
      match firstMatch env filter [] state.2.documents with
      | .ok (some place) => .ok (⟨1, 1, none⟩, (state.1 + 1,
          state.2.replaceAt place (without env state.1 instanceId place.document)))
      | .ok none => .ok (⟨0, 0, none⟩, (state.1 + 1, state.2))
      | .error fault => .error fault
    | _ => (emd env).updateOne filter update upsert state

theorem byCondition_serves : (byCondition env).Serves Kept where
  readable := fun (moment, _) sound => readable_emd env moment sound
  sets := fun _ _ _ _ _ _ sound plain keeps stamp => by
    rcases stamp with rfl | rfl
    · exact emd_sets sound plain keeps (.inl rfl)
    · exact emd_sets sound plain keeps (.inr rfl)
  pushes := fun _ _ _ _ _ created sound plain own absent =>
    emd_pushes sound plain own absent created

theorem byCondition_pullsWhere : (byCondition env).PullsWhere Kept fun _ _ _ => True := by
  rintro ⟨moment, target⟩ name instanceId sound -
  have held : (byCondition env).held (moment, target) = heldIn target.documents :=
    held_emd env moment sound
  rw [held]
  change ∃ result written, (match firstMatch env (nameFilter name) [] target.documents with
      | .ok (some place) => Except.ok (UpdateResult.mk 1 1 none, (moment + 1,
          target.replaceAt place (without env moment instanceId place.document)))
      | .ok none => .ok (⟨0, 0, none⟩, (moment + 1, target))
      | .error fault => .error fault) = .ok (result, written) ∧ _
  have sound' : Sound target := sound
  rcases sound'.firstMatch_name env name with ⟨absent, missed⟩ | ⟨place, split, own, found⟩
  · rw [missed]
    have after : (byCondition env).held (moment + 1, target) = heldIn target.documents :=
      held_emd env (moment + 1) sound
    refine ⟨_, _, rfl, sound, fun other _ => congrFun after other, ?_⟩
    rw [after, heldIn_of_none absent]
    rfl
  · have here : place.document ∈ target.documents := by
      rw [split]
      exact mem_append_right _ (.head _)
    have is := sound'.isModule here own
    have array : (without env moment instanceId place.document).field "instances" =
        some (.array ((entriesOf (place.document.field "instances")).filter
          fun entry => idOf entry ≠ some instanceId)) := by
      rw [without, field_assign, if_neg (by decide), field_assign, if_pos rfl]
    have isModule : IsModule name (without env moment instanceId place.document) := by
      refine ⟨?_, ?_, ?_⟩
      · rw [without, field_assign, if_neg (by decide), field_assign, if_neg (by decide),
          field_fields (sound'.modules _ here).1, is.name]
      · rw [array]
        rintro value ⟨⟩
        exact ⟨_, rfl⟩
      · rw [array]
        have records := is.instances
        exact ⟨fun entry mem => records.documents entry (mem_of_mem_filter mem),
          fun entry mem => records.identified entry (mem_of_mem_filter mem),
          records.distinct.sublist (filter_sublist.map idOf)⟩
    have distinct : (without env moment instanceId place.document).Distinct :=
      distinct_assign (distinct_assign (distinct_fields _) _ _) _ _
    obtain ⟨kept, changed⟩ := sound'.replaced split own distinct isModule
    rw [found]
    have after : (byCondition env).held (moment + 1, target.replaceAt place
        (without env moment instanceId place.document)) = heldIn (target.replaceAt place
          (without env moment instanceId place.document)).documents :=
      held_emd env (moment + 1) kept
    refine ⟨_, _, rfl, kept, fun other different => ?_, ?_⟩
    · rw [after, changed, if_neg different]
    · rw [after, changed, if_pos rfl, array, sound'.heldIn_of_place split own]
      rfl

/-- An only instance is taken out, of two the other stays where the pull reads its condition, and
where it does not both go. -/
theorem removals_independent :
    Independent (emd stillEnvironment) [.removeInstance "esm" "a"] (0, oneModule ["a"]) ∧
      ¬(InstanceCall.removeInstance "esm" "a").Does
        ((emd stillEnvironment).held (0, oneModule ["a", "b"]))
        ((emd stillEnvironment).held
          (removeInstance (emd stillEnvironment) "esm" "a" (0, oneModule ["a", "b"]))) ∧
      Independent (byCondition stillEnvironment) [.removeInstance "esm" "a"]
        (0, oneModule ["a", "b"]) := by
  obtain ⟨alone, exactly, onMongo⟩ := instances_independent stillEnvironment
  have two : Kept (0, oneModule ["a", "b"]) := oneModule_kept (by decide)
  refine ⟨alone _ _ (oneModule_kept (by decide)) ⟨?_, trivial⟩, fun does => ?_,
    onMongo (byCondition stillEnvironment) Kept byCondition_serves byCondition_pullsWhere _ _
      two⟩
  · rintro name instanceId ⟨⟩ entries ⟨⟩ entry mem
    rw [mem_singleton.mp mem]
    rfl
  · have held : (emd stillEnvironment).held (0, oneModule ["a", "b"]) "esm" =
        some [record "a", record "b"] := rfl
    have other := (exactly _ _ _ two).mp does _ held (record "b") (by simp)
    exact absurd other (by decide)

end Euclid.Emm
