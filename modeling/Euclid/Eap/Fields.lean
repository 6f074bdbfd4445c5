/-
This file names the fields of an application, and says which of them a deployment and a setting of
one are about.

A handler makes a new application of a copy. What it is not about, it leaves as it is in the copy:
this is proved for each step of an update, and for the update from its steps.
-/

import Euclid.Eap.Server

namespace Euclid.Eap

open Bus (Time)
open Eag (Refusal)

/-! ### Fields -/

/-- The fields of an application that a handler may change. -/
inductive Field where
  | applicationId
  | runtimeName
  | ern
  | accountId
  | region
  | nameSpace
  | runtime
  | bucketErn
  | artifactKey
  | version
  | md5Sum
  | artifactSize
  | command
  | arguments
  | environment
  | resources
  | nodes
  | nodeLabels
  | infrastructure
  | userId
  | minInstances
  | maxInstances
  | readyTimeoutMs
  | memoryLimitMb
  | cpuLimit
  | desiredState
  | type
  | schedule
  | nextRunAt
  | logLevel
  | rebalanceRequested
  | created
  | modified
  deriving DecidableEq

@[reducible] def Field.Value : Field → Type
  | .runtime => Runtime
  | .arguments | .resources | .nodes | .infrastructure => List String
  | .environment | .nodeLabels => List (String × String)
  | .artifactSize | .minInstances | .maxInstances | .readyTimeoutMs | .memoryLimitMb => Int
  | .nextRunAt | .rebalanceRequested | .created | .modified => Time
  | .cpuLimit => ℚ
  | .desiredState => ApplicationState
  | .type => ApplicationType
  | _ => String

instance (field : Field) : DecidableEq field.Value := by
  cases field <;> infer_instance

/-- What an application holds in a field. -/
def Application.value (app : Application) : (field : Field) → field.Value
  | .applicationId => app.applicationId
  | .runtimeName => app.runtimeName
  | .ern => app.ern
  | .accountId => app.accountId
  | .region => app.region
  | .nameSpace => app.nameSpace
  | .runtime => app.runtime
  | .bucketErn => app.bucketErn
  | .artifactKey => app.artifactKey
  | .version => app.version
  | .md5Sum => app.md5Sum
  | .artifactSize => app.artifactSize
  | .command => app.command
  | .arguments => app.arguments
  | .environment => app.environment
  | .resources => app.resources
  | .nodes => app.nodes
  | .nodeLabels => app.nodeLabels
  | .infrastructure => app.infrastructure
  | .userId => app.userId
  | .minInstances => app.minInstances
  | .maxInstances => app.maxInstances
  | .readyTimeoutMs => app.readyTimeoutMs
  | .memoryLimitMb => app.memoryLimitMb
  | .cpuLimit => app.cpuLimit
  | .desiredState => app.desiredState
  | .type => app.type
  | .schedule => app.schedule
  | .nextRunAt => app.nextRunAt
  | .logLevel => app.logLevel
  | .rebalanceRequested => app.rebalanceRequested
  | .created => app.created
  | .modified => app.modified

open Application

def Field.all : List Field :=
  [.applicationId, .runtimeName, .ern, .accountId, .region, .nameSpace, .runtime, .bucketErn,
    .artifactKey, .version, .md5Sum, .artifactSize, .command, .arguments, .environment, .resources,
    .nodes, .nodeLabels, .infrastructure, .userId, .minInstances, .maxInstances, .readyTimeoutMs,
    .memoryLimitMb, .cpuLimit, .desiredState, .type, .schedule, .nextRunAt, .logLevel,
    .rebalanceRequested, .created, .modified]

theorem Field.mem_all (field : Field) : field ∈ Field.all := by
  cases field <;> decide

/-! ### Agreement -/

/-- Two applications are the same but for some fields. -/
def Application.AgreesBut (fields : List Field) (first second : Application) : Prop :=
  ∀ field ∈ Field.all, field ∉ fields → first.value field = second.value field

instance (fields : List Field) (first second : Application) :
    Decidable (first.AgreesBut fields second) :=
  inferInstanceAs (Decidable (∀ field ∈ Field.all, _))

section Agreement

variable {fields more : List Field} {first second third : Application}
  (agrees : first.AgreesBut fields second)

include agrees in
theorem Application.AgreesBut.value_eq (field : Field)
    (outside : field ∉ fields) : first.value field = second.value field :=
  agrees field field.mem_all outside

theorem Application.AgreesBut.refl (fields : List Field) (app : Application) :
    app.AgreesBut fields app := fun _ _ _ => rfl

include agrees in
/-- Fewer fields in which two may differ say more. -/
theorem Application.AgreesBut.mono (fewer : fields ⊆ more) : first.AgreesBut more second :=
  fun field mem outside => agrees field mem fun inside => outside (fewer inside)

theorem Application.AgreesBut.trans (left : first.AgreesBut fields second)
    (right : second.AgreesBut fields third) : first.AgreesBut fields third :=
  fun field mem outside => (left field mem outside).trans (right field mem outside)

include agrees in
/-- Two that differ in no part of the key have one key. -/
theorem Application.AgreesBut.key_eq (account : .accountId ∉ fields) (space : .nameSpace ∉ fields)
    (called : .applicationId ∉ fields) : first.key = second.key := by
  have accountId : first.accountId = second.accountId := agrees.value_eq _ account
  have nameSpace : first.nameSpace = second.nameSpace := agrees.value_eq _ space
  have applicationId : first.applicationId = second.applicationId := agrees.value_eq _ called
  simp [key, accountId, nameSpace, applicationId]

end Agreement

/-! ### What an update is about -/

namespace UpdateRequest

/-- What an update may name, whether it does, and the fields that are then its own. A schedule comes
with its next occurrence, an artifact with its hash and its size, and a namespace with the name of
the resource. -/
def named (req : UpdateRequest) : List (Bool × List Field) := [
  (req.nodeLabels.isSome, [.nodeLabels]),
  (req.runtime.isSome, [.runtime]),
  (req.artifact.isSome, [.artifactKey, .md5Sum, .artifactSize]),
  (req.nameSpace.isSome, [.nameSpace, .ern]),
  (req.user.isSome, [.userId]),
  (req.version.isSome, [.version]),
  (req.command.isSome, [.command]),
  (req.arguments.isSome, [.arguments]),
  (req.environment.isSome, [.environment]),
  (req.minInstances.isSome, [.minInstances]),
  (req.maxInstances.isSome, [.maxInstances]),
  (req.readyTimeoutMs.isSome, [.readyTimeoutMs]),
  (req.memoryLimitMb.isSome, [.memoryLimitMb]),
  (req.cpuLimit.isSome, [.cpuLimit]),
  (req.type.isSome, [.type]),
  (req.schedule.isSome, [.schedule, .nextRunAt]),
  (req.resources.isSome, [.resources])]

def fields (req : UpdateRequest) : List Field :=
  req.named.flatMap fun entry => if entry.1 then entry.2 else []

section Named

variable {req : UpdateRequest} {Value : Type} {value : Option Value} {field : Field}

theorem absent (outside : field ∉ req.fields) (fields : List Field)
    (listed : (value.isSome, field :: fields) ∈ req.named) : value = none := by
  cases value with
  | none => rfl
  | some value => exact absurd (List.mem_flatMap.mpr ⟨_, listed, .head _⟩) outside

theorem named_subset (fields : List Field) (listed : (true, fields) ∈ req.named) :
    fields ⊆ req.fields :=
  fun _ inside => List.mem_flatMap.mpr ⟨_, listed, inside⟩

end Named

/-- A step leaves what the request does not name. -/
def Keeps (req : UpdateRequest) (step : Application → Except Refusal Application) : Prop :=
  ∀ app changed, step app = .ok changed → changed.AgreesBut req.fields app

section Keeps

variable {req : UpdateRequest} {surroundings : Env} {moment : Nat} {now : Time}

theorem Keeps.bind {first second : Application → Except Refusal Application}
    (left : req.Keeps first) (right : req.Keeps second) :
    req.Keeps fun app => first app >>= second := by
  intro app changed done
  change first app >>= second = .ok changed at done
  cases between : first app with
  | error refusal =>
    rw [between] at done
    cases done
  | ok middle =>
    rw [between] at done
    exact (right middle changed done).trans (left app middle between)

variable {app : Application} {changed : Application}

/-- A setter that is named with its fields changes no others. -/
theorem agreesBut_of (fields : List Field) (listed : (true, fields) ∈ req.named)
    (agrees : ∀ field, changed.value field = app.value field ∨ field ∈ fields) :
    changed.AgreesBut req.fields app :=
  fun field _ outside => (agrees field).resolve_right fun inside =>
    outside (named_subset fields listed inside)

theorem keeps_checkLabels : req.Keeps req.checkLabels := by
  intro app changed done
  unfold checkLabels at done
  split at done
  · cases done
  · cases done
    exact .refl _ _

theorem keeps_setRuntime : req.Keeps req.setRuntime := by
  intro app changed done
  unfold setRuntime at done
  split at done
  · cases done
    exact .refl _ _
  · rename_i text given
    split at done
    · cases done
    · cases done
      exact agreesBut_of [.runtime] (by simp [named, given])
        fun field => by cases field <;> first | exact .inl rfl | exact .inr (by simp)

theorem keeps_setArtifact : req.Keeps (req.setArtifact surroundings moment) := by
  intro app changed done
  unfold setArtifact at done
  split at done
  · cases done
    exact .refl _ _
  · rename_i artifactKey given
    generalize settledArtifact _ _ _ = settled at done
    cases settled with
    | error refusal => cases done
    | ok artifact =>
      cases done
      exact agreesBut_of [.artifactKey, .md5Sum, .artifactSize] (by simp [named, given])
        fun field => by cases field <;> first | exact .inl rfl | exact .inr (by simp)

theorem keeps_setNameSpace (app : Application) :
    (req.setNameSpace app).AgreesBut req.fields app := by
  intro field _ outside
  cases field with
  | nameSpace =>
    have none : req.nameSpace = none := absent outside [.ern] (by simp [named])
    simp [value, setNameSpace, none]
  | _ => rfl

theorem keeps_setUser : req.Keeps (req.setUser surroundings moment) := by
  intro app changed done
  unfold setUser at done
  split at done
  · cases done
    exact .refl _ _
  · rename_i userId given
    split at done
    · cases done
    · split at done
      · cases done
      · cases done
      · cases done
        exact agreesBut_of [.userId] (by simp [named, given])
          fun field => by cases field <;> first | exact .inl rfl | exact .inr (by simp)

theorem keeps_setPlain (app : Application) : (req.setPlain app).AgreesBut req.fields app := by
  intro field _ outside
  cases field with
  | version =>
    have none : req.version = none := absent outside [] (by simp [named])
    simp [value, setPlain, none]
  | command =>
    have none : req.command = none := absent outside [] (by simp [named])
    simp [value, setPlain, none]
  | arguments =>
    have none : req.arguments = none := absent outside [] (by simp [named])
    simp [value, setPlain, none]
  | environment =>
    have none : req.environment = none := absent outside [] (by simp [named])
    simp [value, setPlain, none]
  | minInstances =>
    have none : req.minInstances = none := absent outside [] (by simp [named])
    simp [value, setPlain, none]
  | maxInstances =>
    have none : req.maxInstances = none := absent outside [] (by simp [named])
    simp [value, setPlain, none]
  | readyTimeoutMs =>
    have none : req.readyTimeoutMs = none := absent outside [] (by simp [named])
    simp [value, setPlain, none]
  | _ => rfl

theorem refusing_eq {status : Eag.Status} {refusal : String}
    (done : refusing status refusal app = .ok changed) : changed = app := by
  unfold refusing at done
  split at done
  · cases done
  · cases done
    rfl

theorem keeps_setMemoryLimit : req.Keeps req.setMemoryLimit := by
  intro app changed done
  unfold setMemoryLimit at done
  split at done
  · cases done
    exact .refl _ _
  · rename_i memoryLimitMb given
    rw [refusing_eq done]
    exact agreesBut_of [.memoryLimitMb] (by simp [named, given])
      fun field => by cases field <;> first | exact .inl rfl | exact .inr (by simp)

theorem keeps_setCpuLimit : req.Keeps req.setCpuLimit := by
  intro app changed done
  unfold setCpuLimit at done
  split at done
  · cases done
    exact .refl _ _
  · rename_i cpuLimit given
    rw [refusing_eq done]
    exact agreesBut_of [.cpuLimit] (by simp [named, given])
      fun field => by cases field <;> first | exact .inl rfl | exact .inr (by simp)

theorem keeps_checkAdmission : req.Keeps (req.checkAdmission surroundings moment) := by
  intro app changed done
  rw [refusing_eq done]
  exact .refl _ _

theorem keeps_setType : req.Keeps req.setType := by
  intro app changed done
  unfold setType at done
  split at done
  · cases done
    exact .refl _ _
  · rename_i requested given
    split at done
    · cases done
    · cases done
      exact agreesBut_of [.type] (by simp [named, given])
        fun field => by cases field <;> first | exact .inl rfl | exact .inr (by simp)

theorem applySchedule_agrees {requested : String}
    (done : applySchedule surroundings now requested app = .ok changed) :
    changed.AgreesBut [.schedule, .nextRunAt] app := by
  unfold applySchedule at done
  split at done
  · cases done
    intro field _ outside
    cases field <;> first | rfl | exact absurd (by simp) outside
  · split at done
    · cases done
    · cases done
      intro field _ outside
      cases field <;> first | rfl | exact absurd (by simp) outside

theorem keeps_setSchedule : req.Keeps (req.setSchedule surroundings now) := by
  intro app changed done
  unfold setSchedule at done
  split at done
  · cases done
    exact .refl _ _
  · rename_i requested given
    exact (applySchedule_agrees done).mono
      (named_subset [.schedule, .nextRunAt] (by simp [named, given]))

theorem keeps_checkSchedule : req.Keeps checkSchedule := by
  intro app changed done
  unfold checkSchedule at done
  split at done
  · cases done
  · cases done
    exact .refl _ _

theorem keeps_setLabels (app : Application) : (req.setLabels app).AgreesBut req.fields app := by
  intro field _ outside
  unfold setLabels
  split
  · rename_i nodeLabels given
    cases field with
    | nodeLabels =>
      have none : req.nodeLabels = none := absent outside [] (by simp [named])
      rw [none] at given
      cases given
    | _ => rfl
  · rfl

theorem keeps_setResources : req.Keeps (req.setResources surroundings moment) := by
  intro app changed done
  unfold setResources at done
  split at done
  · cases done
    exact .refl _ _
  · rename_i names given
    split at done
    · cases done
    · cases done
      exact agreesBut_of [.resources] (by simp [named, given])
        fun field => by cases field <;> first | exact .inl rfl | exact .inr (by simp)

/-- All that an update sets before a move are its own fields. -/
theorem keeps_beforeMove : req.Keeps (req.beforeMove surroundings moment) :=
  (keeps_checkLabels.bind keeps_setRuntime).bind keeps_setArtifact

theorem Keeps.after {step : Application → Except Refusal Application}
    {change : Application → Application} (keeps : req.Keeps step)
    (agrees : ∀ app, (change app).AgreesBut req.fields app) :
    req.Keeps fun app => step (change app) :=
  fun app changed done => (keeps _ changed done).trans (agrees app)

theorem keeps_afterMove : req.Keeps (req.afterMove surroundings moment now) := by
  have limited : req.Keeps fun app =>
      req.setMemoryLimit (req.setPlain app) >>= req.setCpuLimit :=
    (keeps_setMemoryLimit.after keeps_setPlain).bind keeps_setCpuLimit
  have scheduled : req.Keeps fun app =>
      req.setType app >>= req.setSchedule surroundings now :=
    keeps_setType.bind keeps_setSchedule
  exact keeps_setUser.bind (limited.bind (keeps_checkAdmission.bind (scheduled.bind
    (keeps_checkSchedule.bind (keeps_setResources.after keeps_setLabels)))))

end Keeps

end UpdateRequest

end Euclid.Eap
