/-
This file proves that every handler of EAP and every pass of the manager keeps to what it may ask:
what it writes whole it has read, or has found missing, and it changes in it only what it is about.

Each operation of the repository is followed once. A handler is then followed from what it reads to
what it writes, and the manager through the list it has read at the start of its pass.
-/

import Euclid.Eap.Calls

namespace Euclid.Eap

open Program List Function UpdateRequest Application
open Bus (Time StoreError)
open Eag (Response Refusal Status)
open Eqs (Caller)

/-! ### What is silent -/

variable {kind : Req → Prop}

section Silent

variable {Fault Result : Type}

/-- An operation that is answered for when the store fails asks what it asked. -/
theorem orAnswer_asks {operation : Op StoreError Result}
    {fallback : Result} (asks : operation.Asks kind) :
    (orAnswer operation fallback : Op Fault Result).Asks kind :=
  asks.catching fun _ => trivial

theorem onApplications_asks {stmt : ApplicationStatement}
    (asked : kind (.application stmt)) : (onApplications stmt).Asks kind :=
  (asks_issue asked).bind fun _ => asks_ofExcept _

theorem onNodes_asks {stmt : NodeStatement}
    (asked : kind (.node stmt)) : (onNodes stmt).Asks kind :=
  (asks_issue asked).bind fun _ => asks_ofExcept _

theorem onPools_asks {stmt : PoolStatement}
    (asked : kind (.pool stmt)) : (onPools stmt).Asks kind :=
  (asks_issue asked).bind fun _ => asks_ofExcept _

theorem readSystemClock_silent :
    (readSystemClock : Op Fault Time).Asks Req.IsSilent := asks_issue trivial

theorem consult_silent : (consult : Op Fault Nat).Asks Req.IsSilent :=
  asks_issue trivial

variable {runtimeName : String}

theorem findApplicationByRuntimeName_silent :
    (findApplicationByRuntimeName runtimeName : Op Fault (Option Application)).Asks Req.IsSilent :=
  orAnswer_asks (onApplications_asks trivial)

theorem listNodes_silent {accountId : String} :
    (listNodes accountId : Op Fault (List Node)).Asks Req.IsSilent :=
  orAnswer_asks (onNodes_asks trivial)

theorem findAllPools_silent : (findAllPools : Op Fault (List Pool)).Asks Req.IsSilent :=
  orAnswer_asks (onPools_asks trivial)

variable {name : String}

theorem findPoolByName_silent : (findPoolByName name : Op Fault (Option Pool)).Asks Req.IsSilent :=
  orAnswer_asks (onPools_asks trivial)

theorem upsertInstance_silent {slot : Slot} :
    (upsertInstance name slot : Op Fault Unit).Asks Req.IsSilent :=
  orAnswer_asks ((onPools_asks trivial).bind fun _ => Asks.onlyIf fun _ => onPools_asks trivial)

variable {instanceId : String}

theorem removeInstance_silent :
    (removeInstance name instanceId : Op Fault Unit).Asks Req.IsSilent :=
  orAnswer_asks (onPools_asks trivial)

theorem assignInstance_silent {nodeName : String} {leaseExpiresAt : Time} :
    (assignInstance name instanceId nodeName leaseExpiresAt : Op Fault Bool).Asks Req.IsSilent :=
  orAnswer_asks (onPools_asks trivial)

theorem withdrawSlot_silent :
    (withdrawSlot runtimeName instanceId : Op Fault Unit).Asks Req.IsSilent :=
  assignInstance_silent.bind fun _ => trivial

theorem freeRuntimeName_silent {cand : String} :
    (freeRuntimeName cand : Op Fault Bool).Asks Req.IsSilent := by
  unfold freeRuntimeName
  split
  · exact findApplicationByRuntimeName_silent.bind fun _ => trivial
  · trivial

variable {env : Env}

/-- A runtime name is sought by reads alone. -/
theorem issueSuffixed_silent {truncated : String} {attempts : Nat} :
    (issueSuffixed env truncated attempts : Op Fault (Option String)).Asks Req.IsSilent := by
  induction attempts with
  | zero => trivial
  | succ attempts ih =>
    refine consult_silent.bind fun moment => freeRuntimeName_silent.bind fun free => ?_
    cases free with
    | true => trivial
    | false => exact ih

theorem issueRuntimeName_silent {applicationId : String} :
    (issueRuntimeName env applicationId : Op Fault (Option String)).Asks Req.IsSilent := by
  refine freeRuntimeName_silent.bind fun free => ?_
  cases free with
  | true => trivial
  | false => exact issueSuffixed_silent

variable {placement : Placement} {now : Time} {app : Application} {nodes : List Node}

/-- A slot that is placed is a row of a pool, and no application. -/
theorem placeInstances_silent {missing : Nat} :
    (placeInstances env placement app runtimeName nodes now missing :
      Op Fault Unit).Asks Req.IsSilent := by
  induction missing with
  | zero => trivial
  | succ missing ih =>
    refine consult_silent.bind fun moment => ?_
    split
    · trivial
    · exact upsertInstance_silent.bind fun _ => ih

theorem scaleNodeApplication_silent {instances : List Slot} :
    (scaleNodeApplication env placement app runtimeName nodes now instances :
      Op Fault Unit).Asks Req.IsSilent := by
  refine consult_silent.bind fun moment => ?_
  dsimp only
  split
  · split
    · trivial
    · exact withdrawSlot_silent
  · split
    · split
      · trivial
      · exact withdrawSlot_silent
    · exact placeInstances_silent

/-- The nodes of an account are read once in a pass. -/
theorem nodesOf_silent (known : NodesByAccount) (accountId : String) :
    (nodesOf known accountId : Op Fault (List Node × NodesByAccount)).Asks Req.IsSilent := by
  unfold nodesOf
  split
  · trivial
  · exact listNodes_silent.bind fun _ => trivial

/-- A lease that has run out is taken back by a write to the pool of the slot. -/
theorem reconcileLease_silent {slot : Slot} :
    (reconcileLease env placement now name slot : Op Fault Unit).Asks Req.IsSilent := by
  refine Asks.onlyIf fun _ => findApplicationByRuntimeName_silent.bind fun found => ?_
  cases found with
  | none => trivial
  | some app =>
    refine listNodes_silent.bind fun nodes => consult_silent.bind fun moment => ?_
    split
    · trivial
    · exact assignInstance_silent.bind fun _ => trivial

end Silent

/-! ### Operations that read and write applications -/

variable {handler : Caller → Op Fault (Response Payload)} {app : Application}

section Operations

variable {Fault Result Payload : Type} {call : Call} {copies : Copies} {key : Key}

/-- What is found is remembered as read, and may be written back later. -/
theorem find_follows :
    (findApplicationByApplicationId key : Op Fault (Option Application)).Follows writeBack
      (call, copies) fun outcome reached => ∃ found, outcome = .ok found ∧
        reached = (call, update copies key found) ∧ ∀ app, found = some app → app.key = key := by
  unfold findApplicationByApplicationId orAnswer onApplications
  rw [follows_catching, follows_bind, follows_issue]
  refine ⟨trivial, fun answer answered => ?_⟩
  dsimp only
  rw [follows_ofExcept]
  cases answer with
  | ok found => exact ⟨found, rfl, rfl, answered⟩
  | error fault => exact ⟨none, rfl, rfl, fun app same => by cases same⟩

/-- A key that is missing may be written under. -/
theorem exists_follows :
    (applicationExists key : Op Fault Bool).Follows writeBack (call, copies)
      fun outcome reached => ∃ found : Option Application, outcome = .ok found.isSome ∧
        reached = (call, update copies key found) := by
  unfold applicationExists
  rw [follows_bind]
  refine find_follows.mono fun outcome reached kept => ?_
  obtain ⟨found, rfl, rfl, _⟩ := kept
  exact ⟨found, rfl, rfl⟩

/-- Every application of the list is read with it. -/
theorem listAll_follows :
    (listAllApplications : Op Fault (List Application)).Follows writeBack (call, copies)
      fun outcome reached => ∃ applications, outcome = .ok applications ∧ Indexed applications ∧
        reached.1 = call ∧ ∀ app ∈ applications, reached.2 app.key = some app := by
  unfold listAllApplications orAnswer onApplications
  rw [follows_catching, follows_bind, follows_issue]
  refine ⟨trivial, fun answer answered => ?_⟩
  dsimp only
  rw [follows_ofExcept]
  cases answer with
  | ok applications =>
    exact ⟨applications, rfl, answered, rfl, fun app mem =>
      rowAt_of_mem answered mem⟩
  | error fault => exact ⟨[], rfl, .nil, rfl, by simp⟩

variable (mayWrite : ∀ now, call.mayWrite copies (app.stamped now))

include mayWrite in
/-- A row is written whole if the call may write it over what it has read. -/
theorem upsert_follows :
    (upsertApplication app : Op Fault Application).Follows writeBack (call, copies)
      fun outcome reached => ∃ stored, outcome = .ok stored ∧ stored.key = app.key ∧
        reached = (call, update copies app.key (some stored)) := by
  unfold upsertApplication orAnswer onApplications readSystemClock
  rw [follows_issue_bind]
  refine ⟨trivial, fun now _ => ?_⟩
  rw [follows_catching, follows_bind, follows_issue]
  refine ⟨mayWrite now, fun answer answered => ?_⟩
  dsimp only
  rw [follows_ofExcept]
  cases answer with
  | ok stored => exact ⟨stored, rfl, answered, rfl⟩
  | error fault => exact ⟨app.stamped now, rfl, rfl, rfl⟩

include mayWrite in
theorem storing_follows :
    (storing app : Op Fault (Response Application)).Follows writeBack (call, copies)
      fun _ _ => True := by
  unfold storing
  rw [follows_bind]
  refine (upsert_follows mayWrite).mono fun outcome reached kept => ?_
  obtain ⟨stored, rfl, _⟩ := kept
  trivial

theorem delete_follows (deletes : call.deletes) :
    (deleteApplication key : Op Fault Unit).Follows writeBack (call, copies)
      fun outcome reached => outcome = .ok () ∧ reached = (call, copies) := by
  unfold deleteApplication orAnswer onApplications
  rw [follows_catching, follows_bind, follows_issue]
  refine ⟨deletes, fun answer _ => ?_⟩
  dsimp only
  rw [follows_ofExcept]
  cases answer with
  | ok _ => exact ⟨rfl, rfl⟩
  | error fault => exact ⟨rfl, rfl⟩

/-- A deployment writes nothing but its revision. -/
theorem touch_follows (deploys : call.deploys) :
    (touchApplication key : Op Fault Bool).Follows writeBack (call, copies) fun _ _ => True := by
  unfold touchApplication orAnswer onApplications
  rw [follows_catching, follows_bind, follows_issue]
  refine ⟨deploys, fun answer _ => ?_⟩
  dsimp only
  rw [follows_ofExcept]
  cases answer <;> trivial

/-! ### Shapes of handlers -/

/-- Nobody but an administrator gets as far as the handler. -/
theorem asAdministrator_follows {caller : Option Caller} {administrator : Bool}
    (follows : ∀ caller, (handler caller).Follows writeBack (call, copies) fun _ _ => True) :
    (asAdministrator caller administrator handler).Follows writeBack (call, copies)
      fun _ _ => True := by
  unfold asAdministrator
  split
  · trivial
  · split
    · exact follows _
    · trivial

/-- A handler of one application reads it, and goes on from what it read. -/
theorem withApplication_follows {text : String}
    {handler : Application → Op Fault (Response Payload)}
    (follows : ∀ app, app.key = key → (handler app).Follows writeBack
      (call, update copies key (some app)) fun _ _ => True) :
    (withApplication key text handler).Follows writeBack (call, copies) fun _ _ => True := by
  unfold withApplication
  rw [follows_bind]
  refine find_follows.mono fun outcome reached kept => ?_
  obtain ⟨found, rfl, rfl, called⟩ := kept
  cases found with
  | none => trivial
  | some app => exact follows app (called app rfl)

theorem unlessRefused_follows {status : Status} {refusal : String}
    {handler : Op Fault (Response Payload)}
    (follows : handler.Follows writeBack (call, copies) fun _ _ => True) :
    (unlessRefused status refusal handler).Follows writeBack (call, copies) fun _ _ => True := by
  unfold unlessRefused
  split
  · trivial
  · exact follows

end Operations

/-! ### What may be written back -/

variable {now : Time}

/-- The stamp of a write is no field that anyone edits. -/
theorem stamped_agrees {app : Application} :
    (app.stamped now).AgreesBut (.modified :: if app.created = 0 then [.created] else []) app := by
  intro field _ outside
  cases field with
  | modified => exact absurd (.head _) outside
  | created =>
    by_cases undated : app.created = 0
    · exact absurd (by simp [undated]) outside
    · simp [value, stamped, undated]
  | _ => rfl

variable {copies : Copies}

/-- A call that rewrites may write back a copy that agrees but in its own fields. -/
theorem mayWrite_rewrite {call : Call} (copy changed : Application)
    (known : copies changed.key = some copy) (rewrites : call.rewrites)
    (runs : call.deploys ∨ call.releases ∨ changed.desiredState = .stopped)
    (created : changed.created = copy.created)
    (agrees : ∀ now, changed.AgreesBut (call.names copy (changed.stamped now)) copy) (now : Time) :
    call.mayWrite copies (changed.stamped now) := by
  refine ⟨runs, ?_⟩
  have known : copies (changed.stamped now).key = some copy := known
  rw [known]
  refine ⟨rewrites, ?_⟩
  unfold Call.about
  rw [← created]
  refine (stamped_agrees.mono ?_).trans ((agrees now).mono ?_)
  · exact subset_append_left _ _
  · exact subset_append_right _ _

/-- A call that places may write under a key that it found missing. -/
theorem mayWrite_place {call : Call} {placed : Application}
    (absent : copies placed.key = none) (places : call.places)
    (runs : call.deploys ∨ call.releases ∨ placed.desiredState = .stopped) (now : Time) :
    call.mayWrite copies (placed.stamped now) := by
  refine ⟨runs, ?_⟩
  have absent : copies (placed.stamped now).key = none := absent
  rw [absent]
  exact places

/-! ### Handlers of one field -/

section Handlers

variable {Fault : Type} {caller : Option Caller} {administrator : Bool} {nameSpace : String}
  {env : Env} {call : Call} {copies : Copies}

variable {key : Key}

theorem find_free :
    (findApplicationByApplicationId key : Op Fault (Option Application)).Asks Req.IsFree :=
  orAnswer_asks (onApplications_asks trivial)

theorem consult_free : (consult : Op Fault Nat).Asks Req.IsFree := asks_issue trivial

section Free

variable {Payload : Type}

theorem asAdministrator_free (asks : ∀ caller, (handler caller).Asks Req.IsFree) :
    (asAdministrator caller administrator handler).Asks Req.IsFree := by
  unfold asAdministrator
  split
  · trivial
  · split
    · exact asks _
    · trivial

theorem withApplication_free {text : String}
    {handler : Application → Op Fault (Response Payload)}
    (asks : ∀ app, (handler app).Asks Req.IsFree) :
    (withApplication key text handler).Asks Req.IsFree := by
  refine find_free.bind fun found => ?_
  cases found with
  | none => trivial
  | some app => exact asks app

theorem unlessRefused_free {status : Status} {refusal : String}
    {handler : Op Fault (Response Payload)} (asks : handler.Asks Req.IsFree) :
    (unlessRefused status refusal handler).Asks Req.IsFree := by
  unfold unlessRefused
  split
  · trivial
  · exact asks

/-- A handler that writes one field and answers writes no row whole. -/
theorem written_free {write : Op Fault Bool} {refused : Response Payload}
    {answer : Option Application → Response Payload} (asks : write.Asks Req.IsFree) :
    (do
      let written ← write
      if written = false then pure refused
      else do
        let stored ← findApplicationByApplicationId key
        return answer stored : Op Fault (Response Payload)).Asks Req.IsFree := by
  refine asks.bind fun written => ?_
  split
  · trivial
  · exact find_free.bind fun _ => trivial

end Free

variable {applicationId : String}

theorem scaleApplication_free {minInstances maxInstances : Int} :
    (handleScaleApplication env caller administrator nameSpace applicationId minInstances
      maxInstances : Op Fault (Response Application)).Asks Req.IsFree := by
  refine asAdministrator_free fun caller => ?_
  split
  · trivial
  · refine withApplication_free fun app => unlessRefused_free ?_
    refine consult_free.bind fun moment => unlessRefused_free (written_free ?_)
    unfold setApplicationInstances
    split
    · trivial
    · exact orAnswer_asks (onApplications_asks trivial)

theorem setApplicationLimits_free {memoryLimitMb : Option Int} {cpuLimit : Option ℚ} :
    (handleSetApplicationLimits env caller administrator nameSpace applicationId
      memoryLimitMb cpuLimit : Op Fault (Response Application)).Asks Req.IsFree := by
  refine asAdministrator_free fun caller => ?_
  split
  · trivial
  · split
    · trivial
    · refine unlessRefused_free (unlessRefused_free (withApplication_free fun app => ?_))
      refine consult_free.bind fun moment => unlessRefused_free (written_free ?_)
      unfold setApplicationLimits
      split
      · trivial
      · exact orAnswer_asks (onApplications_asks trivial)

theorem setLogLevel_free {level : String} :
    (handleSetLogLevel env caller administrator nameSpace applicationId level :
      Op Fault (Response String)).Asks Req.IsFree := by
  refine asAdministrator_free fun caller => ?_
  split
  · trivial
  · generalize (if level = "" then some "" else env.canonicalLevel level) = canonical
    cases canonical with
    | none => trivial
    | some canonical =>
      refine withApplication_free fun app => ?_
      refine (orAnswer_asks (onApplications_asks trivial)).bind fun written => ?_
      split <;> trivial

theorem rebalanceApplication_free :
    (handleRebalanceApplication caller administrator nameSpace applicationId :
      Op Fault (Response Unit)).Asks Req.IsFree := by
  refine asAdministrator_free fun caller => withApplication_free fun app => ?_
  split
  · trivial
  · refine (orAnswer_asks (onApplications_asks trivial)).bind fun written => ?_
    split <;> trivial

theorem applyInfrastructure_free {plan : Bool} :
    (handleApplyInfrastructure env plan caller administrator nameSpace applicationId :
      Op Fault (Response Unit)).Asks Req.IsFree := by
  refine asAdministrator_free fun caller => ?_
  split
  · trivial
  · refine withApplication_free fun app => consult_free.bind fun moment => ?_
    split
    · trivial
    · split
      · trivial
      · exact (orAnswer_asks (onApplications_asks trivial)).bind fun _ => trivial

/-! ### Handlers that write an application back -/

/-- The state is set in the copy that was read. -/
theorem setState_follows {desired : ApplicationState} (rewrites : call.rewrites)
    (runs : call.deploys ∨ call.releases ∨ desired = .stopped)
    (about : ∀ copy written, .desiredState ∈ call.names copy written) (applicationId : String) :
    (handleSetState env desired caller administrator nameSpace applicationId :
      Op Fault (Response Application)).Follows writeBack (call, copies) fun _ _ => True := by
  refine asAdministrator_follows fun caller => withApplication_follows fun app called => ?_
  refine silent_bind consult_silent (fun moment => ?_) fun _ => trivial
  refine unlessRefused_follows (storing_follows (mayWrite_rewrite app _ ?_ rewrites
    runs rfl fun now => ?_))
  · rw [← called]
    exact update_self _ _ _
  · intro field _ outside
    cases field with
    | desiredState => exact absurd (about _ _) outside
    | _ => rfl

theorem restart_follows (deploys : call.deploys) :
    (handleRestartApplication caller administrator nameSpace applicationId :
      Op Fault (Response Unit)).Follows writeBack (call, copies) fun _ _ => True := by
  refine asAdministrator_follows fun caller => withApplication_follows fun app called => ?_
  refine unlessRefused_follows ?_
  rw [follows_bind]
  refine (touch_follows deploys).mono fun outcome reached _ => ?_
  cases outcome with
  | error fault => trivial
  | ok written =>
    dsimp only
    split <;> trivial

/-- A deployment changes what it is given, and what was read it writes back. -/
theorem redeploy_follows (requester : Requester) (req : RedeployRequest) :
    (handleRedeployApplication env caller administrator nameSpace req :
      Op Fault (Response Application)).Follows writeBack
        (.redeployApplication requester req, copies) fun _ _ => True := by
  refine asAdministrator_follows fun caller => withApplication_follows fun app called => ?_
  refine silent_bind consult_silent (fun moment => ?_) fun _ => trivial
  dsimp only
  split
  · trivial
  · rename_i artifact _
    generalize (if req.version = "" then _ else req.version) = version
    split
    · trivial
    · split
      · trivial
      · refine storing_follows (mayWrite_rewrite app _ ?_ rfl (.inl rfl) rfl fun now => ?_)
        · rw [← called]
          exact update_self _ _ _
        · intro field _ outside
          cases field <;> first | rfl | exact absurd (by simp [Call.names]) outside

/-- A deletion takes away the row under the key, whatever it holds. -/
theorem delete_handler_follows (deletes : call.deletes) :
    (handleDeleteApplication caller administrator nameSpace applicationId :
      Op Fault (Response Unit)).Follows writeBack (call, copies) fun _ _ => True := by
  refine asAdministrator_follows fun caller => ?_
  rw [follows_bind]
  refine exists_follows.mono fun outcome reached kept => ?_
  obtain ⟨found, rfl, rfl⟩ := kept
  dsimp only
  split
  · trivial
  · rw [follows_bind]
    refine find_follows.mono fun outcome reached kept => ?_
    obtain ⟨read, rfl, rfl, _⟩ := kept
    rw [follows_bind]
    refine (delete_follows deletes).mono fun outcome reached kept => ?_
    obtain ⟨rfl, rfl⟩ := kept
    trivial

end Handlers

/-! ### Handlers that place an application -/

variable {runtimeName : String}

namespace CreateRequest

variable {surroundings : Env} {moment : Nat} {req : CreateRequest} {key : Key}
  {app changed : Application}

theorem deployed_key (done : req.deployed surroundings moment key app = .ok changed) :
    changed.key = app.key := by
  unfold deployed at done
  split at done
  · cases done
  · split at done
    · cases done
    · split at done
      · cases done
      · generalize settledArtifact _ _ _ = settled at done
        cases settled with
        | error refusal => cases done
        | ok artifact =>
          cases done
          rfl

/-- None of the checks of a new application changes its key. -/
theorem versioned_key (done : req.versioned app = .ok changed) : changed.key = app.key := by
  unfold versioned at done
  dsimp only at done
  generalize (if req.version = "" then _ else req.version) = version at done
  split at done
  · cases done
  · cases done
    rfl

theorem identified_key
    (done : req.identified surroundings moment key runtimeName app = .ok changed) :
    changed.key = app.key := by
  unfold identified at done
  split at done
  · cases done
  · dsimp only at done
    split at done
    · cases done
      rfl
    · split at done
      · cases done
      · cases done
      · cases done
        rfl

theorem limited_key (done : req.limited surroundings moment key app = .ok changed) :
    changed.key = app.key := by
  obtain ⟨memory, first, done⟩ := bind_ok done
  obtain ⟨cpu, second, done⟩ := bind_ok done
  rw [refusing_eq done, refusing_eq second,
    refusing_eq first]

theorem typed_key (done : req.typed app = .ok changed) : changed.key = app.key := by
  unfold typed at done
  split at done
  · cases done
    rfl
  · split at done
    · cases done
    · cases done
      rfl

theorem scheduled_key (done : req.scheduled surroundings now app = .ok changed) :
    changed.key = app.key := by
  unfold scheduled at done
  split at done
  · cases done
    rfl
  · split at done
    · cases done
    · exact (applySchedule_agrees done).key_eq (by decide) (by decide) (by decide)

theorem decided_key {caller : Caller} {nodeLabels : List (String × String)}
    (done : req.decided surroundings moment caller key runtimeName nodeLabels now =
      .ok changed) : changed.key = key := by
  obtain ⟨running, first, done⟩ := bind_ok done
  obtain ⟨deployed, second, done⟩ := bind_ok done
  obtain ⟨bucketed, third, fourth⟩ := bind_ok second
  obtain ⟨identified, fifth, done⟩ := bind_ok done
  obtain ⟨limited, sixth, done⟩ := bind_ok done
  obtain ⟨typed, seventh, done⟩ := bind_ok done
  rw [scheduled_key done, typed_key seventh, limited_key sixth, identified_key fifth,
    versioned_key fourth, deployed_key third, refusing_eq first]
  rfl

end CreateRequest

theorem provisioned_key (env : Env) (moment : Nat) (app : Application) :
    (app.provisioned env moment).key = app.key := by
  unfold provisioned
  split <;> rfl

section Placing

variable {Fault : Type} {caller : Option Caller} {administrator : Bool} {nameSpace : String}
  {env : Env} {call : Call} {copies : Copies}

/-- An application is created under a key that was found missing. -/
theorem create_follows (deploys : call.deploys) (places : call.places) {req : CreateRequest} :
    (handleCreateApplication env caller administrator nameSpace req :
      Op Fault (Response Application)).Follows writeBack (call, copies) fun _ _ => True := by
  refine asAdministrator_follows fun caller => ?_
  split
  · trivial
  split
  · trivial
  rw [follows_bind]
  refine exists_follows.mono fun outcome reached kept => ?_
  obtain ⟨found, rfl, rfl⟩ := kept
  cases found with
  | some app => trivial
  | none =>
    refine silent_bind issueRuntimeName_silent (fun issued => ?_) fun _ => trivial
    cases issued with
    | none => trivial
    | some runtimeName =>
      refine silent_bind consult_silent (fun moment => ?_) fun _ => trivial
      refine silent_bind readSystemClock_silent (fun now => ?_) fun _ => trivial
      split
      · trivial
      · rename_i app decided
        refine storing_follows (mayWrite_place ?_ places (.inl deploys))
        rw [provisioned_key, CreateRequest.decided_key decided]
        exact update_self _ _ _

/-- A copy is what was read of the source, under a key that was found missing. -/
theorem copy_follows (places : call.places) {req : CopyRequest} :
    (handleCopyApplication env caller administrator nameSpace req :
      Op Fault (Response Application)).Follows writeBack (call, copies) fun _ _ => True := by
  refine asAdministrator_follows fun caller => ?_
  dsimp only
  split
  · trivial
  split
  · trivial
  split
  · trivial
  refine withApplication_follows fun source called => ?_
  rw [follows_bind]
  refine exists_follows.mono fun outcome reached kept => ?_
  obtain ⟨found, rfl, rfl⟩ := kept
  cases found with
  | some app => trivial
  | none =>
    refine silent_bind consult_silent (fun moment => ?_) fun _ => trivial
    split
    · trivial
    split
    · trivial
    · rename_i resources _
      refine silent_bind issueRuntimeName_silent (fun issued => ?_) fun _ => trivial
      cases issued with
      | none => trivial
      | some runtimeName =>
        refine storing_follows (mayWrite_place ?_ places (.inr (.inr rfl)))
        have account : source.accountId = caller.accountId := congrArg Key.accountId called
        have target : (source.copiedTo env moment ⟨caller.accountId,
            req.targetNamespace, req.targetApplicationId.getD req.applicationId⟩
            runtimeName resources).key = ⟨caller.accountId, req.targetNamespace,
              req.targetApplicationId.getD req.applicationId⟩ := by
          simp [key, copiedTo, account]
        rw [target]
        exact update_self _ _ _

end Placing

/-! ### The update -/

namespace UpdateRequest

variable {req : UpdateRequest} {surroundings : Env} {moment : Nat} {now : Time}
  {app changed : Application}

/-- A field of none of the named groups is not edited. -/
theorem not_mem_fields {field : Field} (outside : ∀ entry ∈ req.named, field ∉ entry.2) :
    field ∉ req.fields := by
  intro inside
  obtain ⟨entry, listed, mem⟩ := mem_flatMap.mp inside
  split at mem
  · exact outside entry listed mem
  · nomatch mem

def unmoved (req : UpdateRequest) : UpdateRequest := { req with nameSpace := none }

/-- An update without a move keeps the key. -/
theorem unmoved_key (agrees : changed.AgreesBut req.unmoved.fields app) :
    changed.key = app.key := by
  refine agrees.key_eq (not_mem_fields (by simp [named])) ?_ (not_mem_fields (by simp [named]))
  simp [fields, named, unmoved]

theorem beforeMove_agrees (done : req.beforeMove surroundings moment app = .ok changed) :
    changed.AgreesBut req.fields app ∧ changed.key = app.key :=
  ⟨keeps_beforeMove app changed done, unmoved_key (keeps_beforeMove app changed done)⟩

theorem afterMove_agrees (done : req.afterMove surroundings moment now app = .ok changed) :
    changed.AgreesBut req.fields app ∧ changed.key = app.key :=
  ⟨keeps_afterMove app changed done, unmoved_key (keeps_afterMove app changed done)⟩

end UpdateRequest

section Update

variable {Fault : Type} {caller : Option Caller} {administrator : Bool} {nameSpace : String}
  {env : Env} {copies : Copies}

/-- An update writes back what it has read, or places it under its new key. -/
theorem update_follows {requester : Requester} {req : UpdateRequest} :
    (handleUpdateApplication env caller administrator nameSpace req :
      Op Fault (Response Application)).Follows writeBack
        (.updateApplication requester req, copies) fun _ _ => True := by
  refine asAdministrator_follows fun caller => withApplication_follows fun app called => ?_
  refine silent_bind consult_silent (fun moment => ?_) fun _ => trivial
  refine silent_bind readSystemClock_silent (fun now => ?_) fun _ => trivial
  split
  · trivial
  rename_i deployed before
  obtain ⟨deployedAgrees, deployedKey⟩ := beforeMove_agrees before
  have account : deployed.accountId = app.accountId := congrArg Key.accountId deployedKey
  have named : deployed.applicationId = req.applicationId :=
    congrArg Key.applicationId (deployedKey.trans called)
  by_cases moves : (req.setNameSpace deployed).nameSpace ≠ app.nameSpace
  · simp only [decide_eq_true moves, if_true]
    rw [follows_bind]
    refine exists_follows.mono fun outcome reached kept => ?_
    obtain ⟨found, rfl, rfl⟩ := kept
    cases found with
    | some taken => trivial
    | none =>
      simp only [Option.isSome_none, Bool.false_eq_true, if_false]
      split
      · trivial
      · rename_i updated after
        rw [follows_bind]
        refine (delete_follows rfl).mono fun outcome reached kept => ?_
        obtain ⟨rfl, rfl⟩ := kept
        refine storing_follows (mayWrite_place ?_ rfl (.inl rfl))
        have target : updated.key =
            ⟨app.accountId, (req.setNameSpace deployed).nameSpace, req.applicationId⟩ := by
          rw [(afterMove_agrees after).2, ← account, ← named]
          rfl
        exact (congrArg _ target).trans (update_self _ _ _)
  · simp only [decide_eq_false moves, Bool.false_eq_true, if_false]
    have stays : (req.setNameSpace deployed).nameSpace = app.nameSpace := not_not.mp moves
    rw [follows_bind, follows_pure]
    simp only [Bool.false_eq_true, if_false]
    split
    · trivial
    · rename_i updated after
      obtain ⟨agrees, updatedKey⟩ := afterMove_agrees after
      have whole : updated.AgreesBut req.fields app :=
        (agrees.trans (keeps_setNameSpace deployed)).trans deployedAgrees
      have key : updated.key = app.key := by
        rw [updatedKey]
        refine Eq.trans ?_ deployedKey
        have space : deployed.nameSpace = app.nameSpace := congrArg Key.nameSpace deployedKey
        exact congrArg (Key.mk deployed.accountId · deployed.applicationId) (stays.trans space.symm)
      refine storing_follows (mayWrite_rewrite app _ ?_ rfl (.inl rfl) ?_ fun now => ?_)
      · rw [key, called]
        exact update_self _ _ _
      · exact whole.value_eq .created (UpdateRequest.not_mem_fields (by simp [UpdateRequest.named]))
      · exact whole

end Update

/-! ### The passes of the manager -/

section Passes

variable {Fault : Type} {env : Env} {placement : Placement} {copies : Copies}

/-- The release of a job changes its schedule and its state, and no more. -/
theorem releasedAt_agrees (release : CronRelease) (next now : Time) (app : Application) :
    (app.releasedAt release next).AgreesBut (Call.reconcileApplications.names app
      ((app.releasedAt release next).stamped now)) app := by
  intro field _ outside
  by_cases among : field ∈ [Field.nextRunAt, Field.desiredState]
  · by_contra differs
    refine outside (mem_filter.mpr ⟨among, ?_⟩)
    rcases mem_pair.mp among with rfl | rfl <;> exact decide_eq_true differs
  · cases field <;> first | rfl | exact absurd (by simp) among

/-- A job that is due is written back from the copy, and what is stored is read. -/
theorem releaseDueJob_follows (known : copies app.key = some app) :
    (releaseDueJob env app : Op Fault Application).Follows writeBack
      (.reconcileApplications, copies) fun outcome reached => ∃ current, outcome = .ok current ∧
        current.key = app.key ∧ reached.1 = .reconcileApplications ∧
        reached.2 app.key = some current ∧ ∀ key, key ≠ app.key → reached.2 key = copies key := by
  have unchanged : (pure app : Op Fault Application).Follows writeBack
      (.reconcileApplications, copies) fun outcome reached => ∃ current, outcome = .ok current ∧
        current.key = app.key ∧ reached.1 = .reconcileApplications ∧
        reached.2 app.key = some current ∧
        ∀ key, key ≠ app.key → reached.2 key = copies key :=
    ⟨app, rfl, rfl, rfl, known, fun _ _ => rfl⟩
  unfold releaseDueJob
  split
  · exact unchanged
  split
  · exact unchanged
  rename_i occurrenceAfter _
  unfold readSystemClock
  rw [follows_issue_bind]
  refine ⟨trivial, fun now _ => ?_⟩
  dsimp only
  split
  · exact unchanged
  split
  · exact unchanged
  rename_i next _
  have mayWrite := mayWrite_rewrite _
    (app.releasedAt (cronReleaseFor app.nextRunAt now (decide (app.desiredState = .running))) next)
    known rfl (.inr (.inl rfl)) rfl fun now => releasedAt_agrees _ _ now app
  refine (upsert_follows mayWrite).mono fun outcome reached kept => ?_
  obtain ⟨stored, rfl, storedKey, rfl⟩ := kept
  exact ⟨stored, rfl, storedKey, rfl, update_self _ _ _,
    fun key other => update_of_ne other _ _⟩

/-- Slots are reconciled without a read of the application; a run that is over is written back. -/
theorem reconcileNodeApplication_follows {nodes : List Node} (known : copies app.key = some app) :
    (reconcileNodeApplication env placement app runtimeName nodes :
      Op Fault Unit).Follows writeBack (.reconcileApplications, copies)
      fun _ reached => reached.1 = .reconcileApplications ∧
        ∀ key, key ≠ app.key → reached.2 key = copies key := by
  have unchanged : ∀ {operation : Op Fault Unit}, operation.Asks Req.IsSilent →
      operation.Follows writeBack (.reconcileApplications, copies) fun _ reached =>
        reached.1 = .reconcileApplications ∧
          ∀ key, key ≠ app.key → reached.2 key = copies key := fun asks =>
    (silent_follows asks).mono fun _ reached same => by
      subst same
      exact ⟨rfl, fun _ _ => rfl⟩
  refine silent_bind readSystemClock_silent (fun now => ?_) fun _ => ⟨rfl, fun _ _ => rfl⟩
  refine silent_bind findPoolByName_silent (fun existing => ?_) fun _ => ⟨rfl, fun _ _ => rfl⟩
  split
  · exact unchanged (Asks.forEach fun slot _ => withdrawSlot_silent)
  refine silent_bind (Asks.forEach fun slot _ => removeInstance_silent) (fun _ => ?_)
    fun _ => ⟨rfl, fun _ _ => rfl⟩
  split
  · refine silent_bind removeInstance_silent (fun _ => ?_) fun _ => ⟨rfl, fun _ _ => rfl⟩
    have agrees : ∀ now, ({ app with desiredState := .stopped } : Application).AgreesBut
        (Call.reconcileApplications.names app
          (stamped now { app with desiredState := .stopped })) app := by
      intro now field _ outside
      by_cases among : field = .desiredState
      · subst among
        by_contra differs
        exact outside (mem_filter.mpr ⟨by decide, decide_eq_true differs⟩)
      · cases field <;> first | rfl | exact absurd rfl among
    rw [follows_bind]
    have mayWrite := mayWrite_rewrite _
      { app with desiredState := .stopped } known rfl (.inr (.inl rfl)) rfl
      agrees
    refine (upsert_follows mayWrite).mono fun outcome reached kept => ?_
    obtain ⟨stored, rfl, _, rfl⟩ := kept
    exact ⟨rfl, fun key other => update_of_ne other _ _⟩
  · exact unchanged scaleNodeApplication_silent

/-- A pass writes back what it has read at its start, one application after the other. -/
theorem reconcileEach_follows {applications : List Application}
    (distinct : (applications.map key).Nodup)
    (known : ∀ app ∈ applications, copies app.key = some app) (met : NodesByAccount) :
    (reconcileEach env placement met applications : Op Fault Unit).Follows writeBack
      (.reconcileApplications, copies) fun _ _ => True := by
  induction applications generalizing copies met with
  | nil => trivial
  | cons app rest ih =>
    obtain ⟨alone, distinct⟩ := nodup_cons.mp distinct
    have others : ∀ other ∈ rest, other.key ≠ app.key := fun other mem same =>
      alone (mem_map.mpr ⟨other, mem, same⟩)
    unfold reconcileEach
    rw [follows_bind]
    refine (releaseDueJob_follows (known app (.head _))).mono ?_
    rintro outcome ⟨_, released⟩ ⟨current, rfl, currentKey, rfl, read, kept⟩
    refine silent_bind (nodesOf_silent _ _) (fun found => ?_) fun _ => trivial
    rw [follows_bind]
    have scaled : (onlyIf (¬(found.1 = [] ∧ current.desiredState = .running))
        (reconcileNodeApplication env placement current app.runsUnder found.1) :
          Op Fault Unit).Follows writeBack (.reconcileApplications, released)
        fun _ reached => reached.1 = .reconcileApplications ∧
          ∀ key, key ≠ app.key → reached.2 key = released key := by
      unfold onlyIf
      split
      · rw [← currentKey] at read ⊢
        exact reconcileNodeApplication_follows read
      · exact ⟨rfl, fun _ _ => rfl⟩
    refine scaled.mono ?_
    rintro outcome ⟨_, reached⟩ ⟨rfl, still⟩
    cases outcome with
    | error fault => trivial
    | ok _ =>
      refine ih distinct (fun other mem => ?_) _
      refine (still _ (others other mem)).trans ?_
      exact (kept _ (others other mem)).trans (known other (.tail _ mem))

theorem reconcileApplications_follows :
    (reconcileApplications env placement : Op Fault Unit).Follows writeBack
      (.reconcileApplications, copies) fun _ _ => True := by
  unfold reconcileApplications
  rw [follows_bind]
  refine listAll_follows.mono ?_
  rintro outcome ⟨_, reached⟩ ⟨applications, rfl, indexed, rfl, read⟩
  refine silent_bind findAllPools_silent (fun _ => ?_) fun _ => trivial
  exact reconcileEach_follows indexed read []

theorem reconcileNodeLeases_free :
    (reconcileNodeLeases env placement : Op Fault Unit).Asks Req.IsFree := by
  refine (findAllPools_silent.mono fun _ => silent_free).bind fun pools => ?_
  refine (readSystemClock_silent.mono fun _ => silent_free).bind fun now => ?_
  refine (orAnswer_asks (onApplications_asks trivial)).bind fun _ => ?_
  exact Asks.forEach fun entry _ => reconcileLease_silent.mono fun _ => silent_free

end Passes

/-! ### What a worker calls -/

section Workers

variable {Fault Payload : Type} {env : Env} {caller : Option Caller}

/-- What a worker's calls ask. A registration says that no operator has drained the node. -/
def Req.IsWorkers : Req → Prop
  | .now | .moment | .pool _ | .application (.findByRuntimeName _) => True
  | .node (.findByName ..) | .node (.touch ..) => True
  | .node (.upsert written) => written.drained = false
  | _ => False

theorem workers_silent {req : Req} (asked : req.IsWorkers) : req.IsSilent := by
  cases req with
  | application stmt => cases stmt <;> trivial
  | _ => trivial

theorem readSystemClock_workers : (readSystemClock : Op Fault Time).Asks Req.IsWorkers :=
  asks_issue trivial

theorem findApplication_workers {runtimeName : String} :
    (findApplicationByRuntimeName runtimeName : Op Fault (Option Application)).Asks Req.IsWorkers :=
  orAnswer_asks (onApplications_asks trivial)

theorem findPools_workers : (findAllPools : Op Fault (List Pool)).Asks Req.IsWorkers :=
  orAnswer_asks (onPools_asks trivial)

theorem asCaller_asks (asks : ∀ caller, (handler caller).Asks kind) :
    (asCaller caller handler).Asks kind := by
  unfold asCaller
  split
  · trivial
  · exact asks _

/-- The node is looked up before its handler goes on. -/
theorem claimNode_workers {caller : Caller} {name : String}
    {handler : Node → Op Fault (Response Payload)}
    (asks : ∀ node, (handler node).Asks Req.IsWorkers) :
    (claimNode caller name handler).Asks Req.IsWorkers := by
  unfold claimNode
  split
  · trivial
  refine Asks.bind (orAnswer_asks (onNodes_asks trivial)) fun found => ?_
  cases found with
  | none => trivial
  | some node =>
    dsimp only
    split
    · trivial
    · exact asks node

theorem registerNode_workers (req : RegisterRequest) :
    (handleRegisterNode caller req : Op Fault (Response Node)).Asks Req.IsWorkers := by
  refine asCaller_asks fun caller => ?_
  split
  · trivial
  refine Asks.bind (orAnswer_asks (onNodes_asks trivial)) fun existing => ?_
  split
  · trivial
  refine readSystemClock_workers.bind fun now => Asks.bind ?_ fun _ => trivial
  exact readSystemClock_workers.bind fun now => orAnswer_asks (onNodes_asks rfl)

theorem renewInstanceLeases_workers {nodeName : String} {leaseExpiresAt : Time} :
    (renewInstanceLeases nodeName leaseExpiresAt : Op Fault Unit).Asks Req.IsWorkers := by
  unfold renewInstanceLeases
  split
  · trivial
  refine findPools_workers.bind fun pools => orAnswer_asks (Asks.forEach fun entry _ => ?_)
  exact (onPools_asks trivial).bind fun _ => trivial

theorem mapEach_asks {Entry Result : Type} {entries : List Entry}
    {body : Entry → Op Fault Result} (turn : ∀ entry, (body entry).Asks kind) :
    (mapEach entries body).Asks kind := by
  induction entries with
  | nil => trivial
  | cons entry rest ih =>
    exact (turn entry).bind fun _ => ih.bind fun _ => trivial

/-- A renewal reads the pools and writes leases. -/
theorem renewNode_workers (req : RenewRequest) :
    (handleRenewNode env caller req : Op Fault (Response Renewal)).Asks Req.IsWorkers := by
  refine asCaller_asks fun caller => claimNode_workers fun node => ?_
  refine readSystemClock_workers.bind fun now => ?_
  refine Asks.bind (orAnswer_asks (onNodes_asks trivial)) fun _ => ?_
  refine renewInstanceLeases_workers.bind fun _ => findPools_workers.bind fun pools => ?_
  refine (mapEach_asks fun entry => ?_).bind fun _ => trivial
  refine findApplication_workers.bind fun found => ?_
  cases found with
  | none => trivial
  | some app => exact (asks_issue trivial).bind fun _ => trivial

theorem reportNodeInstance_workers {req : ReportRequest} :
    (handleReportNodeInstance caller req : Op Fault (Response Unit)).Asks Req.IsWorkers := by
  refine asCaller_asks fun caller => claimNode_workers fun node => ?_
  split
  · trivial
  refine Asks.bind ?_ fun reported => ?_
  · unfold reportInstanceFromNode
    split
    · trivial
    refine Asks.bind (orAnswer_asks (onPools_asks trivial)) fun existing => ?_
    split
    · trivial
    · split
      · trivial
      · exact readSystemClock_workers.bind fun now => orAnswer_asks (onPools_asks trivial)
  · split <;> trivial

theorem issueInstanceCredentials_workers {req : CredentialsRequest} :
    (handleIssueInstanceCredentials env caller req :
      Op Fault (Response Credentials)).Asks Req.IsWorkers := by
  refine asCaller_asks fun caller => claimNode_workers fun node => ?_
  split
  · trivial
  refine Asks.bind (orAnswer_asks (onPools_asks trivial)) fun found => ?_
  cases found with
  | none => trivial
  | some pool =>
    dsimp only
    split
    · trivial
    refine readSystemClock_workers.bind fun now => ?_
    split
    · trivial
    refine findApplication_workers.bind fun app => ?_
    cases app with
    | none => trivial
    | some app => exact (asks_issue trivial).bind fun _ => trivial

/-- What a worker calls writes no application. -/
theorem workers_follows {Result : Type} {operation : Op Fault Result} {session : Call × Copies}
    (asks : operation.Asks Req.IsWorkers) :
    (discarding operation).Follows writeBack session fun _ _ => True :=
  discarding_follows (free_follows (asks.mono fun _ asked => silent_free (workers_silent asked)))

end Workers

/-! ### Every party -/

/-- Every call keeps to what it may ask. -/
theorem handler_follows (env : Env) (placement : Placement) (call : Call) :
    (call.handler env placement).Follows writeBack (call, fun _ => none) fun _ _ => True := by
  cases call with
  | createApplication requester req =>
    exact discarding_follows (create_follows rfl rfl)
  | copyApplication requester req => exact discarding_follows (copy_follows rfl)
  | updateApplication requester req =>
    exact discarding_follows update_follows
  | redeployApplication requester req =>
    exact discarding_follows (redeploy_follows requester req)
  | startApplication requester applicationId =>
    exact discarding_follows (setState_follows rfl (.inr (.inl rfl))
      (fun _ _ => mem_singleton_self _) applicationId)
  | stopApplication requester applicationId =>
    exact discarding_follows (setState_follows rfl (.inr (.inr rfl))
      (fun _ _ => mem_singleton_self _) applicationId)
  | restartApplication requester applicationId =>
    exact discarding_follows (restart_follows rfl)
  | scaleApplication requester applicationId minInstances maxInstances =>
    exact discarding_follows (free_follows scaleApplication_free)
  | setApplicationLimits requester applicationId memoryLimitMb cpuLimit =>
    exact discarding_follows (free_follows setApplicationLimits_free)
  | setLogLevel requester applicationId level =>
    exact discarding_follows (free_follows setLogLevel_free)
  | rebalanceApplication requester applicationId =>
    exact discarding_follows (free_follows rebalanceApplication_free)
  | applyInfrastructure plan requester applicationId =>
    exact discarding_follows (free_follows applyInfrastructure_free)
  | deleteApplication requester applicationId =>
    exact discarding_follows (delete_handler_follows rfl)
  | registerNode caller req => exact workers_follows (registerNode_workers req)
  | renewNode caller req => exact workers_follows (renewNode_workers req)
  | reportNodeInstance caller req => exact workers_follows reportNodeInstance_workers
  | issueInstanceCredentials caller req => exact workers_follows issueInstanceCredentials_workers
  | reconcileApplications => exact reconcileApplications_follows
  | reconcileNodeLeases => exact free_follows reconcileNodeLeases_free

/-! ### Every run -/

section Runs

variable {Thread : Type} [DecidableEq Thread]

/-- What a thread has read before the last event of a history. -/
def readBy (tid : Thread) : History Thread Req Req.Answer World → Copies
  | [] => fun _ => none
  | event :: earlier =>
    if tid = event.thread then event.request.reads (readBy tid earlier) event.answer
    else readBy tid earlier

theorem sessions_writeBack (calls : Thread → Call)
    (hist : History Thread Req Req.Answer World) (tid : Thread) :
    writeBack.sessions (fun tid => (calls tid, fun _ => none)) hist tid =
      (calls tid, readBy tid hist) := by
  induction hist with
  | nil => rfl
  | cons event earlier ih =>
    rw [Discipline.sessions_cons, ih, readBy]
    split <;> rfl

def interleave (env : Env) (placement : Placement) (proc : Thread → Nat)
    (calls : Thread → Call) (origin : World) (schedule : List Thread) :
    Euclid.Pool Thread Req Req.Answer Empty Unit World :=
  (Pool.start origin fun tid => (calls tid).handler env placement).run
    (fun tid => machine env (proc tid)) schedule

/-- An answer is what the table holds under the key. -/
theorem answered {world : World} (indexed : Indexed world.applications) (env : Env)
    (proc : Nat) (req : Req) : req.answered (machine env proc req world).1 := by
  cases req with
  | application stmt =>
    simp only [machine]
    cases env.outage world.moment with
    | some outage => cases outage <;> cases stmt <;> trivial
    | none =>
      cases stmt with
      | findByKey key => exact fun app found => rowAt_key found
      | listAll =>
        have sorted : (byApplicationId world.applications).Perm world.applications :=
          perm_insertionSort _ _
        exact (sorted.map key).nodup_iff.mpr indexed
      | upsert written =>
        simp only [Bus.underOutage, ApplicationStatement.apply, upsertIn]
        split
        · split <;> trivial
        · split <;> trivial
      | _ => trivial
  | _ => trivial

theorem governed_indexed {env : Env} {proc : Thread → Nat}
    {calls : Thread → Call} {origin world : World} {hist : History Thread Req Req.Answer World}
    (governed : writeBack.Governs (fun tid => machine env (proc tid))
      (fun tid => (calls tid, fun _ => none)) origin hist world)
    (indexed : Indexed origin.applications) : Indexed world.applications :=
  governed.records.invariant (fun world => Indexed world.applications) indexed
    fun tid req _ kept => (machine_effect env (proc tid) req kept).1

/-- Every run of any calls, of the passes of the manager too, is one of the discipline. -/
theorem interleave_governed (env : Env) (placement : Placement)
    (proc : Thread → Nat) (calls : Thread → Call) {origin : World}
    (indexed : Indexed origin.applications) (schedule : List Thread) :
    writeBack.Governs (fun tid => machine env (proc tid))
      (fun tid => (calls tid, fun _ => none)) origin
      (interleave env placement proc calls origin schedule).history
      (interleave env placement proc calls origin schedule).world := by
  refine (writeBack.governs_run (fun tid => machine env (proc tid))
    (fun tid => (calls tid, fun _ => none)) (fun _ _ _ => True) origin
    (fun tid => (calls tid).handler env placement)
    (fun tid => handler_follows env placement (calls tid)) ?_ schedule).1
  intro hist world governed tid req _
  exact answered (governed_indexed governed indexed) env (proc tid) req

end Runs

end Euclid.Eap
