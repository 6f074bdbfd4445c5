/-
This file translates the handlers of `EapServer` on applications: what each checks, in which order,
with which refusal, and what it asks of the repository.

A request arrives authenticated or not, and parsed. What a handler asks of other modules (whether an
artifact has settled, whether a user has a key, whether the nodes have room) it asks at a moment,
and what it changes in them is left out. A handler of a deployment and one that starts or stops an
application read it and write all of it back; the others write one field.
-/

import Euclid.Eag.Server
import Euclid.Eap.Repository

namespace Euclid.Eap

open Program ApplicationType
open Bus (Time)
open Eag (Status Response Refusal)
open Eqs (Caller)

variable {Fault Payload : Type}

/-! ### Who is asking -/

/-- `requireAdmin`, before anything else. -/
def asAdministrator (caller : Option Caller) (administrator : Bool)
    (handler : Caller → Op Fault (Response Payload)) : Op Fault (Response Payload) :=
  match caller with
  | none => pure .unauthorized
  | some caller =>
    if administrator then handler caller
    else pure (.refused .forbidden "Administrator privileges required")

/-- The application a handler is about, as it is read. -/
def withApplication (key : Key) (text : String)
    (handler : Application → Op Fault (Response Payload)) : Op Fault (Response Payload) := do
  let found ← findApplicationByApplicationId key
  match found with
  | none => pure (.refused .notFound (text ++ key.applicationId))
  | some app => handler app

/-- Go on unless there is a reason not to. -/
def unlessRefused (status : Status) (refusal : String)
    (handler : Op Fault (Response Payload)) : Op Fault (Response Payload) :=
  if refusal ≠ "" then pure (.refused status refusal) else handler

def storing (app : Application) : Op Fault (Response Application) := do
  let stored ← upsertApplication app
  return .success stored

/-! ### One field -/

section

variable (env : Env) (caller : Option Caller) (administrator : Bool)

/-- `handleScaleApplication`. A bound that is not given is -1. -/
def handleScaleApplication (nameSpace applicationId : String) (minInstances maxInstances : Int) :
    Op Fault (Response Application) :=
  asAdministrator caller administrator fun caller =>
    if applicationId = "" then pure (.refused .badRequest "applicationId is required")
    else
      let key : Key := ⟨caller.accountId, nameSpace, applicationId⟩
      withApplication key "Application not found: " fun app =>
        unlessRefused .badRequest (scaleRefusal minInstances maxInstances app.minInstances
            app.maxInstances) do
          let moment ← consult
          let effectiveMin := if 0 ≤ minInstances then minInstances else app.minInstances
          unlessRefused .conflict
              (if app.minInstances < effectiveMin ∧ app.desiredState = .running then
                env.admissionRefusal moment app.accountId app.runsUnder
                  app.memoryLimitMb effectiveMin
              else "") do
            let written ← setApplicationInstances key minInstances maxInstances
            if written = false then
              pure (.refused .internalServerError
                ("Could not scale application: " ++ applicationId))
            else do
              let stored ← findApplicationByApplicationId key
              return .success (stored.getD app)

/-- `handleSetApplicationLimits`. A limit that is not given is left as it is. -/
def handleSetApplicationLimits (nameSpace applicationId : String) (memoryLimitMb : Option Int)
    (cpuLimit : Option ℚ) : Op Fault (Response Application) :=
  asAdministrator caller administrator fun caller =>
    if applicationId = "" then pure (.refused .badRequest "applicationId is required")
    else if memoryLimitMb = none ∧ cpuLimit = none then
      pure (.refused .badRequest
        "Nothing to change: give memoryLimitMb, cpuLimit or both (0 removes a limit)")
    else
      unlessRefused .badRequest (memoryLimitMb.elim "" limitRefusal) <|
      unlessRefused .badRequest (cpuLimit.elim "" cpuLimitRefusal) <|
        let key : Key := ⟨caller.accountId, nameSpace, applicationId⟩
        withApplication key "Application not found: " fun app => do
          let moment ← consult
          unlessRefused .conflict (memoryLimitMb.elim "" fun limit =>
              env.admissionRefusal moment app.accountId app.runsUnder limit app.minInstances) do
            let written ← setApplicationLimits key (memoryLimitMb.getD (-1)) (cpuLimit.getD (-1))
            if written = false then
              pure (.refused .internalServerError
                ("Could not set limits of application: " ++ applicationId))
            else do
              let stored ← findApplicationByApplicationId key
              return .success (stored.getD app)

/-- `handleSetLogLevel`. An empty level takes back what was set. -/
def handleSetLogLevel (nameSpace applicationId level : String) : Op Fault (Response String) :=
  asAdministrator caller administrator fun caller =>
    if applicationId = "" then pure (.refused .badRequest "applicationId is required")
    else
      match (if level = "" then some "" else env.canonicalLevel level) with
      | none => pure (.refused .badRequest
          ("level must be \"trace\", \"debug\", \"info\", \"warning\", \"error\", \"fatal\" or " ++
            "\"off\": " ++ level))
      | some canonical =>
        let key : Key := ⟨caller.accountId, nameSpace, applicationId⟩
        withApplication key "Application not found: " fun _ => do
          let written ← setApplicationLogLevel key canonical
          if written = false then
            pure (.refused .notFound ("Application not found: " ++ applicationId))
          else pure (.success canonical)

end

section

variable (caller : Option Caller) (administrator : Bool) (nameSpace applicationId : String)

/-- `handleRestartApplication`: nothing but the date of its last change is written. -/
def handleRestartApplication : Op Fault (Response Unit) :=
  asAdministrator caller administrator fun caller =>
    let key : Key := ⟨caller.accountId, nameSpace, applicationId⟩
    withApplication key "Application not found: " fun app =>
      unlessRefused .badRequest (if restartRefusal app = "" then ""
          else "Refusing to restart '" ++ applicationId ++ "': " ++ restartRefusal app) do
        let written ← touchApplication key
        if written = false then
          pure (.refused .internalServerError ("Could not request a restart: " ++ applicationId))
        else pure (.success ())

def handleRebalanceApplication : Op Fault (Response Unit) :=
  asAdministrator caller administrator fun caller =>
    let key : Key := ⟨caller.accountId, nameSpace, applicationId⟩
    withApplication key "Application not found: " fun app =>
      if app.type.isJob then
        pure (.refused .badRequest ("Refusing to rebalance '" ++ applicationId ++
          "': it is a JOB, and moving a run would start it again"))
      else do
        let written ← requestRebalance key
        if written = false then
          pure (.refused .internalServerError ("Could not request a rebalance: " ++ applicationId))
        else pure (.success ())

end

/-- `applyOrPlanInfrastructure`. A plan writes nothing. -/
def handleApplyInfrastructure (env : Env) (plan : Bool) (caller : Option Caller)
    (administrator : Bool) (nameSpace applicationId : String) : Op Fault (Response Unit) :=
  asAdministrator caller administrator fun caller =>
    if applicationId = "" then pure (.refused .badRequest "applicationId is required")
    else
      let key : Key := ⟨caller.accountId, nameSpace, applicationId⟩
      withApplication key "Application not found, applicationId: " fun app => do
        let moment ← consult
        match env.provisionInfrastructure moment app with
        | .error text => pure (.refused .badRequest text)
        | .ok owned =>
          if plan then pure (.success ())
          else do
            let _written ←
              setApplicationInfrastructure key (owned.getD app.infrastructure)
            return .success ()

/-! ### Start, stop and delete -/

/-- `handleSetState`: all of the copy is written back, whatever it said before. -/
def handleSetState (env : Env) (desired : ApplicationState)
    (caller : Option Caller) (administrator : Bool) (nameSpace applicationId : String) :
    Op Fault (Response Application) :=
  asAdministrator caller administrator fun caller =>
    withApplication ⟨caller.accountId, nameSpace, applicationId⟩ "Application not found: "
        fun app => do
      let moment ← consult
      let refusal :=
        if desired = .running ∧ app.desiredState ≠ .running then
          env.admissionRefusal moment app.accountId app.runsUnder app.memoryLimitMb app.minInstances
        else ""
      unlessRefused .conflict (if refusal = "" then ""
          else "Refusing to start '" ++ applicationId ++ "': " ++ refusal)
        (storing { app with desiredState := desired })

def handleStartApplication (env : Env) :=
  @handleSetState Fault env .running

def handleStopApplication (env : Env) :=
  @handleSetState Fault env .stopped

/-- `handleDeleteApplication`, as far as the application goes. -/
def handleDeleteApplication (caller : Option Caller) (administrator : Bool)
    (nameSpace applicationId : String) : Op Fault (Response Unit) :=
  asAdministrator caller administrator fun caller => do
    let key : Key := ⟨caller.accountId, nameSpace, applicationId⟩
    let exists_ ← applicationExists key
    if exists_ = false then
      pure (.refused .notFound ("Application not found: " ++ applicationId))
    else do
      let _read ← findApplicationByApplicationId key
      deleteApplication key
      return .success ()

/-! ### What a deployment says -/

def artifactPendingMessage (artifactKey : String) : String :=
  "The artifact '" ++ artifactKey ++
    "' is still being assembled by ESM. Its checksum is not known " ++
    "yet, so deploying it now could put the previous build on disk. Try again in a moment."

def settledArtifact (text artifactKey : String) : ArtifactLookup → Except Refusal Artifact
  | .missing => .error (.notFound, text ++ artifactKey)
  | .pending => .error (.conflict, artifactPendingMessage artifactKey)
  | .settled artifact => .ok artifact

/-- `applySchedule`: an empty expression takes the schedule away, and any other dates it from
now. -/
def applySchedule (env : Env) (now : Time) (requested : String)
    (app : Application) : Except Refusal Application :=
  if requested = "" then .ok { app with schedule := "", nextRunAt := 0 }
  else
    match env.cron requested >>= fun next => next now with
    | .error what => .error (.badRequest,
        "schedule '" ++ requested ++ "' is not a valid cron expression: " ++ what)
    | .ok nextRunAt => .ok { app with schedule := requested, nextRunAt := nextRunAt }

/-- The refusal of a text, unless it is empty. -/
def refusing (status : Status) (refusal : String) (app : Application) :
    Except Refusal Application :=
  if refusal ≠ "" then .error (status, refusal) else .ok app

def runtimeRefusal : String :=
  "runtime must be one of JAVA, JAVA21, JAVA25, PYTHON, NODEJS, BINARY, RUST"

def typeRefusal (requested : String) : String :=
  "type must be PROCESS or JOB, not '" ++ requested ++ "'"

def createEapApplicationErn (env : Env) (key : Key) : String :=
  "ern:eap:" ++ env.region ++ ":" ++ key.accountId ++ ":" ++ key.nameSpace ++
    ":application:" ++ key.applicationId

def technicalUserId (runtimeName : String) : String := "app-" ++ runtimeName

/-! ### Update -/

/-- What an update may name. Labels that are no labels come with why. -/
structure UpdateRequest where
  applicationId : String
  nodeLabels : Option (Except String (List (String × String)))
  runtime : Option String
  artifact : Option String
  nameSpace : Option String
  user : Option String
  version : Option String
  command : Option String
  arguments : Option (List String)
  environment : Option (List (String × String))
  minInstances : Option Int
  maxInstances : Option Int
  readyTimeoutMs : Option Int
  memoryLimitMb : Option Int
  cpuLimit : Option ℚ
  type : Option String
  schedule : Option String
  resources : Option (List String)

namespace UpdateRequest

variable (outside : Env) (moment : Nat) (req : UpdateRequest) (app : Application)

def checkLabels : Except Refusal Application :=
  match req.nodeLabels with
  | some (.error text) => .error (.badRequest, text)
  | _ => .ok app

def setRuntime : Except Refusal Application :=
  match req.runtime with
  | none => .ok app
  | some text =>
    if Runtime.fromText text = .unknown then .error (.badRequest, runtimeRefusal)
    else .ok { app with runtime := Runtime.fromText text }

def setArtifact : Except Refusal Application :=
  match req.artifact with
  | none => .ok app
  | some artifactKey =>
    (settledArtifact "Artifact not found: " artifactKey
      (outside.findSettledArtifact moment app.bucketErn artifactKey)).map
        fun artifact => { app with
          artifactKey := artifactKey
          md5Sum := artifact.md5Sum
          artifactSize := artifact.size }

def setUser : Except Refusal Application :=
  match req.user with
  | none => .ok app
  | some userId =>
    if userId = "" then .error (.badRequest, "user must name a user; it cannot be emptied")
    else
      match outside.userKeys moment userId with
      | none => .error (.notFound, "User not found: " ++ userId)
      | some false => .error (.badRequest, "User '" ++ userId ++
          "' has no access key - create one with 'euclid-cli eam create-access-key' so the " ++
          "application can authenticate")
      | some true => .ok { app with userId := userId }

/-- What is written as it comes. -/
def setPlain : Application :=
  let minInstances := req.minInstances.elim app.minInstances (max 1)
  { app with
    version := req.version.getD app.version
    command := req.command.getD app.command
    arguments := req.arguments.getD app.arguments
    environment := req.environment.getD app.environment
    minInstances := minInstances
    maxInstances := req.maxInstances.elim app.maxInstances (max minInstances)
    readyTimeoutMs := req.readyTimeoutMs.elim app.readyTimeoutMs (max 1000) }

def setMemoryLimit : Except Refusal Application :=
  match req.memoryLimitMb with
  | none => .ok app
  | some memoryLimitMb =>
    refusing .badRequest (limitRefusal memoryLimitMb) { app with memoryLimitMb := memoryLimitMb }

def setCpuLimit : Except Refusal Application :=
  match req.cpuLimit with
  | none => .ok app
  | some cpuLimit =>
    refusing .badRequest (cpuLimitRefusal cpuLimit) { app with cpuLimit := cpuLimit }

def checkAdmission : Except Refusal Application :=
  refusing .conflict
    (if req.memoryLimitMb.isSome ∨ req.minInstances.isSome then
      outside.admissionRefusal moment app.accountId app.runsUnder app.memoryLimitMb app.minInstances
    else "") app

def setType : Except Refusal Application :=
  match req.type with
  | none => .ok app
  | some requested =>
    if fromText requested = .unknown then
      .error (.badRequest, typeRefusal requested)
    else .ok { app with type := fromText requested }

def setSchedule (now : Time) (app : Application) : Except Refusal Application :=
  match req.schedule with
  | none => .ok app
  | some requested => applySchedule outside now requested app

def checkSchedule : Except Refusal Application :=
  if app.schedule ≠ "" ∧ app.type.isJob = false then
    .error (.badRequest, "application has schedule '" ++ app.schedule ++
      "', which only fires on a JOB - send an empty schedule in the same request to clear it")
  else .ok app

def setLabels : Application :=
  match req.nodeLabels with
  | some (.ok nodeLabels) => { app with nodeLabels := nodeLabels }
  | _ => app

def setResources : Except Refusal Application :=
  match req.resources with
  | none => .ok app
  | some names =>
    match outside.resolveResources moment app.accountId app.nameSpace names with
    | .error unresolved => .error (.notFound, "Not found: " ++ unresolved)
    | .ok resources => .ok { app with resources := resources }

/-- What is checked and set before the namespace is asked for. -/
def beforeMove : Except Refusal Application :=
  (req.checkLabels app >>= req.setRuntime) >>= req.setArtifact outside moment

/-- The application in the namespace it is to work in. -/
def setNameSpace : Application :=
  { app with nameSpace := req.nameSpace.getD app.nameSpace }

/-- What is checked and set once the namespace is free. -/
def afterMove (now : Time) (app : Application) : Except Refusal Application := do
  let named ← req.setUser outside moment app
  let limited ← req.setMemoryLimit (req.setPlain named) >>= req.setCpuLimit
  let admitted ← req.checkAdmission outside moment limited
  let scheduled ← req.setType admitted >>= req.setSchedule outside now
  let checked ← checkSchedule scheduled
  req.setResources outside moment (req.setLabels checked)

end UpdateRequest

section

variable (env : Env) (caller : Option Caller) (administrator : Bool) (nameSpace : String)

/-- `handleUpdateApplication`. An application that moves to another namespace is taken from where it
was before it is written where it goes. -/
def handleUpdateApplication (req : UpdateRequest) : Op Fault (Response Application) :=
  asAdministrator caller administrator fun caller =>
    let key : Key := ⟨caller.accountId, nameSpace, req.applicationId⟩
    withApplication key "Application not found: " fun app => do
      let moment ← consult
      let now ← readSystemClock
      match req.beforeMove env moment app with
      | .error refusal => pure (.refused refusal.1 refusal.2)
      | .ok deployed =>
        let moved := req.setNameSpace deployed
        let namespaceChanged := decide (moved.nameSpace ≠ app.nameSpace)
        let target : Key := ⟨app.accountId, moved.nameSpace, req.applicationId⟩
        let taken ← if namespaceChanged then applicationExists target else pure false
        if taken then
          pure (.refused .conflict ("Namespace '" ++ moved.nameSpace ++
            "' already has an application called '" ++ req.applicationId ++ "'"))
        else
          match req.afterMove env moment now moved with
          | .error refusal => pure (.refused refusal.1 refusal.2)
          | .ok updated =>
            if namespaceChanged then do
              deleteApplication ⟨app.accountId, app.nameSpace, req.applicationId⟩
              storing { updated with ern := createEapApplicationErn env target }
            else storing updated

/-! ### Redeploy -/

structure RedeployRequest where
  applicationId : String
  artifact : Option String
  version : String
  force : Bool

def handleRedeployApplication (req : RedeployRequest) : Op Fault (Response Application) :=
  asAdministrator caller administrator fun caller =>
    let key : Key := ⟨caller.accountId, nameSpace, req.applicationId⟩
    withApplication key "Application not found: " fun app => do
      let moment ← consult
      let artifactKey := req.artifact.getD app.artifactKey
      match settledArtifact "Artifact not found: " artifactKey
          (env.findSettledArtifact moment app.bucketErn artifactKey) with
      | .error refusal => pure (.refused refusal.1 refusal.2)
      | .ok artifact =>
        let version := if req.version = "" then versionFromArtifactName artifactKey
          else req.version
        if version = "" then
          pure (.refused .badRequest
            ("version is required: it could not be read from the artifact name '" ++ artifactKey ++
              "' (expected something like 1.4.0)"))
        else
          let refused := redeployRefusal app.version app.md5Sum artifact.md5Sum
            (env.artifactBytesOnDisk moment app.bucketErn artifactKey)
          if refused ≠ "" ∧ req.force = false then
            pure (.refused .conflict ("Refusing to redeploy '" ++ req.applicationId ++ "': " ++
              refused ++ ". Redeploy with force to do it anyway, or use 'update-application'."))
          else
            storing { app with
              artifactKey := artifactKey
              version := version
              md5Sum := artifact.md5Sum
              artifactSize := artifact.size }

end

/-! ### Names to run under -/

def kMaxPrefix : Nat := 32

def isSafeRuntimeName (name : String) : Bool :=
  decide (name ≠ "" ∧ name ≠ "." ∧ name ≠ "..") &&
    name.toList.all fun character =>
      decide (character ≠ '/' ∧ character ≠ '\\' ∧ character.toNat ≠ 0)

/-- A candidate that is safe and that no application runs under. -/
def freeRuntimeName (cand : String) : Op Fault Bool :=
  if isSafeRuntimeName cand then do
    let taken ← findApplicationByRuntimeName cand
    return taken.isNone
  else pure false

/-- So many more names with a random end are tried. -/
def issueSuffixed (env : Env) (truncated : String) : Nat → Op Fault (Option String)
  | 0 => pure none
  | attempts + 1 => do
    let moment ← consult
    let cand := truncated ++ "-" ++ env.shortId moment
    let free ← freeRuntimeName cand
    if free then pure (some cand) else issueSuffixed env truncated attempts

/-- `IssueRuntimeName`: the identifier itself, or else one of eight names with a random end. -/
def issueRuntimeName (env : Env) (applicationId : String) : Op Fault (Option String) := do
  let truncated := String.ofList (applicationId.toList.take kMaxPrefix)
  let free ← freeRuntimeName truncated
  if free then pure (some truncated) else issueSuffixed env truncated 8

def runtimeNameRefusal (applicationId : String) : String :=
  "could not find a free runtime name for " ++ applicationId

/-! ### Create and copy -/

structure CreateRequest where
  applicationId : String
  nodeLabels : Except String (List (String × String))
  runtime : String
  bucket : String
  artifact : String
  version : String
  resources : List String
  user : String
  command : String
  arguments : List String
  environment : List (String × String)
  minInstances : Int
  maxInstances : Int
  readyTimeoutMs : Int
  memoryLimitMb : Int
  cpuLimit : ℚ
  type : String
  schedule : String

namespace CreateRequest

variable (outside : Env) (moment : Nat) (req : CreateRequest) (app : Application)

def deployed (key : Key) (app : Application) : Except Refusal Application :=
  if req.bucket = "" then .error (.badRequest, "bucket is required")
  else
    match outside.findBucketByName moment key.accountId key.nameSpace req.bucket with
    | none => .error (.notFound, "Bucket not found: " ++ req.bucket)
    | some bucketErn =>
      if req.artifact = "" then .error (.badRequest, "artifact is required")
      else
        (settledArtifact ("Artifact not found in bucket '" ++ req.bucket ++ "': ")
          req.artifact
          (outside.findSettledArtifact moment bucketErn req.artifact)).map
            fun artifact => { app with
              bucketErn := bucketErn
              artifactKey := req.artifact
              md5Sum := artifact.md5Sum
              artifactSize := artifact.size }

def versioned : Except Refusal Application :=
  let version := if req.version = "" then versionFromArtifactName req.artifact
    else req.version
  if version = "" then .error (.badRequest,
    "version is required: it could not be read from the artifact name '" ++ req.artifact ++
      "' (expected something like 1.4.0)")
  else .ok { app with version := version }

def identified (key : Key) (runtimeName : String) (app : Application) :
    Except Refusal Application :=
  match outside.resolveResources moment key.accountId key.nameSpace req.resources with
  | .error unresolved => .error (.notFound, "Not found: " ++ unresolved)
  | .ok resources =>
    let owned := { app with resources := resources }
    if req.user = "" then .ok { owned with userId := technicalUserId runtimeName }
    else
      match outside.userKeys moment req.user with
      | none => .error (.notFound, "User not found: " ++ req.user)
      | some false => .error (.badRequest, "User '" ++ req.user ++
          "' has no access key - create one with 'euclid-cli eam create-access-key' so the " ++
          "application can authenticate")
      | some true => .ok { owned with userId := req.user }

def limited (key : Key) (app : Application) : Except Refusal Application := do
  let memory ← refusing .badRequest (limitRefusal req.memoryLimitMb) app
  let cpu ← refusing .badRequest (cpuLimitRefusal req.cpuLimit) memory
  refusing .conflict (outside.admissionRefusal moment key.accountId "" req.memoryLimitMb
    cpu.minInstances) cpu

def typed : Except Refusal Application :=
  if req.type = "" then .ok app
  else if fromText req.type = .unknown then
    .error (.badRequest, typeRefusal req.type)
  else .ok { app with type := fromText req.type }

def scheduled (now : Time) (app : Application) : Except Refusal Application :=
  if req.schedule = "" then .ok app
  else if app.type.isJob = false then
    .error (.badRequest, "schedule is only valid on a JOB - pass '--type JOB' as well")
  else applySchedule outside now req.schedule app

section

variable (caller : Caller) (key : Key) (runtimeName : String)
  (nodeLabels : List (String × String))

/-- The application as it is before anything has been checked. It is stopped. -/
def proposed : Application :=
  { Application.blank with
    applicationId := key.applicationId
    runtimeName := runtimeName
    accountId := key.accountId
    region := caller.region
    nameSpace := key.nameSpace
    ern := createEapApplicationErn outside key
    runtime := Runtime.fromText req.runtime
    command := req.command
    arguments := req.arguments
    environment := req.environment
    nodeLabels := nodeLabels
    minInstances := max 1 req.minInstances
    maxInstances := max (max 1 req.minInstances) req.maxInstances
    readyTimeoutMs := max 1000 req.readyTimeoutMs
    memoryLimitMb := req.memoryLimitMb
    cpuLimit := req.cpuLimit }

/-- What is to be created, or why it is refused. -/
def decided (now : Time) : Except Refusal Application := do
  let app := req.proposed outside caller key runtimeName nodeLabels
  let running ← refusing .badRequest (if app.runtime = .unknown then runtimeRefusal else "")
    app
  let deployed ← req.deployed outside moment key running >>= req.versioned
  let identified ← req.identified outside moment key runtimeName deployed
  let limited ← req.limited outside moment key identified
  req.typed limited >>= req.scheduled outside now

end

end CreateRequest

/-- The infrastructure that has been provisioned, on what is to be stored. -/
def Application.provisioned (env : Env) (moment : Nat) (app : Application) : Application :=
  match env.provisionInfrastructure moment app with
  | .ok (some owned) => { app with infrastructure := owned }
  | _ => app

def handleCreateApplication (env : Env) (caller : Option Caller)
    (administrator : Bool) (nameSpace : String) (req : CreateRequest) :
    Op Fault (Response Application) :=
  asAdministrator caller administrator fun caller =>
    let key : Key := ⟨caller.accountId, nameSpace, req.applicationId⟩
    if req.applicationId = "" then pure (.refused .badRequest "applicationId is required")
    else
      match req.nodeLabels with
      | .error text => pure (.refused .badRequest text)
      | .ok nodeLabels => do
        let exists_ ← applicationExists key
        if exists_ then
          pure (.refused .conflict ("Application already exists: " ++ req.applicationId))
        else do
          let issued ← issueRuntimeName env req.applicationId
          match issued with
          | none => pure (.refused .internalServerError (runtimeNameRefusal req.applicationId))
          | some runtimeName => do
            let moment ← consult
            let now ← readSystemClock
            match req.decided env moment caller key runtimeName nodeLabels now with
            | .error refusal => pure (.refused refusal.1 refusal.2)
            | .ok app => storing (app.provisioned env moment)

structure CopyRequest where
  applicationId : String
  targetNamespace : String
  targetApplicationId : Option String

/-- What a copy is, where it goes. It is stopped, and owns nothing yet. -/
def Application.copiedTo (env : Env) (moment : Nat) (source : Application)
    (target : Key) (runtimeName : String) (resources : List String) : Application :=
  { source with
    applicationId := target.applicationId
    runtimeName := runtimeName
    nameSpace := target.nameSpace
    ern := createEapApplicationErn env ⟨source.accountId, target.nameSpace, target.applicationId⟩
    resources := resources
    infrastructure := []
    userId := if env.ownsTechnicalUser moment source then technicalUserId runtimeName
      else source.userId
    desiredState := .stopped }

def handleCopyApplication (env : Env) (caller : Option Caller)
    (administrator : Bool) (nameSpace : String) (req : CopyRequest) :
    Op Fault (Response Application) :=
  asAdministrator caller administrator fun caller =>
    let targetApplicationId := req.targetApplicationId.getD req.applicationId
    let target : Key := ⟨caller.accountId, req.targetNamespace, targetApplicationId⟩
    if req.applicationId = "" then pure (.refused .badRequest "applicationId is required")
    else if req.targetNamespace = "" then
      pure (.refused .badRequest "targetNamespace is required")
    else if req.targetNamespace = nameSpace ∧ targetApplicationId = req.applicationId then
      pure (.refused .badRequest ("The copy would be the original: give a different " ++
        "targetNamespace or a targetApplicationId"))
    else
      withApplication ⟨caller.accountId, nameSpace, req.applicationId⟩
          "Application not found: " fun source => do
        let exists_ ← applicationExists target
        if exists_ then
          pure (.refused .conflict ("Application already exists in namespace '" ++
            req.targetNamespace ++ "': " ++ targetApplicationId))
        else do
          let moment ← consult
          if env.namespaceExists moment caller.accountId req.targetNamespace = false then
            pure (.refused .notFound ("Namespace not found: " ++ req.targetNamespace))
          else
            match env.resolveResources moment caller.accountId req.targetNamespace
                source.resources with
            | .error unresolved => pure (.refused .notFound ("Not found in namespace '" ++
                req.targetNamespace ++ "': " ++ unresolved ++
                " - the copy would otherwise run with less access than the original"))
            | .ok resources => do
              let issued ← issueRuntimeName env targetApplicationId
              match issued with
              | none =>
                pure (.refused .internalServerError (runtimeNameRefusal targetApplicationId))
              | some runtimeName =>
                storing (source.copiedTo env moment target runtimeName resources)

end Euclid.Eap
