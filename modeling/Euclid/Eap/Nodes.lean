/-
This file translates the four handlers of `EapServer` that a worker calls: to register its node, to
renew its leases and be told what to run, to report on a slot, and to be given the credentials of an
instance.

A node belongs to an account and to the principal that registered it first. A slot names the node
that has it by the bare name, whatever account the application in it belongs to.
-/

import Euclid.Eag.Server
import Euclid.Eap.Reconcile

namespace Euclid.Eap

open Program
open Bus (Time)
open Emm (ModuleState)
open Eag (Status Response Refusal)
open Eqs (Caller)

variable {Fault Payload : Type}

/-! ### The node of a caller -/

/-- `claimNode`: the node a caller names, which has to be its own, and what is done with it. -/
def claimNode (caller : Caller) (name : String)
    (handler : Node → Op Fault (Response Payload)) : Op Fault (Response Payload) :=
  if name = "" then pure (.refused .badRequest "node is required")
  else do
    let found ← findNodeByName caller.accountId name
    match found with
    | none => pure (.refused .notFound ("Node is not registered, node: " ++ name))
    | some node =>
      if node.principal ≠ "" ∧ node.principal ≠ caller.userId then
        pure (.refused .forbidden ("Node '" ++ name ++ "' is registered to another principal"))
      else handler node

def asCaller (caller : Option Caller) (handler : Caller → Op Fault (Response Payload)) :
    Op Fault (Response Payload) :=
  match caller with
  | none => pure .unauthorized
  | some caller => handler caller

/-! ### Register -/

structure RegisterRequest where
  node : String
  cpuCount : Int
  memoryMb : Int
  memoryTotalMb : Int
  memoryUsedMb : Int
  version : String
  os : String
  arch : String
  address : String
  labels : List (String × String)

/-- The node a registration states. -/
def RegisterRequest.registered (req : RegisterRequest) (caller : Caller) (now : Time) : Node where
  name := req.node
  accountId := caller.accountId
  address := req.address
  principal := caller.userId
  labels := req.labels
  cpuCount := req.cpuCount
  memoryMb := req.memoryMb
  memoryTotalMb := req.memoryTotalMb
  memoryUsedMb := req.memoryUsedMb
  version := req.version
  os := req.os
  arch := req.arch
  loadAverage := 0
  drained := false
  lastSeen := now
  created := now
  modified := now

/-- `handleRegisterNode`: the name is bound to whoever registered it first. -/
def handleRegisterNode (caller : Option Caller) (req : RegisterRequest) :
    Op Fault (Response Node) :=
  asCaller caller fun caller =>
    if req.node = "" then pure (.refused .badRequest "node is required")
    else do
      let existing ← findNodeByName caller.accountId req.node
      if existing.any fun node => node.principal ≠ "" ∧ node.principal ≠ caller.userId then
        pure (.refused .conflict ("Node '" ++ req.node ++ "' is registered to another " ++
          "principal; delete the registration to move the name"))
      else do
        let now ← readSystemClock
        let stored ← upsertNode (req.registered caller now)
        return .success stored

/-! ### Renew -/

/-- What a node is told of one slot that it has. -/
structure Assignment where
  instanceId : String
  applicationId : String
  runtimeName : String
  revision : String
  leaseExpiresAt : Time
  bucketErn : String
  artifactKey : String
  artifactSize : Int
  md5Sum : String
  runtime : Runtime
  type : ApplicationType
  command : String
  arguments : List String
  environment : List (String × String)
  accountId : String
  nameSpace : String
  logLevel : String
  memoryLimitMb : Int
  cpuLimit : ℚ

/-- `ApplicationEnvironment`, with the access key of a user that can log in. The later of two
entries of one name is the one that counts. -/
def applicationEnvironment (env : Env) (moment : Nat) (app : Application) :
    List (String × String) :=
  app.environment ++ [
    ("EUCLID_APPLICATION_ID", app.applicationId),
    ("EUCLID_APPLICATION_REVISION", toISO8601 app.modified),
    ("EUCLID_APPLICATION_VERSION", app.version),
    ("EUCLID_APPLICATION_ERN", app.ern),
    ("EUCLID_ACCOUNT_ID", app.accountId),
    ("EUCLID_REGION", app.region),
    ("EUCLID_USER_ID", app.userId)] ++
  (env.accessKey moment app.userId).elim [] fun key =>
    [("EUCLID_ACCESS_KEY_ID", key.1), ("EUCLID_SECRET_ACCESS_KEY", key.2)]

/-- What is said of an instance: the definition behind its pool, with the artifact as it is now. -/
def Application.assignment (env : Env) (moment : Nat) (runtimeName instanceId : String)
    (expiry : Time) (app : Application) : Assignment :=
  let object := env.findObject moment app.bucketErn app.artifactKey
  { instanceId := instanceId
    applicationId := app.applicationId
    runtimeName := runtimeName
    revision := toISO8601 app.modified
    leaseExpiresAt := expiry
    bucketErn := app.bucketErn
    artifactKey := app.artifactKey
    artifactSize := (object.map Artifact.size).getD 0
    md5Sum := (object.map Artifact.md5Sum).getD app.md5Sum
    runtime := app.runtime
    type := app.type
    command := app.command
    arguments := app.arguments
    environment := applicationEnvironment env moment app
    accountId := app.accountId
    nameSpace := app.nameSpace
    logLevel := app.logLevel
    memoryLimitMb := app.memoryLimitMb
    cpuLimit := app.cpuLimit }

structure RenewRequest where
  node : String
  loadAverage : ℚ
  memoryTotalMb : Option Int
  memoryUsedMb : Option Int

structure Renewal where
  node : String
  leaseExpiresAt : Time
  instances : List Assignment

/-- A slot the node has, with the application behind it, unless that is gone. -/
def assignmentOf (env : Env) (expiry : Time) (name : String) (slot : Slot) :
    Op Fault (Option Assignment) := do
  let found ← findApplicationByRuntimeName name
  match found with
  | none => pure none
  | some app => do
    let moment ← consult
    return some (app.assignment env moment name slot.instanceId expiry)

/-- `handleRenewNode`. What could not be renewed is answered like what could. -/
def handleRenewNode (env : Env) (caller : Option Caller) (req : RenewRequest) :
    Op Fault (Response Renewal) :=
  asCaller caller fun caller =>
    claimNode caller req.node fun node => do
      let now ← readSystemClock
      let expiry := now + env.leasePeriod
      let _touched ← touchNode caller.accountId node.name now req.loadAverage
        req.memoryTotalMb req.memoryUsedMb
      renewInstanceLeases node.name expiry
      let pools ← findAllPools
      let assigned ← mapEach (slotsOf node.name pools) fun (name, slot) =>
        assignmentOf env expiry name slot
      return .success ⟨node.name, expiry, assigned.reduceOption⟩

/-! ### Report -/

structure ReportRequest where
  node : String
  instanceId : String
  runtimeName : String
  reported : Report

def handleReportNodeInstance (caller : Option Caller) (req : ReportRequest) :
    Op Fault (Response Unit) :=
  asCaller caller fun caller =>
    claimNode caller req.node fun node =>
      if req.instanceId = "" ∨ req.runtimeName = "" then
        pure (.refused .badRequest "instanceId and runtimeName are required")
      else do
        let reported ← reportInstanceFromNode req.runtimeName req.instanceId node.name req.reported
        if reported = false then
          pure (.refused .conflict ("Instance '" ++ req.instanceId ++
            "' is not assigned to node '" ++ node.name ++ "'"))
        else pure (.success ())

/-! ### Credentials -/

structure CredentialsRequest where
  node : String
  instanceId : String
  runtimeName : String

structure Credentials where
  userId : String
  accountId : String
  region : String
  nameSpace : String

def applicationNamespace (env : Env) (moment : Nat) (app : Application) : String :=
  if app.nameSpace = "" then env.grantedNamespace moment app
  else app.nameSpace

/-- The credentials of an application's own user. -/
def Application.credentials (env : Env) (moment : Nat) (app : Application) : Credentials :=
  ⟨app.userId, app.accountId, app.region, applicationNamespace env moment app⟩

/-- `handleIssueInstanceCredentials`: for a slot the node has, under a lease that has not run
out. -/
def handleIssueInstanceCredentials (env : Env) (caller : Option Caller)
    (req : CredentialsRequest) : Op Fault (Response Credentials) :=
  asCaller caller fun caller =>
    claimNode caller req.node fun node =>
      if req.instanceId = "" ∨ req.runtimeName = "" then
        pure (.refused .badRequest "instanceId and runtimeName are required")
      else do
        let found ← findPoolByName req.runtimeName
        match found with
        | none => pure (.refused .notFound ("No such pool, runtimeName: " ++ req.runtimeName))
        | some pool =>
          match (pool.instances.find? (Slot.isCalled req.instanceId)).filter
              fun slot => slot.assignedTo = node.name with
          | none => pure (.refused .forbidden ("Instance '" ++ req.instanceId ++
              "' is not assigned to node '" ++ node.name ++ "'"))
          | some slot => do
            let now ← readSystemClock
            if slot.leaseHasExpired 0 now then
              pure (.refused .conflict ("The lease on instance '" ++ req.instanceId ++
                "' has expired; renew before asking for credentials"))
            else do
              let app ← findApplicationByRuntimeName req.runtimeName
              match app with
              | none =>
                pure (.refused .notFound ("No application behind pool " ++ req.runtimeName))
              | some app => do
                let moment ← consult
                return .success (app.credentials env moment)

end Euclid.Eap
