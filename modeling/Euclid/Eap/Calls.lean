/-
This file puts the handlers of EAP and the passes of the manager together as the parties that share
the store, and says what each may ask of it.

A party that writes the whole of an application has read it, and changes in its copy only the fields
it is about; or it has found no application there and makes one. That a program keeps to this is a
fact about its text. What it means for the store while other programs run is for the files that
build on this one.
-/

import Euclid.Eap.Fields
import Euclid.Eap.Nodes
import Euclid.Eap.Rows
import Euclid.Interleaving

namespace Euclid.Eap

open Program
open Bus (Time StoreError)
open Eag (Response)
open Eqs (Caller)

/-! ### Parties -/

/-- Who asks for something, in which namespace. -/
structure Requester where
  caller : Option Caller
  administrator : Bool
  nameSpace : String

/-- What a client, a worker or the manager has done. -/
inductive Call where
  | createApplication (requester : Requester) (req : CreateRequest)
  | copyApplication (requester : Requester) (req : CopyRequest)
  | updateApplication (requester : Requester) (req : UpdateRequest)
  | redeployApplication (requester : Requester) (req : RedeployRequest)
  | startApplication (requester : Requester) (applicationId : String)
  | stopApplication (requester : Requester) (applicationId : String)
  | restartApplication (requester : Requester) (applicationId : String)
  | scaleApplication (requester : Requester) (applicationId : String)
    (minInstances maxInstances : Int)
  | setApplicationLimits (requester : Requester) (applicationId : String)
    (memoryLimitMb : Option Int) (cpuLimit : Option ℚ)
  | setLogLevel (requester : Requester) (applicationId level : String)
  | rebalanceApplication (requester : Requester) (applicationId : String)
  | applyInfrastructure (plan : Bool) (requester : Requester) (applicationId : String)
  | deleteApplication (requester : Requester) (applicationId : String)
  | registerNode (caller : Option Caller) (req : RegisterRequest)
  | renewNode (caller : Option Caller) (req : RenewRequest)
  | reportNodeInstance (caller : Option Caller) (req : ReportRequest)
  | issueInstanceCredentials (caller : Option Caller) (req : CredentialsRequest)
  | reconcileApplications
  | reconcileNodeLeases

def discarding {Fault Result : Type} (operation : Op Fault Result) : Op Fault Unit := do
  let _ ← operation
  pure ()

def Call.handler (env : Env) (placement : Placement) : Call → Op Empty Unit
  | .createApplication ⟨caller, administrator, nameSpace⟩ req =>
    discarding (handleCreateApplication env caller administrator nameSpace req)
  | .copyApplication ⟨caller, administrator, nameSpace⟩ req =>
    discarding (handleCopyApplication env caller administrator nameSpace req)
  | .updateApplication ⟨caller, administrator, nameSpace⟩ req =>
    discarding (handleUpdateApplication env caller administrator nameSpace req)
  | .redeployApplication ⟨caller, administrator, nameSpace⟩ req =>
    discarding (handleRedeployApplication env caller administrator nameSpace req)
  | .startApplication ⟨caller, administrator, nameSpace⟩ applicationId =>
    discarding (handleStartApplication env caller administrator nameSpace applicationId)
  | .stopApplication ⟨caller, administrator, nameSpace⟩ applicationId =>
    discarding (handleStopApplication env caller administrator nameSpace applicationId)
  | .restartApplication ⟨caller, administrator, nameSpace⟩ applicationId =>
    discarding (handleRestartApplication caller administrator nameSpace applicationId)
  | .scaleApplication ⟨caller, administrator, nameSpace⟩ applicationId minInstances maxInstances =>
    discarding (handleScaleApplication env caller administrator nameSpace applicationId
      minInstances maxInstances)
  | .setApplicationLimits ⟨caller, administrator, nameSpace⟩ applicationId memoryLimitMb cpuLimit =>
    discarding (handleSetApplicationLimits env caller administrator nameSpace applicationId
      memoryLimitMb cpuLimit)
  | .setLogLevel ⟨caller, administrator, nameSpace⟩ applicationId level =>
    discarding (handleSetLogLevel env caller administrator nameSpace applicationId level)
  | .rebalanceApplication ⟨caller, administrator, nameSpace⟩ applicationId =>
    discarding (handleRebalanceApplication caller administrator nameSpace applicationId)
  | .applyInfrastructure plan ⟨caller, administrator, nameSpace⟩ applicationId =>
    discarding (handleApplyInfrastructure env plan caller administrator nameSpace applicationId)
  | .deleteApplication ⟨caller, administrator, nameSpace⟩ applicationId =>
    discarding (handleDeleteApplication caller administrator nameSpace applicationId)
  | .registerNode caller req => discarding (handleRegisterNode caller req)
  | .renewNode caller req => discarding (handleRenewNode env caller req)
  | .reportNodeInstance caller req => discarding (handleReportNodeInstance caller req)
  | .issueInstanceCredentials caller req =>
    discarding (handleIssueInstanceCredentials env caller req)
  | .reconcileApplications => Eap.reconcileApplications env placement
  | .reconcileNodeLeases => Eap.reconcileNodeLeases env placement

/-- The calls that deploy an application, or deploy it again. -/
def Call.deploys : Call → Bool
  | .createApplication .. | .updateApplication .. | .redeployApplication ..
  | .restartApplication .. => true
  | _ => false

/-- The calls that say that an application is to run. -/
def Call.releases : Call → Bool
  | .startApplication .. | .reconcileApplications => true
  | _ => false

/-- The calls that make an application, or take one from one key to another. -/
def Call.places : Call → Bool
  | .createApplication .. | .copyApplication .. | .updateApplication .. => true
  | _ => false

def Call.rewrites : Call → Bool
  | .updateApplication .. | .redeployApplication .. | .startApplication ..
  | .stopApplication .. | .reconcileApplications => true
  | _ => false

def Call.deletes : Call → Bool
  | .deleteApplication .. | .updateApplication .. => true
  | _ => false

/-- The fields a call names. The manager is about those of an occurrence and of a state that it
changes. -/
def Call.names (call : Call) (copy written : Application) : List Field :=
  match call with
  | .updateApplication _ req => req.fields
  | .redeployApplication .. => [.artifactKey, .version, .md5Sum, .artifactSize]
  | .startApplication .. | .stopApplication .. => [.desiredState]
  | .reconcileApplications =>
    [.nextRunAt, .desiredState].filter fun field => written.value field ≠ copy.value field
  | _ => []

/-- The fields a write of a copy is about: those the call names, and the dates it is stamped
with. -/
def Call.about (call : Call) (copy written : Application) : List Field :=
  .modified :: (if copy.created = 0 then [.created] else []) ++ call.names copy written

/-! ### The discipline -/

/-- The application a party has read under each key. -/
abbrev Copies := Key → Option Application

/-- What a party has read once it has been answered. What it has written it has read as well. -/
def Req.reads (copies : Copies) : (req : Req) → req.Answer → Copies
  | .application (.findByKey key), .ok found => Function.update copies key found
  | .application (.findByKey key), .error _ => Function.update copies key none
  | .application .listAll, .ok applications => fun key => rowAt key applications
  | .application .listAll, .error _ => fun _ => none
  | .application (.upsert written), .ok stored => Function.update copies written.key (some stored)
  | .application (.upsert written), .error _ => Function.update copies written.key (some written)
  | _, _ => copies

/-- What a party may write whole. -/
def Call.mayWrite (call : Call) (copies : Copies) (written : Application) : Prop :=
  (call.deploys ∨ call.releases ∨ written.desiredState = .stopped) ∧
    match copies written.key with
    | none => call.places
    | some copy => call.rewrites ∧ written.AgreesBut (call.about copy written) copy

def Call.mayAsk (call : Call) (copies : Copies) : Req → Prop
  | .application (.upsert written) => call.mayWrite copies written
  | .application (.touch _) => call.deploys
  | .application (.delete _) => call.deletes
  | _ => True

def Req.answered : (req : Req) → req.Answer → Prop
  | .application (.findByKey key), .ok found => ∀ app, found = some app → app.key = key
  | .application .listAll, .ok applications => Indexed applications
  | .application (.upsert written), .ok stored => stored.key = written.key
  | _, _ => True

/-- A party knows what it does, and what it has read. -/
def writeBack : Discipline Req Req.Answer (Call × Copies) where
  allows session req := session.1.mayAsk session.2 req
  expects _ req answer := req.answered answer
  after session req answer := (session.1, req.reads session.2 answer)

/-! ### Requests that read no application by its key -/

/-- The requests that neither write an application nor look for one by its key. -/
def Req.IsSilent : Req → Prop
  | .application (.findByRuntimeName _) => True
  | .application _ => False
  | _ => True

/-- The requests anybody may make. -/
def Req.IsFree : Req → Prop
  | .application (.upsert _) | .application (.touch _) | .application (.delete _) => False
  | _ => True

section Follows

variable {Fault Result Result' : Type} {session : Call × Copies}

theorem free_allowed {req : Req} (free : req.IsFree) : writeBack.allows session req := by
  cases req with
  | application stmt => cases stmt <;> trivial
  | _ => trivial

theorem silent_free {req : Req} (silent : req.IsSilent) : req.IsFree := by
  cases req with
  | application stmt => cases stmt <;> trivial
  | _ => trivial

variable {operation : Op Fault Result}

theorem silent_follows (asks : operation.Asks Req.IsSilent) :
    operation.Follows writeBack session fun _ reached => reached = session := by
  refine asks.follows (fun req silent => free_allowed (silent_free silent)) ?_
  intro req silent answer
  cases req with
  | application stmt => cases stmt <;> first | rfl | exact absurd silent id
  | _ => rfl

theorem free_follows (asks : operation.Asks Req.IsFree) :
    operation.Follows writeBack session fun _ _ => True :=
  asks.follows_keeping (fun _ => True) trivial (fun _ _ _ free => free_allowed free)
    fun _ _ _ _ _ => trivial

theorem discarding_follows (follows : operation.Follows writeBack session fun _ _ => True) :
    (discarding operation).Follows writeBack session fun _ _ => True := by
  unfold discarding
  exact follows.freely fun _ _ => trivial

theorem silent_bind {continuation : Result → Op Fault Result'}
    {ends : Except Fault Result' → Call × Copies → Prop} (asks : operation.Asks Req.IsSilent)
    (follows : ∀ result, (continuation result).Follows writeBack session ends)
    (raises : ∀ fault, ends (.error fault) session) :
    (operation >>= continuation).Follows writeBack session ends := by
  rw [follows_bind]
  refine (silent_follows asks).mono fun outcome reached same => ?_
  subst same
  cases outcome with
  | ok result => exact follows result
  | error fault => exact raises fault

end Follows

end Euclid.Eap
