/-
This file translates the calls of `MongoEmmRepository` on one instance of a module.

A call reads and writes the collection of module documents through whatever holds it: the
store in memory, or a database. What holds it is a parameter here, so that a call is one and
the same on either; a call that throws is caught, and leaves what it has written before.
-/

import Euclid.Emd.DocumentStore
import Euclid.Emm.Entity

namespace Euclid.Emm

open Emd (Document Value Fault UpdateResult)

/-! ### What holds the modules -/

/-- What holds a collection of documents, as far as the module manager uses it. -/
structure Backend where
  State : Type
  findOne : Document → State → Except Fault (Option Document)
  updateOne : Document → Document → Bool → State → Except Fault (UpdateResult × State)

def nameFilter (name : String) : Document := [("name", .string name)]

/-- The document of a module that has an instance. -/
def instanceFilter (name instanceId : String) : Document :=
  [("name", .string name), ("instances.instanceId", .string instanceId)]

/-- A field of the instance a filter has found. -/
def positional (field : String × Value) : String × Value := ("instances.$." ++ field.1, field.2)

def stampModified : String × Value := ("$currentDate", .document [("modified", .bool true)])

section Calls

variable (backend : Backend)

/-- An update that is caught when it throws: whether it matched a document, and what is held
then. -/
def update (filter update : Document) (upsert : Bool) (state : backend.State) :
    Bool × backend.State :=
  match backend.updateOne filter update upsert state with
  | .ok (result, written) => (decide (0 < result.matched), written)
  | .error _ => (false, state)

/-- Fields of one instance set, through the positional operator. -/
def setOnInstance (name instanceId : String) (fields : Document) (state : backend.State) :
    Bool × backend.State :=
  update backend (instanceFilter name instanceId)
    [("$set", .document (fields.map positional))] false state

/-! ### Calls -/

/-- What an instance that has not reported has. -/
def clearedFields : Document := [("backgroundTasks", .int64 0),
  ("utilisation", .double (-1 : Float).toBits), ("backlog", .int64 (-1))]

def clearInstanceReports (name instanceId : String) : backend.State → Bool × backend.State :=
  setOnInstance backend name instanceId clearedFields

def taskFields (tasks : Int64) : Document := [("backgroundTasks", .int64 tasks)]

def reportBackgroundTasks (name instanceId : String) (tasks : Int64) :
    backend.State → Bool × backend.State :=
  setOnInstance backend name instanceId (taskFields tasks)

def loadFields (now : Int64) (utilisation : UInt64) (backlog activeHandlers : Int64) : Document := [
  ("utilisation", .double utilisation),
  ("backlog", .int64 backlog),
  ("backgroundTasks", .int64 activeHandlers),
  ("loadReportedAt", .date now)]

def reportInstanceLoad (now : Int64) (name instanceId : String) (utilisation : UInt64)
    (backlog activeHandlers : Int64) : backend.State → Bool × backend.State :=
  setOnInstance backend name instanceId (loadFields now utilisation backlog activeHandlers)

def assignmentFields (nodeName : String) (leaseExpiresAt : Int64) : Document :=
  [("assignedTo", .string nodeName), ("leaseExpiresAt", .date leaseExpiresAt)]

def assignInstance (name instanceId nodeName : String) (leaseExpiresAt : Int64) :
    backend.State → Bool × backend.State :=
  setOnInstance backend name instanceId (assignmentFields nodeName leaseExpiresAt)

/-- The documents under `instances`, each an instance. -/
def instancesOf (doc : Document) : List Document :=
  (Emd.entriesOf (doc.field "instances")).filterMap fun entry =>
    match entry with
    | .document fields => some fields
    | _ => none

/-- What a node reports of a process. -/
def processFields (now : Int64) (host : String) (pid httpPort : Int32) (moduleState : ModuleState)
    (started : Int64) : Document := [
  ("host", .string host),
  ("pid", .int32 pid),
  ("httpPort", .int32 httpPort),
  ("state", .string moduleState.toText),
  ("started", .date started),
  ("modified", .date now)]

/-- `reportInstanceFromNode`: only what is still assigned to the node. -/
def reportInstanceFromNode (now : Int64) (name instanceId nodeName host : String)
    (pid httpPort : Int32) (moduleState : ModuleState) (started : Int64) (state : backend.State) :
    Bool × backend.State :=
  if nodeName = "" then (false, state)
  else
    match backend.findOne (nameFilter name) state with
    | .ok (some existing) =>
      match (instancesOf existing).find? fun cand =>
          lastString cand "instanceId" = instanceId with
      | some slot =>
        if lastString slot "assignedTo" ≠ nodeName then (false, state)
        else
          setOnInstance backend name instanceId
            (processFields now host pid httpPort moduleState started) state
      | none => (false, state)
    | _ => (false, state)

/-- The fields of a module that `upsertInstance` writes. -/
def moduleFields (module : Module) : Document := [
  ("executable", .string module.executable),
  ("socketPath", .string module.socketPath),
  ("active", .bool module.active),
  ("core", .bool module.core),
  ("autoRestart", .bool module.autoRestart),
  ("maxRestarts", .int32 module.maxRestarts),
  ("minInstances", .int32 module.minInstances),
  ("maxInstances", .int32 module.maxInstances),
  ("args", .array (module.args.map Value.string))]

/-- Whether another instance of a stored module is running. An entry that is no document cannot be
read. -/
def anyOtherRunning (instanceId : String) : List Value → Except Fault Bool
  | [] => .ok false
  | .document other :: rest =>
    if lastString other "instanceId" ≠ instanceId ∧ stateOf other = .running then .ok true
    else anyOtherRunning instanceId rest
  | _ :: _ => .error .elementType

/-- Whether another instance of a module runs, as far as it is stored. -/
def anotherRuns (instanceId : String) (existing : Option Document) : Except Fault Bool :=
  match existing.bind fun doc => doc.field "instances" with
  | some (.array entries) => anyOtherRunning instanceId entries
  | _ => .ok false

section

variable (now : Int64) (module : Module) (instance_ : ModuleInstance) (state : backend.State)

/-- The fields of a module as they are written: with the time it started, where this is the first
instance of it to run. -/
def startedFields : Except Fault Document :=
  if instance_.state ≠ .running then .ok (moduleFields module)
  else do
    let existing ← backend.findOne (nameFilter module.name) state
    let another ← anotherRuns instance_.instanceId existing
    .ok (if another then moduleFields module
      else moduleFields module ++ [("lastStartTime", .date now)])

def upsertInstance : backend.State :=
  match startedFields backend now module instance_ state with
  | .error _ => state
  | .ok fields =>
    match backend.updateOne (instanceFilter module.name instance_.instanceId)
        [("$set", .document (fields ++ instance_.toDocument.map positional)), stampModified] false
        state with
    | .error _ => state
    | .ok (result, written) =>
      if 0 < result.matched then written
      else
        (update backend (nameFilter module.name)
          [("$set", .document (("name", .string module.name) :: fields)),
            ("$setOnInsert", .document [("created", .date now)]),
            ("$push", .document [("instances", .document instance_.toDocument)]),
            stampModified] true written).2

end

def removeInstance (name instanceId : String) (state : backend.State) : backend.State :=
  (update backend (nameFilter name)
    [("$pull", .document [("instances", .document [("instanceId", .string instanceId)])]),
      stampModified] false state).2

/-- A call on one instance, with its arguments. -/
inductive InstanceCall where
  | upsertInstance (now : Int64) (module : Module) (instance_ : ModuleInstance)
  | removeInstance (name instanceId : String)
  | assignInstance (name instanceId nodeName : String) (leaseExpiresAt : Int64)
  | reportInstanceLoad (now : Int64) (name instanceId : String) (utilisation : UInt64)
    (backlog activeHandlers : Int64)
  | reportBackgroundTasks (name instanceId : String) (tasks : Int64)
  | clearInstanceReports (name instanceId : String)
  | reportInstanceFromNode (now : Int64) (name instanceId nodeName host : String)
    (pid httpPort : Int32) (moduleState : ModuleState) (started : Int64)

def InstanceCall.run (call : InstanceCall) (state : backend.State) : backend.State :=
  match call with
  | .upsertInstance now module instance_ => Emm.upsertInstance backend now module instance_ state
  | .removeInstance name instanceId => Emm.removeInstance backend name instanceId state
  | .assignInstance name instanceId nodeName leaseExpiresAt =>
    (Emm.assignInstance backend name instanceId nodeName leaseExpiresAt state).2
  | .reportInstanceLoad now name instanceId utilisation backlog activeHandlers =>
    (Emm.reportInstanceLoad backend now name instanceId utilisation backlog activeHandlers state).2
  | .reportBackgroundTasks name instanceId tasks =>
    (Emm.reportBackgroundTasks backend name instanceId tasks state).2
  | .clearInstanceReports name instanceId =>
    (Emm.clearInstanceReports backend name instanceId state).2
  | .reportInstanceFromNode now name instanceId nodeName host pid httpPort moduleState started =>
    (Emm.reportInstanceFromNode backend now name instanceId nodeName host pid httpPort moduleState
      started state).2

/-- What is held after some calls, one after the other. -/
def runCalls (calls : List InstanceCall) (state : backend.State) : backend.State :=
  calls.foldl (fun state call => call.run backend state) state

end Calls

end Euclid.Emm
