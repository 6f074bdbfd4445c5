/-
This file translates the records of the module manager: an instance of a module, and the
document it is written as and read from.

A module's document holds its instances in one array. What the manager writes of an instance is
not all that is stored of it: the figures of its load are written by the instance itself, and
are in no document the manager writes.
-/

import Euclid.Emd.Value

namespace Euclid.Emm

open Emd (Document Value)

/-! ### States -/

inductive ModuleState where
  | stopped
  | starting
  | running
  | stopping
  | crashed
  | pendingRestart
  | restarting
  | completed
  | oomKilled
  | unknown
  deriving DecidableEq

def ModuleState.toText : ModuleState → String
  | .stopped => "STOPPED"
  | .starting => "STARTING"
  | .running => "RUNNING"
  | .stopping => "STOPPING"
  | .crashed => "CRASHED"
  | .pendingRestart => "PENDING_RESTART"
  | .restarting => "RESTARTING"
  | .completed => "COMPLETED"
  | .oomKilled => "OOM_KILLED"
  | .unknown => "UNKNOWN"

def ModuleState.named : List ModuleState :=
  [.stopped, .starting, .running, .stopping, .crashed, .pendingRestart, .restarting, .completed,
    .oomKilled, .unknown]

def ModuleState.fromText (text : String) : ModuleState :=
  (named.find? fun state => state.toText = text).getD .unknown

/-! ### Instances -/

/-- What the manager holds of one instance. The figures an instance reports about itself are left
out: the manager writes none of them. Times are in milliseconds. -/
structure ModuleInstance where
  instanceId : String
  pid : Int32
  host : String
  assignedTo : String
  leaseExpiresAt : Int64
  state : ModuleState
  socketPath : String
  httpPort : Int32
  restartCount : Int32
  started : Int64
  created : Int64
  modified : Int64

def ModuleInstance.toDocument (instance_ : ModuleInstance) : Document := [
  ("instanceId", .string instance_.instanceId),
  ("pid", .int32 instance_.pid),
  ("host", .string instance_.host),
  ("assignedTo", .string instance_.assignedTo),
  ("leaseExpiresAt", .date instance_.leaseExpiresAt),
  ("state", .string instance_.state.toText),
  ("socketPath", .string instance_.socketPath),
  ("httpPort", .int32 instance_.httpPort),
  ("restartCount", .int32 instance_.restartCount),
  ("started", .date instance_.started),
  ("created", .date instance_.created),
  ("modified", .date instance_.modified)]

/-- The fields of an instance that are its own to write. -/
def loadFigures : List String := ["backgroundTasks", "utilisation", "backlog", "loadReportedAt"]

/-- `getBsonString`: nothing where the field is no string. -/
def getBsonString : Value → String
  | .string text => text
  | _ => ""

/-- The last field of a document with a name, as a reader that goes through all of them has it. -/
def lastString (doc : Document) (name : String) : String :=
  ((doc.filter fun field => field.1 = name).getLast?.map fun field =>
    getBsonString field.2).getD ""

/-- The state `ModuleInstance::fromDocument` reads: that of a new instance is STOPPED. -/
def stateOf (doc : Document) : ModuleState :=
  ((doc.filter fun field => field.1 = "state").getLast?.map fun field =>
    ModuleState.fromText (getBsonString field.2)).getD .stopped

/-! ### Modules -/

/-- What the manager writes of a module beside its instances. -/
structure Module where
  name : String
  executable : String
  socketPath : String
  active : Bool
  core : Bool
  autoRestart : Bool
  maxRestarts : Int32
  minInstances : Int32
  maxInstances : Int32
  args : List String

end Euclid.Emm
