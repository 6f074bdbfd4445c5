/-
This file translates the records of EAP: an application, with the rules it is refused by, and a
node that runs applications.

The definition of an application is what ties the programs together. EAP writes it, the manager
reads it to place instances, and what a worker is told of it, with the time it was changed last, is
what the worker runs. Times are in milliseconds, and a limit in cores is exact.
-/

import Mathlib.Algebra.Order.Ring.Unbundled.Rat
import Euclid.Bus.Entity

namespace Euclid.Eap

open Bus (Time)

/-! ### What an application is -/

inductive ApplicationState where
  | running
  | stopped
  | unknown
  deriving DecidableEq

inductive ApplicationType where
  | process
  | job
  | unknown
  deriving DecidableEq

def ApplicationType.fromText : String → ApplicationType
  | "PROCESS" => .process
  | "JOB" => .job
  | _ => .unknown

def ApplicationType.isJob (type : ApplicationType) : Bool := decide (type = .job)

inductive Runtime where
  | java
  | java21
  | java25
  | python
  | nodeJs
  | binary
  | rust
  | unknown
  deriving DecidableEq

def Runtime.fromText : String → Runtime
  | "JAVA" => .java
  | "JAVA21" => .java21
  | "JAVA25" => .java25
  | "PYTHON" => .python
  | "NODEJS" => .nodeJs
  | "BINARY" => .binary
  | "RUST" => .rust
  | _ => .unknown

/-- What an application is known by within an installation. -/
structure Key where
  accountId : String
  nameSpace : String
  applicationId : String
  deriving DecidableEq

structure Application where
  applicationId : String
  runtimeName : String
  ern : String
  accountId : String
  region : String
  nameSpace : String
  runtime : Runtime
  bucketErn : String
  artifactKey : String
  version : String
  md5Sum : String
  artifactSize : Int
  command : String
  arguments : List String
  environment : List (String × String)
  resources : List String
  nodes : List String
  nodeLabels : List (String × String)
  infrastructure : List String
  userId : String
  minInstances : Int
  maxInstances : Int
  readyTimeoutMs : Int
  memoryLimitMb : Int
  cpuLimit : ℚ
  desiredState : ApplicationState
  type : ApplicationType
  schedule : String
  nextRunAt : Time
  logLevel : String
  rebalanceRequested : Time
  created : Time
  modified : Time

def Application.blank : Application where
  applicationId := ""
  runtimeName := ""
  ern := ""
  accountId := ""
  region := ""
  nameSpace := ""
  runtime := .unknown
  bucketErn := ""
  artifactKey := ""
  version := ""
  md5Sum := ""
  artifactSize := 0
  command := ""
  arguments := []
  environment := []
  resources := []
  nodes := []
  nodeLabels := []
  infrastructure := []
  userId := ""
  minInstances := 1
  maxInstances := 1
  readyTimeoutMs := 30000
  memoryLimitMb := 0
  cpuLimit := 0
  desiredState := .stopped
  type := .process
  schedule := ""
  nextRunAt := 0
  logLevel := ""
  rebalanceRequested := 0
  created := 0
  modified := 0

/-- The three fields the collection is indexed by. -/
def Application.key (app : Application) : Key :=
  ⟨app.accountId, app.nameSpace, app.applicationId⟩

/-- `RuntimeName`: what the manager runs an application under. -/
def Application.runsUnder (app : Application) : String :=
  if app.runtimeName = "" then app.applicationId else app.runtimeName

/-! ### What an application is refused for -/

/-- `ScaleRefusal`, where a bound below zero is left alone. -/
def scaleRefusal (requestedMin requestedMax currentMin currentMax : Int) : String :=
  let effectiveMin := if 0 ≤ requestedMin then requestedMin else currentMin
  let effectiveMax := if 0 ≤ requestedMax then requestedMax else currentMax
  if requestedMin < 0 ∧ requestedMax < 0 then
    "Nothing to change: give minInstances, maxInstances, or both"
  else if requestedMin = 0 then
    "minInstances must be at least 1 - use 'stop-application' to take it out of service"
  else if requestedMax = 0 then "maxInstances must be at least 1"
  else if effectiveMax < effectiveMin then
    "minInstances (" ++ toString effectiveMin ++ ") cannot exceed maxInstances (" ++
      toString effectiveMax ++ ")"
  else ""

def kMinimumMemoryLimitMb : Int := 64

def limitRefusal (memoryLimitMb : Int) : String :=
  if memoryLimitMb < 0 then "memoryLimitMb cannot be negative - use 0 to remove the limit"
  else if 0 < memoryLimitMb ∧ memoryLimitMb < kMinimumMemoryLimitMb then
    "memoryLimitMb must be 0 (no limit) or at least " ++ toString kMinimumMemoryLimitMb ++
      " MiB; " ++ toString memoryLimitMb ++ " MiB is too little for any instance to start"
  else ""

def kMinimumCpuLimit : ℚ := 1 / 100

def cpuLimitRefusal (cpuLimit : ℚ) : String :=
  if cpuLimit < 0 then "cpuLimit cannot be negative - use 0 to remove the limit"
  else if 0 < cpuLimit ∧ cpuLimit < kMinimumCpuLimit then
    "cpuLimit must be 0 (no limit) or at least 0.01 cores - the kernel cannot throttle to less " ++
      "than 1 ms in 100"
  else ""

/-- `RedeployRefusal`: nothing is compared where the bytes are gone, or were never recorded. -/
def redeployRefusal (deployedVersion deployedMd5Sum md5Sum : String) (artifactBytesPresent : Bool) :
    String :=
  if artifactBytesPresent ∧ deployedMd5Sum ≠ "" ∧ md5Sum ≠ "" ∧ md5Sum = deployedMd5Sum then
    "the artifact is byte for byte the build already deployed" ++
      (if deployedVersion = "" then "" else " as version " ++ deployedVersion) ++
      " - nothing would change"
  else ""

/-- `RestartRefusal`: only what is wanted running can be restarted. -/
def restartRefusal (app : Application) : String :=
  if app.desiredState ≠ .running then
    app.applicationId ++ " is stopped - use \"eap start-application\" to bring it back"
  else ""

/-! ### The version in a name -/

/-- The digits a text begins with, and the rest of it. -/
def spanDigits (text : List Char) : List Char × List Char := text.span Char.isDigit

/-- A text begins with digits that a dot follows. -/
def digitsDot (text : List Char) : Option (List Char × List Char) :=
  match spanDigits text with
  | ([], _) => none
  | (digits, '.' :: rest) => some (digits ++ ['.'], rest)
  | _ => none

/-- The three numbers with dots between them that a text begins with. -/
def versionHere (text : List Char) : Option (List Char) :=
  (digitsDot text).bind fun (major, afterMajor) =>
    (digitsDot afterMajor).bind fun (minor, afterMinor) =>
      match spanDigits afterMinor with
      | ([], _) => none
      | (patch, _) => some (major ++ minor ++ patch)

/-- `VersionFromArtifactName`: the first such place, or nothing. -/
def versionFromArtifactName (name : String) : String :=
  String.ofList ((name.toList.tails.findSome? versionHere).getD [])

example : versionFromArtifactName "file-copy-service-2.0.11-SNAPSHOT.jar" = "2.0.11" := by decide

/-! ### Nodes -/

structure Node where
  name : String
  accountId : String
  address : String
  principal : String
  labels : List (String × String)
  cpuCount : Int
  memoryMb : Int
  memoryTotalMb : Int
  memoryUsedMb : Int
  version : String
  os : String
  arch : String
  loadAverage : ℚ
  drained : Bool
  lastSeen : Time
  created : Time
  modified : Time

/-- `isLive`: heard from within a period. -/
def Node.isLive (node : Node) (within now : Time) : Bool :=
  decide (node.lastSeen ≠ 0) && decide (now ≤ node.lastSeen + within)

def Node.acceptsWork (node : Node) (within now : Time) : Bool :=
  !node.drained && node.isLive within now

/-! ### A time as text -/

/-- The year, the month and the day of a day counted from the epoch. -/
def civilFromDays (days : Int) : Int × Int × Int :=
  let shifted := days + 719468
  let era := shifted.fdiv 146097
  let dayOfEra := shifted - era * 146097
  let yearOfEra := (dayOfEra - dayOfEra / 1460 + dayOfEra / 36524 - dayOfEra / 146096) / 365
  let dayOfYear := dayOfEra - (365 * yearOfEra + yearOfEra / 4 - yearOfEra / 100)
  let shiftedMonth := (5 * dayOfYear + 2) / 153
  let day := dayOfYear - (153 * shiftedMonth + 2) / 5 + 1
  let month := if shiftedMonth < 10 then shiftedMonth + 3 else shiftedMonth - 9
  (yearOfEra + era * 400 + (if month ≤ 2 then 1 else 0), month, day)

/-- A number of so many digits at least. -/
def padded (width : Nat) (number : Int) : String :=
  let digits := toString number
  "".pushn '0' (width - digits.length) ++ digits

/-- `ToISO8601`: the moment in UTC, with the fraction of its second in nanoseconds. -/
def toISO8601 (time : Time) : String :=
  let (year, month, day) := civilFromDays (time.fdiv 86400000)
  let ofDay := time.fmod 86400000
  padded 4 year ++ "-" ++ padded 2 month ++ "-" ++ padded 2 day ++ "T" ++
    padded 2 (ofDay / 3600000) ++ ":" ++ padded 2 (ofDay / 60000 % 60) ++ ":" ++
    padded 2 (ofDay / 1000 % 60) ++ "." ++ padded 9 (ofDay % 1000 * 1000000) ++ "Z"

example : toISO8601 1760000000123 = "2025-10-09T08:53:20.123000000Z" := by decide

end Euclid.Eap
