/-
This file translates `reconcileModuleSettings`: what the records of the modules ask of their
pools.

The pass stops, starts and sizes pools under the lock, then does that work, and then looks at
the thread counts, the restarts and the load the records report. A utilisation is told by the
two questions that are asked of it. The steady clock and the system clock are one clock here.
-/

import Euclid.Bytes
import Euclid.Manager.Scaling

namespace Euclid.Manager

open Collection
open Emm (ModuleState)

/-! ### Records -/

/-- What an instance says of its load. -/
structure ReportedLoad where
  isWorking : Bool
  isSaturated : Bool
  loadReportedAt : Time
  backlog : Int

/-- An instance as a record has it. One that never reported has no load. -/
structure ReportedInstance where
  instanceId : String
  backgroundTasks : Int
  load : Option ReportedLoad

/-- The record of a module, as far as its pool is concerned. A limit that is negative was never
set. -/
structure ModuleRecord where
  name : String
  desiredStopped : Bool
  desiredMinInstances : Int
  desiredMaxInstances : Int
  desiredThreads : Int
  restartRequestedAt : Time
  instances : List ReportedInstance

/-! ### Stopping, starting and sizing -/

/-- What is stopped is done before what is started. -/
def Work.isStop : Work → Bool
  | .stop _ => true
  | _ => false

def enqueue (more work : List Work) : List Work :=
  (work ++ more).filter Work.isStop ++ (work ++ more).filter fun item => !item.isStop

namespace ServiceGroup

/-- The pool with slots up to a size, with an id for each slot that is new. -/
def filledTo (size : Int) (now : Time) (uuid : Nat → String) (group : ServiceGroup) :
    ServiceGroup :=
  { group with
    instances := group.instances ++ (List.range (size - group.slots).toNat).map fun index =>
      .made group.config now (uuid index) }

/-- The slots of a pool in which nothing runs, to be started. -/
def vacant (group : ServiceGroup) : List Work :=
  (group.instances.filter fun svc => svc.pid ≤ 0).map fun svc => .spawn svc.instanceId

/-- The slots of a pool in which something runs, to be stopped. -/
def occupied (group : ServiceGroup) : List Work :=
  (group.instances.filter fun svc => 0 < svc.pid).map fun svc => .stop svc.instanceId

/-- What a record makes of a pool that is to be stopped or started, and what there is to do
afterwards. -/
def settledStopped (now : Time) (uuid : Nat → String) (desiredStopped : Bool)
    (group : ServiceGroup) : ServiceGroup × List Work :=
  if group.stopped = desiredStopped then (group, [])
  else if desiredStopped then ({ group with stopped := true, pendingRoll := [] }, group.occupied)
  else
    let started := { group with stopped := false }.filledTo group.config.minInstances now uuid
    (started, started.vacant)

section

variable (module : ModuleRecord) (group : ServiceGroup)

def wantedMin : Int :=
  if 0 ≤ module.desiredMinInstances then module.desiredMinInstances else group.config.minInstances

def wantedMax : Int :=
  if 0 ≤ module.desiredMaxInstances then module.desiredMaxInstances else group.config.maxInstances

/-- A record asks for other limits than the pool has. -/
def isResized : Bool :=
  (decide (0 ≤ module.desiredMinInstances) || decide (0 ≤ module.desiredMaxInstances)) &&
    !(decide (group.wantedMin module = group.config.minInstances) &&
      decide (group.wantedMax module = group.config.maxInstances))

/-- The pool with the limits a record asks for. -/
def limited : ServiceGroup :=
  { group with
    config := { group.config with
      minInstances := group.wantedMin module
      maxInstances := group.wantedMax module }
    desiredCount := max group.desiredCount (group.wantedMin module) }

end

/-- What the limits of a record make of a pool, and what there is to start afterwards. -/
def settledLimits (now : Time) (uuid : Nat → String) (module : ModuleRecord)
    (group : ServiceGroup) : ServiceGroup × List Work :=
  if group.isResized module = false then (group, [])
  else if group.stopped then (group.limited module, [])
  else
    let filled := (group.limited module).filledTo (group.wantedMin module) now uuid
    (filled, (filled.instances.drop group.instances.length).map fun svc => .spawn svc.instanceId)

end ServiceGroup

/-- Change the pool of a record, and queue what there is to do. Ids are drawn for the slots it may
get. -/
def Controller.settle (settings : Settings) (module : ModuleRecord)
    (settled : (Nat → String) → ServiceGroup → ServiceGroup × List Work) (controller : Controller) :
    Controller :=
  match controller.getGroup module.name with
  | none => controller
  | some group =>
    let uuid := fun index => settings.uuid (controller.drawn + index)
    let changed := controller.updateGroup module.name fun group => (settled uuid group).1
    { changed with
      work := enqueue (settled uuid group).2 controller.work
      drawn := controller.drawn + (settled uuid group).1.instances.length }

section

variable (settings : Settings) (now : Time) (module : ModuleRecord) (controller : Controller)

/-- The part of `reconcileModuleSettings` that stops and starts. -/
def applyStopped : Controller :=
  controller.settle settings module fun uuid group =>
    group.settledStopped now uuid module.desiredStopped

/-- The part of `reconcileModuleSettings` that sizes. -/
def applyLimits : Controller :=
  controller.settle settings module fun uuid group => group.settledLimits now uuid module

end

/-! ### Rolling -/

def ServiceGroup.queueRoll (group : ServiceGroup) : ServiceGroup :=
  { group with
    pendingRoll := (group.instances.filter fun svc => 0 < svc.pid).map ModuleProcess.instanceId }

/-- What `reconcileWorkerThreads` makes of a pool. -/
def ServiceGroup.threadsObserved (module : ModuleRecord) (group : ServiceGroup) : ServiceGroup :=
  if group.appliedThreads = kThreadsUnobserved then
    { group with appliedThreads := module.desiredThreads, requestCapacity := 0 }
  else if module.desiredThreads = group.appliedThreads then group
  else { group with appliedThreads := module.desiredThreads, requestCapacity := 0 }.queueRoll

/-- What `reconcileRestarts` makes of a pool. -/
def ServiceGroup.restartsObserved (module : ModuleRecord) (group : ServiceGroup) : ServiceGroup :=
  if group.restartObserved = false then
    { group with restartObserved := true, appliedRestartAt := module.restartRequestedAt }
  else if module.restartRequestedAt ≤ group.appliedRestartAt then group
  else if group.stopped then { group with appliedRestartAt := module.restartRequestedAt }
  else { group with appliedRestartAt := module.restartRequestedAt }.queueRoll

/-- Take the next slot to restart off a pool, past those that are no longer in it. -/
def ServiceGroup.nextRoll (group : ServiceGroup) : Option String × ServiceGroup :=
  match group.pendingRoll.reverse.dropWhile fun instanceId =>
      !group.instances.any fun svc => svc.instanceId = instanceId with
  | [] => (none, { group with pendingRoll := [] })
  | instanceId :: rest => (some instanceId, { group with pendingRoll := rest.reverse })

/-- The first pool with a slot to restart gives one. -/
def nextRoll : List ServiceGroup → Option String × List ServiceGroup
  | [] => (none, [])
  | group :: rest =>
    match group.nextRoll with
    | (some instanceId, taken) => (some instanceId, taken :: rest)
    | (none, emptied) => ((nextRoll rest).1, emptied :: (nextRoll rest).2)

/-- `rollQueuedInstance`: one slot is stopped and started again. -/
def rollQueuedInstance (controller : Controller) : Controller :=
  match nextRoll controller.services with
  | (none, services) => { controller with services := services }
  | (some instanceId, services) =>
    { controller with
      services := services
      work := controller.work ++ [.stop instanceId, .spawn instanceId] }

/-! ### Load -/

def instancesForBacklog (pending reporting threshold : Int) : Int :=
  if reporting ≤ 0 ∨ pending ≤ 0 ∨ threshold ≤ 0 then 0
  else
    let perInstance := pending / reporting
    if threshold ≤ perInstance then
      int32 ((int64 (int64 (perInstance + threshold) - 1)).tdiv threshold)
    else 0

def nextDesiredCount (current wanted minInstances maxInstances : Int) : Int :=
  let ceiling := max minInstances maxInstances
  let clamped := if wanted < minInstances then minInstances else min wanted ceiling
  if current ≤ clamped then clamped else max clamped (current - 1)

/-- The running instance of a pool with an id. -/
def ServiceGroup.runningInstance (group : ServiceGroup) (instanceId : String) :
    Option ModuleProcess :=
  (group.instances.find? fun svc => svc.instanceId = instanceId).filter fun svc =>
    svc.state = .running

section

variable (settings : Settings) (now : Time)

/-- The reports of the running instances of a pool, where they are fresh. -/
def ServiceGroup.reported (module : ModuleRecord) (group : ServiceGroup) :
    List (String × ReportedLoad) :=
  module.instances.filterMap fun reported =>
    match reported.load, group.runningInstance reported.instanceId with
    | some load, some _ =>
      if now - settings.loadFreshnessSeconds * 1000 ≤ load.loadReportedAt then
        some (reported.instanceId, load)
      else none
    | _, _ => none

/-- What the reports make of one slot: one that is full is busy, and so is one that runs for longer
than a report stays fresh and has not reported. A report that is direct is remembered. -/
def ModuleProcess.loaded (direct : Bool) (reports : List (String × ReportedLoad))
    (svc : ModuleProcess) : ModuleProcess :=
  if svc.state = .running then
    match reports.find? fun report => report.1 = svc.instanceId with
    | some (_, load) =>
      { svc with
        loadReportedAt := if direct then load.loadReportedAt else svc.loadReportedAt
        wasBusySinceLastCheck := svc.wasBusySinceLastCheck || load.isSaturated }
    | none =>
      if (direct ∧ now - settings.loadFreshnessSeconds * 1000 ≤ svc.loadReportedAt) ∨
          (now - svc.startTime).tdiv 1000 < settings.loadFreshnessSeconds then svc
      else { svc with wasBusySinceLastCheck := true }
  else svc

/-- What reports make of a pool: `applyUnreportedAreBusy` and `applyBacklog`. -/
def ServiceGroup.loaded (direct : Bool) (reports : List (String × ReportedLoad))
    (group : ServiceGroup) : ServiceGroup :=
  if reports = [] then group
  else
    let pending := (reports.map fun report => max 0 report.2.backlog).sum
    { group with
      instances := group.instances.map (ModuleProcess.loaded settings now direct reports)
      backlogTarget := true
      lastActivityAt :=
        if 0 < pending ∨ (reports.any fun report => report.2.isWorking) then now
        else group.lastActivityAt
      desiredCount := nextDesiredCount group.desiredCount
        (instancesForBacklog pending reports.length settings.backlogScaleUpMessages)
        group.config.minInstances group.config.maxInstances }

/-- `reconcileApplicationLoad`: what the instances of a pool report directly, or what the metrics
have of those that run where none does. -/
def ServiceGroup.loadObserved (metrics : List (String × ReportedLoad)) (module : ModuleRecord)
    (group : ServiceGroup) : ServiceGroup :=
  if group.reported settings now module = [] then
    group.loaded settings now false
      (metrics.filter fun report => (group.runningInstance report.1).isSome)
  else group.loaded settings now true (group.reported settings now module)

end

/-- What a record makes of the background work of the slots of a pool. -/
def ServiceGroup.backgroundObserved (module : ModuleRecord) (group : ServiceGroup) : ServiceGroup :=
  { group with
    instances := group.instances.map fun svc =>
      match module.instances.reverse.find? fun reported =>
          reported.instanceId = svc.instanceId with
      | some reported => { svc with backgroundTasks := reported.backgroundTasks }
      | none => svc }

/-- The part of `reconcileModuleSettings` that observes what a record says of threads, restarts,
background work and load. -/
def observe (settings : Settings) (now : Time) (metrics : List (String × ReportedLoad))
    (module : ModuleRecord) (controller : Controller) : Controller :=
  controller.updateGroup module.name fun group =>
    (((group.threadsObserved module).restartsObserved module).backgroundObserved
      module).loadObserved
      settings now metrics module

end Euclid.Manager
