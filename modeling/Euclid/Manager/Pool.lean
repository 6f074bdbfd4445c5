/-
This file translates the pools of the service manager: the slots of a module, what a request,
an exit or a declared need changes about them, and what the watchdog thread still has to do
about their processes.

A slot is shared by pointer in the source; here it is found by its instance id, which is drawn
once for each slot. What is written to the database about a slot is left out, as are sockets,
ports and pipes. Times are in milliseconds.
-/

import Euclid.Collection
import Euclid.Emm.Entity

namespace Euclid.Manager

open Collection
open Emm (ModuleState)

/-- A moment of the steady clock, in milliseconds. -/
abbrev Time := Int

/-! ### Slots and pools -/

structure ModuleConfig where
  name : String
  autoRestart : Bool
  maxRestarts : Int
  restartDelayMs : Int
  maxRestartDelayMs : Int
  minInstances : Int
  maxInstances : Int
  deriving DecidableEq

structure ModuleProcess where
  instanceId : String
  config : ModuleConfig
  pid : Int
  state : ModuleState
  restartCount : Int
  currentDelay : Int
  startTime : Time
  lastCrashTime : Time
  activeRequests : Int
  inFlightRequests : Int
  backgroundTasks : Int
  loadReportedAt : Time
  lastIdleAt : Time
  wasBusySinceLastCheck : Bool
  deriving DecidableEq

open ModuleProcess

/-- A slot as it is made: nothing runs in it yet. -/
def ModuleProcess.made (config : ModuleConfig) (now : Time) (instanceId : String) :
    ModuleProcess where
  instanceId := instanceId
  config := config
  pid := -1
  state := .stopped
  restartCount := 0
  currentDelay := 1000
  startTime := 0
  lastCrashTime := 0
  activeRequests := 0
  inFlightRequests := 0
  backgroundTasks := 0
  loadReportedAt := 0
  lastIdleAt := now
  wasBusySinceLastCheck := false

def kThreadsUnobserved : Int := -2

structure ServiceGroup where
  config : ModuleConfig
  instances : List ModuleProcess
  rrCursor : Nat
  lastActivityAt : Time
  desiredCount : Int
  saturatedTicks : Int
  backlogTarget : Bool
  stopped : Bool
  appliedThreads : Int
  requestCapacity : Int
  pendingRoll : List String
  restartObserved : Bool
  appliedRestartAt : Time

/-- How many slots a pool has, whatever runs in them. -/
def ServiceGroup.slots (group : ServiceGroup) : Int := group.instances.length

/-- How many instances of a pool are running. -/
def ServiceGroup.running (group : ServiceGroup) : Int :=
  group.instances.countP fun svc => svc.state = .running

/-- What is configured for the manager, and where instance ids come from. -/
structure Settings where
  scaleDownIdleSeconds : Int
  scaleUpSaturatedTicks : Int
  loadFreshnessSeconds : Int
  backlogScaleUpMessages : Int
  threadsOf : String → Int
  uuid : Nat → String

/-- What the watchdog thread does outside the lock: it starts and stops processes, and waits for
them. A slot that was scaled down is no longer in its pool. -/
inductive Work where
  | restart (instanceId : String)
  | spawn (instanceId : String)
  | awaitReady (instanceId : String) (restarting : Bool)
  | stop (instanceId : String)
  | awaitExit (instanceId : String)
  | retire (svc : ModuleProcess)

/-- The pools, in the order of their names, the work the watchdog thread has before it, and how many
ids have been drawn. -/
structure Controller where
  services : List ServiceGroup
  work : List Work
  drawn : Nat

namespace Controller

def getGroup (name : String) (controller : Controller) : Option ServiceGroup :=
  controller.services.find? fun group => group.config.name = name

def updateGroup (name : String) (change : ServiceGroup → ServiceGroup) (controller : Controller) :
    Controller :=
  { controller with
    services := updateFirst (fun group => group.config.name = name) change controller.services }

end Controller

section

variable (selects : ModuleProcess → Bool) (change : ModuleProcess → ModuleProcess)

/-- Change the first slot a filter selects. -/
def ServiceGroup.updateInstance (group : ServiceGroup) : ServiceGroup :=
  { group with instances := updateFirst selects change group.instances }

/-- Change the slot a filter selects, in whichever pool it is. -/
def Controller.updateInstance (controller : Controller) : Controller :=
  { controller with
    services := updateFirst (fun group => group.instances.any selects)
      (ServiceGroup.updateInstance selects change) controller.services }

end

/-! ### Requests -/

def requestCapacity (settings : Settings) (group : ServiceGroup) : Int :=
  if 0 < group.appliedThreads then group.appliedThreads
  else max 1 (min (settings.threadsOf group.config.name) 1024)

def requestsSaturate (active threads : Int) : Bool := max 1 threads ≤ active

/-- The slot a request goes to: the first that runs, from the cursor on and around. -/
def ServiceGroup.picked (group : ServiceGroup) : Option Nat :=
  ((List.range group.instances.length).map fun offset =>
    (group.rrCursor + offset) % group.instances.length).find? fun index =>
      (group.instances[index]?.map state) = some .running

/-- What a request makes of the slot it goes to. -/
def ModuleProcess.acquired (capacity : Int) (countsAsLoad : Bool) (svc : ModuleProcess) :
    ModuleProcess :=
  let active := if countsAsLoad then svc.activeRequests + 1 else svc.activeRequests
  { svc with
    inFlightRequests := svc.inFlightRequests + 1
    activeRequests := active
    wasBusySinceLastCheck :=
      svc.wasBusySinceLastCheck || (countsAsLoad && requestsSaturate active capacity) }

/-- What a request makes of the pool it goes to. -/
def ServiceGroup.acquired (settings : Settings) (now : Time) (countsAsLoad : Bool)
    (group : ServiceGroup) : ServiceGroup :=
  match group.picked with
  | none => group
  | some index =>
    let capacity := if group.requestCapacity ≤ 0 then Manager.requestCapacity settings group
      else group.requestCapacity
    { group with
      rrCursor := (index + 1) % group.instances.length
      instances := group.instances.modify index (ModuleProcess.acquired capacity countsAsLoad)
      requestCapacity := if countsAsLoad then capacity else group.requestCapacity
      lastActivityAt := if countsAsLoad then now else group.lastActivityAt }

def acquireInstance (settings : Settings) (now : Time) (name : String) (countsAsLoad : Bool)
    (controller : Controller) : Controller :=
  controller.updateGroup name (ServiceGroup.acquired settings now countsAsLoad)

/-- What the end of a request makes of the slot it went to. -/
def ModuleProcess.released (now : Time) (countsAsLoad : Bool) (svc : ModuleProcess) :
    ModuleProcess :=
  let active := if countsAsLoad ∧ 0 < svc.activeRequests then svc.activeRequests - 1
    else svc.activeRequests
  { svc with
    inFlightRequests := if 0 < svc.inFlightRequests then svc.inFlightRequests - 1
      else svc.inFlightRequests
    activeRequests := active
    lastIdleAt := if countsAsLoad ∧ active = 0 then now else svc.lastIdleAt }

def releaseInstance (now : Time) (name : String) (pid : Int) (countsAsLoad : Bool)
    (controller : Controller) : Controller :=
  controller.updateGroup name (ServiceGroup.updateInstance (fun svc => svc.pid = pid)
    (released now countsAsLoad))

def declareExpectedConcurrency (name : String) (desired : Int) (controller : Controller) :
    Controller :=
  controller.updateGroup name fun group =>
    if group.config.maxInstances < desired then group
    else { group with desiredCount := max group.desiredCount desired }

/-! ### Processes -/

/-- `handleExitedInstance`, with `scheduleRestart`. -/
def handleExitedInstance (now : Time) (svc : ModuleProcess) : ModuleProcess :=
  if svc.state = .stopping ∨ svc.state = .stopped then { svc with pid := -1, state := .stopped }
  else
    { svc with
      pid := -1
      lastCrashTime := now
      state := if svc.config.autoRestart then .pendingRestart else .crashed }

def onChildExit (now : Time) (pid : Int) (controller : Controller) : Controller :=
  controller.updateInstance (fun svc => svc.pid = pid) (handleExitedInstance now)

namespace ModuleProcess

def forked (now : Time) (pid : Int) (svc : ModuleProcess) : ModuleProcess :=
  { svc with
    pid := pid
    state := .starting
    startTime := now
    activeRequests := 0
    inFlightRequests := 0
    backgroundTasks := 0
    lastIdleAt := now }

def unforked (svc : ModuleProcess) : ModuleProcess :=
  { svc with backgroundTasks := 0, state := .crashed }

/-- The slot waits for its next restart. -/
def pending (now : Time) (svc : ModuleProcess) : ModuleProcess :=
  { svc with state := .pendingRestart, lastCrashTime := now }

/-- The process is ready. One that was restarted and has run for a minute starts over with its
backoff. -/
def ready (now : Time) (restarting : Bool) (svc : ModuleProcess) : ModuleProcess :=
  if restarting ∧ 60 < (now - svc.startTime).tdiv 1000 then
    { svc with state := .running, restartCount := 0, currentDelay := svc.config.restartDelayMs }
  else { svc with state := .running }

end ModuleProcess

/-- What became of a process the watchdog thread has started, stopped or waited for. -/
inductive Outcome where
  | forked (pid : Int)
  | ready
  | exited
  | failed

/-- What the watchdog thread does next about a process: `spawnInstance` and `stopInstance`, in
two parts each. -/
def doWork (now : Time) (outcome : Outcome) (controller : Controller) : Controller :=
  match controller.work with
  | [] => controller
  | .restart instanceId :: rest =>
    match outcome with
    | .forked pid =>
      { controller.updateInstance (fun svc => svc.instanceId = instanceId)
          (forked now pid) with work := .awaitReady instanceId true :: rest }
    | _ =>
      { controller.updateInstance (fun svc => svc.instanceId = instanceId)
          (fun svc => svc.unforked.pending now) with work := rest }
  | .spawn instanceId :: rest =>
    match outcome with
    | .forked pid =>
      { controller.updateInstance (fun svc => svc.instanceId = instanceId)
          (forked now pid) with work := .awaitReady instanceId false :: rest }
    | _ =>
      { controller.updateInstance (fun svc => svc.instanceId = instanceId)
          unforked with work := rest }
  | .awaitReady instanceId restarting :: rest =>
    match outcome with
    | .ready =>
      { controller.updateInstance (fun svc => svc.instanceId = instanceId)
          (ready now restarting) with work := rest }
    | _ =>
      { controller.updateInstance (fun svc => svc.instanceId = instanceId)
          (fun svc => { svc.pending now with pid := -1 }) with work := rest }
  | .stop instanceId :: rest =>
    if controller.services.any fun group => group.instances.any fun svc =>
        decide (svc.instanceId = instanceId) && decide (0 < svc.pid) then
      { controller.updateInstance (fun svc => svc.instanceId = instanceId)
          (fun svc => { svc with state := .stopping }) with work := .awaitExit instanceId :: rest }
    else { controller with work := rest }
  | .awaitExit instanceId :: rest =>
    match outcome with
    | .exited =>
      { controller.updateInstance (fun svc => svc.instanceId = instanceId)
          (fun svc => { svc with pid := -1, state := .stopped }) with work := rest }
    | _ => { controller with work := rest }
  | .retire _ :: rest => { controller with work := rest }

end Euclid.Manager
