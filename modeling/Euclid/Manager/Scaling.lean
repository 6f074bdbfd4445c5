/-
This file translates what a tick of the watchdog does to the pools: its restart pass, and
`evaluateScaling`. Both run under one lock; what they decide to start and stop is done after
it is given back.
-/

import Euclid.Manager.Pool

namespace Euclid.Manager

open Emm (ModuleState)

/-! ### The restart pass -/

/-- The slot has been restarted as often as it may be. -/
def ModuleProcess.isSpent (svc : ModuleProcess) : Bool :=
  decide (svc.config.maxRestarts ≠ -1) && decide (svc.config.maxRestarts ≤ svc.restartCount)

/-- The slot is restarted on this tick. -/
def ModuleProcess.isDue (now : Time) (svc : ModuleProcess) : Bool :=
  decide (svc.state = .pendingRestart) && !svc.isSpent &&
    decide (svc.currentDelay ≤ now - svc.lastCrashTime)

/-- What the restart pass makes of a slot: given up, restarted, or left to its backoff. -/
def ModuleProcess.restarted (now : Time) (svc : ModuleProcess) : ModuleProcess :=
  if svc.state = .pendingRestart ∧ svc.isSpent then { svc with state := .stopped }
  else if svc.isDue now then
    { svc with
      state := .restarting
      restartCount := svc.restartCount + 1
      currentDelay := min (svc.currentDelay * 2) svc.config.maxRestartDelayMs }
  else svc

/-- What the restart pass makes of a pool, and which slots it restarts. -/
def ServiceGroup.restartPass (now : Time) (group : ServiceGroup) : ServiceGroup × List Work :=
  if group.stopped then (group, [])
  else
    ({ group with instances := group.instances.map (ModuleProcess.restarted now) },
      (group.instances.filter (ModuleProcess.isDue now)).map fun svc => .restart svc.instanceId)

/-- The restart pass of `startWatchdog`. -/
def restartPass (now : Time) (controller : Controller) : Controller :=
  { controller with
    services := controller.services.map fun group => (group.restartPass now).1
    work := controller.work ++ controller.services.flatMap fun group => (group.restartPass now).2 }

/-! ### Scaling -/

/-- The instance served something since the last tick, or is serving now. -/
def ModuleProcess.isBusy (svc : ModuleProcess) : Bool :=
  decide (0 < svc.activeRequests) || svc.wasBusySinceLastCheck

/-- Of two idle instances the one that has been idle for longer, the first if both have. -/
def longerIdle (cand : Option ModuleProcess) (svc : ModuleProcess) : Option ModuleProcess :=
  match cand with
  | none => some svc
  | some other => if svc.lastIdleAt < other.lastIdleAt then some svc else some other

namespace ServiceGroup

def busy (group : ServiceGroup) : Int :=
  group.instances.countP fun svc => decide (svc.state = .running) && svc.isBusy

/-- The running instance that has been idle for longest. -/
def idleCandidate (group : ServiceGroup) : Option ModuleProcess :=
  (group.instances.filter fun svc => decide (svc.state = .running) && !svc.isBusy).foldl longerIdle
    none

/-- Every running instance is busy. -/
def isSaturated (group : ServiceGroup) : Bool :=
  decide (0 < group.running) && decide (group.running ≤ group.busy)

/-- The pool as it has been looked at: no instance has been busy since, and another tick is counted
if all were. -/
def checked (group : ServiceGroup) : ServiceGroup :=
  { group with
    instances := group.instances.map fun svc =>
      if svc.state = .running then { svc with wasBusySinceLastCheck := false } else svc
    saturatedTicks := if group.isSaturated then group.saturatedTicks + 1 else 0 }

/-- The pool is asked for another instance: it has been saturated for long enough, or fewer run than
are wanted, and fewer run than may. -/
def isGrowing (settings : Settings) (group : ServiceGroup) : Bool :=
  ((group.isSaturated && decide (settings.scaleUpSaturatedTicks ≤ group.checked.saturatedTicks)) ||
      decide (group.running < group.desiredCount)) &&
    decide (group.running < group.config.maxInstances)

def isIdle (settings : Settings) (now : Time) (group : ServiceGroup) : Bool :=
  settings.scaleDownIdleSeconds ≤ (now - group.lastActivityAt).tdiv 1000

def isOverProvisioned (group : ServiceGroup) : Bool :=
  group.backlogTarget && decide (group.desiredCount < group.running)

/-- The pool with one slot more. -/
def grown (now : Time) (instanceId : String) (group : ServiceGroup) : ServiceGroup :=
  { group with instances := group.instances ++ [.made group.config now instanceId] }

/-- An idle pool gives up its target. -/
def settled (settings : Settings) (now : Time) (group : ServiceGroup) : ServiceGroup :=
  if group.isIdle settings now then { group with desiredCount := group.config.minInstances }
  else group

/-- What `evaluateScaling` makes of one pool, with an id for a new slot, and what there is to start
and to stop afterwards. -/
def scaled (settings : Settings) (now : Time) (instanceId : String) (group : ServiceGroup) :
    ServiceGroup × List Work × List Work :=
  if group.stopped then (group, [], [])
  else if group.isGrowing settings then
    (group.checked.grown now instanceId, [.spawn instanceId], [])
  else
    match group.idleCandidate with
    | none => (group.checked, [], [])
    | some cand =>
      if group.config.minInstances < group.running ∧
          (group.isIdle settings now ∨ group.isOverProvisioned) then
        if 0 < cand.inFlightRequests ∨ 0 < cand.backgroundTasks then
          (group.checked.settled settings now, [], [])
        else
          ({ group.checked with instances := group.checked.instances.erase cand }.settled
            settings now, [], [.retire cand])
      else (group.checked, [], [])

end ServiceGroup

/-- `evaluateScaling`. Every pool has an id drawn for it, used or not. -/
def evaluateScaling (settings : Settings) (now : Time) (controller : Controller) : Controller :=
  let scaled := controller.services.mapIdx fun index group =>
    group.scaled settings now (settings.uuid (controller.drawn + index))
  { services := scaled.map Prod.fst
    work := controller.work ++ (scaled.flatMap fun each => each.2.1) ++
      scaled.flatMap fun each => each.2.2
    drawn := controller.drawn + controller.services.length }

end Euclid.Manager
