/-
This file translates what the manager does about applications on each of its passes: releasing the
jobs that are due, keeping the slots of every application as its definition asks, and taking back
the slots of nodes that have gone quiet.

A pass reads every application at its start and works through them on those copies. Where an
instance is to go, and which is to be given up, is for the placement, which may look at the nodes,
the slots and what the manager remembers; whatever it says, a slot is only given to a node that
accepts work.
-/

import Euclid.Eap.Repository

namespace Euclid.Eap

open Program
open Bus (Time)

variable {Fault : Type}

/-! ### Settings and the placement -/

/-- How long a lease is good for. -/
def Env.leasePeriod (env : Env) : Time :=
  max 1 env.leaseSeconds * 1000

/-- How much longer the manager waits. -/
def Env.leaseMargin (env : Env) : Time :=
  max 0 env.skewSeconds * 1000

/-- What is decided about instances at a moment: how many a process is to have, where one goes, and
which of some slots is withdrawn, because there are too many or because another node would be
better. -/
structure Placement where
  target : Nat → Application → Nat
  choose : Nat → Application → List Node → Option String
  withdraw : Nat → Application → List Slot → Option String
  rebalance : Nat → Application → List Slot → List Node → Option String

/-- As many instances as an application asks for at least, on the first node that accepts one. -/
def Placement.first : Placement where
  target _ app := app.minInstances.toNat
  choose _ _ nodes := nodes.head?.map Node.name
  withdraw _ _ slots := slots.head?.map Slot.instanceId
  rebalance _ _ _ _ := none

/-- The nodes an instance may go to. -/
def accepting (env : Env) (now : Time) (nodes : List Node) : List Node :=
  nodes.filter fun node => node.acceptsWork env.leasePeriod now

/-- `Placement::Choose`, of the nodes that accept work. -/
def Placement.chooseNode (placement : Placement) (env : Env) (moment : Nat)
    (now : Time) (app : Application) (nodes : List Node) : Option String :=
  (placement.choose moment app (accepting env now nodes)).filter fun name =>
    (accepting env now nodes).any fun node => node.name = name

/-- `nodeApplicationTarget`: a job has its floor, however deep its queues are. -/
def Placement.targetOf (placement : Placement) (moment : Nat) (app : Application) : Nat :=
  if app.type.isJob then (max 1 app.minInstances).toNat
  else placement.target moment app

/-! ### Jobs that are due -/

inductive CronRelease where
  | notDue
  | undated
  | skip
  | fire
  deriving DecidableEq

/-- `CronReleaseFor`: what an occurrence means now. -/
def cronReleaseFor (nextRunAt now : Time) (running : Bool) : CronRelease :=
  if nextRunAt = 0 then .undated
  else if now < nextRunAt then .notDue
  else if running then .skip
  else .fire

/-- The application with its next occurrence, and released where this one fires. -/
def Application.releasedAt (release : CronRelease) (next : Time) (app : Application) :
    Application :=
  { app with
    nextRunAt := next
    desiredState := if release = .fire then .running else app.desiredState }

/-- `releaseDueJob`: the definition as it then stands. Whether it fires, is skipped or is dated for
the first time, all of the copy is written back. -/
def releaseDueJob (env : Env) (app : Application) : Op Fault Application :=
  if app.type.isJob = false ∨ app.schedule = "" then pure app
  else
    match env.cron app.schedule with
    | .error _ => pure app
    | .ok occurrenceAfter => do
      let now ← readSystemClock
      let release := cronReleaseFor app.nextRunAt now (decide (app.desiredState = .running))
      if release = .notDue then pure app
      else
        match occurrenceAfter now with
        | .error _ => pure app
        | .ok next => upsertApplication (app.releasedAt release next)

/-! ### The slots of an application -/

/-- A slot that no node holds. -/
def Slot.isUnheld (slot : Slot) : Bool := decide (slot.assignedTo = "")

/-- Take a slot from the node that has it. -/
def withdrawSlot (runtimeName instanceId : String) : Op Fault Unit := do
  let _assigned ← assignInstance runtimeName instanceId "" 0

/-- A slot as it is placed: stopped, with nothing known of a process. -/
def Slot.placed (instanceId nodeName : String) (leaseExpiresAt now : Time) : Slot where
  instanceId := instanceId
  pid := -1
  host := ""
  assignedTo := nodeName
  leaseExpiresAt := leaseExpiresAt
  state := .stopped
  httpPort := 0
  started := 0
  modified := now

/-- Place so many instances, until no node can take one. -/
def placeInstances (env : Env) (placement : Placement) (app : Application)
    (runtimeName : String) (nodes : List Node) (now : Time) : Nat → Op Fault Unit
  | 0 => pure ()
  | missing + 1 => do
    let moment ← consult
    match placement.chooseNode env moment now app nodes with
    | none => pure ()
    | some nodeName => do
      upsertInstance runtimeName (.placed (runtimeName ++ "-" ++ env.randomUuid moment)
        nodeName (now + env.leasePeriod) now)
      placeInstances env placement app runtimeName nodes now missing

/-- What is left of an application that is to run, once its unheld slots are gone and no run of it
has finished. -/
def scaleNodeApplication (env : Env) (placement : Placement)
    (app : Application) (runtimeName : String) (nodes : List Node) (now : Time)
    (instances : List Slot) : Op Fault Unit := do
  let moment ← consult
  let held := instances.filter fun slot => !slot.isUnheld
  let wanted := placement.targetOf moment app
  if wanted < held.length then
    match placement.withdraw moment app held with
    | none => pure ()
    | some instanceId => withdrawSlot runtimeName instanceId
  else if wanted ≤ held.length then
    match (if app.type.isJob then none
        else placement.rebalance moment app held nodes) with
    | none => pure ()
    | some instanceId => withdrawSlot runtimeName instanceId
  else
    placeInstances env placement app runtimeName nodes now (wanted - held.length)

/-- The slot of a job whose run is over. -/
def finishedSlot (app : Application) (instances : List Slot) : Option Slot :=
  if app.type.isJob then instances.find? fun slot => slot.state = .completed else none

def reconcileNodeApplication (env : Env) (placement : Placement)
    (app : Application) (runtimeName : String) (nodes : List Node) : Op Fault Unit := do
  let now ← readSystemClock
  let existing ← findPoolByName runtimeName
  let instances := (existing.map Pool.instances).getD []
  if app.desiredState ≠ .running then
    forEach (instances.filter fun slot => !slot.isUnheld) fun slot =>
      withdrawSlot runtimeName slot.instanceId
  else do
    forEach (instances.filter Slot.isUnheld) fun slot =>
      removeInstance runtimeName slot.instanceId
    match finishedSlot app instances with
    | some finished => do
      removeInstance runtimeName finished.instanceId
      let _stored ← upsertApplication { app with desiredState := .stopped }
    | none =>
      scaleNodeApplication env placement app runtimeName nodes now instances

/-! ### A pass -/

/-- The nodes of accounts that have been met. -/
abbrev NodesByAccount := List (String × List Node)

/-- The nodes of an account, read when it is met first. -/
def nodesOf (known : NodesByAccount) (accountId : String) : Op Fault (List Node × NodesByAccount) :=
  match known.lookup accountId with
  | some nodes => pure (nodes, known)
  | none => do
    let nodes ← listNodes accountId
    return (nodes, (accountId, nodes) :: known)

/-- The applications of a pass, one after the other. -/
def reconcileEach (env : Env) (placement : Placement) :
    NodesByAccount → List Application → Op Fault Unit
  | _, [] => pure ()
  | known, app :: rest => do
    let current ← releaseDueJob env app
    let (nodes, known) ← nodesOf known current.accountId
    onlyIf (¬(nodes = [] ∧ current.desiredState = .running))
      (reconcileNodeApplication env placement current app.runsUnder nodes)
    reconcileEach env placement known rest

/-- `reconcileApplications`, as far as it writes. -/
def reconcileApplications (env : Env) (placement : Placement) : Op Fault Unit := do
  let applications ← listAllApplications
  let _committed ← findAllPools
  reconcileEach env placement [] applications

/-! ### Leases that have run out -/

/-- Every slot that is given to a node, with the name of its pool. -/
def heldSlots (pools : List Pool) : List (String × Slot) :=
  pools.flatMap fun pool =>
    (pool.instances.filter fun slot => !slot.isUnheld).map fun slot => (pool.name, slot)

/-- A slot whose lease has run out by more than the margin goes to the node the placement chooses,
which may be the one that has it. -/
def reconcileLease (env : Env) (placement : Placement) (now : Time)
    (name : String) (slot : Slot) : Op Fault Unit :=
  onlyIf (slot.leaseHasExpired env.leaseMargin now = true) do
    let found ← findApplicationByRuntimeName name
    match found with
    | none => pure ()
    | some app => do
      let nodes ← listNodes app.accountId
      let moment ← consult
      match placement.chooseNode env moment now app nodes with
      | none => pure ()
      | some chosen => do
        let _assigned ← assignInstance name slot.instanceId chosen (now + env.leasePeriod)

def reconcileNodeLeases (env : Env) (placement : Placement) : Op Fault Unit := do
  let pools ← findAllPools
  let now ← readSystemClock
  let _committed ← listAllApplications
  forEach (heldSlots pools) fun (name, slot) => reconcileLease env placement now name slot

end Euclid.Eap
