/-
This file translates the operations of `MongoEapRepository`, and those of `MongoEmmRepository` on
the slots of a pool: what each asks of the store, and what it answers when that fails.

Every operation catches what fails below it. A search then answers that there is nothing, and a
write that it has not found what to write to, whether or not it was carried out.
-/

import Euclid.Eap.Statement

namespace Euclid.Eap

open Program
open Bus (Time StoreError)

variable {Fault Result : Type}

/-- A piece of EAP, the manager or a worker that may fail with a fault. -/
abbrev Op (Fault Result : Type) := Program Req Req.Answer Fault Result

/-! ### Statements -/

def readSystemClock : Op Fault Time := issue Req.now

/-- The moment other modules are asked at. -/
def consult : Op Fault Nat := issue Req.moment

def onApplications (stmt : ApplicationStatement) : Op StoreError stmt.Answer := do
  ofExcept (← issue (Req.application stmt))

def onNodes (stmt : NodeStatement) : Op StoreError stmt.Answer := do
  ofExcept (← issue (Req.node stmt))

def onPools (stmt : PoolStatement) : Op StoreError stmt.Answer := do
  ofExcept (← issue (Req.pool stmt))

/-- A `try` whose `catch` logs and answers `fallback`. -/
def orAnswer (operation : Op StoreError Result) (fallback : Result) : Op Fault Result :=
  operation.catching fun _ => .done fallback

/-! ### Applications -/

/-- The dates `upsertApplication` puts on what it writes. -/
def Application.stamped (now : Time) (app : Application) : Application :=
  { app with
    created := if app.created = 0 then now else app.created
    modified := now }

def upsertApplication (app : Application) : Op Fault Application := do
  let now ← readSystemClock
  orAnswer (onApplications (.upsert (app.stamped now))) (app.stamped now)

def findApplicationByApplicationId (key : Key) : Op Fault (Option Application) :=
  orAnswer (onApplications (.findByKey key)) none

def findApplicationByRuntimeName (runtimeName : String) : Op Fault (Option Application) :=
  orAnswer (onApplications (.findByRuntimeName runtimeName)) none

def applicationExists (key : Key) : Op Fault Bool := do
  let found ← findApplicationByApplicationId key
  return found.isSome

def listAllApplications : Op Fault (List Application) :=
  orAnswer (onApplications .listAll) []

section

variable (key : Key)

def deleteApplication : Op Fault Unit := orAnswer (onApplications (.delete key)) ()

/-- A bound below zero is left alone, and nothing is asked where both are. -/
def setApplicationInstances (minInstances maxInstances : Int) : Op Fault Bool :=
  if minInstances < 0 ∧ maxInstances < 0 then pure true
  else orAnswer (onApplications (.setInstances key
    (if 0 ≤ minInstances then some minInstances else none)
    (if 0 ≤ maxInstances then some maxInstances else none))) false

def setApplicationLimits (memoryLimitMb : Int) (cpuLimit : ℚ) : Op Fault Bool :=
  if memoryLimitMb < 0 ∧ cpuLimit < 0 then pure true
  else orAnswer (onApplications (.setLimits key
    (if 0 ≤ memoryLimitMb then some memoryLimitMb else none)
    (if 0 ≤ cpuLimit then some cpuLimit else none))) false

def setApplicationInfrastructure (infrastructure : List String) : Op Fault Bool :=
  orAnswer (onApplications (.setInfrastructure key infrastructure)) false

def setApplicationLogLevel (logLevel : String) : Op Fault Bool :=
  orAnswer (onApplications (.setLogLevel key logLevel)) false

def touchApplication : Op Fault Bool :=
  orAnswer (onApplications (.touch key)) false

def requestRebalance : Op Fault Bool :=
  orAnswer (onApplications (.requestRebalance key)) false

end

/-! ### Nodes -/

def upsertNode (node : Node) : Op Fault Node := do
  let now ← readSystemClock
  orAnswer (onNodes (.upsert { node with modified := now })) { node with modified := now }

def findNodeByName (accountId name : String) : Op Fault (Option Node) :=
  orAnswer (onNodes (.findByName accountId name)) none

def listNodes (accountId : String) : Op Fault (List Node) :=
  orAnswer (onNodes (.list accountId)) []

def touchNode (accountId name : String) (seenAt : Time) (loadAverage : ℚ)
    (memoryTotalMb memoryUsedMb : Option Int) : Op Fault Bool :=
  orAnswer (onNodes (.touch accountId name seenAt loadAverage memoryTotalMb memoryUsedMb)) false

def setNodeDrained (accountId name : String) (drained : Bool) : Op Fault Bool :=
  orAnswer (onNodes (.setDrained accountId name drained)) false

/-! ### Slots -/

def findAllPools : Op Fault (List Pool) := orAnswer (onPools .findAll) []

def findPoolByName (name : String) : Op Fault (Option Pool) :=
  orAnswer (onPools (.findByName name)) none

/-- `upsertInstance`, of an instance that is not running. -/
def upsertInstance (name : String) (slot : Slot) : Op Fault Unit :=
  orAnswer (do
    let matched : Bool ← onPools (.replace name slot)
    onlyIf (matched = false) (onPools (.push name slot))) ()

def removeInstance (name instanceId : String) : Op Fault Unit :=
  orAnswer (onPools (.removeInstance name instanceId)) ()

def assignInstance (name instanceId nodeName : String) (leaseExpiresAt : Time) : Op Fault Bool :=
  orAnswer (onPools (.assign name instanceId nodeName leaseExpiresAt)) false

/-- The slots of some pools that name a node, each with the name of its pool. -/
def slotsOf (nodeName : String) (pools : List Pool) : List (String × Slot) :=
  pools.flatMap fun pool =>
    (pool.instances.filter fun slot => slot.assignedTo = nodeName).map fun slot => (pool.name, slot)

/-- `renewInstanceLeases`: one write for each slot that names the node when the pools are read. A
write that fails ends it, and what was written before stays. -/
def renewInstanceLeases (nodeName : String) (leaseExpiresAt : Time) : Op Fault Unit :=
  if nodeName = "" then pure ()
  else do
    let pools ← findAllPools
    orAnswer (forEach (slotsOf nodeName pools) fun (name, slot) => do
      let _renewed : Bool ← onPools (.renewLease name slot.instanceId leaseExpiresAt)) ()

/-- `reportInstanceFromNode`: the assignment is checked on the pool as it was read. -/
def reportInstanceFromNode (name instanceId nodeName : String) (reported : Report) :
    Op Fault Bool :=
  if nodeName = "" then pure false
  else do
    let existing ← findPoolByName name
    match existing.bind fun pool => pool.instances.find? (Slot.isCalled instanceId) with
    | none => pure false
    | some slot =>
      if slot.assignedTo ≠ nodeName then pure false
      else do
        let now ← readSystemClock
        orAnswer (onPools (.report name instanceId reported now)) false

end Euclid.Eap
