/-
This file says what the statements of `MongoEapRepository` and of the node half of
`MongoEmmRepository` do to the collections of applications, nodes and pools.

A statement is atomic, and between two statements of one program any other program may have made
its own. Most statements on an application write named fields of it. One writes the whole of it,
from a copy, and puts it there if there is none.
-/

import Euclid.Bus.Statement
import Euclid.Collection
import Euclid.Eap.Entity
import Euclid.Emm.Entity

namespace Euclid.Eap

open Bus (Time StoreError Outage underOutage)
open Collection
open Emm (ModuleState)

/-! ### Pools -/

/-- A slot of a pool: the instance, as a node and the manager know it. -/
structure Slot where
  instanceId : String
  pid : Int
  host : String
  assignedTo : String
  leaseExpiresAt : Time
  state : ModuleState
  httpPort : Int
  started : Time
  modified : Time

/-- `leaseHasExpired`: an instance that holds no lease has none to lose. -/
def Slot.leaseHasExpired (slot : Slot) (margin now : Time) : Bool :=
  decide (slot.leaseExpiresAt ≠ 0) && decide (slot.leaseExpiresAt + margin < now)

/-- What the manager runs under one name. -/
structure Pool where
  name : String
  instances : List Slot

/-- What a node reports of the process in a slot. -/
structure Report where
  host : String
  pid : Int
  httpPort : Int
  state : ModuleState
  started : Time

/-! ### Statements on applications -/

inductive ApplicationStatement where
  | upsert (app : Application)
  | findByKey (key : Key)
  | findByRuntimeName (runtimeName : String)
  | listAll
  | delete (key : Key)
  | setInstances (key : Key) (minInstances maxInstances : Option Int)
  | setLimits (key : Key) (memoryLimitMb : Option Int) (cpuLimit : Option ℚ)
  | setInfrastructure (key : Key) (infrastructure : List String)
  | setLogLevel (key : Key) (logLevel : String)
  | touch (key : Key)
  | requestRebalance (key : Key)

/-- What a statement answers when it does not fail. A targeted write says whether it found the
application. -/
@[reducible] def ApplicationStatement.Answer : ApplicationStatement → Type
  | .upsert _ => Application
  | .findByKey _ => Option Application
  | .findByRuntimeName _ => Option Application
  | .listAll => List Application
  | .delete _ => Unit
  | _ => Bool

/-- `applicationFilter`. -/
def Application.isAt (key : Key) (app : Application) : Bool :=
  decide (app.key = key)

open Application

/-- What a stored application is after a copy has been written over it. A copy without a runtime
name writes none. -/
def Application.replacedBy (copy stored : Application) : Application :=
  { copy with
    runtimeName := if copy.runtimeName = "" then stored.runtimeName else copy.runtimeName }

/-- The unique indexes beside the key: a name, and a runtime name unless it is missing. -/
def Application.clashes (written : Application) (applications : List Application) : Bool :=
  applications.any fun other => decide (other.key ≠ written.key) &&
    (decide (other.ern = written.ern) ||
      (decide (written.runtimeName ≠ "") && decide (other.runtimeName = written.runtimeName)))

/-- What a targeted write makes of an application, at a time of the store's clock. -/
def ApplicationStatement.change (now : Time) (stmt : ApplicationStatement)
    (app : Application) : Application :=
  match stmt with
  | .setInstances _ minInstances maxInstances =>
    { app with
      minInstances := minInstances.getD app.minInstances
      maxInstances := maxInstances.getD app.maxInstances }
  | .setLimits _ memoryLimitMb cpuLimit =>
    { app with
      memoryLimitMb := memoryLimitMb.getD app.memoryLimitMb
      cpuLimit := cpuLimit.getD app.cpuLimit }
  | .setInfrastructure _ infrastructure => { app with infrastructure := infrastructure }
  | .setLogLevel _ logLevel => { app with logLevel := logLevel }
  | .touch _ => { app with modified := now }
  | .requestRebalance _ => { app with rebalanceRequested := now }
  | _ => app

/-- Whether there is an application under a key, and the applications with that one changed. -/
def targeted (key : Key) (change : Application → Application) (applications : List Application) :
    Except StoreError Bool × List Application :=
  (.ok (applications.any (isAt key)),
    updateFirst (isAt key) change applications)

/-- The filter of `findApplicationByRuntimeName`: a missing runtime name is the identifier. -/
def Application.runsAs (runtimeName : String) (app : Application) : Bool :=
  decide (app.runtimeName = runtimeName ∧ runtimeName ≠ "") ||
    decide (app.applicationId = runtimeName ∧ app.runtimeName = "")

/-- `find_one_and_update` with the whole document. -/
def upsertIn (applications : List Application) (copy : Application) :
    Except StoreError Application × List Application :=
  match applications.find? (isAt copy.key) with
  | some stored =>
    if (copy.replacedBy stored).clashes applications then (.error .duplicateKey, applications)
    else (.ok (copy.replacedBy stored),
      updateFirst (isAt copy.key) copy.replacedBy applications)
  | none =>
    if copy.clashes applications then (.error .duplicateKey, applications)
    else (.ok copy, applications ++ [copy])

def byApplicationId (applications : List Application) : List Application :=
  applications.insertionSort fun first second => first.applicationId ≤ second.applicationId

/-- One statement over the applications, at a time of the store's clock. -/
def ApplicationStatement.apply (now : Time) (applications : List Application) :
    (stmt : ApplicationStatement) → Except StoreError stmt.Answer × List Application
  | .upsert app => upsertIn applications app
  | .findByKey key => (.ok (applications.find? (isAt key)), applications)
  | .findByRuntimeName runtimeName =>
    (.ok (applications.find? (runsAs runtimeName)), applications)
  | .listAll => (.ok (byApplicationId applications), applications)
  | .delete key => (.ok (), applications.eraseP (isAt key))
  | .setInstances key minInstances maxInstances =>
    targeted key ((setInstances key minInstances maxInstances).change now) applications
  | .setLimits key memoryLimitMb cpuLimit =>
    targeted key ((setLimits key memoryLimitMb cpuLimit).change now) applications
  | .setInfrastructure key infrastructure =>
    targeted key ((setInfrastructure key infrastructure).change now) applications
  | .setLogLevel key logLevel => targeted key ((setLogLevel key logLevel).change now) applications
  | .touch key => targeted key ((touch key).change now) applications
  | .requestRebalance key => targeted key ((requestRebalance key).change now) applications

/-! ### Statements on nodes -/

inductive NodeStatement where
  | upsert (node : Node)
  | findByName (accountId name : String)
  | list (accountId : String)
  | touch (accountId name : String) (seenAt : Time) (loadAverage : ℚ)
    (memoryTotalMb memoryUsedMb : Option Int)
  | setDrained (accountId name : String) (drained : Bool)
  | delete (accountId name : String)

@[reducible] def NodeStatement.Answer : NodeStatement → Type
  | .upsert _ => Node
  | .findByName .. => Option Node
  | .list _ => List Node
  | _ => Bool

/-- `nodeFilter`. -/
def Node.isNamed (accountId name : String) (node : Node) : Bool :=
  decide (node.accountId = accountId) && decide (node.name = name)

/-- A registration over one that is there: when it was created stays. -/
def Node.replacedBy (registered stored : Node) : Node :=
  { registered with created := stored.created }

/-- The fields `touchNode` sets. -/
def Node.touched (now seenAt : Time) (loadAverage : ℚ) (memoryTotalMb memoryUsedMb : Option Int)
    (node : Node) : Node :=
  { node with
    lastSeen := seenAt
    loadAverage := loadAverage
    memoryTotalMb := memoryTotalMb.getD node.memoryTotalMb
    memoryUsedMb := memoryUsedMb.getD 0
    modified := now }

def NodeStatement.apply (now : Time) (nodes : List Node) :
    (stmt : NodeStatement) → Except StoreError stmt.Answer × List Node
  | .upsert node =>
    match nodes.find? (Node.isNamed node.accountId node.name) with
    | some stored => (.ok (node.replacedBy stored),
        updateFirst (Node.isNamed node.accountId node.name) node.replacedBy nodes)
    | none => (.ok node, nodes ++ [node])
  | .findByName accountId name => (.ok (nodes.find? (Node.isNamed accountId name)), nodes)
  | .list accountId => (.ok (nodes.filter fun node => node.accountId = accountId), nodes)
  | .touch accountId name seenAt loadAverage memoryTotalMb memoryUsedMb =>
    (.ok (nodes.any (Node.isNamed accountId name)), updateFirst (Node.isNamed accountId name)
        (Node.touched now seenAt loadAverage memoryTotalMb memoryUsedMb) nodes)
  | .setDrained accountId name drained =>
    (.ok (nodes.any (Node.isNamed accountId name)), updateFirst (Node.isNamed accountId name)
        (fun node => { node with drained := drained, modified := now }) nodes)
  | .delete accountId name =>
    (.ok (nodes.any (Node.isNamed accountId name)), nodes.eraseP (Node.isNamed accountId name))

/-! ### Statements on pools -/

/-- A positional write names a pool and an instance of it. The two statements of `upsertInstance`
are `replace` and, where that finds no such instance, `push`. -/
inductive PoolStatement where
  | findAll
  | findByName (name : String)
  | replace (name : String) (slot : Slot)
  | push (name : String) (slot : Slot)
  | removeInstance (name instanceId : String)
  | assign (name instanceId nodeName : String) (leaseExpiresAt : Time)
  | renewLease (name instanceId : String) (leaseExpiresAt : Time)
  | report (name instanceId : String) (reported : Report) (now : Time)

@[reducible] def PoolStatement.Answer : PoolStatement → Type
  | .findAll => List Pool
  | .findByName _ => Option Pool
  | .push .. => Unit
  | .removeInstance .. => Unit
  | _ => Bool

def Slot.isCalled (instanceId : String) (slot : Slot) : Bool :=
  decide (slot.instanceId = instanceId)

/-- The filter of a positional write. -/
def Pool.holds (name instanceId : String) (pool : Pool) : Bool :=
  decide (pool.name = name) && pool.instances.any (Slot.isCalled instanceId)

def Pool.changing (instanceId : String) (change : Slot → Slot) (pool : Pool) : Pool :=
  { pool with instances := updateFirst (Slot.isCalled instanceId) change pool.instances }

def positional (name instanceId : String) (change : Slot → Slot) (pools : List Pool) :
    Except StoreError Bool × List Pool :=
  (.ok (pools.any (Pool.holds name instanceId)),
    updateFirst (Pool.holds name instanceId) (Pool.changing instanceId change) pools)

/-- The fields of a report, written over those of a slot. -/
def Slot.reported (report : Report) (now : Time) (slot : Slot) : Slot :=
  { slot with
    host := report.host
    pid := report.pid
    httpPort := report.httpPort
    state := report.state
    started := report.started
    modified := now }

def PoolStatement.apply (pools : List Pool) :
    (stmt : PoolStatement) → Except StoreError stmt.Answer × List Pool
  | .findAll => (.ok pools, pools)
  | .findByName name => (.ok (pools.find? fun pool => pool.name = name), pools)
  | .replace name slot => positional name slot.instanceId (fun _ => slot) pools
  | .push name slot =>
    if pools.any fun pool => pool.name = name then
      (.ok (), updateFirst (fun pool => pool.name = name)
        (fun pool => { pool with instances := pool.instances ++ [slot] }) pools)
    else (.ok (), pools ++ [⟨name, [slot]⟩])
  | .removeInstance name instanceId =>
    (.ok (), updateFirst (fun pool => pool.name = name)
      (fun pool => { pool with
        instances := pool.instances.filter fun slot => !slot.isCalled instanceId }) pools)
  | .assign name instanceId nodeName leaseExpiresAt =>
    positional name instanceId
      (fun slot => { slot with assignedTo := nodeName, leaseExpiresAt := leaseExpiresAt }) pools
  | .renewLease name instanceId leaseExpiresAt =>
    positional name instanceId (fun slot => { slot with leaseExpiresAt := leaseExpiresAt }) pools
  | .report name instanceId reported now =>
    positional name instanceId (Slot.reported reported now) pools

/-! ### The world -/

/-- What was found of an artifact that a deployment names. -/
structure Artifact where
  md5Sum : String
  size : Int

inductive ArtifactLookup where
  | missing
  | pending
  | settled (artifact : Artifact)

/-- What EAP and the manager read from outside the three collections: the clocks, a random
identifier, their settings, which statements fail, and what the other modules and the placement
answer at a moment. -/
structure Env where
  clock : Nat → Nat → Time
  storeClock : Nat → Time
  randomUuid : Nat → String
  shortId : Nat → String
  outage : Nat → Option Outage
  region : String
  leaseSeconds : Int
  skewSeconds : Int
  cron : String → Except String (Time → Except String Time)
  canonicalLevel : String → Option String
  admissionRefusal : Nat → String → String → Int → Int → String
  findBucketByName : Nat → String → String → String → Option String
  findSettledArtifact : Nat → String → String → ArtifactLookup
  artifactBytesOnDisk : Nat → String → String → Bool
  userKeys : Nat → String → Option Bool
  resolveResources : Nat → String → String → List String → Except String (List String)
  namespaceExists : Nat → String → String → Bool
  ownsTechnicalUser : Nat → Application → Bool
  provisionInfrastructure : Nat → Application → Except String (Option (List String))
  findObject : Nat → String → String → Option Artifact
  accessKey : Nat → String → Option (String × String)
  grantedNamespace : Nat → Application → String

/-- Clocks that agree and tick once a second, a store that never fails, schedules that are due every
minute, and modules that refuse nothing. -/
def Env.steady : Env where
  clock _ moment := 1000 * (moment + 1)
  storeClock moment := 1000 * (moment + 1)
  randomUuid moment := toString moment
  shortId moment := toString moment
  outage _ := none
  region := ""
  leaseSeconds := 30
  skewSeconds := 5
  cron _ := .ok fun now => .ok (now + 60000)
  canonicalLevel level := some level
  admissionRefusal _ _ _ _ _ := ""
  findBucketByName _ _ _ name := some name
  findSettledArtifact _ _ _ := .settled ⟨"", 0⟩
  artifactBytesOnDisk _ _ _ := true
  userKeys _ _ := some true
  resolveResources _ _ _ names := .ok names
  namespaceExists _ _ _ := true
  ownsTechnicalUser _ _ := false
  provisionInfrastructure _ _ := .ok none
  findObject _ _ _ := none
  accessKey _ _ := none
  grantedNamespace _ app := app.nameSpace

/-- What a program of EAP, the manager or a worker may ask for. -/
inductive Req where
  | now
  | moment
  | application (stmt : ApplicationStatement)
  | node (stmt : NodeStatement)
  | pool (stmt : PoolStatement)

/-- A statement may fail. -/
@[reducible] def Req.Answer : Req → Type
  | .now => Time
  | .moment => Nat
  | .application stmt => Except StoreError stmt.Answer
  | .node stmt => Except StoreError stmt.Answer
  | .pool stmt => Except StoreError stmt.Answer

structure World where
  applications : List Application
  nodes : List Node
  pools : List Pool
  moment : Nat

/-- One request of one process. Every request is a moment of its own. -/
def machine (env : Env) (proc : Nat) : Machine Req Req.Answer World
  | .now, world =>
    (env.clock proc world.moment, { world with moment := world.moment + 1 })
  | .moment, world => (world.moment, { world with moment := world.moment + 1 })
  | .application stmt, world =>
    let outcome := underOutage (env.outage world.moment) world.applications
      (stmt.apply (env.storeClock world.moment) world.applications)
    (outcome.1, { world with applications := outcome.2, moment := world.moment + 1 })
  | .node stmt, world =>
    let outcome := underOutage (env.outage world.moment) world.nodes
      (stmt.apply (env.storeClock world.moment) world.nodes)
    (outcome.1, { world with nodes := outcome.2, moment := world.moment + 1 })
  | .pool stmt, world =>
    let outcome := underOutage (env.outage world.moment) world.pools (stmt.apply world.pools)
    (outcome.1, { world with pools := outcome.2, moment := world.moment + 1 })

end Euclid.Eap
