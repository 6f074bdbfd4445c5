/-
This file proves how long a drain lasts.

A registration writes the whole of a node as the worker states it, and a worker says of itself that
it is not drained. The flag is the one the last drain has set exactly where no node is registered
again while it is drained.
-/

import Euclid.Eap.WriteBack

namespace Euclid.Eap

open Program Collection List Option NodeStatement
open Bus (Time underOutage)
open Eag (Response)
open Eqs (Caller)

/-! ### The calls about a node -/

structure DrainRequest where
  node : String
  drained : Option Bool

/-- `handleDrainNode`: where it is not said, the node is drained. -/
def handleDrainNode {Fault : Type} (caller : Option Caller) (req : DrainRequest) :
    Op Fault (Response (String × Bool)) :=
  asCaller caller fun caller =>
    if req.node = "" then pure (.refused .badRequest "node is required")
    else do
      let found ← setNodeDrained caller.accountId req.node (req.drained.getD true)
      if found = false then
        pure (.refused .notFound ("Node is not registered, node: " ++ req.node))
      else pure (.success (req.node, req.drained.getD true))

/-- What a worker and an operator ask about a node that is not deleted. -/
inductive NodeCall where
  | registerNode (caller : Option Caller) (req : RegisterRequest)
  | renewNode (caller : Option Caller) (req : RenewRequest)
  | drainNode (caller : Option Caller) (req : DrainRequest)

def NodeCall.handler (env : Env) : NodeCall → Op Empty Unit
  | .registerNode caller req => discarding (handleRegisterNode caller req)
  | .renewNode caller req => discarding (handleRenewNode env caller req)
  | .drainNode caller req => discarding (handleDrainNode caller req)

/-- No node is deleted, and none is registered as a drained one. -/
def Req.KeepsNodes : Req → Prop
  | .node (.delete ..) => False
  | .node (.upsert written) => written.drained = false
  | _ => True

open Req

theorem NodeCall.keepsNodes (env : Env) (call : NodeCall) : (call.handler env).Asks KeepsNodes := by
  have ofWorker : ∀ {req : Req}, req.IsWorkers → req.KeepsNodes := by
    intro req asked
    cases req with
    | node stmt => cases stmt <;> first | exact asked | trivial
    | _ => trivial
  cases call with
  | registerNode caller req =>
    exact ((registerNode_workers req).mono fun _ => ofWorker).bind fun _ => trivial
  | renewNode caller req =>
    exact ((renewNode_workers req).mono fun _ => ofWorker).bind fun _ => trivial
  | drainNode caller req =>
    refine Asks.bind (asCaller_asks fun caller => ?_) fun _ => trivial
    split
    · trivial
    · refine Asks.bind (orAnswer_asks (onNodes_asks trivial)) fun found => ?_
      split <;> trivial

/-! ### The flag -/

def Node.key (node : Node) : String × String := (node.accountId, node.name)

open Node

/-- What the flag of a node says, where it is registered. -/
def drainedAt (key : String × String) (nodes : List Node) : Option Bool :=
  (nodes.find? fun node => node.key = key).map drained

/-- What a request makes of the flag: a drain sets it, and a registration begins with a node that is
not drained. -/
def Req.drains (key : String × String) : Req → Option Bool → Option Bool
  | .node (.setDrained accountId name drained), flag =>
    if (accountId, name) = key then flag.map fun _ => drained else flag
  | .node (.upsert written), flag => if written.key = key then some (flag.getD false) else flag
  | _, flag => flag

/-- What a request does make of it: a registration takes a drain away. -/
def Req.leaves (key : String × String) : Req → Option Bool → Option Bool
  | .node (.upsert written), flag => if written.key = key then some false else flag
  | req, flag => req.drains key flag

/-- Whether a moment's request reaches the store. -/
def Env.reaches (env : Env) (moment : Nat) : Bool := env.outage moment ≠ some .refused

variable {Thread : Type}

/-- The flag that the last drain has set. -/
def drainedBy (env : Env) (key : String × String) (start : Option Bool)
    (hist : History Thread Req Answer World) : Option Bool :=
  hist.foldr (fun event flag =>
    if env.reaches event.before.moment then event.request.drains key flag else flag) start

/-- A registration that reaches the store finds its node not drained. -/
def SparesDrain (env : Env) (key : String × String)
    (event : Event Thread Req Answer World) : Prop :=
  match event.request with
  | .node (.upsert written) => env.reaches event.before.moment → written.key = key →
      drainedAt key event.before.nodes ≠ some true
  | _ => True

instance (env : Env) (key : String × String) (event : Event Thread Req Answer World) :
    Decidable (SparesDrain env key event) := by
  unfold SparesDrain
  split <;> infer_instance

section Flag

variable {key : String × String} {nodes : List Node} {env : Env} {world : World} {req : Req}

theorem isNamed_eq (accountId name : String) :
    isNamed accountId name = fun node => decide (node.key = (accountId, name)) := by
  funext node
  simp [isNamed, key]

theorem drainedAt_updateFirst {change : Node → Node} {accountId name : String}
    (keeps : ∀ node, node.key = (accountId, name) → (change node).key = (accountId, name)) :
    drainedAt key (updateFirst (isNamed accountId name) change nodes) =
      if (accountId, name) = key then
        (nodes.find? fun node => node.key = key).map fun node => (change node).drained
      else drainedAt key nodes := by
  unfold drainedAt
  rw [isNamed_eq, find?_updateFirst_keyed Node.key keeps]
  split
  · exact map_map ..
  · rfl

theorem drainedAt_upsert {written : Node} (fresh : written.drained = false) {now : Time} :
    drainedAt key ((upsert written).apply now nodes).2 =
      if written.key = key then some false else drainedAt key nodes := by
  cases found : nodes.find? (isNamed written.accountId written.name) with
  | none =>
    simp only [apply, found]
    rw [isNamed_eq] at found
    unfold drainedAt
    rw [find?_append_keyed Node.key found rfl key, apply_ite (Option.map Node.drained)]
    refine if_congr Iff.rfl ?_ rfl
    rw [map_some, fresh]
  | some stored =>
    simp only [apply, found]
    refine (drainedAt_updateFirst fun _ _ => by rfl).trans ?_
    refine ite_congr rfl (fun own => ?_) fun _ => rfl
    rw [isNamed_eq, show (written.accountId, written.name) = key from own] at found
    rw [found, map_some]
    exact congrArg some fresh

theorem drainedAt_machine (keeps : req.KeepsNodes) (env : Env) (proc : Nat) (world : World) :
    drainedAt key (machine env proc req world).2.nodes =
      if env.reaches world.moment then req.leaves key (drainedAt key world.nodes)
      else drainedAt key world.nodes := by
  cases req with
  | node stmt =>
    have reached : (machine env proc (.node stmt) world).2.nodes =
        if env.reaches world.moment then (stmt.apply (env.storeClock world.moment) world.nodes).2
        else world.nodes := by
      cases outage : env.outage world.moment with
      | none => simp [Env.reaches, machine, underOutage, outage]
      | some kind => cases kind <;> simp [Env.reaches, machine, underOutage, outage]
    rw [reached, apply_ite (drainedAt key)]
    refine if_congr Iff.rfl ?_ rfl
    cases stmt with
    | upsert written => exact drainedAt_upsert keeps
    | touch accountId name seenAt loadAverage memoryTotalMb memoryUsedMb =>
      dsimp only [apply]
      rw [drainedAt_updateFirst fun _ own => by exact own]
      split <;> rfl
    | setDrained accountId name drained =>
      dsimp only [apply]
      rw [drainedAt_updateFirst fun _ own =>
        by exact own, leaves, drains, drainedAt, Option.map_map]
      · rfl
      · simp
    | delete accountId name => exact keeps.elim
    | _ => rfl
  | _ => simp [machine, leaves, drains]

/-- One request leaves the flag that is to be exactly if it spares a drain. -/
theorem drains_iff (keeps : req.KeepsNodes) {env : Env} {proc : Nat} {tid : Thread}
    {world : World} :
    drainedAt key (machine env proc req world).2.nodes =
        (if env.reaches world.moment then req.drains key (drainedAt key world.nodes)
          else drainedAt key world.nodes) ↔
      SparesDrain env key
        ⟨tid, req, (machine env proc req world).1, world, (machine env proc req world).2⟩ := by
  rw [drainedAt_machine keeps]
  by_cases reaches : env.reaches world.moment = true
  · rw [if_pos reaches, if_pos reaches]
    cases req with
    | node stmt =>
      cases stmt with
      | upsert written =>
        rw [leaves, drains]
        by_cases own : written.key = key
        · rw [if_pos own, if_pos own]
          cases flag : drainedAt key world.nodes with
          | none => simp [SparesDrain, flag]
          | some drained => cases drained <;> simp [SparesDrain, reaches, own, flag]
        · rw [if_neg own, if_neg own]
          exact iff_of_true rfl fun _ same => absurd same own
      | _ => exact iff_of_true rfl trivial
    | _ => exact iff_of_true rfl trivial
  · rw [if_neg reaches, if_neg reaches]
    refine iff_of_true rfl ?_
    unfold SparesDrain
    split
    · exact fun now => absurd now reaches
    · trivial

theorem unique_apply (unique : (nodes.map Node.key).Nodup) {now : Time} {stmt : NodeStatement} :
    ((stmt.apply now nodes).2.map Node.key).Nodup := by
  cases stmt with
  | upsert written =>
    cases found : nodes.find? (isNamed written.accountId written.name) with
    | none =>
      simp only [apply, found]
      rw [isNamed_eq] at found
      rw [map_append]
      refine nodup_append'.mpr ⟨unique, nodup_singleton _, fun taken mem own => ?_⟩
      obtain ⟨node, stored, rfl⟩ := mem_map.mp mem
      exact List.find?_eq_none.mp found node stored (decide_eq_true (mem_singleton.mp own))
    | some stored =>
      simp only [apply, found]
      rw [map_updateFirst fun node _ own => ?_]
      · exact unique
      · rw [isNamed_eq] at own
        exact (of_decide_eq_true own).symm
  | touch accountId name seenAt loadAverage memoryTotalMb memoryUsedMb =>
    dsimp only [apply]
    rwa [map_updateFirst fun _ _ _ => by rfl]
  | setDrained accountId name drained =>
    dsimp only [apply]
    rwa [map_updateFirst fun _ _ _ => by rfl]
  | delete accountId name => exact unique.sublist (eraseP_sublist.map _)
  | _ => exact unique

end Flag

/-! ### Runs -/

section Runs

variable [DecidableEq Thread] (env : Env) (proc : Thread → Nat) (calls : Thread → NodeCall)
  (key : String × String) {start : World}

/-- Some calls about nodes, interleaved. -/
def interleaveNodes (start : World) (schedule : List Thread) :
    Euclid.Pool Thread Req Answer Empty Unit World :=
  (Pool.start start fun tid => (calls tid).handler env).run
    (fun tid => machine env (proc tid)) schedule

def keepingNodes : Discipline Req Answer Unit where
  allows _ req := req.KeepsNodes
  expects _ _ _ := True
  after _ _ _ := ()

theorem interleaveNodes_governed (start : World) (schedule : List Thread) :
    keepingNodes.Governs (fun tid => machine env (proc tid)) (fun _ => ()) start
      (interleaveNodes env proc calls start schedule).history
      (interleaveNodes env proc calls start schedule).world := by
  refine (keepingNodes.governs_run (fun tid => machine env (proc tid)) (fun _ => ())
    (fun _ _ _ => True) start (fun tid => (calls tid).handler env) (fun tid => ?_)
    (fun _ _ _ _ _ _ => trivial) schedule).1
  exact (calls tid).keepsNodes env |>.follows_keeping (fun _ => True) trivial
    (fun _ _ _ keeps => keeps) fun _ _ _ _ _ => trivial

/-- After every request the flag is the one that the last drain has set. -/
def DrainsLast (start : World) (hist : History Thread Req Answer World) : Prop :=
  History.Meets (fun earlier event => drainedAt key event.after.nodes =
    drainedBy env key (drainedAt key start.nodes) (event :: earlier)) hist

variable {env key proc} {world : World} {hist : History Thread Req Answer World}

omit [DecidableEq Thread] in
theorem drainsLast_world (last : DrainsLast env key start hist)
    (records : History.Records (fun tid => machine env (proc tid)) start hist world) :
    drainedAt key world.nodes = drainedBy env key (drainedAt key start.nodes) hist := by
  cases hist with
  | nil => rw [records]; rfl
  | cons event earlier => rw [records.1]; exact last.1

theorem drainsLast_iff
    (governed : keepingNodes.Governs (fun tid => machine env (proc tid))
      (fun _ => ()) start hist world) :
    DrainsLast env key start hist ↔
      History.Meets (fun _ event => SparesDrain env key event) hist := by
  induction governed with
  | start => exact Iff.rfl
  | step governed tid req allowed ih =>
    refine (and_congr_left fun last => ?_).trans (and_congr_right fun _ => ih)
    have before := drainsLast_world last governed.records
    refine Iff.trans ?_ (drains_iff allowed)
    rw [before]
    exact Iff.rfl

theorem governed_unique (unique : (start.nodes.map Node.key).Nodup)
    (governed : keepingNodes.Governs (fun tid => machine env (proc tid))
      (fun _ => ()) start hist world) :
    (world.nodes.map Node.key).Nodup := by
  refine governed.records.invariant (fun world => (world.nodes.map key).Nodup) unique ?_
  intro tid req world kept
  cases req with
  | node stmt =>
    rcases Bus.underOutage_snd (env.outage world.moment) world.nodes
      (stmt.apply (env.storeClock world.moment) world.nodes) with same | same
    · exact (congrArg (fun nodes => (nodes.map key).Nodup) same).mpr (unique_apply kept)
    · exact (congrArg (fun nodes => (nodes.map key).Nodup) same).mpr kept
  | _ => exact kept

theorem not_chosen {nodes : List Node} (unique : (nodes.map Node.key).Nodup)
    (drained : drainedAt key nodes = some true) {placement : Placement} {env : Env} {moment : Nat}
    {now : Time} {app : Application} (own : app.accountId = key.1) :
    placement.chooseNode env moment now app
      (nodes.filter fun node => node.accountId = app.accountId) ≠
      some key.2 := by
  intro chosen
  obtain ⟨-, named⟩ := filter_eq_some_iff.mp chosen
  obtain ⟨node, accepted, named⟩ := any_eq_true.mp named
  obtain ⟨listed, accepts⟩ := mem_filter.mp accepted
  obtain ⟨mem, inAccount⟩ := mem_filter.mp listed
  have isKey : node.key = key :=
    Prod.ext ((of_decide_eq_true inAccount).trans own) (of_decide_eq_true named)
  obtain ⟨stored, found, isDrained⟩ := map_eq_some_iff.mp drained
  have storedKey : stored.key = key := by simpa using List.find?_some found
  have same : stored = node :=
    inj_on_of_nodup_map unique (mem_of_find?_eq_some found) mem (storedKey.trans isKey.symm)
  rw [← same, acceptsWork, isDrained] at accepts
  nomatch accepts

/-- In every run the flag of a node is the one the last drain has set if and only if no registration
finds the node drained; and then no placement goes to a node that has been drained and not put
back. -/
theorem drain_lasts_iff (env : Env) (proc : Thread → Nat) (calls : Thread → NodeCall)
    (key : String × String) (start : World) (schedule : List Thread) :
    let run := interleaveNodes env proc calls start schedule
    (DrainsLast env key start run.history ↔
      History.Meets (fun _ event => SparesDrain env key event) run.history) ∧
      ((start.nodes.map Node.key).Nodup → DrainsLast env key start run.history →
        drainedAt key run.world.nodes = drainedBy env key (drainedAt key start.nodes) run.history ∧
        (drainedBy env key (drainedAt key start.nodes) run.history = some true →
          ∀ (placement : Placement) (moment : Nat) (now : Time) (app : Application),
            app.accountId = key.1 → placement.chooseNode env moment now app
              (run.world.nodes.filter fun node => node.accountId = app.accountId) ≠
                some key.2)) := by
  have governed := interleaveNodes_governed env proc calls start schedule
  refine ⟨drainsLast_iff governed, fun unique last => ?_⟩
  have flag := drainsLast_world last governed.records
  refine ⟨flag, fun drained placement moment now app own => ?_⟩
  exact not_chosen (governed_unique unique governed) (flag.trans drained) own

end Runs

def workersNode : NodeCall :=
  .registerNode (some ⟨"w", "a", ""⟩) ⟨"n", 1, 1024, 1024, 0, "", "", "", "", []⟩

/-- A worker registers its node, an operator drains it, and the worker comes again. -/
def aroundDrain (again : NodeCall) : Fin 3 → NodeCall
  | 0 => workersNode
  | 1 => .drainNode (some ⟨"u", "a", ""⟩) ⟨"n", none⟩
  | 2 => again

/-- From no node at all, one call after the other. -/
def drainedBetween (again : NodeCall) : Euclid.Pool (Fin 3) Req Answer Empty Unit World :=
  interleaveNodes .steady (fun _ => 0) (aroundDrain again) ⟨[], [], [], 0⟩
    (threeTurns 5 2 8)

theorem drain_outlasts_renewal :
    drainedAt ("a", "n")
      (drainedBetween (.renewNode (some ⟨"w", "a", ""⟩) ⟨"n", 0, none, none⟩)).world.nodes =
      some true := by
  obtain ⟨spared, lasts⟩ := drain_lasts_iff .steady (fun _ => 0)
    (aroundDrain (.renewNode (some ⟨"w", "a", ""⟩) ⟨"n", 0, none, none⟩)) ("a", "n") ⟨[], [], [], 0⟩
    (replicate 5 0 ++ replicate 2 1 ++ replicate 8 2)
  exact (lasts .nil (spared.mpr (by decide))).1.trans (by decide)

/-- A worker that is started again takes the drain away. -/
theorem registration_lifts_drain : ¬∀ (env : Env) (proc : Fin 3 → Nat) (calls : Fin 3 → NodeCall)
      (key : String × String) (start : World) (schedule : List (Fin 3)),
      drainedAt key (interleaveNodes env proc calls start schedule).world.nodes =
        drainedBy env key (drainedAt key start.nodes)
          (interleaveNodes env proc calls start schedule).history := by
  intro lasts
  have flag := lasts .steady (fun _ => 0) (aroundDrain workersNode) ("a", "n") ⟨[], [], [], 0⟩
    (replicate 5 0 ++ replicate 2 1 ++ replicate 8 2)
  exact absurd flag (by decide)

end Euclid.Eap
