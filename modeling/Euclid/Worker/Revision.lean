/-
This file says when an instance that is running is left running: when what its node is told to run
is the revision it was started with.

The revision is the date an application was changed last. A deployment changes it, and so does every
other write of the whole of an application. While no request to start an application and no pass of
the manager writes back, as one that is to run, an application that is to run already, only a
deployment changes it from one renewal to the next, and a worker that goes by two renewals without a
deployment between them stops nothing and starts nothing of the application.
-/

import Euclid.Eap.WriteBack
import Euclid.Worker.Reconciler

namespace Euclid.Worker

open Program List
open Bus (Time StoreError)
open Eap

variable {Thread : Type}

/-! ### What a renewal says -/

/-- An answered request of a client, a worker or the manager. -/
abbrev ApplicationEvent (Thread : Type) := Event Thread Req Req.Answer World

/-- The application a read of a renewal answered with. -/
def Req.lookedUp : (req : Req) → req.Answer → Option Application
  | .application (.findByRuntimeName _), .ok found => found
  | _, _ => none

/-- The application a renewal has looked up, and the revision it reports of it, which depends
neither on the slot nor on the lease. -/
def reported (env : Env) (calls : Thread → Call) (event : ApplicationEvent Thread) :
    Option (Key × String) :=
  match calls event.thread with
  | .renewNode .. => (Req.lookedUp event.request event.answer).map fun app =>
      (app.key, (app.assignment env event.before.moment "" "" 0).revision)
  | _ => none

/-! ### Who changes the revision -/

def isRunning (key : Key) (world : World) : Bool :=
  (rowAt key world.applications).any fun app => app.desiredState = .running

/-- The revision of the application under a key. -/
def revisionAt (key : Key) (world : World) : Option Time :=
  (rowAt key world.applications).map Application.modified

/-- A request writes the application under a key. -/
def writesAt (key : Key) : Req → Bool
  | .application (.upsert written) => written.key = key
  | .application (.touch touched) => touched = key
  | _ => false

/-- A deployment writes the application under a key. -/
def deploysAt (calls : Thread → Call) (key : Key) (event : ApplicationEvent Thread) : Bool :=
  (calls event.thread).deploys && writesAt key event.request

/-- A start, or the manager, writes an application as one that is to run over one that is. -/
def startsAgain (env : Env) (calls : Thread → Call) (event : ApplicationEvent Thread) : Bool :=
  match event.request with
  | .application (.upsert written) =>
    (calls event.thread).releases && decide (written.desiredState = .running) &&
      isRunning written.key event.before &&
      decide (env.outage event.before.moment ≠ some .refused)
  | _ => false

section Step

variable {env : Env} {proc : Thread → Nat} {calls : Thread → Call} {key : Key}
  {event : ApplicationEvent Thread}

/-- An application that is to run before and after a request has the same date, unless that was a
deployment of it, or a start of what runs. -/
theorem effect_modified {copies : Copies}
    (allowed : (calls event.thread).mayAsk copies event.request)
    (undeployed : deploysAt calls key event = false) (once : startsAgain env calls event = false)
    {before after : Application} (stored : rowAt key event.before.applications = some before)
    (ran : before.desiredState = .running) (runs : after.desiredState = .running)
    (effect : event.request.effect env event.before key (some before) = some after) :
    after.modified = before.modified := by
  obtain ⟨tid, req, answer, world, reached⟩ := event
  cases req with
  | application stmt =>
    unfold Req.effect at effect
    dsimp only at effect
    split at effect
    · rw [← Option.some.inj effect]
    · rename_i carried
      cases stmt with
      | upsert copy =>
        rw [effect_upsert] at effect
        split at effect
        · rename_i same
          subst same
          split at effect
          · rw [← Option.some.inj effect]
          · obtain rfl := Option.some.inj effect
            -- The copy is to run, so it is a deployment that wrote it, or a start.
            have written : copy.desiredState = .running := runs
            obtain ⟨deploys | releases | stopped, _⟩ := allowed
            · simp [deploysAt, writesAt, deploys] at undeployed
            · have running : isRunning copy.key world := by simp [isRunning, stored, ran]
              simp [startsAgain, releases, written, running, carried] at once
            · rw [written] at stopped
              cases stopped
        · rw [← Option.some.inj effect]
      | delete other =>
        simp only [ApplicationStatement.effect] at effect
        split at effect
        · cases effect
        · rw [← Option.some.inj effect]
      | touch other =>
        simp only [ApplicationStatement.effect] at effect
        split at effect
        · rename_i same
          have deploys : (calls tid).deploys := allowed
          simp [deploysAt, writesAt, deploys, same] at undeployed
        · rw [← Option.some.inj effect]
      | findByKey _ => rw [← Option.some.inj effect]
      | findByRuntimeName _ => rw [← Option.some.inj effect]
      | listAll => rw [← Option.some.inj effect]
      | _ =>
        simp only [ApplicationStatement.effect] at effect
        split at effect
        · rw [← Option.some.inj effect]
          rfl
        · rw [← Option.some.inj effect]
  | _ => rw [← Option.some.inj effect]

theorem isRunning_row {world : World} (running : isRunning key world) :
    ∃ app, rowAt key world.applications = some app ∧ app.desiredState = .running := by
  unfold isRunning at running
  cases stored : rowAt key world.applications with
  | none => simp [stored] at running
  | some app => exact ⟨app, rfl, by simpa [stored] using running⟩

/-- What a renewal reports of an application is the date that is stored. -/
theorem reported_stored {revision : String}
    (made : event = .made (fun tid => machine env (proc tid)) event.thread
      event.request event.before) (indexed : Indexed event.before.applications)
    (told : reported env calls event = some (key, revision)) :
    event.after.applications = event.before.applications ∧
      (revisionAt key event.before).map toISO8601 = some revision := by
  unfold reported at told
  split at told
  · obtain ⟨app, found, same⟩ := Option.map_eq_some_iff.mp told
    obtain ⟨rfl, rfl⟩ := Prod.mk.inj same
    obtain ⟨tid, req, answer, before, after⟩ := event
    obtain ⟨rfl, rfl⟩ : answer = (machine env (proc tid) req before).1 ∧
        after = (machine env (proc tid) req before).2 := by
      simpa [Event.made] using made
    cases req with
    | application stmt =>
      cases stmt with
      | findByRuntimeName runtimeName =>
        simp only [machine] at found ⊢
        cases outage : env.outage before.moment with
        | some kind => cases kind <;> simp [outage, Bus.underOutage, Req.lookedUp] at found
        | none =>
          rw [outage] at found
          have stored : rowAt app.key before.applications = some app :=
            rowAt_of_mem indexed (mem_of_find?_eq_some found)
          exact ⟨rfl, by rw [revisionAt, stored]; rfl⟩
      | _ => cases found
    | _ => cases found
  · cases told

end Step

/-! ### Between two renewals -/

section Runs

variable [DecidableEq Thread] {env : Env} {proc : Thread → Nat}
  {calls : Thread → Call} {origin world : World} {key : Key}

/-- While it is to run, and nothing deploys it or starts it again, an application keeps its date. -/
theorem revision_stays {between earlier : History Thread Req Req.Answer World}
    {first : ApplicationEvent Thread}
    (governed : writeBack.Governs (fun tid => machine env (proc tid))
      (fun tid => (calls tid, fun _ => none)) origin (between ++ first :: earlier) world)
    (indexed : Indexed origin.applications)
    (once : ∀ event ∈ between, startsAgain env calls event = false)
    (runs : ∀ event ∈ between, isRunning key event.before)
    (undeployed : ∀ event ∈ between, deploysAt calls key event = false)
    (still : isRunning key world) : revisionAt key world = revisionAt key first.after := by
  induction between generalizing world with
  | nil =>
    obtain ⟨_, _, _, rfl⟩ := governed.cons_inv
    rfl
  | cons newest between ih =>
    obtain ⟨governed', allowed, made, same⟩ := governed.cons_inv
    rw [sessions_writeBack] at allowed
    have before := ih governed' (fun event mem => once event (.tail _ mem))
      (fun event mem => runs event (.tail _ mem))
      (fun event mem => undeployed event (.tail _ mem))
      (runs newest (.head _))
    rw [← before]
    obtain ⟨stored, row, ran⟩ := isRunning_row (runs newest (.head _))
    obtain ⟨reached, after, running⟩ := isRunning_row still
    have rows := (machine_effect env (proc newest.thread) newest.request
      (governed_indexed governed' indexed)).2 key
    have became : world =
        (machine env (proc newest.thread) newest.request newest.before).2 :=
      same.trans (congrArg Event.after made)
    rw [← became, after, row] at rows
    have dated := effect_modified allowed (undeployed newest (.head _))
      (once newest (.head _)) row ran running rows.symm
    simp [revisionAt, row, after, dated]

/-! ### What a worker does -/

/-- A worker holds its lease, has the process of an instance, and was told last to run the instance
at a revision. -/
structure State.IsTold (state : State) (now : Time) (running : Running) (revision : String) :
    Prop where
  holds : state.hasLostLease now = false
  runs : runningCalled state.running running.instanceId = some running
  assigned : ∃ assignment ∈ state.assigned, assignment.instanceId = running.instanceId
  told : ∀ assignment ∈ state.assigned, assignment.instanceId = running.instanceId →
    assignment.revision = revision

/-- The worker neither stops an instance nor starts it. -/
def State.Leaves (state : State) (now : Time) (instanceId : String) : Prop :=
  (∀ started ∈ (state.decide now).start, started.instanceId ≠ instanceId) ∧
    ∀ stopped ∈ (state.decide now).stop, stopped.instanceId ≠ instanceId

/-- Of two renewals between which an application stays one that is to run and is not deployed, the
later reports the same revision as the earlier, and a worker leaves what it started by the one when
it is told the other. -/
def DeploymentsAloneRestart (env : Env) (calls : Thread → Call)
    (hist : History Thread Req Req.Answer World) : Prop :=
  ∀ later second between first earlier key was told,
    hist = later ++ second :: (between ++ first :: earlier) →
    reported env calls first = some (key, was) →
    reported env calls second = some (key, told) →
    (∀ event ∈ second :: between, isRunning key event.before) →
    (∀ event ∈ between, deploysAt calls key event = false) →
    told = was ∧ ∀ (state : State) (now : Time) (running : Running), running.revision = was →
      state.IsTold now running told → state.Leaves now running.instanceId

/-- In every run in which neither a start nor the manager writes what is to run as such once more,
only a deployment restarts an instance. -/
theorem deployments_alone_restart (env : Env) (placement : Placement)
    (proc : Thread → Nat) (calls : Thread → Call) (origin : World)
    (indexed : Indexed origin.applications) (schedule : List Thread)
    (once : ∀ event ∈ (interleave env placement proc calls origin schedule).history,
      startsAgain env calls event = false) :
    DeploymentsAloneRestart env calls
      (interleave env placement proc calls origin schedule).history := by
  have governed := interleave_governed env placement proc calls indexed schedule
  intro later second between first earlier key was told cut firstTold secondTold runs undeployed
  rw [cut] at governed once
  have toSecond := governed.before
  have toFirst := toSecond.before
  have unwritten := reported_stored toSecond.made.2 (governed_indexed toFirst indexed) firstTold
  have stored := reported_stored governed.made.2 (governed_indexed toSecond indexed) secondTold
  have kept : revisionAt key second.before = revisionAt key first.after := by
    refine revision_stays toSecond indexed (fun event mem => once event ?_)
      (fun event mem => runs event (.tail _ mem)) undeployed
      (runs second (.head _))
    exact mem_append_right _ (.tail _ (mem_append_left _ mem))
  have same : told = was := by
    have unchanged : revisionAt key first.after = revisionAt key first.before := by
      simp only [revisionAt, unwritten.1]
    rw [← kept] at unchanged
    rw [unchanged] at stored
    exact Option.some.inj (stored.2.symm.trans unwritten.2)
  refine ⟨same, fun state now running startedAt isTold => ?_⟩
  obtain ⟨assignment, mem, called⟩ := isTold.assigned
  exact decide_leaves isTold.holds isTold.runs mem called fun other among named =>
    (isTold.told other among named).trans (same.trans startedAt.symm)

end Runs

/-! ### A scaling, and an occurrence that is skipped -/

/-- A job on a schedule, in the middle of a run on the one node there is. -/
def runOfJob : World where
  applications := [{ Application.blank with
    applicationId := "job"
    accountId := "a"
    nameSpace := "s"
    type := .job
    desiredState := .running
    schedule := "* * * * *"
    nextRunAt := 1
    created := 1
    modified := 1 }]
  nodes := [{
    name := "n"
    accountId := "a"
    address := ""
    principal := "w"
    labels := []
    cpuCount := 1
    memoryMb := 1024
    memoryTotalMb := 1024
    memoryUsedMb := 0
    version := ""
    os := ""
    arch := ""
    loadAverage := 0
    drained := false
    lastSeen := 1
    created := 1
    modified := 1 }]
  pools := [⟨"job", [{ Slot.placed "job-1" "n" 60000 1 with state := .running }]⟩]
  moment := 0

/-- Two renewals of the node, and something else. -/
def renewalsAround (call : Call) : Fin 3 → Call
  | 1 => call
  | _ => .renewNode (some ⟨"w", "a", ""⟩) ⟨"n", 0, none, none⟩

/-- A renewal, a scaling of the job, and a renewal. -/
def scalingBetween : List (Fin 3) :=
  threeTurns 8 4 8

/-- A run of the job goes on when the job is scaled. -/
theorem scaling_leaves_run : DeploymentsAloneRestart .steady
      (renewalsAround (.scaleApplication ⟨some ⟨"u", "a", ""⟩, true, "s"⟩ "job" 1 2))
      (interleave .steady .first (fun _ => 0)
        (renewalsAround (.scaleApplication ⟨some ⟨"u", "a", ""⟩, true, "s"⟩ "job" 1 2))
        runOfJob scalingBetween).history :=
  deployments_alone_restart .steady .first (fun _ => 0)
    (renewalsAround (.scaleApplication ⟨some ⟨"u", "a", ""⟩, true, "s"⟩ "job" 1 2)) runOfJob
    (by decide) scalingBetween (by decide)

/-- Two renewals report different revisions of what is to run all the while, and nothing
deployed. -/
def differsLater (env : Env) (calls : Thread → Call)
    (hist : History Thread Req Req.Answer World) : Bool :=
  (History.cuts hist).any fun cut => (History.cuts cut.2.2).any fun inner =>
    match reported env calls inner.2.1, reported env calls cut.2.1 with
    | some (key, was), some (other, told) =>
      decide (other = key) && decide (told ≠ was) &&
        (cut.2.1 :: inner.1).all (fun event => isRunning key event.before) &&
        inner.1.all fun event => !deploysAt calls key event
    | _, _ => false

theorem not_alone_of_differsLater {env : Env} {calls : Thread → Call}
    {hist : History Thread Req Req.Answer World} (differs : differsLater env calls hist) :
    ¬DeploymentsAloneRestart env calls hist := by
  intro alone
  obtain ⟨⟨later, second, rest⟩, outer, differs⟩ := any_eq_true.mp differs
  obtain ⟨⟨between, first, earlier⟩, inner, differs⟩ := any_eq_true.mp differs
  dsimp only at inner differs
  have cut := History.eq_of_mem_cuts outer
  rw [History.eq_of_mem_cuts inner] at cut
  split at differs
  · rename_i key was other told firstTold secondTold
    simp only [Bool.and_eq_true, decide_eq_true_eq, all_eq_true, Bool.not_eq_true'] at differs
    obtain ⟨⟨⟨same, apart⟩, runs⟩, undeployed⟩ := differs
    rw [same] at secondTold
    exact apart (alone later second between first earlier key was told cut firstTold secondTold
      runs undeployed).1
  · cases differs

/-- A pass of the manager that skips an occurrence, because the run before is still in flight, has
its node told another revision. -/
theorem skipped_occurrence_restarts :
    ¬∀ (calls : Fin 3 → Call) (origin : World), Indexed origin.applications →
      ∀ schedule : List (Fin 3), DeploymentsAloneRestart .steady calls
        (interleave .steady .first (fun _ => 0) calls origin schedule).history := by
  intro always
  refine not_alone_of_differsLater ?_ (always (renewalsAround .reconcileApplications) runOfJob
    (by decide) (replicate 8 0 ++ replicate 5 1 ++ replicate 8 2))
  decide

end Euclid.Worker
