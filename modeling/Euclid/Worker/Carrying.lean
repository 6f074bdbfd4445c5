/-
This file proves what a worker runs once it has carried out its plan.

A process goes on exactly if it is assigned at the revision it was started with, or at none. What
was not running is started unless it is held off, and what ran at another revision is replaced
whether it is held off or not, so that nothing is left to do.
-/

import Euclid.Worker.Reconciler

namespace Euclid.Worker

open List

open Bus (Time)
open Eap (Assignment Runtime ApplicationType)

/-! ### A plan carried out -/

/-- The process an assignment is started as. -/
def Running.of (assignment : Assignment) : Running where
  instanceId := assignment.instanceId
  runtimeName := assignment.runtimeName
  revision := assignment.revision

open Running

/-- The processes of a worker without the one of an instance. -/
def without (instanceId : String) (running : List Running) : List Running :=
  running.filter fun cand => cand.instanceId ≠ instanceId

/-- `Apply`: all stops and then all starts, where every process that is asked for starts. -/
def Plan.apply (plan : Plan) (running : List Running) : List Running :=
  plan.start.foldl (fun left assignment => without assignment.instanceId left ++ [.of assignment])
    (plan.stop.foldl (fun left stopped => without stopped.instanceId left) running)

theorem foldl_without (stop running : List Running) :
    stop.foldl (fun left stopped => without stopped.instanceId left) running =
      running.filter fun cand => cand.instanceId ∉ stop.map instanceId := by
  induction stop generalizing running with
  | nil => simp
  | cons stopped rest ih =>
    rw [foldl_cons, ih, without, filter_filter]
    refine filter_congr fun cand _ => ?_
    rw [← Bool.decide_and, decide_eq_decide, map_cons, mem_cons, not_or, and_comm]

theorem foldl_start {start : List Assignment} {running : List Running}
    (once : (start.map Assignment.instanceId).Nodup)
    (absent : ∀ cand ∈ running, cand.instanceId ∉ start.map Assignment.instanceId) :
    start.foldl
      (fun left assignment => without assignment.instanceId left ++ [.of assignment]) running =
      running ++ start.map .of := by
  induction start generalizing running with
  | nil => simp
  | cons assignment rest ih =>
    obtain ⟨new, once⟩ := nodup_cons.mp once
    have same : without assignment.instanceId running = running :=
      filter_eq_self.mpr fun cand mem => by
        have apart := (not_or.mp (mt mem_cons.mpr (absent cand mem))).1
        simpa using apart
    rw [foldl_cons, same, ih once, append_assoc]
    · rfl
    · intro cand mem
      rcases mem_append.mp mem with stays | started
      · exact fun later => absent cand stays (.tail _ later)
      · rw [mem_singleton.mp started]
        exact new

/-! ### What a plan does to one instance -/

/-- A process runs an assignment as it is: at the revision that is named, if one is. -/
def Running.Serves (running : Running) (assignment : Assignment) : Prop :=
  assignment.instanceId = running.instanceId ∧
    (assignment.revision = "" ∨ running.revision = assignment.revision)

instance (running : Running) (assignment : Assignment) : Decidable (running.Serves assignment) :=
  inferInstanceAs (Decidable (_ ∧ _))

/-- The processes that go on. -/
def State.kept (state : State) : List Running :=
  state.running.filter fun running => ∃ assignment ∈ state.assigned, running.Serves assignment

/-- What is assigned and what runs names every instance once. -/
structure State.Once (state : State) : Prop where
  assigned : (state.assigned.map Assignment.instanceId).Nodup
  running : (state.running.map instanceId).Nodup

section Once

variable {state : State} {now : Time} {running : Running} {assignment : Assignment}

theorem starts_of_idle (idle : assignment.instanceId ∉ state.running.map instanceId) :
    state.starts now assignment = !state.isHeldOff now assignment.instanceId := by
  have none_ : runningCalled state.running assignment.instanceId = none :=
    List.find?_eq_none.mpr fun cand mem => by
      simpa using fun same => idle (mem_map.mpr ⟨cand, mem, same⟩)
  rw [State.starts, none_]

theorem mem_running_of_stop (kept : state.hasLostLease now = false)
    (stopped : running ∈ (state.decide now).stop) : running ∈ state.running := by
  rw [State.decide, if_neg (by simp [kept])] at stopped
  rcases mem_append.mp stopped with replaced | rest
  · obtain ⟨assignment, -, replaces⟩ := mem_filterMap.mp replaced
    exact mem_of_find?_eq_some (Option.filter_eq_some_iff.mp replaces).1
  · exact (mem_filter.mp (mem_filter.mp rest).1).1

theorem start_eq (kept : state.hasLostLease now = false) :
    (state.decide now).start = state.assigned.filter (state.starts now) := by
  rw [State.decide, if_neg (by simp [kept])]

variable (once : state.Once)

include once

theorem State.Once.called (mem : running ∈ state.running) :
    runningCalled state.running running.instanceId = some running := by
  cases found : runningCalled state.running running.instanceId with
  | none => exact absurd mem (by simpa using List.find?_eq_none.mp found running)
  | some other =>
    have same := runningCalled_instanceId found
    rw [inj_on_of_nodup_map once.running (mem_of_find?_eq_some found) mem same]

section

variable (mem : running ∈ state.running) (same : assignment.instanceId = running.instanceId)

include mem same

/-- What is assigned and runs is replaced unless the process serves the assignment. -/
theorem State.Once.replaces_iff :
    state.replaces assignment = some running ↔ ¬running.Serves assignment := by
  rw [State.replaces, same, once.called mem, Option.filter_eq_some_iff]
  simp [Serves, same]

theorem State.Once.starts_iff : state.starts now assignment ↔ ¬running.Serves assignment := by
  rw [State.starts, same, once.called mem]
  simp [Serves, same]

end

theorem State.Once.kept_not_started (stays : running ∈ state.kept) :
    running.instanceId ∉ (state.assigned.filter (state.starts now)).map Assignment.instanceId := by
  intro started
  obtain ⟨mem, serves⟩ := mem_filter.mp stays
  obtain ⟨assignment, isAssigned, serves⟩ := of_decide_eq_true serves
  obtain ⟨other, found, same⟩ := mem_map.mp started
  obtain ⟨isAssigned', starts⟩ := mem_filter.mp found
  obtain rfl := inj_on_of_nodup_map once.assigned isAssigned' isAssigned
    (same.trans serves.1.symm)
  exact (once.starts_iff mem same).mp starts serves

variable (kept : state.hasLostLease now = false)

include kept

theorem State.Once.mem_stop (mem : running ∈ state.running) :
    running.instanceId ∈ (state.decide now).stop.map instanceId ↔ running ∉ state.kept := by
  have replaced {other : Running} : other ∈ state.assigned.filterMap state.replaces ↔
      ∃ assignment ∈ state.assigned, state.replaces assignment = some other := mem_filterMap
  rw [State.kept, State.decide, if_neg (by simp [kept]), mem_filter, not_and]
  simp only [decide_eq_true_eq, map_append, mem_append]
  constructor
  · rintro stopped - ⟨assignment, isAssigned, serves⟩
    rcases stopped with stopped | stopped
    · obtain ⟨other, found, own⟩ := mem_map.mp stopped
      obtain ⟨named, isAssigned', replaces⟩ := replaced.mp found
      have same := (replaces_instanceId replaces).symm.trans own
      obtain rfl := inj_on_of_nodup_map once.assigned isAssigned' isAssigned
        (same.trans serves.1.symm)
      obtain rfl := inj_on_of_nodup_map once.running
        (mem_of_find?_eq_some (Option.filter_eq_some_iff.mp replaces).1) mem own
      exact (once.replaces_iff mem same).mp replaces serves
    · obtain ⟨other, found, own⟩ := mem_map.mp stopped
      have gone := (mem_filter.mp (mem_filter.mp found).1).2
      rw [Bool.not_eq_true', any_eq_false] at gone
      exact gone assignment isAssigned (by simpa using serves.1.trans own.symm)
  · intro unserved
    have unserved := not_exists.mp (unserved mem)
    by_cases named : ∃ assignment ∈ state.assigned, assignment.instanceId = running.instanceId
    · obtain ⟨assignment, isAssigned, same⟩ := named
      refine .inl (mem_map.mpr ⟨running, replaced.mpr ⟨assignment, isAssigned, ?_⟩, rfl⟩)
      exact (once.replaces_iff mem same).mpr fun serves => unserved assignment ⟨isAssigned, serves⟩
    · refine .inr (mem_map.mpr ⟨running, mem_filter.mpr ⟨?_, ?_⟩, rfl⟩)
      · exact mem_filter.mpr ⟨mem, by simpa using not_exists.mp named⟩
      · rw [Bool.not_eq_true', any_eq_false]
        intro other found own
        obtain ⟨assignment, isAssigned, replaces⟩ := replaced.mp found
        exact named ⟨assignment, isAssigned,
          (replaces_instanceId replaces).symm.trans (of_decide_eq_true own)⟩

theorem State.Once.apply_eq :
    (state.decide now).apply state.running =
      state.kept ++ (state.assigned.filter (state.starts now)).map .of := by
  have left : state.running.filter (fun cand =>
      cand.instanceId ∉ (state.decide now).stop.map instanceId) = state.kept := by
    rw [State.kept]
    refine filter_congr fun cand mem => decide_eq_decide.mpr ?_
    rw [once.mem_stop kept mem, not_not, State.kept, mem_filter]
    simp [mem]
  rw [Plan.apply, foldl_without, left, start_eq kept]
  exact foldl_start (once.assigned.sublist (filter_sublist.map _)) fun cand stays =>
    once.kept_not_started stays

end Once

/-! ### What is left running -/

/-- Every instance that is assigned is left running, the held off that were not running aside, each
once and serving its assignment, and nothing is left to do. -/
structure Settles (state : State) (now : Time) (plan : Plan) (left : List Running) : Prop where
  once : (left.map instanceId).Nodup
  exactly : ∀ instanceId, instanceId ∈ left.map Running.instanceId ↔
    ∃ assignment ∈ state.assigned, assignment.instanceId = instanceId ∧
      (state.isHeldOff now instanceId = true → instanceId ∈ state.running.map Running.instanceId)
  assigned : ∀ running ∈ left, ∃ assignment ∈ state.assigned, running.Serves assignment ∧
    (running = .of assignment ∨ running ∈ state.running)
  stopsFirst : ∀ started ∈ plan.start, ∀ running ∈ state.running,
    running.instanceId = started.instanceId → running ∈ plan.stop
  spares : ∀ running ∈ state.running, ∀ assignment ∈ state.assigned, running.Serves assignment →
    running ∈ left ∧ (∀ started ∈ plan.start, started.instanceId ≠ running.instanceId) ∧
      ∀ stopped ∈ plan.stop, stopped.instanceId ≠ running.instanceId
  fixed : { state with running := left }.decide now = ⟨[], [], false⟩

section Settles

variable {state : State} {now : Time} {assignment : Assignment}

theorem of_serves : (of assignment).Serves assignment := ⟨rfl, .inr rfl⟩

variable (once : state.Once) (kept : state.hasLostLease now = false)

include once kept

theorem State.Once.left_once : (((state.decide now).apply state.running).map instanceId).Nodup := by
  rw [once.apply_eq kept, map_append, map_map]
  refine (once.running.sublist (filter_sublist.map _)).append
    (once.assigned.sublist (filter_sublist.map _)) fun instanceId stays started => ?_
  obtain ⟨running, mem, rfl⟩ := mem_map.mp stays
  exact once.kept_not_started mem started

theorem State.Once.left_serves :
    ∀ running ∈ (state.decide now).apply state.running, ∃ assignment ∈ state.assigned,
      running.Serves assignment ∧ (running = .of assignment ∨ running ∈ state.running) := by
  rw [once.apply_eq kept]
  intro running left
  rcases mem_append.mp left with stays | started
  · obtain ⟨mem, serves⟩ := mem_filter.mp stays
    obtain ⟨assignment, isAssigned, serves⟩ := of_decide_eq_true serves
    exact ⟨assignment, isAssigned, serves, .inr mem⟩
  · obtain ⟨assignment, found, rfl⟩ := mem_map.mp started
    exact ⟨assignment, (mem_filter.mp found).1, of_serves, .inl rfl⟩

/-- An assigned instance is left running unless it is held off and did not run. -/
theorem State.Once.mem_left (isAssigned : assignment ∈ state.assigned) :
    assignment.instanceId ∈ ((state.decide now).apply state.running).map instanceId ↔
      (state.isHeldOff now assignment.instanceId = true →
        assignment.instanceId ∈ state.running.map instanceId) := by
  have startedIff : assignment.instanceId ∈
      ((state.assigned.filter (state.starts now)).map of).map instanceId ↔
        state.starts now assignment = true := by
    rw [map_map, mem_map]
    constructor
    · rintro ⟨other, found, same⟩
      obtain ⟨isAssigned', starts⟩ := mem_filter.mp found
      rwa [← inj_on_of_nodup_map once.assigned isAssigned' isAssigned same]
    · exact fun starts => ⟨assignment, mem_filter.mpr ⟨isAssigned, starts⟩, rfl⟩
  rw [once.apply_eq kept, map_append, mem_append, startedIff]
  by_cases runs : assignment.instanceId ∈ state.running.map instanceId
  · obtain ⟨running, mem, same⟩ := mem_map.mp runs
    refine iff_of_true ?_ fun _ => runs
    rw [once.starts_iff mem same.symm]
    by_cases serves : running.Serves assignment
    · have stays : running ∈ state.kept :=
        mem_filter.mpr ⟨mem, decide_eq_true ⟨assignment, isAssigned, serves⟩⟩
      exact .inl (mem_map.mpr ⟨running, stays, same⟩)
    · exact .inr serves
  · have absent : assignment.instanceId ∉ state.kept.map instanceId :=
      fun stays => runs ((filter_sublist.map _).subset stays)
    rw [starts_of_idle runs, or_iff_right absent]
    simp [runs]

/-- Where every process serves an assignment, and every assignment that does not run is held off,
nothing is left to do. -/
theorem State.Once.settled
    (serves : ∀ running ∈ state.running, ∃ assignment ∈ state.assigned, running.Serves assignment)
    (held : ∀ assignment ∈ state.assigned, assignment.instanceId ∉ state.running.map instanceId →
      state.isHeldOff now assignment.instanceId = true) : state.decide now = ⟨[], [], false⟩ := by
  have spared : ∀ running ∈ state.running, ∀ assignment ∈ state.assigned,
      assignment.instanceId = running.instanceId → running.Serves assignment := by
    intro running mem assignment isAssigned same
    obtain ⟨other, isAssigned', serves⟩ := serves running mem
    rwa [inj_on_of_nodup_map once.assigned isAssigned isAssigned' (same.trans serves.1.symm)]
  have starts : state.assigned.filter (state.starts now) = [] := by
    refine filter_eq_nil_iff.mpr fun assignment isAssigned => ?_
    by_cases runs : assignment.instanceId ∈ state.running.map instanceId
    · obtain ⟨running, mem, same⟩ := mem_map.mp runs
      rw [once.starts_iff mem same.symm, not_not]
      exact spared running mem assignment isAssigned same.symm
    · rw [starts_of_idle runs, held assignment isAssigned runs]
      simp
  have stops : (state.decide now).stop = [] := by
    refine eq_nil_iff_forall_not_mem.mpr fun stopped inStop => ?_
    have mem := mem_running_of_stop kept inStop
    refine (once.mem_stop kept mem).mp (mem_map_of_mem inStop) (mem_filter.mpr ⟨mem, ?_⟩)
    exact decide_eq_true (serves stopped mem)
  have inLease : (state.decide now).leaseLost = false := by
    rw [State.decide, if_neg (by simp [kept])]
  rw [← start_eq kept] at starts
  rw [← starts, ← stops, ← inLease]

end Settles

/-- Within the lease a plan settles what runs, and past it a plan stops everything. -/
theorem plan_settles (state : State) (now : Time) (once : state.Once) :
    (state.hasLostLease now = false →
      Settles state now (state.decide now) ((state.decide now).apply state.running)) ∧
    (state.hasLostLease now = true → state.decide now = ⟨[], state.running, true⟩ ∧
      (state.decide now).apply state.running = []) := by
  constructor
  · intro kept
    have serves := once.left_serves kept
    have leftOnce := once.left_once kept
    constructor
    · exact leftOnce
    · intro instanceId
      constructor
      · intro left
        obtain ⟨running, mem, rfl⟩ := mem_map.mp left
        obtain ⟨assignment, isAssigned, ⟨same, -⟩, -⟩ := serves running mem
        refine ⟨assignment, isAssigned, same, ?_⟩
        rw [← same] at left ⊢
        exact (once.mem_left kept isAssigned).mp left
      · rintro ⟨assignment, isAssigned, rfl, runs⟩
        exact (once.mem_left kept isAssigned).mpr runs
    · exact serves
    · intro started inStart running mem same
      rw [start_eq kept] at inStart
      have gone : running ∉ state.kept := fun stays =>
        once.kept_not_started stays (mem_map.mpr ⟨started, inStart, same.symm⟩)
      obtain ⟨stopped, inStop, own⟩ := mem_map.mp ((once.mem_stop kept mem).mpr gone)
      rwa [← inj_on_of_nodup_map once.running (mem_running_of_stop kept inStop) mem own]
    · intro running mem assignment isAssigned served
      have stays : running ∈ state.kept :=
        mem_filter.mpr ⟨mem, decide_eq_true ⟨assignment, isAssigned, served⟩⟩
      refine ⟨?_, fun started inStart same => ?_, fun stopped inStop same => ?_⟩
      · rw [once.apply_eq kept]
        exact mem_append_left _ stays
      · rw [start_eq kept] at inStart
        exact once.kept_not_started stays (mem_map.mpr ⟨started, inStart, same⟩)
      · exact (once.mem_stop kept mem).mp (mem_map.mpr ⟨stopped, inStop, same⟩) stays
    · refine State.Once.settled ⟨once.assigned, leftOnce⟩ kept (fun running mem => ?_) ?_
      · obtain ⟨assignment, isAssigned, served, -⟩ := serves running mem
        exact ⟨assignment, isAssigned, served⟩
      · intro assignment isAssigned absent
        by_contra free
        exact absent ((once.mem_left kept isAssigned).mpr fun held => absurd held free)
  · intro lost
    have plan : state.decide now = ⟨[], state.running, true⟩ := by rw [State.decide, if_pos lost]
    refine ⟨plan, ?_⟩
    rw [plan, Plan.apply, foldl_nil, foldl_without, filter_eq_nil_iff]
    intro cand mem
    simpa using ⟨cand, mem, rfl⟩

/-! ### A held off instance of an old build -/

def firstAssignment (revision : String) : Assignment where
  instanceId := "first"
  applicationId := "app"
  runtimeName := "app"
  revision := revision
  leaseExpiresAt := 100
  bucketErn := ""
  artifactKey := ""
  artifactSize := 0
  md5Sum := ""
  runtime := .java
  type := .process
  command := ""
  arguments := []
  environment := []
  accountId := ""
  nameSpace := ""
  logLevel := ""
  memoryLimitMb := 0
  cpuLimit := 0

/-- It runs the old build, and is held off. -/
def heldOff : State where
  assigned := [firstAssignment "new"]
  running := [⟨"first", "app", "old"⟩]
  leaseExpiresAt := 100
  renewed := true
  holdOff := [("first", 50)]

theorem heldOff_settles : heldOff.Once ∧ heldOff.hasLostLease 10 = false ∧
    Settles heldOff 10 (heldOff.decide 10) ((heldOff.decide 10).apply heldOff.running) := by
  have once : heldOff.Once := ⟨by decide, by decide⟩
  exact ⟨once, by decide, (plan_settles heldOff 10 once).1 (by decide)⟩

/-- It is left running, although it is held off and did not run the build that is assigned. -/
theorem heldOff_replaced : ¬∀ (state : State) (now : Time), state.Once →
    state.hasLostLease now = false →
    ∀ instanceId, instanceId ∈ ((state.decide now).apply state.running).map Running.instanceId ↔
      ∃ assignment ∈ state.assigned, assignment.instanceId = instanceId ∧
        (state.isHeldOff now instanceId = true → ∃ running ∈ state.running,
          running.instanceId = instanceId ∧ running.revision = assignment.revision) := by
  intro exactly
  have left := (exactly heldOff 10 ⟨by decide, by decide⟩ (by decide) "first").mp (by decide)
  obtain ⟨assignment, isAssigned, -, ran⟩ := left
  obtain ⟨running, mem, -, same⟩ := ran (by decide)
  obtain rfl := mem_singleton.mp isAssigned
  obtain rfl := mem_singleton.mp mem
  exact absurd same (by decide)

end Euclid.Worker
