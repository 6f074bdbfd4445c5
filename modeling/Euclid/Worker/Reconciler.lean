/-
This file translates the decision a worker makes on each of its ticks: which instances to start,
which to stop, and whether it may still run anything.

The decision reads what the last renewal said, what is running here, the deadline the worker holds
and its own clock, and nothing else. What it does to an instance depends only on what is said of
that instance, and this is what the rest of the file proves of it.
-/

import Euclid.Eap.Nodes

namespace Euclid.Worker

open List

open Bus (Time)
open Eap (Assignment)

/-! ### The decision -/

/-- One process a worker has, with the revision it was started with. -/
structure Running where
  instanceId : String
  runtimeName : String
  revision : String

structure Plan where
  start : List Assignment
  stop : List Running
  leaseLost : Bool

/-- What a worker knows when it decides. -/
structure State where
  assigned : List Assignment
  running : List Running
  leaseExpiresAt : Time
  renewed : Bool
  holdOff : List (String × Time)

def runningCalled (running : List Running) (instanceId : String) : Option Running :=
  running.find? fun cand => cand.instanceId = instanceId

section

variable (state : State)

/-- A slot whose process exited, and that is not due to be tried again. -/
def State.isHeldOff (now : Time) (instanceId : String) : Bool :=
  (state.holdOff.lookup instanceId).any fun until_ => now < until_

/-- A slot that is not running is started, unless it is held off. -/
def State.starts (now : Time) (assignment : Assignment) : Bool :=
  match runningCalled state.running assignment.instanceId with
  | none => !state.isHeldOff now assignment.instanceId
  | some found => decide (assignment.revision ≠ "") && decide (found.revision ≠ assignment.revision)

/-- What runs another revision than the one that is now named is stopped. -/
def State.replaces (assignment : Assignment) : Option Running :=
  (runningCalled state.running assignment.instanceId).filter fun found =>
    decide (assignment.revision ≠ "") && decide (found.revision ≠ assignment.revision)

/-- What runs and is not assigned any more. -/
def State.unassigned : List Running :=
  state.running.filter fun running =>
    !state.assigned.any fun cand => cand.instanceId = running.instanceId

/-- The deadline has passed. A worker that has never held a lease has none to lose. -/
def State.hasLostLease (now : Time) : Bool :=
  decide (state.leaseExpiresAt ≠ 0) && decide (state.leaseExpiresAt < now)

def State.decide (now : Time) : Plan :=
  if state.hasLostLease now then ⟨[], state.running, true⟩
  else
    let replaced := state.assigned.filterMap state.replaces
    { start := state.assigned.filter (state.starts now)
      stop := replaced ++ state.unassigned.filter fun running =>
        !replaced.any fun cand => cand.instanceId = running.instanceId
      leaseLost := false }

end

/-! ### What is left alone, and what is not -/

section Decide

variable {state : State} {now : Time} {running : Running} {assignment : Assignment}

theorem runningCalled_instanceId {processes : List Running} {instanceId : String}
    (found : runningCalled processes instanceId = some running) :
    running.instanceId = instanceId := by
  simpa using List.find?_some found

theorem replaces_instanceId (replaced : state.replaces assignment = some running) :
    running.instanceId = assignment.instanceId :=
  runningCalled_instanceId (Option.filter_eq_some_iff.mp replaced).1

theorem decide_leaves (kept : state.hasLostLease now = false)
    (found : runningCalled state.running running.instanceId = some running)
    (assigned : assignment ∈ state.assigned) (same : assignment.instanceId = running.instanceId)
    (told : ∀ other ∈ state.assigned, other.instanceId = running.instanceId →
      other.revision = running.revision) :
    (∀ started ∈ (state.decide now).start, started.instanceId ≠ running.instanceId) ∧
      ∀ stopped ∈ (state.decide now).stop, stopped.instanceId ≠ running.instanceId := by
  unfold State.decide
  rw [if_neg (by simp [kept])]
  constructor
  · intro started inStart own
    obtain ⟨mem, starts⟩ := mem_filter.mp inStart
    unfold State.starts at starts
    rw [own, found] at starts
    simp [told started mem own] at starts
  · intro stopped inStop own
    rcases mem_append.mp inStop with inReplaced | inRest
    · obtain ⟨other, mem, replaces⟩ := mem_filterMap.mp inReplaced
      have called := (replaces_instanceId replaces).symm.trans own
      obtain ⟨running_eq, differs⟩ := Option.filter_eq_some_iff.mp replaces
      rw [called, found] at running_eq
      obtain rfl := Option.some.inj running_eq
      simp [told other mem called] at differs
    · obtain ⟨_, gone⟩ := mem_filter.mp (mem_filter.mp inRest).1
      rw [own, Bool.not_eq_true', any_eq_false] at gone
      exact gone assignment assigned (by simpa using same)

end Decide

end Euclid.Worker
