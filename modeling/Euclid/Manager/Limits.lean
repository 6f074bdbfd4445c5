/-
This file says when the pool of a module stays within its limits, whatever ticks, requests,
exits and settings come in whatever order.

A tick lets a pool grow as long as fewer instances run than may. Slots in which nothing runs at
the moment are not counted: one that waits out its backoff, that is being restarted or that was
given up. What grows a pool keeps it within its ceiling exactly where the slots it has are
fewer than may run, too.
-/

import Euclid.Manager.ModuleSettings

namespace Euclid.Manager

open Collection List ServiceGroup

/-! ### Changes and steps -/

/-- What happens to the pools at once. -/
inductive Change where
  | restartPass (now : Time)
  | evaluateScaling (now : Time)
  | applyStopped (now : Time) (module : ModuleRecord)
  | applyLimits (now : Time) (module : ModuleRecord)
  | observe (now : Time) (metrics : List (String × ReportedLoad)) (module : ModuleRecord)
  | rollQueuedInstance
  | acquireInstance (now : Time) (name : String) (countsAsLoad : Bool)
  | releaseInstance (now : Time) (name : String) (pid : Int) (countsAsLoad : Bool)
  | declareExpectedConcurrency (name : String) (desired : Int)
  | onChildExit (now : Time) (pid : Int)
  | doWork (now : Time) (outcome : Outcome)

def Change.apply (settings : Settings) : Change → Controller → Controller
  | .restartPass now => Manager.restartPass now
  | .evaluateScaling now => Manager.evaluateScaling settings now
  | .applyStopped now module => Manager.applyStopped settings now module
  | .applyLimits now module => Manager.applyLimits settings now module
  | .observe now metrics module => Manager.observe settings now metrics module
  | .rollQueuedInstance => Manager.rollQueuedInstance
  | .acquireInstance now name countsAsLoad =>
    Manager.acquireInstance settings now name countsAsLoad
  | .releaseInstance now name pid countsAsLoad => Manager.releaseInstance now name pid countsAsLoad
  | .declareExpectedConcurrency name desired => Manager.declareExpectedConcurrency name desired
  | .onChildExit now pid => Manager.onChildExit now pid
  | .doWork now outcome => Manager.doWork now outcome

/-- What may happen next. The watchdog thread does the work it has before it looks at the pools
again, and looks at them only while the database is reachable; requests and exits come at any
time. -/
inductive Step where
  | tick (now : Time) (databaseReachable : Bool)
  | reconcileSettings (now : Time) (modules : List ModuleRecord)
  | reconcileReports (now : Time) (metrics : String → List (String × ReportedLoad))
      (modules : List ModuleRecord)
  | acquireInstance (now : Time) (name : String) (countsAsLoad : Bool)
  | releaseInstance (now : Time) (name : String) (pid : Int) (countsAsLoad : Bool)
  | declareExpectedConcurrency (name : String) (desired : Int)
  | onChildExit (now : Time) (pid : Int)
  | doWork (now : Time) (outcome : Outcome)

def Step.changes (controller : Controller) : Step → List Change
  | .tick now databaseReachable =>
    if controller.work = [] ∧
      databaseReachable then [.restartPass now, .evaluateScaling now] else []
  | .reconcileSettings now modules =>
    if controller.work = [] then modules.map (.applyStopped now) ++ modules.map (.applyLimits now)
    else []
  | .reconcileReports now metrics modules =>
    if controller.work = [] then
      modules.map (fun module => .observe now (metrics module.name) module) ++ [.rollQueuedInstance]
    else []
  | .acquireInstance now name countsAsLoad => [.acquireInstance now name countsAsLoad]
  | .releaseInstance now name pid countsAsLoad => [.releaseInstance now name pid countsAsLoad]
  | .declareExpectedConcurrency name desired => [.declareExpectedConcurrency name desired]
  | .onChildExit now pid => [.onChildExit now pid]
  | .doWork now outcome => [.doWork now outcome]

def applyAll (settings : Settings) (controller : Controller) (changes : List Change) : Controller :=
  changes.foldl (fun before change => change.apply settings before) controller

/-- Something holds of every change and the pools it is made to. -/
def EachChange (settings : Settings) (holds : Change → Controller → Prop) :
    List Change → Controller → Prop
  | [], _ => True
  | change :: rest, controller =>
    holds change controller ∧ EachChange settings holds rest (change.apply settings controller)

/-- Something holds of every change of a run. -/
def EachStep (settings : Settings) (holds : Change → Controller → Prop) :
    List Step → Controller → Prop
  | [], _ => True
  | step :: rest, controller =>
    EachChange settings holds (step.changes controller) controller ∧
      EachStep settings holds rest (applyAll settings controller (step.changes controller))

/-! ### Limits -/

/-- A pool that has got another slot has no more of them than may run, so no more run than may once
all that wait are back. -/
structure GrowsWithin (before after : ServiceGroup) : Prop where
  slots : before.slots < after.slots → after.slots ≤ after.config.maxInstances
  returned : before.slots < after.slots →
    (after.instances.countP fun svc => decide (svc.state = .running) ||
      decide (svc.state = .pendingRestart) || decide (svc.state = .restarting) ||
      decide (svc.state = .starting) : Int) ≤ after.config.maxInstances

/-- A pool that scaling has taken an instance of has as many as it has to have. -/
def ShrinksWithin (before after : ServiceGroup) : Prop :=
  after.running < before.running → before.config.minInstances ≤ after.running

/-- A change keeps every pool within its limits. -/
def Change.KeepsLimits (settings : Settings) (change : Change) (controller : Controller) : Prop :=
  List.Forall₂ (fun before after => GrowsWithin before after ∧
      ∀ now, change = .evaluateScaling now → ShrinksWithin before after)
    controller.services (change.apply settings controller).services

/-- Where a change would have a pool grow there is room for it: fewer slots than may run where a
tick does, and a floor that is not over the ceiling where a pool is filled up to it. -/
def Change.HasRoom (settings : Settings) (change : Change) (controller : Controller) : Prop :=
  match change with
  | .evaluateScaling _ => ∀ group ∈ controller.services, group.stopped = false →
      group.isGrowing settings → group.slots < group.config.maxInstances
  | .applyStopped _ module => ∀ group ∈ controller.getGroup module.name, group.stopped = true →
      module.desiredStopped = false → group.slots < group.config.minInstances →
      group.config.minInstances ≤ group.config.maxInstances
  | .applyLimits _ module => ∀ group ∈ controller.getGroup module.name, group.stopped = false →
      group.isResized module → group.slots < group.wantedMin module →
      group.wantedMin module ≤ group.wantedMax module
  | _ => True

/-! ### Changes that leave the number of slots -/

/-- A pool has the slots and the limits it had. -/
def SameSize (before after : ServiceGroup) : Prop :=
  after.slots = before.slots ∧ after.config = before.config

theorem SameSize.growsWithin {before after : ServiceGroup} (same : SameSize before after) :
    GrowsWithin before after :=
  ⟨fun grows => absurd same.1 grows.ne', fun grows => absurd same.1 grows.ne'⟩

theorem growsWithin_refl (group : ServiceGroup) : GrowsWithin group group :=
  SameSize.growsWithin ⟨rfl, rfl⟩

section SameSize

theorem length_updateFirst {Document : Type} (selects : Document → Bool)
    (change : Document → Document) (docs : List Document) :
    (updateFirst selects change docs).length = docs.length := by
  induction docs with
  | nil => rfl
  | cons doc rest ih =>
    rw [updateFirst]
    split
    · rfl
    · exact congrArg (· + 1) ih

variable (controller : Controller)

/-- Every pool has the slots and the limits it had. -/
def SameSizes (before after : List ServiceGroup) : Prop := List.Forall₂ SameSize before after

theorem sameSizes_refl (services : List ServiceGroup) : SameSizes services services :=
  forall₂_same.mpr fun _ _ => ⟨rfl, rfl⟩

theorem sameSizes_updateGroup (name : String) {change : ServiceGroup → ServiceGroup}
    (same : ∀ group, SameSize group (change group)) :
    SameSizes controller.services (controller.updateGroup name change).services :=
  (forall₂_updateFirst (fun _ => ⟨rfl, rfl⟩) _).mpr fun group _ => same group

section

variable (selects : ModuleProcess → Bool) (change : ModuleProcess → ModuleProcess)

theorem sameSize_updateInstance (group : ServiceGroup) :
    SameSize group (group.updateInstance selects change) :=
  ⟨congrArg Int.ofNat (length_updateFirst selects change group.instances), rfl⟩

theorem sameSizes_updateInstance :
    SameSizes controller.services (controller.updateInstance selects change).services :=
  (forall₂_updateFirst (fun _ => ⟨rfl, rfl⟩) _).mpr fun group _ =>
    sameSize_updateInstance selects change group

end

theorem sameSizes_restartPass (now : Time) :
    SameSizes controller.services (restartPass now controller).services := by
  refine forall₂_map_right_iff.mpr (forall₂_same.mpr fun group _ => ?_)
  unfold ServiceGroup.restartPass
  split
  · exact ⟨rfl, rfl⟩
  · exact ⟨congrArg Int.ofNat (length_map _), rfl⟩

theorem sameSizes_acquireInstance (settings : Settings) (now : Time) (name : String)
    (countsAsLoad : Bool) :
    SameSizes controller.services
      (acquireInstance settings now name countsAsLoad controller).services := by
  refine sameSizes_updateGroup controller name fun group => ?_
  unfold acquired
  split
  · exact ⟨rfl, rfl⟩
  · exact ⟨congrArg Int.ofNat (length_modify ..), rfl⟩

theorem sameSizes_declareExpectedConcurrency (name : String) (desired : Int) :
    SameSizes controller.services
      (declareExpectedConcurrency name desired controller).services := by
  refine sameSizes_updateGroup controller name fun group => ?_
  split <;> exact ⟨rfl, rfl⟩

theorem sameSizes_observe (settings : Settings) (now : Time)
    (metrics : List (String × ReportedLoad)) (module : ModuleRecord) :
    SameSizes controller.services (observe settings now metrics module controller).services := by
  refine sameSizes_updateGroup controller module.name fun group => ?_
  have threads : SameSize group (group.threadsObserved module) := by
    unfold threadsObserved
    split
    · exact ⟨rfl, rfl⟩
    · split <;> exact ⟨rfl, rfl⟩
  have restarts : ∀ group : ServiceGroup, SameSize group (group.restartsObserved module) := by
    intro group
    unfold restartsObserved
    split
    · exact ⟨rfl, rfl⟩
    · split
      · exact ⟨rfl, rfl⟩
      · split <;> exact ⟨rfl, rfl⟩
  have loads : ∀ (group : ServiceGroup) direct reports,
      SameSize group (group.loaded settings now direct reports) := by
    intro group direct reports
    unfold loaded
    split
    · exact ⟨rfl, rfl⟩
    · exact ⟨congrArg Int.ofNat (length_map _), rfl⟩
  have load : ∀ group : ServiceGroup,
    SameSize group (group.loadObserved settings now metrics module) := by
    intro group
    unfold loadObserved
    split <;> exact loads ..
  have background : ∀ group : ServiceGroup, SameSize group (group.backgroundObserved module) :=
    fun group => ⟨congrArg Int.ofNat (length_map _), rfl⟩
  have first := restarts (group.threadsObserved module)
  have second := background ((group.threadsObserved module).restartsObserved module)
  have third := load (((group.threadsObserved module).restartsObserved module).backgroundObserved
    module)
  exact ⟨third.1.trans (second.1.trans (first.1.trans threads.1)),
    third.2.trans (second.2.trans (first.2.trans threads.2))⟩

theorem sameSizes_nextRoll (services : List ServiceGroup) :
    SameSizes services (nextRoll services).2 := by
  have own : ∀ group : ServiceGroup, SameSize group group.nextRoll.2 := by
    intro group
    unfold ServiceGroup.nextRoll
    split <;> exact ⟨rfl, rfl⟩
  induction services with
  | nil => exact .nil
  | cons group rest ih =>
    have same := own group
    unfold nextRoll
    split
    · rename_i taken
      rw [taken] at same
      exact .cons same (sameSizes_refl rest)
    · rename_i emptied
      rw [emptied] at same
      exact .cons same ih

theorem sameSizes_rollQueuedInstance :
    SameSizes controller.services (rollQueuedInstance controller).services := by
  have same := sameSizes_nextRoll controller.services
  unfold rollQueuedInstance
  split
  · rename_i rolled
    rwa [rolled] at same
  · rename_i rolled
    rwa [rolled] at same

theorem sameSizes_doWork (now : Time) (outcome : Outcome) :
    SameSizes controller.services (doWork now outcome controller).services := by
  unfold doWork
  split
  · exact sameSizes_refl _
  · split <;> exact sameSizes_updateInstance controller _ _
  · split <;> exact sameSizes_updateInstance controller _ _
  · split <;> exact sameSizes_updateInstance controller _ _
  · split
    · exact sameSizes_updateInstance controller _ _
    · exact sameSizes_refl _
  · split
    · exact sameSizes_updateInstance controller _ _
    · exact sameSizes_refl _
  · exact sameSizes_refl _

end SameSize

/-! ### Filling a pool up -/

section Filling

variable (now : Time) (uuid : Nat → String) (module : ModuleRecord) (group : ServiceGroup)

theorem slots_filledTo (size : Int) :
    (group.filledTo size now uuid).slots = max group.slots size := by
  simp only [filledTo, slots, length_append, length_map,
    length_range]
  omega

theorem growsWithin_of_slots {before after : ServiceGroup}
    (slots : before.slots < after.slots → after.slots ≤ after.config.maxInstances) :
    GrowsWithin before after where
  slots := slots
  returned grows := (Int.ofNat_le.mpr countP_le_length).trans (slots grows)

theorem growsWithin_filledTo_iff (before : ServiceGroup) (size : Int)
    (same : group.slots = before.slots) :
    GrowsWithin before (group.filledTo size now uuid) ↔
      (before.slots < size → size ≤ group.config.maxInstances) := by
  have filled := slots_filledTo now uuid group size
  have ceiling : (group.filledTo size now uuid).config = group.config := rfl
  constructor
  · intro within fewer
    have bounded := within.slots (by omega)
    rw [ceiling] at bounded
    omega
  · refine fun within => growsWithin_of_slots fun grows => ?_
    rw [ceiling]
    omega

theorem settledStopped_within_iff (desiredStopped : Bool) :
    GrowsWithin group (group.settledStopped now uuid desiredStopped).1 ↔
      (group.stopped = true → desiredStopped = false → group.slots < group.config.minInstances →
        group.config.minInstances ≤ group.config.maxInstances) := by
  unfold settledStopped
  by_cases settled : group.stopped = desiredStopped
  · rw [if_pos settled]
    refine iff_of_true (growsWithin_refl group) fun stopped starts => ?_
    exact absurd (stopped.symm.trans (settled.trans starts)) (by decide)
  · rw [if_neg settled]
    cases desiredStopped with
    | true =>
      rw [if_pos rfl]
      exact iff_of_true (SameSize.growsWithin ⟨rfl, rfl⟩) fun stopped => absurd stopped settled
    | false =>
      rw [if_neg (by decide)]
      have stopped : group.stopped = true := eq_true_of_ne_false settled
      rw [growsWithin_filledTo_iff now uuid { group with stopped := false } group _ rfl]
      exact ⟨fun within _ _ => within, fun within => within stopped rfl⟩

theorem settledLimits_within_iff : GrowsWithin group (group.settledLimits now uuid module).1 ↔
      (group.stopped = false → group.isResized module → group.slots < group.wantedMin module →
        group.wantedMin module ≤ group.wantedMax module) := by
  have limited : GrowsWithin group (group.limited module) :=
    ⟨fun grows => absurd grows (lt_irrefl _), fun grows => absurd grows (lt_irrefl _)⟩
  unfold settledLimits
  by_cases resized : group.isResized module = false
  · rw [if_pos resized]
    exact iff_of_true (growsWithin_refl group) fun _ also => absurd also (by simp [resized])
  · rw [if_neg resized]
    by_cases stopped : group.stopped = true
    · rw [if_pos stopped]
      exact iff_of_true limited fun running => absurd running (by simp [stopped])
    · rw [if_neg stopped]
      refine (growsWithin_filledTo_iff now uuid (group.limited module) group _ rfl).trans ?_
      exact ⟨fun within _ _ => within,
        fun within => within (eq_false_of_ne_true stopped) (eq_true_of_ne_false resized)⟩

end Filling

/-! ### Scaling a pool -/

section Scaling

variable (settings : Settings) (now : Time) (group : ServiceGroup)

theorem checked_slots : group.checked.slots = group.slots :=
  congrArg Int.ofNat (length_map _)

theorem checked_running : group.checked.running = group.running := by
  unfold running checked
  rw [countP_map]
  refine congrArg Int.ofNat (countP_congr fun svc _ => ?_)
  simp only [Function.comp_apply]
  split <;> rfl

theorem settled_instances : (group.settled settings now).instances = group.instances := by
  unfold settled
  split <;> rfl

theorem settled_slots : (group.settled settings now).slots = group.slots :=
  congrArg (fun instances => (length instances : Int)) (settled_instances settings now group)

theorem settled_running : (group.settled settings now).running = group.running := by
  unfold running
  rw [settled_instances]

theorem running_erase (cand : ModuleProcess) : group.running - 1 ≤
      ({ group with instances := group.instances.erase cand } : ServiceGroup).running := by
  by_cases mem : cand ∈ group.instances
  · have counts := (perm_cons_erase mem).countP_eq fun svc => decide (svc.state = .running)
    rw [countP_cons] at counts
    simp only [running]
    split at counts <;> omega
  · rw [erase_of_not_mem mem]
    exact Int.sub_le_self _ (by decide)

theorem grown_slots (instanceId : String) : (group.grown now instanceId).slots = group.slots + 1 :=
  congrArg Int.ofNat (length_append ..)

theorem grown_running (instanceId : String) :
    (group.grown now instanceId).running = group.running := by
  unfold running grown
  rw [countP_append]
  rfl

/-- What scaling makes of a pool: as it was but for its marks, one slot more, or one less. -/
theorem scaled_cases (instanceId : String) :
    (group.scaled settings now instanceId).1 = group ∧ group.stopped = true ∨
      group.stopped = false ∧ group.isGrowing settings ∧
        (group.scaled settings now instanceId).1 = group.checked.grown now instanceId ∨
      group.isGrowing settings = false ∧
        (group.scaled settings now instanceId).1.slots ≤ group.slots ∧
        ShrinksWithin group (group.scaled settings now instanceId).1 := by
  unfold scaled
  by_cases stopped : group.stopped = true
  · exact .inl ⟨if_pos stopped ▸ rfl, stopped⟩
  · rw [if_neg stopped]
    by_cases growing : group.isGrowing settings = true
    · exact .inr (.inl ⟨eq_false_of_ne_true stopped, growing, if_pos growing ▸ rfl⟩)
    · rw [if_neg growing]
      have slots := checked_slots group
      have running := checked_running group
      refine .inr (.inr ⟨eq_false_of_ne_true growing, ?_⟩)
      -- Only the last of the four outcomes gives up an instance, and only over the floor.
      cases group.idleCandidate with
      | none => exact ⟨slots.le, fun fewer => absurd running fewer.ne⟩
      | some cand =>
        dsimp only
        split
        · rename_i spare
          split
          · rw [ShrinksWithin, settled_slots, settled_running]
            exact ⟨slots.le, fun fewer => absurd running fewer.ne⟩
          · rw [ShrinksWithin, settled_slots, settled_running]
            refine ⟨?_, fun _ => ?_⟩
            · exact (Int.ofNat_le.mpr length_erase_le).trans slots.le
            · have one := running_erase group.checked cand
              omega
        · exact ⟨slots.le, fun fewer => absurd running fewer.ne⟩

/-- Scaling keeps a pool within its limits exactly if there is room for it to grow. -/
theorem scaled_within_iff (instanceId : String) :
    GrowsWithin group (group.scaled settings now instanceId).1 ∧
        ShrinksWithin group (group.scaled settings now instanceId).1 ↔
      (group.stopped = false → group.isGrowing settings →
        group.slots < group.config.maxInstances) := by
  rcases scaled_cases settings now group instanceId with ⟨same, stopped⟩ |
      ⟨started, growing, grown⟩ | ⟨content, slots, shrinks⟩
  · rw [same]
    refine iff_of_true ⟨growsWithin_refl group, fun fewer => absurd fewer (lt_irrefl _)⟩ ?_
    exact fun started => absurd started (by simp [stopped])
  · rw [grown]
    have more : (group.checked.grown now instanceId).slots = group.slots + 1 := by
      rw [grown_slots, checked_slots]
    have running : (group.checked.grown now instanceId).running = group.running := by
      rw [grown_running, checked_running]
    have ceiling : (group.checked.grown now instanceId).config = group.config := rfl
    constructor
    · rintro ⟨within, _⟩ _ _
      have bounded := within.slots (by omega)
      rw [ceiling] at bounded
      omega
    · intro room
      have fits := room started growing
      refine ⟨growsWithin_of_slots fun _ => ?_, fun fewer => absurd running fewer.ne⟩
      rw [ceiling]
      omega
  · refine iff_of_true ⟨growsWithin_of_slots fun grows => absurd slots grows.not_ge, shrinks⟩ ?_
    exact fun _ growing => absurd growing (by simp [content])

end Scaling

/-! ### Every change -/

theorem forall₂_mapIdx {Entry Image : Type} {related : Entry → Image → Prop} {fits : Entry → Prop}
    {image : Nat → Entry → Image}
      (each : ∀ index entry, related entry (image index entry) ↔ fits entry)
    (entries : List Entry) :
    Forall₂ related entries (entries.mapIdx image) ↔ ∀ entry ∈ entries, fits entry := by
  induction entries generalizing image with
  | nil => simp
  | cons entry rest ih =>
    rw [mapIdx_cons, forall₂_cons, each, forall_mem_cons,
      ih fun index entry => each (index + 1) entry]

variable {settings : Settings} {controller : Controller} {change : Change}

theorem keepsLimits_of_sameSizes (other : ∀ now, change ≠ .evaluateScaling now)
    (same : SameSizes controller.services (change.apply settings controller).services) :
    change.KeepsLimits settings controller ↔ True :=
  iff_of_true (same.imp fun _ _ sized => ⟨sized.growsWithin, fun now is => absurd is (other now)⟩)
    trivial

theorem keepsLimits_settle_iff
    (module : ModuleRecord) (settled : (Nat → String) → ServiceGroup → ServiceGroup × List Work)
    (other : ∀ now, change ≠ .evaluateScaling now)
    (applies : change.apply settings controller = controller.settle settings module settled) :
    change.KeepsLimits settings controller ↔
      ∀ group ∈ controller.getGroup module.name, GrowsWithin group
        (settled (fun index => settings.uuid (controller.drawn + index)) group).1 := by
  have within : change.KeepsLimits settings controller ↔
      Forall₂ GrowsWithin controller.services
        (controller.settle settings module settled).services := by
    unfold Change.KeepsLimits
    rw [applies]
    exact ⟨fun all => all.imp fun _ _ both => both.1,
      fun all => all.imp fun _ _ grows => ⟨grows, fun now is => absurd is (other now)⟩⟩
  rw [within]
  unfold Controller.settle
  split
  · rename_i missing
    rw [missing]
    refine iff_of_true (forall₂_same.mpr fun _ _ => growsWithin_refl _) fun group own => ?_
    exact absurd own (Option.not_mem_none group)
  · exact forall₂_updateFirst growsWithin_refl controller.services

/-- A change keeps every pool within its limits exactly if there is room where it has one grow. -/
theorem keepsLimits_iff (settings : Settings) (change : Change) (controller : Controller) :
    change.KeepsLimits settings controller ↔ change.HasRoom settings controller := by
  cases change with
  | evaluateScaling now =>
    refine forall₂_map_right_iff.trans (forall₂_mapIdx (fun index group => ?_) _)
    refine Iff.trans (and_congr_right fun _ => ?_) (scaled_within_iff settings now group _)
    exact ⟨fun shrinks => shrinks now rfl, fun shrinks _ _ => shrinks⟩
  | applyStopped now module =>
    have other : ∀ later, Change.applyStopped now module ≠ .evaluateScaling later := fun _ => nofun
    refine (keepsLimits_settle_iff module (fun uuid group =>
      group.settledStopped now uuid module.desiredStopped) other rfl).trans ?_
    exact forall₂_congr fun group _ => settledStopped_within_iff now _ group module.desiredStopped
  | applyLimits now module =>
    have other : ∀ later, Change.applyLimits now module ≠ .evaluateScaling later := fun _ => nofun
    refine (keepsLimits_settle_iff module (fun uuid group =>
      group.settledLimits now uuid module) other rfl).trans ?_
    exact forall₂_congr fun group _ => settledLimits_within_iff now _ module group
  | restartPass now =>
    exact keepsLimits_of_sameSizes (fun _ => nofun) (sameSizes_restartPass controller now)
  | observe now metrics module =>
    exact keepsLimits_of_sameSizes (fun _ => nofun)
      (sameSizes_observe controller settings now metrics module)
  | rollQueuedInstance =>
    exact keepsLimits_of_sameSizes (fun _ => nofun) (sameSizes_rollQueuedInstance controller)
  | acquireInstance now name countsAsLoad =>
    exact keepsLimits_of_sameSizes (fun _ => nofun)
      (sameSizes_acquireInstance controller settings now name countsAsLoad)
  | releaseInstance now name pid countsAsLoad =>
    exact keepsLimits_of_sameSizes (fun _ => nofun)
      (sameSizes_updateGroup controller name fun group => sameSize_updateInstance _ _ group)
  | declareExpectedConcurrency name desired =>
    exact keepsLimits_of_sameSizes (fun _ => nofun)
      (sameSizes_declareExpectedConcurrency controller name desired)
  | onChildExit now pid =>
    exact keepsLimits_of_sameSizes (fun _ => nofun) (sameSizes_updateInstance controller _ _)
  | doWork now outcome =>
    exact keepsLimits_of_sameSizes (fun _ => nofun) (sameSizes_doWork controller now outcome)

/-! ### Every run -/

theorem eachChange_congr {holds other : Change → Controller → Prop}
    (same : ∀ change controller, holds change controller ↔ other change controller)
    (changes : List Change) (controller : Controller) :
    EachChange settings holds changes controller ↔
      EachChange settings other changes controller := by
  induction changes generalizing controller with
  | nil => exact Iff.rfl
  | cons change rest ih =>
    exact and_congr (same change controller) (ih _)

/-- In every run each change keeps every pool within its limits exactly if there is room where one
grows. -/
theorem pools_within_limits (settings : Settings) (steps : List Step) (controller : Controller) :
    EachStep settings (Change.KeepsLimits settings) steps controller ↔
      EachStep settings (Change.HasRoom settings) steps controller := by
  induction steps generalizing controller with
  | nil => exact Iff.rfl
  | cons step rest ih =>
    exact and_congr (eachChange_congr (keepsLimits_iff settings) _ controller) (ih _)

/-! ### A pool of one -/

def plainSettings : Settings where
  scaleDownIdleSeconds := 60
  scaleUpSaturatedTicks := 3
  loadFreshnessSeconds := 45
  backlogScaleUpMessages := 100
  threadsOf := fun _ => 2
  uuid := fun drawn => String.ofList (List.replicate (drawn + 1) 'i')

def singleConfig : ModuleConfig where
  name := "esm"
  autoRestart := true
  maxRestarts := 5
  restartDelayMs := 1000
  maxRestartDelayMs := 30000
  minInstances := 1
  maxInstances := 1

/-- Its pool, with that instance running. -/
def singlePool : Controller where
  services := [{
    config := singleConfig
    instances := [{ ModuleProcess.made singleConfig 0 "first" with pid := 7, state := .running }]
    rrCursor := 0
    lastActivityAt := 0
    desiredCount := 0
    saturatedTicks := 0
    backlogTarget := false
    stopped := false
    appliedThreads := kThreadsUnobserved
    requestCapacity := 0
    pendingRoll := []
    restartObserved := false
    appliedRestartAt := 0 }]
  work := []
  drawn := 0

/-- A client declares that it needs the one instance, the instance crashes, and the next tick starts
another while the first waits out its backoff. -/
def crashAndTick : List Step :=
  [.declareExpectedConcurrency "esm" 1, .onChildExit 10000 7, .tick 10500 true]

/-- A pool of one instance comes to have two. -/
theorem backoff_doubled : ¬∀ (settings : Settings) (steps : List Step) (controller : Controller),
      EachStep settings (Change.KeepsLimits settings) steps controller := by
  intro always
  have kept := (always plainSettings crashAndTick singlePool).2.2.1.2.1
  have room := (keepsLimits_iff _ _ _).mp kept
  have crowded : ¬∀ group ∈ (applyAll plainSettings singlePool
      [.declareExpectedConcurrency "esm" 1, .onChildExit 10000 7, .restartPass 10500]).services,
      group.stopped = false → group.isGrowing plainSettings →
        group.slots < group.config.maxInstances := by decide
  exact crowded room

end Euclid.Manager
