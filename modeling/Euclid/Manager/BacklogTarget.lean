/-
This file proves that the target of a pool settles.

One tick takes the target up to what the backlog asks for at once, and down by one where the pool is
idle, so after any ticks it is what was asked for, or the first target less the idle ticks.
-/

import Mathlib.Data.Nat.Count
import Euclid.Manager.ModuleSettings

namespace Euclid.Manager

open Int

def nodeTargetAfterIdle (previous next : Int) (idleFor : Option Int) (idleThreshold : Int) : Int :=
  if previous ≤ next then next
  else
    match idleFor with
    | none => previous
    | some idle => if idle < idleThreshold then previous else next

/-! ### What the backlog asks for -/

/-- Rounded up, and nothing overflows. -/
def RoundsUp (pending reporting threshold : Int) : Prop :=
  let perInstance := pending / reporting
  let instances := instancesForBacklog pending reporting threshold
  if threshold ≤ perInstance then perInstance + threshold < 2 ^ 63 ∧
    (instances - 1) * threshold < perInstance ∧ perInstance ≤ instances * threshold
  else instances = 0

def Fits (pending reporting threshold : Int) : Prop :=
  threshold ≤ pending / reporting → pending / reporting + threshold < 2 ^ 63 ∧
    pending / reporting ≤ (2 ^ 31 - 1) * threshold

section Backlog

variable {pending reporting threshold : Int} (reported : 0 < reporting) (positive : 0 < threshold)

include reported positive

theorem roundsUp_iff : RoundsUp pending reporting threshold ↔ Fits pending reporting threshold := by
  unfold RoundsUp Fits instancesForBacklog
  dsimp only
  by_cases some : threshold ≤ pending / reporting
  · have waiting : ¬(reporting ≤ 0 ∨ pending ≤ 0 ∨ threshold ≤ 0) := by
      have none := fun none : pending ≤ 0 => Int.ediv_le_ediv reported none
      rw [zero_ediv] at none
      omega
    rw [if_pos some, if_neg waiting, if_pos some]
    simp only [some, true_implies]
    generalize pending / reporting = perInstance at some
    refine and_congr_right fun small => ?_
    rw [int64_of_lt (by omega) small, int64_of_lt (by omega) (by omega),
      tdiv_eq_ediv_of_nonneg (by omega)]
    have least := Int.ediv_mul_le (perInstance + threshold - 1) positive.ne'
    have most := lt_ediv_add_one_mul_self (perInstance + threshold - 1) positive
    generalize (perInstance + threshold - 1) / threshold = instances at least most
    rw [add_mul, one_mul] at most
    constructor
    · rintro ⟨_, enough⟩
      have bound := int32_lt instances
      exact enough.trans (mul_le_mul_of_nonneg_right (by omega) positive.le)
    · intro bound
      have nonneg : 0 ≤ instances := by
        by_contra negative
        have below := mul_le_mul_of_nonneg_right (by omega : instances ≤ -1) positive.le
        omega
      have fits : instances < 2 ^ 31 := Int.lt_of_mul_lt_mul_right (by omega) positive.le
      rw [int32_of_lt nonneg fits, sub_mul, one_mul]
      omega
  · simp [some]

theorem instancesForBacklog_mono {more : Int} (grows : pending ≤ more)
    (fits : Fits more reporting threshold) :
    instancesForBacklog pending reporting threshold ≤
      instancesForBacklog more reporting threshold := by
  have per := Int.ediv_le_ediv reported grows
  have rounds := (roundsUp_iff reported positive).mpr fits
  have roundsToo := (roundsUp_iff reported positive).mpr
    (fun some => ⟨by have := fits (some.trans per); omega, per.trans (fits (some.trans per)).2⟩)
  unfold RoundsUp at rounds roundsToo
  dsimp only at rounds roundsToo
  generalize instancesForBacklog more reporting threshold = instances at *
  have least : threshold ≤ more / reporting → 0 < instances := fun some => by
    rw [if_pos some] at rounds
    exact pos_of_mul_pos_left (by omega) positive.le
  split at roundsToo
  · rename_i some
    rw [if_pos (some.trans per)] at rounds
    have := Int.lt_of_mul_lt_mul_right (by omega :
      (instancesForBacklog pending reporting threshold - 1) * threshold < instances * threshold)
      positive.le
    omega
  · rw [roundsToo]
    split at rounds
    · exact (least ‹_›).le
    · exact rounds.ge

end Backlog

/-! ### Where the target goes -/

/-- What is wanted, within the limits. -/
def goal (wanted minInstances maxInstances : Int) : Int :=
  max minInstances (min wanted (max minInstances maxInstances))

/-- The target after some ticks. -/
def targetAfter (wanted minInstances maxInstances idleThreshold : Int) (idleFor : ℕ → Option Int)
    (start : Int) : ℕ → Int
  | 0 => start
  | tick + 1 =>
    let previous := targetAfter wanted minInstances maxInstances idleThreshold idleFor start tick
    nodeTargetAfterIdle previous (nextDesiredCount previous wanted minInstances maxInstances)
      (idleFor tick) idleThreshold

/-- The pool has been idle for long enough. -/
def isIdle (idleThreshold : Int) (idleFor : Option Int) : Bool := idleFor.any (idleThreshold ≤ ·)

variable {wanted minInstances maxInstances idleThreshold start : Int} {idleFor : ℕ → Option Int}

theorem nodeTargetAfterIdle_eq {previous : Int} {idle : Option Int} :
    nodeTargetAfterIdle previous (nextDesiredCount previous wanted minInstances maxInstances) idle
      idleThreshold = max (goal wanted minInstances maxInstances)
        (if isIdle idleThreshold idle then previous - 1 else previous) := by
  unfold nodeTargetAfterIdle nextDesiredCount goal isIdle
  cases idle with
  | none => grind
  | some idle => grind

/-- After any tick the target is what was asked for, or the first one less the idle ticks. -/
theorem targetAfter_succ {tick : ℕ} :
    targetAfter wanted minInstances maxInstances idleThreshold idleFor start (tick + 1) =
      max (goal wanted minInstances maxInstances)
        (start - (tick + 1).count fun tick => isIdle idleThreshold (idleFor tick)) := by
  induction tick with
  | zero =>
    rw [targetAfter, targetAfter, nodeTargetAfterIdle_eq, Nat.count_succ]
    grind
  | succ tick ih =>
    rw [targetAfter, ih, nodeTargetAfterIdle_eq, Nat.count_succ]
    grind

theorem targetAfter_idle (ticks : ℕ) :
    targetAfter wanted minInstances maxInstances idleThreshold
      (fun _ => some idleThreshold) start ticks =
      (fun current => nextDesiredCount current wanted minInstances maxInstances)^[ticks] start := by
  induction ticks with
  | zero => rfl
  | succ ticks ih =>
    rw [targetAfter, ih, Function.iterate_succ_apply']
    simp [nodeTargetAfterIdle]

/-- The backlog is rounded up exactly if it fits, and more of it asks for no fewer. A target comes
to what is wanted within the limits, as soon as the pool has been idle often enough, never moves
away from it, and stays within the limits. -/
theorem backlog_settles {reporting threshold : Int} (reported : 0 < reporting)
    (positive : 0 < threshold) (wanted minInstances maxInstances idleThreshold start : Int)
    (idleFor : ℕ → Option Int) :
    (∀ pending, (RoundsUp pending reporting threshold ↔ Fits pending reporting threshold) ∧
      (Fits pending reporting threshold → ∀ fewer ≤ pending,
        instancesForBacklog fewer reporting threshold ≤
          instancesForBacklog pending reporting threshold)) ∧
    (∀ tick : ℕ, let settled := goal wanted minInstances maxInstances
      let target := targetAfter wanted minInstances maxInstances idleThreshold idleFor start
      (start - settled ≤ (tick + 1).count (fun tick => isIdle idleThreshold (idleFor tick)) →
        target (tick + 1) = settled) ∧
      (target tick = settled → target (tick + 1) = settled) ∧
      |target (tick + 1) - settled| ≤ |target tick - settled| ∧
      (minInstances ≤ target tick ∧ target tick ≤ max minInstances maxInstances →
        minInstances ≤ target (tick + 1) ∧ target (tick + 1) ≤ max minInstances maxInstances) ∧
      (start - settled ≤ tick + 1 → (fun current => nextDesiredCount current wanted minInstances
        maxInstances)^[tick + 1] start = settled)) := by
  refine ⟨fun pending => ⟨roundsUp_iff reported positive, fun fits fewer less =>
    instancesForBacklog_mono reported positive less fits⟩, fun tick => ?_⟩
  intro settled target
  have step : target (tick + 1) =
      max settled (if isIdle idleThreshold (idleFor tick) then target tick - 1 else target tick) :=
    nodeTargetAfterIdle_eq
  have within : minInstances ≤ settled ∧ settled ≤ max minInstances maxInstances := by grind [goal]
  refine ⟨fun enough => ?_, by grind, by grind, by grind, fun enough => ?_⟩
  · exact targetAfter_succ.trans (max_eq_left (by omega))
  · rw [← @targetAfter_idle wanted minInstances maxInstances 0 start, targetAfter_succ,
      Nat.count_of_forall (by simp [isIdle])]
    exact max_eq_left (by omega)

/-- Ten messages more than five hundred for each of two instances. -/
theorem backlog_of_two : RoundsUp 1010 2 100 :=
  ((backlog_settles (by decide) (by decide) 6 1 8 60 3 fun _ => none).1 1010).1.mpr
    (by unfold Fits; decide)

/-- What is asked for does not fit into an integer of 32 bits. -/
theorem instancesForBacklog_cut : ¬∀ pending reporting threshold : Int, pending < 2 ^ 63 →
    0 < reporting → 0 < threshold → RoundsUp pending reporting threshold := by
  intro always
  have rounds := always (2 ^ 31) 1 1 (by decide) (by decide) (by decide)
  unfold RoundsUp at rounds
  revert rounds
  decide

end Euclid.Manager
