/-
This file translates the alert evaluator, and proves when a level is entered and that none is stuck.

A streak is how many of the figures judged last, one after the other, are on one side of a line. A
figure that is not finite is not judged, and a no-data mark starts the streaks anew.
-/

import Euclid.Binary64

namespace Euclid.Emo

open Binary64 List

inductive Resolution | raw | hour | day | unknown
  deriving DecidableEq

inductive AlertStatistic | value | max | min | unknown
  deriving DecidableEq

inductive AlertComparison | above | below | unknown
  deriving DecidableEq

inductive AlertLevel | ok | warning | critical | noData | unknown
  deriving DecidableEq

/-- A rule. Its lines are doubles. -/
structure AlertRule where
  ruleId : String
  name : String
  resolution : Resolution
  statistic : AlertStatistic
  comparison : AlertComparison
  warning : Option UInt64
  critical : Option UInt64
  forPeriods : Int
  clearPeriods : Int
  noDataAfterPeriods : Int

/-- Where a series stands. Moments are in nanoseconds. -/
structure AlertState where
  level : AlertLevel
  since : Int
  lastValue : UInt64
  lastSeen : Int
  breachStreak : Int
  criticalStreak : Int
  okStreak : Int
  belowCriticalStreak : Int

structure AlertChange where
  previous : AlertLevel
  level : AlertLevel
  value : UInt64
  threshold : Option UInt64

def isFinite (value : UInt64) : Bool :=
  (rank value).any fun place => place.natAbs < infinity

namespace AlertRule

variable (rule : AlertRule)

def past (value threshold : UInt64) : Bool :=
  if rule.comparison = .below then below (rank value) (rank threshold)
  else below (rank threshold) (rank value)

def pastCritical (value : UInt64) : Bool :=
  rule.critical.any (rule.past value)

def pastWarning (value : UInt64) : Bool :=
  rule.warning.any (rule.past value)

/-- Past some line. -/
def pastAny (value : UInt64) : Bool :=
  rule.pastCritical value || rule.pastWarning value

/-- The line that a change of level has crossed. -/
def crossed (previous next : AlertLevel) : Option UInt64 :=
  if next = .critical then rule.critical
  else if next = .warning then rule.warning
  else if previous = .critical then rule.critical
  else if previous = .warning then rule.warning
  else none

end AlertRule

def classifyAlertValue (rule : AlertRule) (value : UInt64) : AlertLevel :=
  if rule.pastCritical value then .critical
  else if rule.pastWarning value then .warning
  else .ok

def AlertState.counted (state : AlertState) (observed : AlertLevel) (value : UInt64)
    (bucket : Int) : AlertState :=
  { state with
    breachStreak := if observed ≠ .ok then state.breachStreak + 1 else 0
    criticalStreak := if observed = .critical then state.criticalStreak + 1 else 0
    okStreak := if observed = .ok then state.okStreak + 1 else 0
    belowCriticalStreak := if observed ≠ .critical then state.belowCriticalStreak + 1 else 0
    lastValue := value
    lastSeen := bucket }

section

variable (rule : AlertRule) (state : AlertState)

/-- The `switch` of `EvaluateAlert`. -/
def nextLevel (observed : AlertLevel) : AlertLevel :=
  let dwell := max 1 rule.forPeriods
  let clear := max 1 rule.clearPeriods
  match state.level with
  | .warning =>
    if dwell ≤ state.criticalStreak then .critical
    else if clear ≤ state.okStreak then .ok
    else .warning
  | .critical =>
    if clear ≤ state.okStreak then .ok
    else if clear ≤ state.belowCriticalStreak ∧ observed = .warning then .warning
    else .critical
  | level =>
    if dwell ≤ state.criticalStreak then .critical
    else if dwell ≤ state.breachStreak then if rule.warning.isSome then .warning else level
    else if level ≠ .ok ∧ clear ≤ state.okStreak then .ok
    else level

def evaluateAlert (value : UInt64) (bucket : Int) : AlertState × Option AlertChange :=
  if !isFinite value then (state, none)
  else
    let observed := classifyAlertValue rule value
    let counted := state.counted observed value bucket
    let next := nextLevel rule counted observed
    if next = state.level then (counted, none)
    else
      ({ counted with level := next, since := bucket }, some {
        previous := state.level
        level := next
        value
        threshold := rule.crossed state.level next })

/-- `MarkAlertNoData`, with the period in seconds. -/
def markAlertNoData (now period : Int) : AlertState × Option AlertChange :=
  if rule.noDataAfterPeriods ≤ 0 ∨ state.level = .noData then (state, none)
  else if state.lastSeen = 0 then (state, none)
  else if now < state.lastSeen +
    (period * (rule.noDataAfterPeriods + 1) + period.tdiv 2) * 10 ^ 9 then
    (state, none)
  else
    ({ state with
        level := .noData, since := now
        breachStreak := 0, criticalStreak := 0, okStreak := 0, belowCriticalStreak := 0 },
      some {
        previous := state.level, level := .noData, value := state.lastValue, threshold := none })

end

def validateAlertRule (rule : AlertRule) : String :=
  if rule.ruleId = "" then "\"ruleId\" is required"
  else if 128 < rule.ruleId.utf8ByteSize then "\"ruleId\" is longer than 128 characters"
  else if !rule.ruleId.toList.all fun c =>
      ('a' ≤ c && c ≤ 'z') || ('A' ≤ c && c ≤ 'Z') || ('0' ≤ c && c ≤ '9') || c = '-' || c = '_' ||
        c = '.' then
    "\"ruleId\" may hold letters, digits, '-', '_' and '.'"
  else if rule.name = "" then "\"name\", the metric, is required"
  else if rule.resolution ≠ .raw then
    "\"resolution\" must be RAW: a rule on an hourly or daily tier is a report, not an alert"
  else if rule.statistic = .unknown then "\"statistic\" must be value, max or min"
  else if rule.comparison = .unknown then "\"comparison\" must be above or below"
  else if rule.warning.isNone ∧ rule.critical.isNone then
    "at least one of \"warning\" and \"critical\" is required"
  else if !rule.warning.all isFinite || !rule.critical.all isFinite then
    "thresholds must be finite numbers"
  else if rule.comparison = .above ∧
      rule.warning.any fun warning => rule.critical.any fun critical =>
        !below (rank warning) (rank critical) then
    "\"warning\" must be below \"critical\" for a rule alerting above them"
  else if rule.comparison = .below ∧
      rule.warning.any fun warning => rule.critical.any fun critical =>
        !below (rank critical) (rank warning) then
    "\"warning\" must be above \"critical\" for a rule alerting below them"
  else if rule.forPeriods < 1 ∨ 1000 < rule.forPeriods then
    "\"forPeriods\" must be between 1 and 1000"
  else if rule.clearPeriods < 1 ∨ 1000 < rule.clearPeriods then
    "\"clearPeriods\" must be between 1 and 1000"
  else if rule.noDataAfterPeriods < 0 ∨ 1000 < rule.noDataAfterPeriods then
    "\"noDataAfterPeriods\" must be between 0 and 1000"
  else ""

/-! ### Histories -/

/-- What is fed to a series: a figure, or a sweep that may find it silent. -/
inductive Fed
  | figure (value : UInt64) (bucket : Int)
  | silence (now period : Int)

variable (rule : AlertRule) (since : Int)

/-- One step of a series. -/
def feed (state : AlertState) : Fed → AlertState × Option AlertChange
  | .figure value bucket => evaluateAlert rule state value bucket
  | .silence now period => markAlertNoData rule state now period

/-- The state a history leads to, from a fresh one. What was fed last comes first. -/
def after : List Fed → AlertState
  | [] => ⟨.ok, since, 0, 0, 0, 0, 0, 0⟩
  | fed :: past => (feed rule (after past) fed).1

/-- The finite figures since the last no-data mark, with one step more. -/
def judge (state : AlertState) (figures : List UInt64) : Fed → List UInt64
  | .figure value _ => if !isFinite value then figures else value :: figures
  | .silence now period =>
    if (markAlertNoData rule state now period).2.isSome then [] else figures

/-- The finite figures of a history since the last no-data mark. -/
def judged : List Fed → List UInt64
  | [] => []
  | fed :: past => judge rule (after rule since past) (judged past) fed

/-- The last so many figures are all of a kind. -/
def Last (count : Int) (figures : List UInt64) (kind : UInt64 → Bool) : Prop :=
  count ≤ figures.length ∧ ∀ value ∈ figures.take count.toNat, kind value

/-- What the figures have to be for a level to be entered from another. -/
def Earned (before : AlertLevel) (figures : List UInt64) : AlertLevel → Prop
  | .critical => Last rule.forPeriods figures rule.pastCritical
  | .warning =>
    if before = .critical then
      Last rule.clearPeriods figures (fun value => !rule.pastCritical value) ∧
        ∃ value, figures.head? = some value ∧ rule.pastWarning value ∧ ¬rule.pastCritical value
    else Last rule.forPeriods figures rule.pastAny
  | .ok => Last rule.clearPeriods figures fun value => !rule.pastAny value
  | .noData => figures = []
  | .unknown => False

/-! ### Streaks -/

def streak (figures : List UInt64) (kind : UInt64 → Bool) : Int :=
  (figures.takeWhile kind).length

theorem streak_cons (value : UInt64) (figures : List UInt64) (kind : UInt64 → Bool) :
    streak (value :: figures) kind = if kind value then streak figures kind + 1 else 0 := by
  unfold streak
  rw [takeWhile_cons]
  split <;> rfl

variable {kind : UInt64 → Bool}

theorem last_of_streak {count : Int} {figures : List UInt64}
    (long : max 1 count ≤ streak figures kind) : Last count figures kind := by
  obtain ⟨rest, split⟩ := takeWhile_prefix (l := figures) kind
  unfold streak at long
  refine ⟨?_, fun value mem => ?_⟩
  · rw [← split, length_append]
    omega
  · rw [← split, take_append_of_le_length (by omega)] at mem
    exact all_eq_true.mp all_takeWhile value (mem_of_mem_take mem)

/-- The streaks of a state are those of the figures. -/
structure Counts (state : AlertState) (figures : List UInt64) : Prop where
  breach : state.breachStreak = streak figures rule.pastAny
  critical : state.criticalStreak = streak figures rule.pastCritical
  ok : state.okStreak = streak figures fun value => !rule.pastAny value
  belowCritical : state.belowCriticalStreak = streak figures fun value => !rule.pastCritical value

variable {rule since} {state : AlertState} {figures : List UInt64} {value : UInt64} {bucket : Int}

theorem classify_critical_iff :
    classifyAlertValue rule value = .critical ↔ rule.pastCritical value := by
  unfold classifyAlertValue
  split <;> [skip; split] <;> simp_all

theorem classify_warning_iff :
    classifyAlertValue rule value = .warning ↔ ¬rule.pastCritical value ∧
      rule.pastWarning value := by
  unfold classifyAlertValue
  split <;> [skip; split] <;> simp_all

theorem classify_ok_iff : classifyAlertValue rule value = .ok ↔ ¬rule.pastAny value := by
  unfold classifyAlertValue AlertRule.pastAny
  split <;> [skip; split] <;> simp_all

variable (value bucket) in
theorem Counts.counted (counts : Counts rule state figures) :
    Counts rule (state.counted (classifyAlertValue rule value) value bucket)
      (value :: figures) := by
  constructor <;>
    simp only [AlertState.counted, streak_cons, ne_eq, classify_ok_iff, classify_critical_iff,
      counts.breach, counts.critical, counts.ok, counts.belowCritical, Bool.not_eq_true,
      Bool.not_eq_false, Bool.not_eq_eq_eq_not, Bool.not_true]

variable (rule state) in
theorem nextLevel_cases (observed : AlertLevel) :
    nextLevel rule state observed = state.level ∨
      nextLevel rule state observed = .critical ∧ max 1 rule.forPeriods ≤ state.criticalStreak ∨
      nextLevel rule state observed = .ok ∧ max 1 rule.clearPeriods ≤ state.okStreak ∨
      nextLevel rule state observed = .warning ∧
        (state.level = .critical ∧ max 1 rule.clearPeriods ≤ state.belowCriticalStreak ∧
            observed = .warning ∨
          state.level ≠ .critical ∧ max 1 rule.forPeriods ≤ state.breachStreak) := by
  unfold nextLevel
  cases level : state.level <;> simp only <;> split_ifs <;> simp_all

theorem nextLevel_earned (counts : Counts rule state (value :: figures))
    (moved : nextLevel rule state (classifyAlertValue rule value) ≠ state.level) :
    Earned rule state.level (value :: figures)
      (nextLevel rule state (classifyAlertValue rule value)) := by
  obtain ⟨breach, critical, ok, belowCritical⟩ := counts
  obtain same | ⟨next, long⟩ | ⟨next, long⟩ | ⟨next, ⟨level, long, observed⟩ | ⟨level, long⟩⟩ :=
    nextLevel_cases rule state (classifyAlertValue rule value)
  · exact absurd same moved
  · rw [next]
    exact last_of_streak (critical ▸ long)
  · rw [next]
    exact last_of_streak (ok ▸ long)
  · obtain ⟨short, past⟩ := classify_warning_iff.mp observed
    rw [next, Earned, if_pos level]
    exact ⟨last_of_streak (belowCritical ▸ long), value, rfl, past, short⟩
  · rw [next, Earned, if_neg level]
    exact last_of_streak (breach ▸ long)

theorem le_streak_append {run : List UInt64} (earlier : List UInt64)
    (all : ∀ value ∈ run, kind value) : run.length ≤ streak (run ++ earlier) kind := by
  unfold streak
  rw [takeWhile_append_of_pos all, length_append]
  omega

theorem nextLevel_of_run {band : AlertLevel} {run earlier : List UInt64}
    (counts : Counts rule state (run ++ earlier))
    (same : ∀ value ∈ run, classifyAlertValue rule value = band)
    (dwell : 1 ≤ rule.forPeriods) (clear : 1 ≤ rule.clearPeriods)
    (long : max rule.forPeriods rule.clearPeriods ≤ run.length) :
    nextLevel rule state band = band := by
  obtain ⟨breach, critical, ok, belowCritical⟩ := counts
  have grows (kind : UInt64 → Bool)
    (holds : ∀ value, classifyAlertValue rule value = band → kind value) :
      run.length ≤ streak (run ++ earlier) kind :=
    le_streak_append earlier fun value mem => holds value (same value mem)
  cases run with
  | nil =>
    simp at long
    omega
  | cons value rest =>
    have observed := same value mem_cons_self
    have stops (kind : UInt64 → Bool) (fails : kind value = false) :
        streak (value :: rest ++ earlier) kind = 0 := by
      rw [cons_append, streak_cons, fails]
      rfl
    unfold nextLevel
    cases band with
    | critical =>
      have past : rule.pastCritical value := classify_critical_iff.mp observed
      have := grows rule.pastCritical fun _ => classify_critical_iff.mp
      have := stops (fun value => !rule.pastAny value) (by simp [AlertRule.pastAny, past])
      have := stops (fun value => !rule.pastCritical value) (by simp [past])
      cases state.level <;> grind
    | warning =>
      obtain ⟨short, past⟩ := classify_warning_iff.mp observed
      have given : rule.warning.isSome := Option.isSome_of_any past
      have := grows rule.pastAny fun value in_band => by
        simp [AlertRule.pastAny, (classify_warning_iff.mp in_band).2]
      have := grows (fun value => !rule.pastCritical value) fun value in_band => by
        simpa using (classify_warning_iff.mp in_band).1
      have := stops rule.pastCritical (by simpa using short)
      have := stops (fun value => !rule.pastAny value) (by simp [AlertRule.pastAny, past])
      cases state.level <;> grind
    | ok =>
      have inside := classify_ok_iff.mp observed
      have := grows (fun value => !rule.pastAny value) fun _ in_band => by
        simpa using classify_ok_iff.mp in_band
      have := stops rule.pastAny (by simpa using inside)
      have := stops rule.pastCritical (by simp_all [AlertRule.pastAny])
      cases state.level <;> grind
    | _ =>
      unfold classifyAlertValue at observed
      split_ifs at observed

/-! ### Runs -/

theorem Counts.feed (counts : Counts rule state figures) (fed : Fed) :
    Counts rule (feed rule state fed).1 (judge rule state figures fed) := by
  cases fed with
  | figure value bucket =>
    simp only [Emo.feed, judge, evaluateAlert]
    split_ifs
    · exact counts
    · exact counts.counted value bucket
    · exact { counts.counted value bucket with }
  | silence now period =>
    simp only [Emo.feed, judge, markAlertNoData]
    split_ifs <;> first | exact counts | exact ⟨rfl, rfl, rfl, rfl⟩ | contradiction

theorem Counts.earned (counts : Counts rule state figures) {fed : Fed}
    (moved : (Emo.feed rule state fed).1.level ≠ state.level) :
    Earned rule state.level (judge rule state figures fed) (Emo.feed rule state fed).1.level := by
  cases fed with
  | figure value bucket =>
    simp only [Emo.feed, judge, evaluateAlert] at moved ⊢
    split_ifs at moved ⊢ with infinite same
    · exact absurd rfl moved
    · exact absurd rfl moved
    · exact nextLevel_earned (counts.counted value bucket) same
  | silence now period =>
    simp only [Emo.feed, judge, markAlertNoData] at moved ⊢
    split_ifs at moved ⊢ <;> first | exact absurd rfl moved | rfl | contradiction

variable (rule since) in
theorem counts_after (past : List Fed) :
    Counts rule (after rule since past) (judged rule since past) := by
  induction past with
  | nil => exact ⟨rfl, rfl, rfl, rfl⟩
  | cons fed past ih => exact ih.feed fed

theorem judged_append {run : List (UInt64 × Int)} (past : List Fed)
    (finite : ∀ figure ∈ run, isFinite figure.1) :
    judged rule since (run.map (fun figure => .figure figure.1 figure.2) ++ past) =
      run.map Prod.fst ++ judged rule since past := by
  induction run with
  | nil => rfl
  | cons figure run ih =>
    rw [forall_mem_cons] at finite
    exact (if_neg (by simpa using finite.1)).trans (congrArg _ (ih finite.2))

variable (rule state bucket) in
theorem evaluateAlert_level (finite : isFinite value) :
    (evaluateAlert rule state value bucket).1.level =
      nextLevel rule (state.counted (classifyAlertValue rule value) value bucket)
        (classifyAlertValue rule value) := by
  unfold evaluateAlert
  rw [if_neg (by simpa using finite)]
  dsimp only
  split
  · exact Eq.symm ‹_›
  · rfl

theorem passed {problem : Prop} [Decidable problem] {text rest : String}
    (accepted : (if problem then text else rest) = "") (said : text ≠ "") : ¬problem ∧
      rest = "" := by
  split at accepted
  · exact absurd accepted said
  · exact ⟨‹_›, accepted⟩

theorem dwells_of_accepted (accepted : validateAlertRule rule = "") :
    1 ≤ rule.forPeriods ∧ 1 ≤ rule.clearPeriods := by
  unfold validateAlertRule at accepted
  iterate 11 replace accepted := (passed accepted (by decide)).2
  obtain ⟨dwell, accepted⟩ := passed accepted (by decide)
  have clear := (passed accepted (by decide)).1
  omega

/-- In every history of a rule that is accepted, a level is entered only when the figures judged
last have earned it, and as many figures of one band as the longer of the two counts lead to its
level. -/
theorem levels_follow_rules (rule : AlertRule)
    (accepted : validateAlertRule rule = "") (since : Int)
    (past : List Fed) :
    (∀ fed, (after rule since (fed :: past)).level ≠ (after rule since past).level →
      Earned rule (after rule since past).level (judged rule since (fed :: past))
        (after rule since (fed :: past)).level) ∧
    ∀ (run : List (UInt64 × Int)) (band : AlertLevel),
      max rule.forPeriods rule.clearPeriods ≤ run.length →
      (∀ figure ∈ run, isFinite figure.1 ∧ classifyAlertValue rule figure.1 = band) →
      (after rule since (run.map (fun figure => .figure figure.1 figure.2) ++ past)).level =
        band := by
  refine ⟨fun fed moved => (counts_after rule since past).earned moved,
    fun run band long same => ?_⟩
  obtain ⟨dwell, clear⟩ := dwells_of_accepted accepted
  cases run with
  | nil =>
    simp at long
    omega
  | cons figure rest =>
    obtain ⟨⟨finite, observed⟩, others⟩ := forall_mem_cons.mp same
    have counts := counts_after rule since
      (rest.map (fun figure => .figure figure.1 figure.2) ++ past)
    rw [judged_append past fun other mem => (others other mem).1] at counts
    have counted := counts.counted figure.1 figure.2
    rw [← cons_append, ← map_cons, observed] at counted
    refine (evaluateAlert_level rule _ figure.2 finite).trans ?_
    rw [observed]
    exact nextLevel_of_run counted (forall_mem_map.mpr fun other mem => (same other mem).2) dwell
      clear (by simpa using long)

/-- A rule that waits for two figures above one. -/
def aboveOne : AlertRule :=
  ⟨"load", "load", .raw, .value, .above, none, some 0x3FF0000000000000, 2, 1, 0⟩

def two : UInt64 := 0x4000000000000000

def nan : UInt64 := 0x7FF8000000000000

theorem aboveOne_follows : (after aboveOne 0 [.figure two 2, .figure two 1]).level = .critical :=
  (levels_follow_rules aboveOne (by decide) 0 []).2 [(two, 2), (two, 1)] .critical (by decide)
    (by decide)

/-- What is not a number between two figures past a line does not keep the level from being
entered. -/
theorem critical_across_gap :
    validateAlertRule aboveOne = "" ∧
      (after aboveOne 0 [.figure nan 2, .figure two 1]).level = .ok ∧
      (after aboveOne 0 [.figure two 3, .figure nan 2, .figure two 1]).level = .critical ∧
      ¬Last aboveOne.forPeriods [two, nan, two] aboveOne.pastCritical :=
  ⟨by decide, by decide, by decide, fun last => absurd (last.2 nan (by decide)) (by decide)⟩

/-! ### How long a level lasts -/

section

variable (rule) (since)

/-- What the next step makes of a series that is `OK`: it is past a line. -/
def Raises (past : List Fed) (fed : Fed) : Prop :=
  (after rule since past).level = .ok ∧
    (after rule since (fed :: past)).level ∈ [AlertLevel.warning, .critical]

/-- A series that is not `OK`, be it past a line or silent, is `OK` after the next step. -/
def Clears (past : List Fed) (fed : Fed) : Prop :=
  (after rule since past).level ≠ .ok ∧ (after rule since (fed :: past)).level = .ok

/-- After some steps more there are figures more, behind those of before unless a mark was
between. -/
theorem judged_later (later past : List Fed) : ∃ newer, newer.length ≤ later.length ∧
    (judged rule since (later ++ past) = newer ++ judged rule since past ∨
      judged rule since (later ++ past) = newer) := by
  induction later with
  | nil => exact ⟨[], le_rfl, .inl rfl⟩
  | cons fed later ih =>
    obtain ⟨newer, short, splits⟩ := ih
    rw [cons_append, judged]
    cases fed with
    | figure value bucket =>
      rw [judge]
      split
      · exact ⟨newer, Nat.le_succ_of_le short, splits⟩
      · exact ⟨value :: newer, Nat.succ_le_succ short, splits.imp (congrArg _) (congrArg _)⟩
    | silence now period =>
      rw [judge]
      split
      · exact ⟨[], Nat.zero_le _, .inr rfl⟩
      · exact ⟨newer, Nat.le_succ_of_le short, splits⟩

end

section

variable {count : Int} {kind : UInt64 → Bool} (last : Last count figures kind)

include last

theorem Last.head (positive : 1 ≤ count) : ∃ value older, figures = value :: older ∧
    kind value := by
  obtain ⟨long, all⟩ := last
  cases figures with
  | nil => exact absurd (positive.trans long) (by decide)
  | cons value older =>
    refine ⟨value, older, rfl, all value ?_⟩
    obtain ⟨more, is⟩ := Nat.exists_eq_succ_of_ne_zero (by omega : count.toNat ≠ 0)
    rw [is, take_succ_cons]
    exact .head _

theorem Last.newer {newer older : List UInt64} (fails : kind value = false)
    (splits : figures = newer ++ value :: older ∨ figures = newer) : count ≤ newer.length := by
  obtain ⟨long, all⟩ := last
  rcases splits with rfl | rfl
  · by_contra short
    have mem : value ∈ (newer ++ value :: older).take count.toNat := by
      obtain ⟨more, is⟩ := Nat.exists_eq_add_of_lt (by omega : newer.length < count.toNat)
      rw [take_append, is, show newer.length + more + 1 - newer.length = more + 1 by omega,
        take_succ_cons]
      exact mem_append_right _ (.head _)
    rw [all value mem] at fails
    nomatch fails
  · exact long

end

/-- In every history of a rule that is accepted, an alert that was raised is not cleared before as
many steps as it takes to clear one, and one that was cleared is not raised before as many as it
takes to raise one. -/
theorem levels_last (rule : AlertRule) (accepted : validateAlertRule rule = "") (since : Int)
    (past later : List Fed) (first last : Fed) :
    (Raises rule since past first → Clears rule since (later ++ first :: past) last →
      rule.clearPeriods ≤ (last :: later).length) ∧
    (Clears rule since past first → Raises rule since (later ++ first :: past) last →
      rule.forPeriods ≤ (last :: later).length) := by
  obtain ⟨dwell, clear⟩ := dwells_of_accepted accepted
  obtain ⟨newer, short, splits⟩ := judged_later rule since (last :: later) (first :: past)
  have raised {past : List Fed} {fed : Fed} (raises : Raises rule since past fed) :
      Last rule.forPeriods (judged rule since (fed :: past)) rule.pastAny := by
    obtain ⟨was, is⟩ := raises
    have moved : (after rule since (fed :: past)).level ≠ (after rule since past).level :=
      fun same => by
      simp [same, was] at is
    have earned := (counts_after rule since past).earned moved
    rw [was] at earned
    rcases mem_pair.mp is with is | is
    · exact (is ▸ earned : Earned rule .ok _ .warning)
    · obtain ⟨long, all⟩ := (is ▸ earned : Earned rule .ok _ .critical)
      exact ⟨long, fun value mem => Bool.or_eq_true_iff.mpr (.inl (all value mem))⟩
  have cleared {past : List Fed} {fed : Fed} (clears : Clears rule since past fed) :
      Last rule.clearPeriods (judged rule since (fed :: past)) fun value =>
        !rule.pastAny value := by
    obtain ⟨was, is⟩ := clears
    have moved : (after rule since (fed :: past)).level ≠ (after rule since past).level :=
      fun same => was (same.symm.trans is)
    have earned := (counts_after rule since past).earned moved
    exact (is ▸ earned : Earned rule _ _ .ok)
  refine ⟨fun raises clears => ?_, fun clears raises => ?_⟩
  · obtain ⟨value, older, is, past⟩ := (raised raises).head dwell
    rw [is] at splits
    have := (cleared clears).newer (by simpa using past) splits
    omega
  · obtain ⟨value, older, is, inside⟩ := (cleared clears).head clear
    rw [is] at splits
    have := (raised raises).newer (by simpa using inside) splits
    omega

/-- The second figure past the line raises the alert, and the first one that is not past it clears
it. -/
theorem aboveOne_lasts : aboveOne.clearPeriods ≤ [Fed.figure 0 3].length :=
  (levels_last aboveOne (by decide) 0 [.figure two 1] [] (.figure two 2) (.figure 0 3)).1
    ⟨by decide, by decide⟩ ⟨by decide, by decide⟩

end Euclid.Emo
