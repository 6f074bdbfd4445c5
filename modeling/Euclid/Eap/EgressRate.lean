/-
This file proves what permits keep to when the clock reads whole milliseconds, and that they do not
otherwise.

The document of a site cuts its times to milliseconds and keeps its tokens as they are. Where no
time is cut, what an update reads is what the one before it left, and three counts can be followed
through any sequence of requests: the permits granted since a time with the tokens left are bounded
by what the bucket held and what it was given since, the permits held are those of the state, and a
site is blocked until whatever was reported. Where times are cut, the bucket is given the same
fraction of a millisecond again at every request.
-/

import Euclid.Eap.Egress
import Mathlib.Tactic.Linarith
import Mathlib.Tactic.Positivity
import Mathlib.Tactic.Ring

namespace Euclid.Eap.Egress

open List

/-! ### Sequences of requests -/

/-- A change and the reading of the clock it was made with. -/
abbrev Asked : Type := Change × Int

structure Answered where
  change : Change
  reading : Int
  permit : Option Permit
  blockedUntil : Option Int

def Outcome.permit : Outcome → Option Permit
  | .decided decision _ => decision.permit
  | _ => none

/-- The time until which a site was reported blocked. -/
def Outcome.blockedUntil : Outcome → Option Int
  | .blocked blockedUntil => some blockedUntil
  | _ => none

section Sequence

variable (place : Place) (inherited : Limits) (start : Option SiteDocument)

/-- The document after requests, the latest first. -/
def stored : List Asked → Option SiteDocument
  | [] => start
  | (change, now) :: earlier =>
    (change.written inherited place (stored earlier) now).or (stored earlier)

def site (hist : List Asked) : StoredSite := place.read (stored place inherited start hist)

/-- The answers to requests, the latest first. -/
def answers : List Asked → List Answered
  | [] => []
  | (change, now) :: earlier =>
    let outcome := (change.apply inherited (site place inherited start earlier) now).2.1
    ⟨change, now, outcome.permit, outcome.blockedUntil⟩ :: answers earlier

end Sequence

def granted (answers : List Answered) : List (Int × Permit) :=
  answers.filterMap fun answer => answer.permit.map fun permit => (answer.reading, permit)

/-- The times until which the site was reported blocked. -/
def reported (answers : List Answered) : List Int := answers.filterMap (·.blockedUntil)

/-- The permits that were granted and not released since. -/
def held : List Answered → List Permit
  | [] => []
  | answer :: earlier =>
    match answer.change with
    | .release permitId => (held earlier).filter fun permit => permit.id ≠ permitId
    | _ => held earlier ++ answer.permit.toList

/-- A change that leaves the limits of a site as they are. -/
def Change.KeepsLimits : Change → Prop
  | .acquire _ _ => True
  | .release _ => True
  | .throttled _ => True
  | _ => False

open Change

/-! ### Times that are not cut -/

/-- A time of whole milliseconds after the epoch. -/
def Whole (time : Int) : Prop := ∃ millis, 0 < millis ∧ time = fromMillis millis

/-- A time that a document keeps as it is. -/
def Exact (time : Int) : Prop := fromMillis (toMillis time) = time

theorem exact_fromMillis (millis : Int) : Exact (fromMillis millis) := by
  unfold Exact fromMillis toMillis
  rw [Int.mul_tdiv_cancel _ (by decide)]

variable {time : Int}

theorem Whole.exact (whole : Whole time) : Exact time := by
  obtain ⟨millis, _, rfl⟩ := whole
  exact exact_fromMillis millis

theorem Whole.positive (whole : Whole time) : 0 < time := by
  obtain ⟨millis, positive, rfl⟩ := whole
  unfold fromMillis
  omega

theorem Whole.exact_add (whole : Whole time) (seconds : Int) :
    Exact (time + nanoseconds seconds) := by
  obtain ⟨millis, _, rfl⟩ := whole
  have same : fromMillis millis + nanoseconds seconds = fromMillis (millis + seconds * 1000) := by
    unfold fromMillis nanoseconds
    omega
  rw [same]
  exact exact_fromMillis _

theorem Exact.max {first second : Int} (left : Exact first) (right : Exact second) :
    Exact (max first second) := by
  rcases max_choice first second with same | same <;> rw [same] <;> assumption

/-- No time of a state is cut. -/
structure SiteState.Exact (state : SiteState) : Prop where
  refilledAt : Egress.Exact state.refilledAt
  blockedUntil : Egress.Exact state.blockedUntil
  permits : ∀ permit ∈ state.permits, Egress.Exact permit.expiresAt

theorem SiteState.Exact.fresh : SiteState.fresh.Exact :=
  ⟨exact_fromMillis 0, exact_fromMillis 0, nofun⟩

theorem parseSite_siteDocument {stored : StoredSite} (exact : stored.state.Exact)
    (version now : Int) : (parseSite (siteDocument stored version now)).state = stored.state := by
  obtain ⟨refilledAt, blockedUntil, permits⟩ := exact
  have same : (stored.state.permits.map fun permit =>
      (⟨permit.id, fromMillis (toMillis permit.expiresAt)⟩ : Permit)) = stored.state.permits := by
    refine (map_congr_left fun permit mem => ?_).trans (map_id _)
    rw [permits permit mem]
    rfl
  have refills : fromMillis (toMillis stored.state.refilledAt) = stored.state.refilledAt :=
    refilledAt
  have blocks : fromMillis (toMillis stored.state.blockedUntil) = stored.state.blockedUntil :=
    blockedUntil
  simp only [parseSite, siteDocument, map_map, Function.comp_def, same, refills, blocks]

/-! ### What a change does to a state -/

/-- The state after a change, at fixed limits. -/
def Change.next (change : Change) (limits : Limits) (state : SiteState) (now : Int) : SiteState :=
  match change with
  | .acquire permitId leaseSeconds =>
    (Egress.acquire state limits now permitId (min (max leaseSeconds 1) maxLeaseSeconds)).2
  | .release permitId => (Egress.release state permitId).2
  | .throttled retryAfterSeconds => (Egress.block state now (max 1 retryAfterSeconds)).2
  | _ => state

/-- The permit that a change is granted, at fixed limits. -/
def Change.permit (change : Change) (limits : Limits) (state : SiteState) (now : Int) :
    Option Permit :=
  match change with
  | .acquire permitId leaseSeconds =>
    (Egress.acquire state limits now permitId (min (max leaseSeconds 1) maxLeaseSeconds)).1.permit
  | _ => none

/-- The time until which a change reports a site blocked. -/
def Change.blocks (change : Change) (state : SiteState) (now : Int) : Option Int :=
  match change with
  | .throttled retryAfterSeconds => some (Egress.block state now (max 1 retryAfterSeconds)).1
  | _ => none

/-- A request for a permit is refused and only brings the state up to date, or it finds the site not
blocked, a slot and a token, and takes them. -/
theorem acquire_cases (state : SiteState) (limits : Limits) (now : Int) (permitId : String)
    (lease : Int) (slots : 0 < limits.concurrent) (rate : 0 < limits.requestsPerSecond) :
    ((acquire state limits now permitId lease).1.permit = none ∧
        (acquire state limits now permitId lease).2 = refresh state limits now) ∨
      state.blockedUntil ≤ now ∧
        ((refresh state limits now).permits.length : Int) < limits.concurrent ∧
        1 ≤ refilled state limits now ∧
        (acquire state limits now permitId lease).1.permit = some
          ⟨permitId, now + nanoseconds lease⟩ ∧
        (acquire state limits now permitId lease).2 =
          { refresh state limits now with
            tokens := refilled state limits now - 1
            permits :=
              (refresh state limits now).permits ++ [⟨permitId, now + nanoseconds lease⟩] } := by
  unfold acquire
  dsimp only
  split
  · exact .inl ⟨rfl, rfl⟩
  rename_i free
  split
  · exact .inl ⟨rfl, rfl⟩
  rename_i roomy
  split
  · exact .inl ⟨rfl, rfl⟩
  rename_i tokens
  refine .inr ⟨not_lt.mp free, ?_, ?_, rfl, ?_⟩
  · exact not_le.mp fun full => roomy ⟨slots, full⟩
  · exact not_lt.mp fun empty => tokens ⟨rate, empty⟩
  · rfl

variable {state : SiteState}

theorem refresh_exact {now : Int} (exact : state.Exact) (whole : Whole now)
    (limits : Limits) : (refresh state limits now).Exact where
  refilledAt := exact.refilledAt.max whole.exact
  blockedUntil := exact.blockedUntil
  permits permit mem := exact.permits permit (mem_filter.mp mem).1

variable {change : Change}

theorem Change.next_exact {limits : Limits} {now : Int}
    (slots : 0 < limits.concurrent) (rate : 0 < limits.requestsPerSecond) (exact : state.Exact)
    (whole : Whole now) : (change.next limits state now).Exact := by
  cases change with
  | acquire permitId leaseSeconds =>
    have refreshed := refresh_exact exact whole limits
    rcases acquire_cases state limits now permitId (min (max leaseSeconds 1) maxLeaseSeconds) slots
      rate with ⟨_, same⟩ | ⟨_, _, _, _, same⟩ <;> simp only [Change.next, same]
    · exact refreshed
    · refine ⟨refreshed.refilledAt, refreshed.blockedUntil, fun permit mem => ?_⟩
      rcases mem_append.mp mem with earlier | new
      · exact refreshed.permits permit earlier
      · rw [mem_singleton.mp new]
        exact whole.exact_add _
  | release permitId =>
    exact ⟨exact.refilledAt, exact.blockedUntil, fun permit mem =>
      exact.permits permit (mem_filter.mp mem).1⟩
  | throttled retryAfterSeconds =>
    exact ⟨exact.refilledAt, exact.blockedUntil.max (whole.exact_add _), exact.permits⟩
  | setLimit requestsPerSecond burst concurrent => exact exact
  | deleteLimit => exact exact

/-! ### The states a sequence goes through -/

/-- The state after requests at fixed limits, the latest first, where nothing is cut. -/
def states (limits : Limits) : List Asked → SiteState
  | [] => .fresh
  | (change, now) :: earlier => change.next limits (states limits earlier) now

/-- The answers to requests at fixed limits, where nothing is cut. -/
def answersOf (limits : Limits) : List Asked → List Answered
  | [] => []
  | (change, now) :: earlier =>
    ⟨change, now, change.permit limits (states limits earlier) now,
      change.blocks (states limits earlier) now⟩ :: answersOf limits earlier

/-- The requests of a sequence: none changes the limits, the clock does not go back, and it reads
whole milliseconds. -/
structure Regular (hist : List Asked) : Prop where
  keeps : ∀ asked ∈ hist, asked.1.KeepsLimits
  ordered : hist.Pairwise fun later earlier => earlier.2 ≤ later.2
  whole : ∀ asked ∈ hist, Whole asked.2

variable {earlier : List Asked}

theorem Regular.tail {asked : Asked} (regular : Regular (asked :: earlier)) :
    Regular earlier where
  keeps other mem := regular.keeps other (.tail _ mem)
  ordered := (pairwise_cons.mp regular.ordered).2
  whole other mem := regular.whole other (.tail _ mem)

section Faithful

variable {place : Place} {inherited limits : Limits} {start : Option SiteDocument}
variable {hist : List Asked}

theorem states_exact (slots : 0 < limits.concurrent) (rate : 0 < limits.requestsPerSecond)
    (regular : Regular hist) : (states limits hist).Exact := by
  induction hist with
  | nil => exact .fresh
  | cons asked earlier ih =>
    exact next_exact slots rate (ih regular.tail) (regular.whole asked (.head _))

theorem release_of_false {permitId : String}
    (missing : (release state permitId).1 = false) : (release state permitId).2 = state := by
  have full : ¬(state.permits.filter fun permit => permit.id ≠ permitId).length <
      state.permits.length := of_decide_eq_false missing
  have same : (state.permits.filter fun permit => permit.id ≠ permitId) = state.permits :=
    filter_eq_self.mpr (length_filter_eq_length_iff.mp
      (le_antisymm (length_filter_le ..) (not_lt.mp full)))
  simp only [release, same]

/-- What an update reads, a change at fixed limits goes on from. -/
structure Follows (limits inherited : Limits) (read : StoredSite) (state : SiteState) : Prop where
  reads : read.state = state
  held : read.limits.getD inherited = limits
  unwritten : read.version < 0 → state = .fresh

theorem Change.apply_eq {read : StoredSite} (now : Int)
    (follows : Follows limits inherited read state) (keeps : change.KeepsLimits) :
    (change.apply inherited read now).2.1.permit = change.permit limits state now ∧
      (change.apply inherited read now).2.1.blockedUntil = change.blocks state now ∧
      (change.apply inherited read now).2.2 = { read with state := change.next limits state now } ∧
      ((change.apply inherited read now).1 = false → change.next limits state now = state) := by
  obtain ⟨rfl, rfl, unwritten⟩ := follows
  cases change with
  | acquire permitId leaseSeconds => exact ⟨rfl, rfl, rfl, fun no => absurd no (by simp [apply])⟩
  | throttled retryAfterSeconds => exact ⟨rfl, rfl, rfl, fun no => absurd no (by simp [apply])⟩
  | release permitId =>
    simp only [apply, permit, blocks, Change.next]
    split
    · rename_i absent
      have same : (Egress.release read.state permitId).2 = read.state := by
        rw [unwritten absent]
        rfl
      exact ⟨rfl, rfl, by rw [same], fun _ => same⟩
    · exact ⟨rfl, rfl, rfl, release_of_false⟩
  | setLimit requestsPerSecond burst concurrent => exact keeps.elim
  | deleteLimit => exact keeps.elim

section

variable (fresh : (place.read start).state = .fresh)
  (own : (place.read start).limits.getD inherited = limits) (slots : 0 < limits.concurrent)
  (rate : 0 < limits.requestsPerSecond) (regular : Regular hist)

include fresh own slots rate regular

/-- Where nothing is cut, every update goes on from what the one before it left. -/
theorem site_follows :
    Follows limits inherited (site place inherited start hist) (states limits hist) := by
  induction hist with
  | nil => exact ⟨fresh, own, fun _ => rfl⟩
  | cons asked earlier ih =>
    obtain ⟨change, now⟩ := asked
    have follows := ih regular.tail
    have exact := states_exact slots rate regular
    obtain ⟨-, -, after, idle⟩ := apply_eq _ follows (regular.keeps _ (.head _))
    unfold site stored written
    cases writes : (change.apply inherited (site place inherited start earlier) now).1 with
    | false =>
      have same : states limits ((change, now) :: earlier) = states limits earlier := idle writes
      rw [same]
      have unwritten : (change.apply inherited (place.read (stored place inherited start earlier))
          now).1 = false := writes
      simp only [unwritten, Bool.false_eq_true, if_false, Option.none_or]
      exact follows
    | true =>
      have written : (change.apply inherited (place.read (stored place inherited start earlier))
          now).1 = true := writes
      have applied : (change.apply inherited (place.read (stored place inherited start earlier))
          now).2.2 = { site place inherited start earlier with
            state := states limits ((change, now) :: earlier) } := after
      simp only [written, if_true, Option.some_or, applied]
      refine ⟨parseSite_siteDocument exact _ _, follows.held, fun negative => ?_⟩
      have version : (0 : Int) ≤
        (place.read (stored place inherited start earlier)).nextVersion := by
        unfold StoredSite.nextVersion
        split <;> omega
      exact absurd negative (not_lt.mpr version)

theorem answers_eq : answers place inherited start hist = answersOf limits hist := by
  induction hist with
  | nil => rfl
  | cons asked earlier ih =>
    obtain ⟨change, now⟩ := asked
    have follows := site_follows fresh own slots rate regular.tail
    obtain ⟨permit, blocks, -, -⟩ := apply_eq now follows
      (regular.keeps (change, now) (.head _))
    simp only [answers, answersOf, permit, blocks, ih regular.tail]

end

end Faithful

/-! ### The rate -/

section Rate

variable {limits : Limits} {state : SiteState} {now : Int} {hist : List Asked}

theorem refilled_le_capacity (state : SiteState) (limits : Limits) (now : Int) :
    refilled state limits now ≤ limits.capacity := min_le_right _ _

theorem capacity_pos (limits : Limits) : 0 < limits.capacity := lt_max_of_lt_left zero_lt_one

theorem refilled_le (rate : 0 < limits.requestsPerSecond) (asked : state.refilledAt ≠ 0)
    (later : state.refilledAt ≤ now) :
    refilled state limits now ≤
      state.tokens +
        ((now - state.refilledAt : Int) : ℚ) / 1000000000 * limits.requestsPerSecond := by
  refine (min_le_left _ _).trans ?_
  rw [if_neg asked]
  split
  · exact min_le_right _ _
  · rename_i same
    have equal : now = state.refilledAt := by
      by_contra different
      exact same ⟨lt_of_le_of_ne later (Ne.symm different), rate⟩
    rw [equal, sub_self]
    simp

theorem refilled_nonneg (tokens : 0 ≤ state.tokens) : 0 ≤ refilled state limits now := by
  refine le_min ?_ (capacity_pos limits).le
  split
  · exact (capacity_pos limits).le
  split
  · rename_i later
    have elapsed : (0 : ℚ) ≤ ((now - state.refilledAt : Int) : ℚ) := Int.cast_nonneg (by omega)
    have rate := later.2
    exact le_min (capacity_pos limits).le (by positivity)
  · exact tokens

theorem next_cases (change : Change) (slots : 0 < limits.concurrent)
    (rate : 0 < limits.requestsPerSecond) (state : SiteState) (now : Int) :
    (change.permit limits state now = none ∧ (change.next limits state now).tokens = state.tokens ∧
        (change.next limits state now).refilledAt = state.refilledAt) ∨
      (change.next limits state now).refilledAt = max state.refilledAt now ∧
        ((change.permit limits state now = none ∧
            (change.next limits state now).tokens = refilled state limits now) ∨
          ∃ permit, change.permit limits state now = some permit ∧ 1 ≤ refilled state limits now ∧
            (change.next limits state now).tokens = refilled state limits now - 1) := by
  cases change with
  | acquire permitId leaseSeconds =>
    right
    rcases acquire_cases state limits now permitId (min (max leaseSeconds 1) maxLeaseSeconds) slots
      rate with ⟨refused, same⟩ | ⟨_, _, one, permit, same⟩ <;> simp only [Change.next, same]
    · exact ⟨rfl, .inl ⟨refused, rfl⟩⟩
    · exact ⟨rfl, .inr ⟨_, permit, one, trivial⟩⟩
  | _ => exact .inl ⟨rfl, rfl, rfl⟩

theorem granted_cons_none (change : Change) (reading : Int) (blockedUntil : Option Int)
    (earlier : List Answered) :
    granted (⟨change, reading, none, blockedUntil⟩ :: earlier) = granted earlier := rfl

theorem granted_cons_some (change : Change) (reading : Int) (permit : Permit)
    (blockedUntil : Option Int) (earlier : List Answered) :
    granted (⟨change, reading, some permit, blockedUntil⟩ :: earlier) =
      (reading, permit) :: granted earlier := rfl

theorem latest_of_regular (regular : Regular ((change, now) :: earlier)) :
    0 < now ∧ ∀ asked ∈ earlier, asked.2 ≤ now :=
  ⟨(regular.whole _ (.head _)).positive, (pairwise_cons.mp regular.ordered).1⟩

theorem reading_of_granted {grant : Int × Permit} (mem : grant ∈ granted (answersOf limits hist)) :
    ∃ asked ∈ hist, grant.1 = asked.2 := by
  induction hist with
  | nil => nomatch mem
  | cons asked earlier ih =>
    obtain ⟨change, now⟩ := asked
    rw [answersOf] at mem
    cases permit : change.permit limits (states limits earlier) now with
    | none =>
      rw [permit, granted_cons_none] at mem
      exact exists_mem_cons_of_exists (ih mem)
    | some permit' =>
      rw [permit, granted_cons_some] at mem
      rcases mem_cons.mp mem with rfl | older
      · exact ⟨_, .head _, rfl⟩
      · exact exists_mem_cons_of_exists (ih older)

/-- What a rate gives in some time, and nothing in less than none. -/
def given (limits : Limits) (span : Int) : ℚ :=
  limits.requestsPerSecond * ((max span 0 : Int) : ℚ) / 1000000000

theorem given_nonneg (rate : 0 < limits.requestsPerSecond) (span : Int) : 0 ≤
    given limits span := by
  unfold given
  positivity

variable (slots : 0 < limits.concurrent) (rate : 0 < limits.requestsPerSecond)

include slots rate

theorem tokens_nonneg (hist : List Asked) : 0 ≤ (states limits hist).tokens := by
  induction hist with
  | nil => exact le_rfl
  | cons asked earlier ih =>
    obtain ⟨change, now⟩ := asked
    rw [states]
    rcases next_cases change slots rate (states limits earlier) now with
      ⟨_, same, _⟩ | ⟨_, ⟨_, same⟩ | ⟨_, _, one, same⟩⟩ <;> rw [same]
    · exact ih
    · exact refilled_nonneg ih
    · exact sub_nonneg.mpr one

theorem refilledAt_le (after : 0 ≤ time) (latest : ∀ asked ∈ hist, asked.2 ≤ time) :
    (states limits hist).refilledAt ≤ time := by
  induction hist with
  | nil => exact after
  | cons asked earlier ih =>
    obtain ⟨change, now⟩ := asked
    have before := ih fun other mem => latest other (.tail _ mem)
    rw [states]
    rcases next_cases change slots rate (states limits earlier)
      now with ⟨_, _, same⟩ | ⟨same, _⟩ <;>
      rw [same]
    · exact before
    · exact max_le before (latest _ (.head _))

theorem granted_le (hist : List Asked) :
    ∀ grant ∈ granted (answersOf limits hist), grant.1 ≤ (states limits hist).refilledAt := by
  induction hist with
  | nil => exact nofun
  | cons asked earlier ih =>
    obtain ⟨change, now⟩ := asked
    intro grant mem
    rw [answersOf] at mem
    rw [states]
    rcases next_cases change slots rate (states limits earlier) now with
      ⟨none, _, same⟩ | ⟨same, ⟨none, _⟩ | ⟨permit, some, _, _⟩⟩ <;> rw [same]
    · rw [none, granted_cons_none] at mem
      exact ih grant mem
    · rw [none, granted_cons_none] at mem
      exact (ih grant mem).trans (le_max_left _ _)
    · rw [some, granted_cons_some] at mem
      rcases mem_cons.mp mem with rfl | earlier
      · exact le_max_right _ _
      · exact (ih grant earlier).trans (le_max_left _ _)

/-- What is granted since a time, and what is left, is no more than a full bucket and what the rate
has given it since. -/
theorem granted_since (regular : Regular hist) (since : Int) :
    ((granted (answersOf limits hist)).countP (since ≤ ·.1) : ℚ) + (states limits hist).tokens ≤
      limits.capacity + given limits ((states limits hist).refilledAt - since) := by
  induction hist with
  | nil =>
    have positive := (capacity_pos limits).le
    have more := given_nonneg rate ((states limits []).refilledAt - since)
    show ((0 : ℕ) : ℚ) + 0 ≤ _
    rw [Nat.cast_zero]
    linarith
  | cons asked earlier ih =>
    obtain ⟨change, now⟩ := asked
    obtain ⟨positive, latest⟩ := latest_of_regular regular
    have before := ih regular.tail
    have none_later := granted_le slots rate earlier
    have back := refilledAt_le slots rate positive.le latest
    generalize hcount : (granted (answersOf limits earlier)).countP (since ≤ ·.1) = count at before
    -- before anything is taken, the bucket has been given what the rate gives it until now
    have upToNow : (count : ℚ) + refilled (states limits earlier) limits now ≤
        limits.capacity + given limits (now - since) := by
      have capped := refilled_le_capacity (states limits earlier) limits now
      have more := given_nonneg rate (now - since)
      by_cases old : since ≤ (states limits earlier).refilledAt ∧
        (states limits earlier).refilledAt ≠ 0
      · have grows := refilled_le rate old.2 back
        have spans : given limits ((states limits earlier).refilledAt - since) +
            ((now - (states limits earlier).refilledAt : Int) : ℚ) / 1000000000 *
              limits.requestsPerSecond = given limits (now - since) := by
          unfold given
          rw [max_eq_left (by omega), max_eq_left (by omega)]
          push_cast
          ring
        linarith
      · have none : count = 0 := by
          rw [← hcount, countP_eq_zero]
          intro grant mem
          have early := none_later grant mem
          obtain ⟨asked, known, reading⟩ := reading_of_granted mem
          have late := (regular.tail.whole asked known).positive
          rw [decide_eq_true_eq]
          omega
        rw [none, Nat.cast_zero]
        linarith
    rw [answersOf, states]
    rcases next_cases change slots rate (states limits earlier) now with
      ⟨none, same, still⟩ | ⟨moved, ⟨none, same⟩ | ⟨permit, some, _, same⟩⟩
    · rw [none, granted_cons_none, hcount, same, still]
      exact before
    · rw [none, granted_cons_none, hcount, same, moved, max_eq_right back]
      exact upToNow
    · rw [some, granted_cons_some, countP_cons, hcount, same, moved, max_eq_right back]
      split <;> push_cast <;> linarith

/-- In a span of time, no more is granted than a full bucket and what the rate gives in it. -/
theorem granted_within (regular : Regular hist) (since upTo : Int) :
    ((granted (answersOf limits hist)).countP (fun grant => since ≤ grant.1 ∧ grant.1 ≤ upTo) : ℚ) ≤
      limits.capacity + given limits (upTo - since) := by
  induction hist with
  | nil =>
    have positive := (capacity_pos limits).le
    have more := given_nonneg rate (upTo - since)
    show ((0 : ℕ) : ℚ) ≤ _
    rw [Nat.cast_zero]
    linarith
  | cons asked earlier ih =>
    obtain ⟨change, now⟩ := asked
    obtain ⟨positive, latest⟩ := latest_of_regular regular
    by_cases after : upTo < now
    · -- the latest request is past the span
      refine le_trans ?_ (ih regular.tail)
      rw [answersOf]
      cases permit : change.permit limits (states limits earlier) now with
      | none => exact le_rfl
      | some permit' =>
        rw [granted_cons_some, countP_cons_of_neg]
        simpa using fun _ => after
    · have everything := granted_since slots rate regular since
      have debt := tokens_nonneg slots rate ((change, now) :: earlier)
      have still : (states limits ((change, now) :: earlier)).refilledAt ≤ upTo :=
        (refilledAt_le slots rate positive.le
          (forall_mem_cons.mpr ⟨le_rfl, latest⟩)).trans (not_lt.mp after)
      have spans : given limits ((states limits ((change, now) :: earlier)).refilledAt - since) ≤
          given limits (upTo - since) := by
        unfold given
        have : ((max ((states limits ((change, now) :: earlier)).refilledAt - since) 0 : Int) : ℚ) ≤
            ((max (upTo - since) 0 : Int) : ℚ) :=
          Int.cast_le.mpr (max_le_max (by omega) le_rfl)
        gcongr
      have fewer : ((granted (answersOf limits ((change, now) :: earlier))).countP
          (fun grant => since ≤ grant.1 ∧ grant.1 ≤ upTo) : ℚ) ≤
          ((granted (answersOf limits ((change, now) :: earlier))).countP (since ≤ ·.1) : ℚ) :=
        Nat.cast_le.mpr (countP_mono_left fun grant _ both => by simp_all)
      linarith

/-! ### The slots -/

omit slots rate in
theorem unexpired_filter {permits : List Permit} (current : now ≤ time) :
    ((permits.filter fun permit => ¬permit.expiresAt ≤ now).filter fun permit =>
      time < permit.expiresAt) = permits.filter fun permit => time < permit.expiresAt := by
  rw [filter_filter]
  refine filter_congr fun permit _ => ?_
  simp only [Bool.and_eq_left_iff_imp, decide_eq_true_eq]
  omega

theorem held_eq (latest : ∀ asked ∈ hist, asked.2 ≤ time) :
    ((held (answersOf limits hist)).filter fun permit => time < permit.expiresAt) =
      (states limits hist).permits.filter fun permit => time < permit.expiresAt := by
  induction hist with
  | nil => rfl
  | cons asked earlier ih =>
    obtain ⟨change, now⟩ := asked
    have same := ih fun other mem => latest other (.tail _ mem)
    have current : now ≤ time := latest _ (.head _)
    cases change with
    | acquire permitId leaseSeconds =>
      simp only [answersOf, held, states, Change.next, permit]
      rcases acquire_cases (states limits earlier) limits now permitId
        (min (max leaseSeconds 1) maxLeaseSeconds) slots rate with
          ⟨refused, next⟩ | ⟨_, _, _, permit, next⟩
      · rw [refused, next, Option.toList_none, append_nil, same]
        exact (unexpired_filter current).symm
      · rw [permit, next, Option.toList_some, filter_append, filter_append, same]
        exact congrArg (· ++ _) (unexpired_filter current).symm
    | release permitId =>
      simp only [answersOf, held, states, Change.next, release]
      rw [filter_comm, same, filter_comm]
    | _ =>
      simp only [answersOf, held, states, Change.next, permit, Option.toList_none,
        append_nil]
      exact same

variable {hist : List Asked}

theorem permits_length : ((states limits hist).permits.length : Int) ≤ limits.concurrent := by
  induction hist with
  | nil => exact slots.le
  | cons asked earlier ih =>
    obtain ⟨change, now⟩ := asked
    have fewer : ∀ keep : Permit → Bool,
        (((states limits earlier).permits.filter keep).length : Int) ≤ limits.concurrent := by
      intro keep
      exact (Int.ofNat_le.mpr (length_filter_le ..)).trans ih
    cases change with
    | acquire permitId leaseSeconds =>
      simp only [states, Change.next]
      rcases acquire_cases (states limits earlier) limits now permitId
        (min (max leaseSeconds 1) maxLeaseSeconds) slots rate with
          ⟨_, next⟩ | ⟨_, room, _, _, next⟩ <;> rw [next]
      · exact fewer _
      · rw [length_append, length_singleton]
        omega
    | release permitId => exact fewer _
    | _ => exact ih

/-! ### The block -/

theorem reported_le :
    ∀ time ∈ reported (answersOf limits hist), time ≤ (states limits hist).blockedUntil := by
  induction hist with
  | nil => exact nofun
  | cons asked earlier ih =>
    obtain ⟨change, now⟩ := asked
    intro time mem
    cases change with
    | acquire permitId leaseSeconds =>
      simp only [states, Change.next]
      have blocked : (acquire (states limits earlier) limits now permitId
          (min (max leaseSeconds 1) maxLeaseSeconds)).2.blockedUntil =
            (states limits earlier).blockedUntil := by
        rcases acquire_cases (states limits earlier) limits now permitId
          (min (max leaseSeconds 1) maxLeaseSeconds) slots rate with
            ⟨_, next⟩ | ⟨_, _, _, _, next⟩ <;> rw [next] <;> rfl
      rw [blocked]
      exact ih time mem
    | throttled retryAfterSeconds =>
      rcases mem_cons.mp mem with rfl | older
      · exact le_rfl
      · exact (ih time older).trans (le_max_left _ _)
    | _ => exact ih time mem

theorem free_of_permit {permit : Permit}
    (granted : change.permit limits state now = some permit) : state.blockedUntil ≤ now := by
  cases change with
  | acquire permitId leaseSeconds =>
    rcases acquire_cases state limits now permitId (min (max leaseSeconds 1) maxLeaseSeconds) slots
      rate with ⟨refused, _⟩ | ⟨free, _⟩
    · exact absurd (refused.symm.trans granted) (by simp)
    · exact free
  | _ => exact absurd granted (by simp [Change.permit])

theorem granted_free {later earlier : List Answered} {answer : Answered}
    (split : answersOf limits hist = later ++ answer :: earlier)
    (granted : answer.permit.isSome) : ∀ time ∈ reported earlier, time ≤ answer.reading := by
  induction hist generalizing later with
  | nil => exact absurd split (by simp [answersOf])
  | cons asked rest ih =>
    obtain ⟨change, now⟩ := asked
    rw [answersOf] at split
    cases later with
    | nil =>
      obtain ⟨rfl, rfl⟩ := List.cons.inj split
      obtain ⟨permit, some⟩ := Option.isSome_iff_exists.mp granted
      intro time mem
      exact (reported_le slots rate time mem).trans (free_of_permit slots rate some)
    | cons newest later => exact ih (List.cons.inj split).2

end Rate

/-- Where the clock reads whole milliseconds and a burst is at least one, permits keep what they
promise: no span of time has more of them than a burst and what the rate gives in it, no more are
held than there are slots, and none is granted before a time until which the site was reported
blocked. -/
theorem permits_keep_limits (place : Place) (inherited limits : Limits)
    (start : Option SiteDocument)
    (hist : List Asked) (fresh : (place.read start).state = .fresh)
    (own : (place.read start).limits.getD inherited = limits) (regular : Regular hist)
    (rate : 0 < limits.requestsPerSecond) (burst : 1 ≤ limits.burst)
      (slots : 0 < limits.concurrent) :
    (∀ since upTo, since ≤ upTo →
      ((granted (answers place inherited start hist)).countP
        (fun grant => since ≤ grant.1 ∧ grant.1 ≤ upTo) : ℚ) ≤
          limits.burst + limits.requestsPerSecond * (((upTo - since : Int) : ℚ) / 1000000000)) ∧
      (∀ time, (∀ asked ∈ hist, asked.2 ≤ time) →
        (((held (answers place inherited start hist)).countP (time < ·.expiresAt) : ℕ) : Int) ≤
          limits.concurrent) ∧
      ∀ later answer earlier, answers place inherited start hist = later ++ answer :: earlier →
        answer.permit.isSome → ∀ time ∈ reported earlier, time ≤ answer.reading := by
  rw [answers_eq fresh own slots rate regular]
  refine ⟨fun since upTo span => ?_, fun time latest => ?_, fun later answer earlier split some =>
    granted_free slots rate split some⟩
  · have within := granted_within slots rate regular since upTo
    have full : limits.capacity = limits.burst := max_eq_right burst
    rw [full, given, max_eq_left (by omega), mul_div_assoc] at within
    exact within
  · rw [countP_eq_length_filter, held_eq slots rate latest]
    exact (Int.ofNat_le.mpr (length_filter_le ..)).trans (permits_length slots rate)

/-- A site that is called by one application. -/
def Place.downloads : Place := ⟨"ern:a", "a", "downloads.example.com"⟩

/-- One request a second, in bursts of one, and two at once. -/
def Limits.gentle : Limits := ⟨1, 1, 2⟩

/-- Of three requests in a second, one is granted. -/
theorem gentle_within_second : ((granted (answers .downloads .gentle none
      [(.acquire "c" 900, 1500000000), (.acquire "b" 900, 1250000000),
        (.acquire "a" 900, 1000000000)])).countP
          (fun grant => (1000000000 : Int) ≤ grant.1 ∧ grant.1 ≤ 1500000000) : ℚ) ≤
      1 + 1 * (((1500000000 - 1000000000 : Int) : ℚ) / 1000000000) :=
  (permits_keep_limits .downloads .gentle .gentle none
    [(.acquire "c" 900, 1500000000), (.acquire "b" 900, 1250000000), (.acquire "a" 900, 1000000000)]
    rfl rfl
    ⟨by simp [KeepsLimits], by decide, by
      intro asked mem
      simp only [mem_cons, not_mem_nil, or_false] at mem
      rcases mem with rfl | rfl | rfl
      · exact ⟨1500, by decide, rfl⟩
      · exact ⟨1250, by decide, rfl⟩
      · exact ⟨1000, by decide, rfl⟩⟩
    (by decide) (by decide) (by decide)).1 1000000000 1500000000 (by decide)

/-- A thousand requests a second, in bursts of one, and ten at once. -/
def Limits.quick : Limits := ⟨1000, 1, 10⟩

/-- Of three requests at one reading, nine tenths of a millisecond past a whole one, two are
granted. -/
theorem quick_twice_at_once : ¬((granted (answers .downloads .quick none
      [(.acquire "c" 900, 1700000000000900000), (.acquire "b" 900, 1700000000000900000),
        (.acquire "a" 900, 1700000000000900000)])).countP
        (fun grant => (1700000000000900000 : Int) ≤ grant.1 ∧ grant.1 ≤ 1700000000000900000) : ℚ) ≤
      1 + 1000 * (((1700000000000900000 - 1700000000000900000 : Int) : ℚ) / 1000000000) := by
  decide +kernel

end Euclid.Eap.Egress
