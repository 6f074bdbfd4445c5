/-
This file proves when the lease of a claimed event is exclusive.

A claim leaves its token and the end of its lease on what it takes. While the lease runs
nobody can claim the event again, because a claim and the reaper look at the status and
the end of the lease. Two statements look at neither: the requeue after a failed handler
and the release of a held event name an event by its identity alone. In a run where a
requeue only meets events its own consumer has claimed, a release only events that are
held, and a handler is called before the lease it is called under has run out, nobody else
is handed an event while it is leased.
-/

import Mathlib
import Euclid.Bus.Claim

namespace Euclid.Bus

open Program Discipline List Option History

/-! ### What ends a lease -/

/-- When a statement that puts an event back by name makes it visible. -/
def EventStatement.restarts : EventStatement → Option Time
  | .requeue _ visibleAt => some visibleAt
  | .release _ visibleAt _ => some visibleAt
  | _ => none

open EventStatement

variable {stmt : EventStatement} {before : StoredEvent} {after : StoredEvent}

theorem EventStatement.effect_lease (becomes : stmt.effect before = some after) :
    after.claimToken = before.claimToken ∧
        (after.visibleAt = before.visibleAt ∨ stmt.restarts = some after.visibleAt) ∨
      stmt.claims ≠ none ∧ after.claimToken = stmt.claims := by
  unfold effect at becomes
  split at becomes
  · cases stmt <;>
      simp only [outcome, some.injEq, reduceCtorEq] at becomes <;>
      subst becomes <;>
      first
      | exact .inl ⟨rfl, .inl rfl⟩
      | exact .inl ⟨rfl, .inr rfl⟩
      | exact .inr ⟨some_ne_none _, rfl⟩
  · obtain rfl := some.inj becomes
    exact .inl ⟨rfl, .inl rfl⟩

/-- The time a statement compares the end of a lease with. -/
def EventStatement.judges : EventStatement → Option Time
  | .claimClaimable _ now _ _ _ => some now
  | .reap now => some now
  | _ => none

/-- The identities a statement puts back by name. -/
def EventStatement.putsBackByName : EventStatement → List Oid
  | .requeue oids _ => oids
  | .release oid _ _ => [oid]
  | _ => []

theorem EventStatement.effect_claimed
    (claimed : before.status = .claimed) (becomes : stmt.effect before = some after) :
    after = before ∨ (∃ now, stmt.judges = some now ∧ before.visibleAt ≤ now) ∨
      before.oid ∈ stmt.putsBackByName := by
  unfold effect at becomes
  split at becomes
  swap
  · exact .inl (some.inj becomes).symm
  rename_i selected
  cases stmt with
  | claimPending => exact absurd ((of_decide_eq_true selected).2.symm.trans claimed) (by decide)
  | claimClaimable oids now claimedBy claimToken visibleAt =>
    rcases Bool.or_eq_true_iff.mp (Bool.and_eq_true_iff.mp selected).2 with pending | expired
    · exact absurd ((of_decide_eq_true pending).symm.trans claimed) (by decide)
    · exact .inr (.inl ⟨now, rfl, (of_decide_eq_true expired).2⟩)
  | reap now => exact .inr (.inl ⟨now, rfl, (of_decide_eq_true selected).2⟩)
  | requeue oids visibleAt => exact .inr (.inr (of_decide_eq_true selected))
  | release oid visibleAt expiresAt =>
    exact .inr (.inr (mem_singleton.mpr (of_decide_eq_true selected)))
  | hold => exact absurd ((of_decide_eq_true selected).2.symm.trans claimed) (by decide)
  | deleteMany | deleteOne | acknowledge | expire => cases becomes
  | _ => cases selected

theorem EventStatement.effect_taken
    (becomes : stmt.effect before = some after) (anew : after.claimToken ≠ before.claimToken) :
    after.status = .claimed ∧ (before.status = .claimed →
      ∃ now, stmt.judges = some now ∧ before.visibleAt ≤ now) := by
  unfold effect at becomes
  split at becomes
  swap
  · obtain rfl := some.inj becomes
    exact absurd rfl anew
  rename_i selected
  cases stmt with
  | claimPending =>
    obtain rfl := some.inj becomes
    exact ⟨rfl, fun claimed =>
      absurd ((of_decide_eq_true selected).2.symm.trans claimed) (by decide)⟩
  | claimClaimable oids now claimedBy claimToken visibleAt =>
    obtain rfl := some.inj becomes
    refine ⟨rfl, fun claimed => ?_⟩
    rcases Bool.or_eq_true_iff.mp (Bool.and_eq_true_iff.mp selected).2 with pending | expired
    · exact absurd ((of_decide_eq_true pending).symm.trans claimed) (by decide)
    · exact ⟨now, rfl, (of_decide_eq_true expired).2⟩
  | requeue | reap | release | hold =>
    obtain rfl := some.inj becomes
    exact absurd rfl anew
  | deleteMany | deleteOne | acknowledge | expire => cases becomes
  | _ => cases selected

/-! ### Histories -/

def Req.clockRead : (req : Req) → req.Answer → Option Time
  | .systemClock, now => some now
  | _, _ => none

theorem Session.after_readAt {session : Session} {req : Req} {answer : req.Answer}
    {now : Time} (read : (session.after req answer).readAt = some now) :
    session.readAt = some now ∨ req.clockRead answer = some now := by
  cases req with
  | systemClock => exact .inr read
  | handlerReturned doc =>
    have same : (session.afterHandler doc answer).readAt = session.readAt := by
      unfold afterHandler
      split
      · rfl
      · split <;> rfl
    exact .inl (same.symm.trans read)
  | event stmt => cases stmt <;> cases answer <;> exact .inl read
  | storeDeadLetter letter => cases answer <;> exact .inl read
  | _ => exact .inl read

section History

variable {Thread : Type} [DecidableEq Thread]
variable {env : Env} {processOf : Thread → Nat} {ops : Thread → Traffic}
variable {subscriptions : Subscriptions} {world : World} {later middle earlier hist : Past Thread}
variable {event claim : Event Thread Req Req.Answer World} (forward : Monotone env.systemClock)

include forward in
theorem clock_le
    (governed : Governed env processOf ops subscriptions (later ++ event :: earlier) world) :
    env.systemClock event.before.moment ≤ env.systemClock world.moment := by
  refine forward (governed.records.since (fun world => event.before.moment ≤ world.moment) ?_ ?_)
  · obtain ⟨-, made⟩ := governed.made
    rw [made]
    exact (Nat.le_succ _).trans_eq (machine_moment _ _ _ _).symm
  · intro tid req world before
    exact before.trans ((Nat.le_succ _).trans_eq (machine_moment _ _ _ _).symm)

variable (governed : Governed env processOf ops subscriptions hist world) {tid : Thread}

include governed in
include forward in
theorem readAt_le {now : Time} (read : (sessionsOf ops hist tid).readAt = some now) :
    now ≤ env.systemClock world.moment := by
  obtain ⟨later, event, earlier, rfl, -, clock⟩ :=
    sessions_learned traffic _ (fun session => session.readAt = some now)
      (fun _ req answer => req.clockRead answer = some now)
      (fun session req answer => Session.after_readAt) (by simp [Session.opening]) read
  refine le_trans (le_of_eq ?_) (clock_le forward governed)
  obtain ⟨-, made⟩ := governed.made
  rw [made] at clock
  generalize event.request = req, event.before = before at clock
  cases req with
  | systemClock => exact (some.inj clock).symm
  | _ => cases clock

/-- What a claim has taken: the events stored under its token right after it. -/
def taken (event : Event Thread Req Req.Answer World) : List StoredEvent :=
  event.after.events.filter fun stored =>
    event.request.claims.isSome ∧ stored.claimToken = event.request.claims

variable {claimed : StoredEvent}

omit [DecidableEq Thread] in
theorem mem_taken : claimed ∈ taken event ↔
    claimed ∈ event.after.events ∧ ∃ claimToken,
      event.request.claims = some claimToken ∧ claimed.claimToken = some claimToken := by
  simp only [taken, mem_filter, decide_eq_true_eq, isSome_iff_exists]
  constructor
  · rintro ⟨stored, ⟨claimToken, asked⟩, token⟩
    exact ⟨stored, claimToken, asked, token.trans asked⟩
  · rintro ⟨stored, claimToken, asked, token⟩
    exact ⟨stored, ⟨claimToken, asked⟩, token.trans asked.symm⟩

variable {claimToken : String}

theorem claims_unclaimed
    (governed : Governed env processOf ops subscriptions (later ++ claim :: earlier)
      world) (asked : claim.request.claims = some claimToken) :
    (sessionsOf ops earlier claim.thread).token = some claimToken ∧
      (sessionsOf ops earlier claim.thread).claim = none := by
  obtain ⟨allowed, -⟩ := governed.made
  generalize claim.request = req at allowed asked
  cases req with
  | event stmt =>
    cases stmt with
    | claimPending | claimClaimable =>
      obtain rfl := some.inj asked
      exact ⟨allowed.1, allowed.2.1⟩
    | _ => cases asked
  | _ => cases asked

include governed in
theorem claims_holds (happened : claim ∈ hist) (asked : claim.request.claims = some claimToken) :
    ∃ oids, (sessionsOf ops hist claim.thread).claim = some (oids, claimToken) := by
  obtain ⟨later, earlier, rfl⟩ := append_of_mem happened
  have claimed : ∃ oids, (sessionsOf ops (claim :: earlier) claim.thread).claim =
      some (oids, claimToken) := by
    unfold sessionsOf
    rw [sessions_self]
    obtain ⟨tid, req, answer, before, after⟩ := claim
    cases req with
    | event stmt =>
      cases stmt with
      | claimPending oids | claimClaimable oids =>
        obtain rfl := some.inj asked
        exact ⟨oids, by cases answer <;> rfl⟩
      | _ => cases asked
    | _ => cases asked
  obtain ⟨oids, claimed⟩ := claimed
  exact ⟨oids, governed.sessions_since (fun session => session.claim = some (oids, claimToken))
    claimed fun session req answer => Session.after_claim⟩

include governed in
include forward in
/-- An event under a token was taken by a claim, and keeps the lease of that claim or was put back
since. -/
theorem stored_taken
    {stored : StoredEvent} (isStored : stored ∈ world.events) (token : stored.claimToken ≠ none) :
    ∃ past ∈ hist, past.request.claims = stored.claimToken ∧
      ∃ claimed ∈ taken past, claimed.oid = stored.oid ∧
        (stored.visibleAt = claimed.visibleAt ∨
          stored.visibleAt ≤ env.systemClock world.moment) := by
  induction governed generalizing stored with
  | start => nomatch isStored
  | @step earlier world governed asking req allowed ih =>
    have ticks : env.systemClock world.moment ≤ env.systemClock
        (machines env processOf asking req world).2.moment :=
      forward ((Nat.le_succ _).trans_eq (machine_moment _ _ _ _).symm)
    have before : ∀ old ∈ world.events, old.oid = stored.oid →
        old.claimToken = stored.claimToken →
        (stored.visibleAt = old.visibleAt ∨ stored.visibleAt ≤ env.systemClock world.moment) →
        ∃ past ∈ Event.made (machines env processOf) asking req world :: earlier,
          past.request.claims = stored.claimToken ∧
          ∃ claimed ∈ taken past, claimed.oid = stored.oid ∧
            (stored.visibleAt = claimed.visibleAt ∨ stored.visibleAt ≤ env.systemClock
              (machines env processOf asking req world).2.moment) := by
      intro old wasStored same sameToken visible
      obtain ⟨past, happened, asked, claimed, isTaken, sameOid, lease⟩ :=
        ih wasStored (sameToken ▸ token)
      refine ⟨past, .tail _ happened, asked.trans sameToken, claimed, isTaken,
        sameOid.trans same, ?_⟩
      rcases visible with unchanged | soon
      · rw [unchanged]
        exact lease.imp id fun soon => soon.trans ticks
      · exact .inr (soon.trans ticks)
    rcases machine_origin isStored with ⟨old, wasStored, rfl | becomes⟩ | new
    · exact before stored wasStored rfl rfl (.inl rfl)
    · have same := (Req.effect_same becomes).oid.symm
      cases req with
      | event stmt =>
        rcases effect_lease becomes with ⟨sameToken, unchanged | restarted⟩ |
          ⟨claims, anew⟩
        · exact before old wasStored same sameToken.symm (.inl unchanged)
        · have read : (sessionsOf ops earlier asking).readAt = some stored.visibleAt := by
            cases stmt with
            | requeue | release =>
              obtain rfl := some.inj restarted
              exact allowed.2
            | _ => cases restarted
          exact before old wasStored same sameToken.symm (.inr (readAt_le forward governed read))
        · refine ⟨_, .head _, anew.symm, stored, ?_, rfl, .inl rfl⟩
          obtain ⟨claimToken, asked⟩ := ne_none_iff_exists'.mp claims
          exact mem_taken.mpr ⟨isStored, claimToken, asked, anew.trans asked⟩
      | _ =>
        obtain rfl := some.inj becomes
        exact before _ wasStored rfl rfl (.inl rfl)
    · exact absurd (added_isFresh allowed new).unclaimed token

include governed in
theorem token_thread (happened : claim ∈ hist) (asked : claim.request.claims = some claimToken)
    (holds : (sessionsOf ops hist tid).Holds claimToken) : claim.thread = tid := by
  obtain ⟨oids, claimed⟩ := claims_holds governed happened asked
  exact (governed_issued governed).apart _ _ claimToken (.inr ⟨oids, claimed⟩) holds

include forward in
theorem taken_anew
    (governed : Governed env processOf ops subscriptions (later ++ claim :: earlier)
      world) (isTaken : claimed ∈ taken claim) :
    ∃ stmt, claim.request = .event stmt ∧ ∃ before ∈ claim.before.events,
      stmt.effect before = some claimed ∧ claimed.claimToken ≠ before.claimToken := by
  obtain ⟨isStored, claimToken, asked, token⟩ := mem_taken.mp isTaken
  obtain ⟨drawn, unclaimed⟩ := claims_unclaimed governed asked
  have anew : ∀ before ∈ claim.before.events, before.claimToken ≠ some claimToken := by
    intro before wasStored same
    obtain ⟨past, happened, under, -⟩ := stored_taken forward governed.before wasStored
      (by rw [same]; exact some_ne_none _)
    have asked := under.trans same
    have own := token_thread governed.before happened asked (.inl drawn)
    obtain ⟨oids, spent⟩ := claims_holds governed.before happened asked
    rw [own, unclaimed] at spent
    cases spent
  obtain ⟨allowed, made⟩ := governed.made
  rw [made] at isStored
  rcases machine_origin isStored with ⟨before, wasStored, rfl | becomes⟩ | new
  · exact absurd token (anew _ wasStored)
  · generalize claim.request = req at asked becomes
    cases req with
    | event stmt =>
      exact ⟨stmt, rfl, before, wasStored, becomes, fun same =>
        anew before wasStored (same.symm.trans token)⟩
    | _ => cases asked
  · rw [(added_isFresh allowed new).unclaimed] at token
    cases token

/-- A handler of the thread came back for the event. -/
def HandledBy (tid : Thread) (oid : Oid) (hist : History Thread Req Req.Answer World) : Prop :=
  ∃ event ∈ hist, event.thread = tid ∧ ∃ doc ok,
    event.request.handlerResult event.answer = some (doc, ok) ∧ doc.oid = oid

variable {oid : Oid}

theorem failed_handled (failed : oid ∈ (sessionsOf ops hist tid).failed) :
    HandledBy tid oid hist := by
  obtain ⟨later, event, earlier, rfl, own, doc, ok, returned, same⟩ :=
    sessions_learned traffic _ (fun session => oid ∈ session.failed)
      (fun _ req answer => ∃ doc ok, req.handlerResult answer = some (doc, ok) ∧ doc.oid = oid)
      (fun session req answer => Session.after_failed) not_mem_nil failed
  exact ⟨event, mem_append_right _ (.head _), own, doc, ok, returned, same⟩

/-- What a run must not do: put back an event its thread has not claimed, release one that is not
held, or call a handler when the lease it is called under has run out. -/
def LeaseKept (env : Env) (earlier : History Thread Req Req.Answer World)
    (event : Event Thread Req Req.Answer World) : Prop :=
  match event.request with
  | .event (.requeue oids _) => ∀ stored ∈ event.before.events, stored.oid ∈ oids →
      stored.claimToken.isSome ∧ ∃ past ∈ earlier, past.thread = event.thread ∧
        past.request.claims = stored.claimToken
  | .event (.release oid _ _) => ∀ stored ∈ event.before.events, stored.oid = oid →
      stored.status = .held
  | .handle doc => env.systemClock event.before.moment < doc.visibleAt
  | _ => True

theorem returned_since
    (governed : Governed env processOf ops subscriptions (middle ++ claim :: earlier)
      world) (asked : claim.request.claims = some claimToken)
    (handled : HandledBy claim.thread oid (middle ++ claim :: earlier)) :
    HandledBy claim.thread oid middle := by
  obtain ⟨event, happened, own, doc, ok, returned, same⟩ := handled
  rcases mem_append.mp happened with since | before
  · exact ⟨event, since, own, doc, ok, returned, same⟩
  rcases mem_cons.mp before with rfl | before
  · generalize event.request = req, event.answer = answer at asked returned
    cases req with
    | handlerReturned => cases asked
    | _ => cases returned
  · obtain ⟨past, inEarlier, ownPast, handed⟩ := returned_handed governed.before before returned
    obtain ⟨oids, claimToken, -, spent⟩ := handed_claim governed.before inEarlier handed
    rw [ownPast, own, (claims_unclaimed governed asked).2] at spent
    cases spent

include forward in
/-- As long as the lease of a claim runs and its thread's handler has not come back, what it took
is as it was. -/
theorem lease_running
    (governed : Governed env processOf ops subscriptions (middle ++ claim :: earlier)
      world) (kept : Meets (LeaseKept env) (middle ++ claim :: earlier))
    (isTaken : claimed ∈ taken claim) (running : env.systemClock world.moment < claimed.visibleAt)
    (unhandled : ¬HandledBy claim.thread claimed.oid middle) :
    Tracked (· = claimed) claimed.oid world := by
  induction middle generalizing world with
  | nil =>
    obtain ⟨isStored, -⟩ := mem_taken.mp isTaken
    have identified := governed_identified governed
    cases governed with
    | step governed tid req allowed => exact identified.tracked isStored rfl
  | cons newest middle ih =>
    cases governed with
    | @step _ world governed tid req allowed =>
      have ticks : env.systemClock world.moment ≤ env.systemClock
          (machines env processOf tid req world).2.moment :=
        forward ((Nat.le_succ _).trans_eq (machine_moment _ _ _ _).symm)
      have before := ih governed kept.2 (lt_of_le_of_lt ticks running)
        fun ⟨event, since, handled⟩ => unhandled ⟨event, .tail _ since, handled⟩
      refine before.step req fun stored isStored _ same after becomes => ?_
      subst same
      obtain ⟨-, claimToken, asked, token⟩ := mem_taken.mp isTaken
      obtain ⟨stmt, taking, old, -, becameClaimed, anew⟩ := taken_anew forward governed isTaken
      have status := (effect_taken becameClaimed anew).1
      cases req with
      | event current =>
        rcases effect_claimed status becomes with unchanged | ⟨now, judged, expired⟩ |
          byName
        · exact unchanged
        · have read : (sessionsOf ops (middle ++ claim :: earlier) tid).readAt = some now := by
            cases current with
            | claimClaimable =>
              obtain rfl := some.inj judged
              exact allowed.2.2.1
            | reap =>
              obtain rfl := some.inj judged
              exact allowed
            | _ => cases judged
          have past := (readAt_le forward governed read).trans ticks
          exact absurd running (not_lt.mpr (expired.trans past))
        · cases current with
          | requeue oids visibleAt =>
            obtain ⟨-, past, happened, own, under⟩ := kept.1 stored isStored byName
            obtain ⟨oids', spent⟩ := claims_holds governed happened (under.trans token)
            have same := token_thread governed
              (mem_append_right _ (.head _)) asked (.inr ⟨oids', spent⟩)
            have handled := failed_handled (allowed.1 stored.oid byName)
            rw [show tid = claim.thread from own.symm.trans same.symm] at handled
            obtain ⟨event, since, handled⟩ := returned_since governed asked handled
            exact absurd ⟨event, .tail _ since, handled⟩ unhandled
          | release oid visibleAt expiresAt =>
            have held := kept.1 stored isStored (mem_singleton.mp byName)
            exact absurd (held.symm.trans status) (by decide)
          | _ => nomatch byName
      | _ => exact (some.inj becomes).symm

/-- The events a request hands to its thread: to a handler, or to an external subscriber. -/
def Req.handsOver : (req : Req) → req.Answer → List Oid
  | .handle doc, _ => [doc.oid]
  | .event (.findClaimed _ _ true), .ok docs => docs.map StoredEvent.oid
  | _, _ => []

/-- What an external subscriber is handed is stored under its own token. -/
theorem machine_handsOver {proc : Nat} {req : Req}
    (handed : oid ∈ req.handsOver (machine env proc req world).1) :
    (∃ doc, req = .handle doc ∧ doc.oid = oid) ∨
      ∃ oids claimToken, req = .event (.findClaimed oids claimToken true) ∧
        ∃ stored ∈ world.events, stored.oid = oid ∧ stored.claimToken = some claimToken := by
  cases req with
  | handle doc => exact .inl ⟨doc, rfl, (mem_singleton.mp handed).symm⟩
  | event stmt =>
    cases stmt with
    | findClaimed oids claimToken sorted =>
      cases sorted with
      | false =>
        have none : oid ∈ ([] : List Oid) := handed
        nomatch none
      | true =>
        cases answered :
            (machine env proc (.event (.findClaimed oids claimToken true)) world).1 with
        | error fault =>
          rw [answered] at handed
          nomatch handed
        | ok docs =>
          rw [answered] at handed
          obtain ⟨rfl, -⟩ := machine_event_ok env proc world answered
          obtain ⟨doc, found, same⟩ := mem_map.mp handed
          have chosen := (perm_insertionSort _ _).mem_iff.mp found
          obtain ⟨stored, named⟩ := mem_filter.mp chosen
          exact .inr ⟨oids, claimToken, rfl, doc, stored, same, (of_decide_eq_true named).2⟩
    | _ => nomatch handed
  | _ => nomatch handed

include forward in
theorem taken_apart {other : Event Thread Req Req.Answer World}
    (governed : Governed env processOf ops subscriptions
      (later ++ other :: (middle ++ claim :: earlier)) world)
    (kept : Meets (LeaseKept env) (middle ++ claim :: earlier))
    {again : StoredEvent} (isTaken : claimed ∈ taken claim) (alsoTaken : again ∈ taken other)
    (same : again.oid = claimed.oid)
    (running : env.systemClock other.before.moment < claimed.visibleAt) :
    HandledBy claim.thread claimed.oid middle := by
  by_contra unhandled
  have tracked := lease_running forward governed.before kept isTaken running unhandled
  obtain ⟨stmt, taking, before, wasStored, becomes, anew⟩ := taken_anew forward governed alsoTaken
  have sameBefore := (effect_same becomes).oid.symm.trans same
  obtain rfl := tracked.each before wasStored sameBefore
  obtain ⟨earlierStatement, -, old, -, became, alsoAnew⟩ :=
    taken_anew forward governed.before isTaken
  have status := (effect_taken became alsoAnew).1
  obtain ⟨now, judged, expired⟩ := (effect_taken becomes anew).2 status
  obtain ⟨allowed, -⟩ := governed.made
  rw [taking] at allowed
  have read : (sessionsOf ops (middle ++ claim :: earlier) other.thread).readAt = some now := by
    cases stmt with
    | claimClaimable =>
      obtain rfl := some.inj judged
      exact allowed.2.2.1
    | reap =>
      obtain rfl := some.inj judged
      exact allowed
    | _ => cases judged
  exact absurd running (not_lt.mpr (expired.trans (readAt_le forward governed.before read)))

/-- Between the claim of an event and the end of the claim's lease, or its own handler's return,
no other thread takes the event or is handed it. -/
def ExclusiveLeases (env : Env) (hist : History Thread Req Req.Answer World) : Prop :=
  ∀ later other middle claim earlier, hist = later ++ other :: (middle ++ claim :: earlier) →
    other.thread ≠ claim.thread → ∀ claimed ∈ taken claim,
      claimed.oid ∈ other.request.handsOver other.answer ∨
        claimed.oid ∈ (taken other).map StoredEvent.oid →
      claimed.visibleAt ≤ env.systemClock other.before.moment ∨
        HandledBy claim.thread claimed.oid middle

include governed in
include forward in
theorem exclusive_of_governed (kept : Meets (LeaseKept env) hist) : ExclusiveLeases env hist := by
  rintro later other middle claim earlier rfl different claimed isTaken reached
  by_contra failed
  obtain ⟨running, unhandled⟩ := not_or.mp failed
  have running := not_le.mp running
  have keptBefore : Meets (LeaseKept env) (middle ++ claim :: earlier) := kept.suffix
  rcases reached with handed | alsoTaken
  swap
  · obtain ⟨again, isAlsoTaken, same⟩ := mem_map.mp alsoTaken
    exact unhandled (taken_apart forward governed keptBefore isTaken isAlsoTaken same running)
  obtain ⟨allowed, made⟩ := governed.made
  rw [made] at handed
  have tracked := lease_running forward governed.before keptBefore isTaken running unhandled
  obtain ⟨-, claimToken, asked, token⟩ := mem_taken.mp isTaken
  rcases machine_handsOver handed with ⟨doc, asks, same⟩ | ⟨oids, otherToken, asks, stored,
    isStored, same, under⟩
  swap
  · -- an external subscriber reads under its own token, and the event is under the claim's
    obtain rfl := tracked.each stored isStored same
    rw [asks] at allowed
    have oneToken := some.inj (under.symm.trans token)
    exact different (token_thread governed.before (mem_append_right _ (.head _)) asked
      (.inr ⟨oids, oneToken ▸ allowed.1⟩)).symm
  -- a consumer hands on what it read back under a claim of its own, whose lease is running too
  have onTime : env.systemClock other.before.moment < doc.visibleAt := by
    have keptThere := (meets_iff_split _ _).mp kept later other _ rfl
    unfold LeaseKept at keptThere
    rwa [asks] at keptThere
  rw [asks] at allowed
  obtain ⟨read, happened, own, stored, oids, otherToken, otherUnder, spent⟩ :=
    batch_readBack governed.before allowed
  obtain ⟨past, inHistory, askedPast, mine, isMine, sameMine, lease⟩ :
      ∃ past ∈ middle ++ claim :: earlier, past.request.claims = doc.claimToken ∧
        ∃ mine ∈ taken past, mine.oid = doc.oid ∧ doc.visibleAt = mine.visibleAt := by
    obtain ⟨after, before, split⟩ := append_of_mem happened
    have governedThere := governed.before
    rw [split] at governedThere ⊢
    obtain ⟨past, inBefore, askedPast, mine, isMine, sameMine, lease⟩ :=
      stored_taken forward governedThere.before stored (by rw [otherUnder]; exact some_ne_none _)
    refine ⟨past, mem_append_right _ (.tail _ inBefore), askedPast, mine, isMine,
      sameMine, lease.resolve_right fun soon => ?_⟩
    exact absurd onTime (not_lt.mpr (soon.trans (clock_le forward governedThere)))
  have mineRuns : env.systemClock other.before.moment < mine.visibleAt := lease ▸ onTime
  have ownPast := token_thread governed.before inHistory (askedPast.trans otherUnder)
    (.inr ⟨oids, spent⟩)
  rcases mem_append.mp inHistory with since | before
  · obtain ⟨after, before, rfl⟩ := append_of_mem since
    have governedThere := governed.before
    rw [append_assoc, cons_append] at governedThere keptBefore
    obtain ⟨event, inBefore, handled⟩ := taken_apart forward governedThere keptBefore.suffix isTaken
      isMine (sameMine.trans same) (lt_of_le_of_lt (clock_le forward governedThere) running)
    exact unhandled ⟨event, mem_append_right _ (.tail _ inBefore), handled⟩
  rcases mem_cons.mp before with rfl | before
  · exact different ownPast.symm
  obtain ⟨after, oldest, rfl⟩ := append_of_mem before
  obtain ⟨event, inAfter, ownEvent, given, ok, returned, sameGiven⟩ := taken_apart forward
    governed.before keptBefore.suffix isMine isTaken (same.symm.trans sameMine.symm)
    (lt_of_le_of_lt (clock_le forward governed.before) mineRuns)
  obtain ⟨handing, inHanding, ownHanding, handedBefore⟩ := returned_handed governed.before
    (mem_append_right _ (.tail _ (mem_append_left _ inAfter))) returned
  obtain ⟨newest, rest, split⟩ := append_of_mem inHanding
  have governedThere := governed.before
  rw [split] at governedThere allowed
  refine handed_once governedThere handedBefore doc ?_ (sameMine.symm.trans sameGiven.symm)
  rwa [ownHanding, ownEvent, ownPast]

end History

/-! ### Both outcomes -/

instance {Thread : Type} [DecidableEq Thread] (env : Env)
    (earlier : History Thread Req Req.Answer World)
    (event : Event Thread Req Req.Answer World) :
    Decidable (LeaseKept env earlier event) := by
  unfold LeaseKept
  generalize event.request = request
  rcases request with _ | _ | _ | _ | _ | ⟨⟨⟩⟩ | _ | _ <;> infer_instance

/-- One publisher, a reaper, and three consumers. -/
def threeConsumers (place : Fin 5) : Traffic :=
  if place.val = 0 then .single "made" .null "esm" .none
  else if place.val = 1 then .sweep
  else .poll "eqs"

end Euclid.Bus
