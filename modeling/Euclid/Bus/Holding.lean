/-
This file proves what holding back the deliveries of a source does, and releasing them.

A hold takes the events of its source that wait, and leaves the claimed ones to finish. What
it has taken nobody can claim, and it stays held until a release of the source lets it go:
once for each time it was held, and a release that has answered how many it released has
left none behind.

Two statements write an event by its identity without looking at whether it is held: the
requeue after a failed handler, and the release itself. What follows is about runs in which
a requeue finds none of its events held, and a release finds its event held for it.
-/

import Euclid.Bus.Claim

namespace Euclid.Bus

open Program Discipline List Option History

/-! ### One statement -/

def StoredEvent.IsHeld (sourceErn : String) (event : StoredEvent) : Prop :=
  event.status = .held ∧ event.heldBy = some sourceErn

variable {stmt : EventStatement}

theorem EventStatement.effect_held {before after : StoredEvent}
    (held : before.status = .held) (becomes : stmt.effect before = some after) :
    after = before ∨ (∃ oids visibleAt, stmt = .requeue oids visibleAt ∧ before.oid ∈ oids) ∨
      ∃ visibleAt expiresAt, stmt = .release before.oid visibleAt expiresAt ∧
        after = before.released visibleAt expiresAt := by
  unfold effect at becomes
  split at becomes
  swap
  · exact .inl (some.inj becomes).symm
  rename_i selected
  cases stmt with
  | claimPending | hold => exact absurd ((of_decide_eq_true selected).2.symm.trans held) (by decide)
  | claimClaimable oids now claimedBy claimToken visibleAt =>
    rcases Bool.or_eq_true_iff.mp (Bool.and_eq_true_iff.mp selected).2 with pending | expired
    · exact absurd ((of_decide_eq_true pending).symm.trans held) (by decide)
    · exact absurd ((of_decide_eq_true expired).1.symm.trans held) (by decide)
  | reap => exact absurd ((of_decide_eq_true selected).1.symm.trans held) (by decide)
  | requeue oids visibleAt => exact .inr (.inl ⟨oids, visibleAt, rfl, of_decide_eq_true selected⟩)
  | release oid visibleAt expiresAt =>
    obtain rfl : before.oid = oid := of_decide_eq_true selected
    exact .inr (.inr ⟨visibleAt, expiresAt, rfl, (some.inj becomes).symm⟩)
  | deleteMany | deleteOne | acknowledge | expire => cases becomes
  | _ => cases selected

open EventStatement

theorem EventStatement.effect_holds {before after : StoredEvent}
    (unheld : before.status ≠ .held) (held : after.status = .held)
    (becomes : stmt.effect before = some after) : ∃ sourceErn, stmt = .hold sourceErn := by
  unfold effect at becomes
  split at becomes
  swap
  · obtain rfl := some.inj becomes
    exact absurd held unheld
  cases stmt with
  | hold sourceErn => exact ⟨sourceErn, rfl⟩
  | claimPending | claimClaimable | requeue | reap | release =>
    obtain rfl := some.inj becomes
    cases held
  | deleteMany | deleteOne | acknowledge | expire => cases becomes
  | _ =>
    obtain rfl := some.inj becomes
    exact absurd held unheld

/-! ### Runs -/

/-- The source an operation releases the events of. -/
def Traffic.releases : Traffic → Option String
  | .release heldBy _ => some heldBy
  | _ => none

open Traffic

/-- The source a request holds the events of. -/
def Req.holds : Req → Option String
  | .event (.hold sourceErn) => some sourceErn
  | _ => none

open Req

theorem Req.eq_hold {req : Req} {sourceErn : String}
    (holds : req.holds = some sourceErn) : req = .event (.hold sourceErn) := by
  cases req with
  | event stmt =>
    cases stmt with
    | hold other => rw [some.inj holds]
    | _ => cases holds
  | _ => cases holds

/-- A statement over the events was answered. -/
def Req.answered : (req : Req) → req.Answer → Bool
  | .event _, .ok _ => true
  | _, _ => false

/-- The page of held events a request showed, and how long it could have been. -/
def Req.heldShown : (req : Req) → req.Answer → Option (List StoredEvent × Nat)
  | .event (.findHeld _ limit), .ok page => some (page, limit)
  | _, _ => none

namespace Session

variable {session : Session} {req : Req} {answer : req.Answer}

@[simp] theorem after_traffic : (session.after req answer).traffic = session.traffic := by
  cases req with
  | handlerReturned doc =>
    show (session.afterHandler doc answer).traffic = session.traffic
    unfold afterHandler
    split
    · rfl
    · split <;> rfl
  | event stmt => cases stmt <;> cases answer <;> rfl
  | storeDeadLetter letter => cases answer <;> rfl
  | _ => rfl

/-- A session takes over the page it is shown, and lets go of what it has released. -/
theorem after_page (session : Session) (req : Req) (answer : req.Answer) :
    (∃ page limit, req.heldShown answer = some (page, limit) ∧
      (session.after req answer).page = page.map StoredEvent.oid ∧
      (session.after req answer).lastPage = decide (page.length < limit)) ∨
    (session.after req answer).lastPage = session.lastPage ∧ ∀ oid ∈ session.page,
      oid ∈ (session.after req answer).page ∨ req.answered answer ∧
        ∃ visibleAt expiresAt, req = .event (.release oid visibleAt expiresAt) := by
  have kept : ∀ {after : Session}, after.lastPage = session.lastPage → after.page = session.page →
      after.lastPage = session.lastPage ∧ ∀ oid ∈ session.page,
        oid ∈ after.page ∨ req.answered answer ∧
          ∃ visibleAt expiresAt, req = .event (.release oid visibleAt expiresAt) :=
    fun last page => ⟨last, fun oid mem => .inl (page ▸ mem)⟩
  cases req with
  | handlerReturned doc =>
    have same : (session.afterHandler doc answer).lastPage = session.lastPage ∧
        (session.afterHandler doc answer).page = session.page := by
      unfold afterHandler
      split
      · exact ⟨rfl, rfl⟩
      · split <;> exact ⟨rfl, rfl⟩
    exact .inr (kept same.1 same.2)
  | event stmt =>
    cases stmt with
    | findHeld heldBy limit =>
      cases answer with
      | error fault => exact .inr (kept rfl rfl)
      | ok page => exact .inl ⟨page, limit, rfl, rfl, rfl⟩
    | release released visibleAt expiresAt =>
      cases answer with
      | error fault => exact .inr (kept rfl rfl)
      | ok modified =>
        refine .inr ⟨rfl, fun oid mem => ?_⟩
        by_cases same : oid = released
        · exact .inr ⟨rfl, visibleAt, expiresAt, by rw [same]⟩
        · exact .inl (mem_filter.mpr ⟨mem, decide_eq_true same⟩)
    | _ => cases answer <;> exact .inr (kept rfl rfl)
  | storeDeadLetter letter => cases answer <;> exact .inr (kept rfl rfl)
  | _ => exact .inr (kept rfl rfl)

end Session

theorem machine_heldShown {env : Env} {proc : Nat} {world : World}
    {req : Req} {page : List StoredEvent} {limit : Nat}
    (shown : req.heldShown (machine env proc req world).1 = some (page, limit)) :
    ∃ heldBy, req = .event (.findHeld heldBy limit) ∧ (page.length < limit →
      ∀ stored ∈ world.events, stored.IsHeld heldBy → stored ∈ page) := by
  cases req with
  | event stmt =>
    cases stmt with
    | findHeld heldBy most =>
      cases answered : (machine env proc (.event (.findHeld heldBy most)) world).1 with
      | error fault =>
        rw [answered] at shown
        cases shown
      | ok found =>
        rw [answered] at shown
        obtain ⟨rfl, rfl⟩ := Prod.mk.inj (some.inj shown)
        obtain ⟨rfl, -⟩ := machine_event_ok env proc world answered
        refine ⟨heldBy, rfl, fun short stored isStored held => ?_⟩
        unfold answer at short
        rw [length_take] at short
        show stored ∈ (world.events.filter fun event =>
          event.heldBy = some heldBy ∧ event.status = .held).take most
        rw [take_of_length_le (by omega)]
        exact mem_filter.mpr ⟨isStored, decide_eq_true ⟨held.2, held.1⟩⟩
    | _ => cases shown
  | _ => cases shown

section History

variable {Thread : Type} [DecidableEq Thread]
variable {env : Env} {processOf : Thread → Nat} {ops : Thread → Traffic}
variable {subscriptions : Subscriptions} {world : World} {oid : Oid} {sourceErn : String}
variable {later middle earlier hist : Past Thread} {event : Event Thread Req Answer World}

/-- What a run must not do: requeue an event that is held, or release one that is not held for
the caller. -/
def HoldKept (ops : Thread → Traffic) (_earlier : History Thread Req Answer World)
    (event : Event Thread Req Answer World) : Prop :=
  match event.request with
  | .event (.requeue oids _) => ∀ stored ∈ event.before.events, stored.oid ∈ oids →
      stored.status ≠ .held
  | .event (.release oid _ _) => ∀ stored ∈ event.before.events, stored.oid = oid →
      stored.status = .held ∧ stored.heldBy = (ops event.thread).releases
  | _ => True

/-- A release made the event pending. -/
def Lets (event : Event Thread Req Answer World) (oid : Oid) : Prop :=
  (∃ visibleAt expiresAt, event.request = .event (.release oid visibleAt expiresAt)) ∧
    ∃ stored ∈ event.after.events, stored.oid = oid ∧ stored.status = .pending

/-- A consumer that had the event removed it. -/
def Removes (event : Event Thread Req Answer World) (oid : Oid) : Prop :=
  ∃ stored ∈ event.before.events, stored.oid = oid ∧ event.request.effect stored = none

/-- Once a hold has been answered, and until a release of its source makes a request, an event of
the source that the hold is meant for neither waits to be claimed nor has been claimed. -/
def HeldBack (meant : String → StoredEvent → Prop) (ops : Thread → Traffic)
    (hist : History Thread Req Answer World) (world : World) : Prop :=
  ∀ later hold earlier sourceErn, hist = later ++ hold :: earlier →
    hold.request = .event (.hold sourceErn) → hold.request.answered hold.answer →
    (∀ event ∈ later, (ops event.thread).releases ≠ some sourceErn) →
    ∀ stored ∈ hold.before.events, stored.sourceErn = some sourceErn → meant sourceErn stored →
      ∀ now ∈ world.events, now.oid = stored.oid →
        now.status ≠ .pending ∧ now.attempts = stored.attempts

variable {stored : StoredEvent}

omit [DecidableEq Thread] in
theorem held_step (kept : HoldKept ops earlier event)
    (made : event = .made (machines env processOf) event.thread event.request event.before)
    (isStored : stored ∈ event.before.events) (held : stored.status = .held) :
    stored ∈ event.after.events ∨ Removes event stored.oid ∨
      Lets event stored.oid ∧ stored.heldBy = (ops event.thread).releases := by
  have fate := machine_fate env (processOf event.thread) event.request isStored
  have after : event.after = (machine env (processOf event.thread) event.request
    event.before).2 := congrArg Event.after made
  rw [← after] at fate
  rcases fate with unchanged | ⟨now, isNow, becomes⟩ | gone
  · exact .inl unchanged
  · unfold HoldKept at kept
    cases asked : event.request with
    | event stmt =>
      rw [asked] at becomes kept
      rcases effect_held held becomes with rfl | ⟨oids, visibleAt, rfl, named⟩ |
        ⟨visibleAt, expiresAt, rfl, rfl⟩
      · exact .inl isNow
      · exact absurd held (kept stored isStored named)
      · exact .inr (.inr ⟨⟨⟨visibleAt, expiresAt, asked⟩, _, isNow, rfl, rfl⟩,
          (kept stored isStored rfl).2⟩)
    | _ =>
      rw [asked] at becomes
      obtain rfl := some.inj becomes
      exact .inl isNow
  · exact .inr (.inl ⟨stored, isStored, rfl, gone⟩)

variable (governed : Governed env processOf ops subscriptions (later ++ event :: earlier) world)
  (kept : Meets (HoldKept ops) (later ++ event :: earlier))

include kept in
include governed in
/-- What a hold has taken stays as the hold left it until a release of the source makes a
request. -/
theorem held_since (unreleased : ∀ other ∈ later, (ops other.thread).releases ≠ some sourceErn)
    (held : stored.IsHeld sourceErn)
    (tracked : Tracked (· = stored) oid event.after) : Tracked (· = stored) oid world := by
  induction later generalizing world with
  | nil =>
    rw [governed.records.1]
    exact tracked
  | cons newest later ih =>
    obtain ⟨governedBefore, -, made, newestIs⟩ := governed.cons_inv
    have before := ih governedBefore kept.2 fun other mem =>
      unreleased other (.tail _ mem)
    have ours := unreleased newest (.head _)
    have keptHere : HoldKept ops (later ++ event :: earlier) newest := kept.1
    rw [newestIs, made]
    refine before.step newest.request fun old isStored _ same after becomes => ?_
    subst same
    unfold HoldKept at keptHere
    cases asked : newest.request with
    | event stmt =>
      rw [asked] at becomes keptHere
      rcases effect_held held.1 becomes with unchanged |
        ⟨oids, visibleAt, rfl, named⟩ | ⟨visibleAt, expiresAt, rfl, -⟩
      · exact unchanged
      · exact absurd held.1 (keptHere old isStored named)
      · exact absurd ((keptHere old isStored rfl).2.symm.trans held.2) ours
    | _ =>
      rw [asked] at becomes
      exact (some.inj becomes).symm

include governed in
theorem answered_after (asked : event.request = .event stmt)
    (answered : event.request.answered event.answer) :
    event.after.events = stmt.after event.before.moment event.before.events := by
  have stepped := governed.records.suffix.1
  obtain ⟨tid, req, answer, before, after⟩ := event
  obtain rfl : req = .event stmt := asked
  have after_eq : after = (machines env processOf tid (.event stmt) before).2 :=
    (congrArg Prod.snd stepped).symm
  cases answer with
  | error fault => cases answered
  | ok value =>
    rw [after_eq]
    exact (machine_event_ok env (processOf tid) before (congrArg Prod.fst stepped)).2

/-- What a hold is meant for by design: what waits, or is held for the source already. -/
def Waiting (sourceErn : String) (stored : StoredEvent) : Prop :=
  stored.status = .pending ∨ stored.IsHeld sourceErn

theorem waiting_heldBack (governed : Governed env processOf ops subscriptions hist world)
    (kept : Meets (HoldKept ops) hist) : HeldBack Waiting ops hist world := by
  rintro later hold earlier sourceErn rfl asked answered unreleased stored isStored source waiting
    now isNow same
  have identified := governed_identified governed.upTo
  have done := answered_after governed asked answered
  obtain ⟨held, isHeld, sameOid, sameAttempts, inAfter⟩ : ∃ held : StoredEvent,
      held.IsHeld sourceErn ∧ held.oid = stored.oid ∧ held.attempts = stored.attempts ∧
        held ∈ hold.after.events := by
    rw [done]
    rcases waiting with pending | already
    · refine ⟨stored.heldFor sourceErn, ⟨rfl, rfl⟩, rfl, rfl,
        EventStatement.mem_after.mpr (.inl ⟨stored, isStored, ?_⟩)⟩
      have selected : (EventStatement.hold sourceErn).selects stored :=
        decide_eq_true ⟨source, pending⟩
      rw [EventStatement.effect, if_pos selected]
      rfl
    · refine ⟨stored, already, rfl, rfl, EventStatement.mem_after.mpr (.inl ⟨stored, isStored, ?_⟩)⟩
      have unselected : (EventStatement.hold sourceErn).selects stored = false := by
        simp [EventStatement.selects, already.1]
      rw [EventStatement.effect, unselected]
      rfl
  have tracked := held_since governed kept unreleased isHeld (identified.tracked inAfter rfl)
  obtain rfl := tracked.each now isNow (same.trans sameOid.symm)
  exact ⟨by rw [isHeld.1]; decide, sameAttempts⟩

/-! ### Releasing -/

include kept in
include governed in
theorem held_fate (isStored : stored ∈ event.before.events) (held : stored.status = .held) :
    (∃ past ∈ later ++ [event], Lets past stored.oid ∨ Removes past stored.oid) ∨
      stored ∈ world.events := by
  induction later generalizing world with
  | nil =>
    obtain ⟨-, made⟩ := governed.made
    rw [governed.records.1]
    rcases held_step kept.1 made isStored held with unchanged | removed | ⟨lets, -⟩
    · exact .inr unchanged
    · exact .inl ⟨event, mem_singleton.mpr rfl, .inr removed⟩
    · exact .inl ⟨event, mem_singleton.mpr rfl, .inl lets⟩
  | cons newest later ih =>
    obtain ⟨governedBefore, -, made, newestIs⟩ := governed.cons_inv
    rcases ih governedBefore kept.2 with ⟨past, mem, gone⟩ | still
    · exact .inl ⟨past, .tail _ mem, gone⟩
    rw [newestIs]
    rcases held_step kept.1 made still held with unchanged | removed | ⟨lets, -⟩
    · exact .inr unchanged
    · exact .inl ⟨newest, .head _, .inr removed⟩
    · exact .inl ⟨newest, .head _, .inl lets⟩

theorem lets_once {newer older : Event Thread Req Answer World}
    (governed : Governed env processOf ops subscriptions
      (later ++ newer :: (middle ++ older :: earlier)) world)
    (kept : Meets (HoldKept ops) (later ++ newer :: (middle ++ older :: earlier)))
    (again : Lets newer oid) (before : Lets older oid) :
    ∃ hold ∈ middle, ∃ sourceErn, hold.request = .event (.hold sourceErn) ∧
      ∃ stored ∈ hold.after.events, stored.oid = oid ∧ stored.status = .held := by
  have identified := governed_identified governed.before.upTo
  obtain ⟨-, letGo, isLetGo, sameLetGo, pending⟩ := before
  have made : oid.1 < older.after.moment := sameLetGo ▸ identified.made letGo isLetGo
  have notYet : ¬∃ stored ∈ older.after.events, stored.oid = oid ∧ stored.status = .held := by
    rintro ⟨stored, isStored, same, held⟩
    rw [identified.unique isStored isLetGo (same.trans sameLetGo.symm), pending] at held
    cases held
  have now : ∃ stored ∈ newer.before.events, stored.oid = oid ∧ stored.status = .held := by
    obtain ⟨⟨visibleAt, expiresAt, asked⟩, stored, isStored, same, pending⟩ := again
    have keptThere := (meets_iff_split _ _).mp kept later newer _ rfl
    unfold HoldKept at keptThere
    obtain ⟨-, made⟩ := governed.made
    rw [made] at isStored
    rw [asked] at keptThere
    rcases machine_origin isStored with ⟨old, wasStored, rfl | becomes⟩ | new
    · exact ⟨_, wasStored, same, (keptThere _ wasStored same).1⟩
    · have sameOld := (effect_same becomes).oid.symm.trans same
      exact ⟨old, wasStored, sameOld, (keptThere old wasStored sameOld).1⟩
    · rw [asked] at new
      nomatch new
  obtain ⟨turning, inMiddle, unheld, stored, isStored, same, held⟩ :=
    governed.before.records.crossing
      (fun world => ∃ stored ∈ world.events, stored.oid = oid ∧ stored.status = .held) notYet now
  refine ⟨turning, inMiddle, ?_⟩
  obtain ⟨after, rest, rfl⟩ := append_of_mem inMiddle
  have governedThere := governed.before
  rw [append_assoc, cons_append] at governedThere
  obtain ⟨-, turningMade⟩ := governedThere.made
  have isNow := isStored
  rw [turningMade] at isNow
  rcases machine_origin isNow with ⟨old, wasStored, rfl | becomes⟩ | new
  · exact absurd ⟨_, wasStored, same, held⟩ unheld
  · have sameOld := (effect_same becomes).oid.symm.trans same
    have oldUnheld : old.status ≠ .held := fun held => unheld ⟨old, wasStored, sameOld, held⟩
    cases asked : turning.request with
    | event stmt =>
      rw [asked] at becomes
      obtain ⟨sourceErn, rfl⟩ := effect_holds oldUnheld held becomes
      exact ⟨sourceErn, rfl, stored, isStored, same, held⟩
    | _ =>
      rw [asked] at becomes
      obtain rfl := some.inj becomes
      exact absurd held oldUnheld
  · have past : oid.1 < turning.before.moment := by
      refine governedThere.before.records.since (fun world => oid.1 < world.moment) made ?_
      intro tid req world before
      exact before.trans_le ((Nat.le_succ _).trans_eq (machine_moment _ _ _ _).symm)
    have now := added_oid new
    rw [same] at now
    exact absurd past (by omega)

theorem sessions_traffic (tid : Thread) : (sessionsOf ops hist tid).traffic = ops tid := by
  induction hist with
  | nil => rfl
  | cons newest earlier ih =>
    unfold sessionsOf
    rw [sessions_cons]
    split
    · exact Session.after_traffic.trans ih
    · exact ih

/-- What the last page of a release showed is still to be released, or a release of it has been
answered since. -/
theorem lastPage_shown (governed : Governed env processOf ops subscriptions hist world)
    {tid : Thread} {pages : Nat} (releases : ops tid = .release sourceErn pages)
    (last : (sessionsOf ops hist tid).lastPage = true) :
    ∃ later shown earlier, hist = later ++ shown :: earlier ∧ shown.thread = tid ∧
      ∀ stored ∈ shown.before.events, stored.IsHeld sourceErn →
        stored.oid ∈ (sessionsOf ops hist tid).page ∨ ∃ release ∈ later,
          release.request.answered release.answer ∧ ∃ visibleAt expiresAt,
            release.request = .event (.release stored.oid visibleAt expiresAt) := by
  induction governed with
  | start => cases last
  | @step earlier world governed asking req allowed ih =>
    unfold sessionsOf at last ⊢
    rw [sessions_cons] at last ⊢
    split at last
    swap
    · rename_i other
      rw [if_neg other]
      obtain ⟨later, shown, oldest, rfl, own, each⟩ := ih last
      refine ⟨_ :: later, shown, oldest, rfl, own, fun stored isStored held => ?_⟩
      exact (each stored isStored held).imp id exists_mem_cons_of_exists
    rename_i own
    subst own
    rw [if_pos rfl]
    rcases Session.after_page (sessionsOf ops earlier tid) req
        (machines env processOf tid req world).1 with
      ⟨page, limit, shown, pageIs, lastIs⟩ | ⟨lastIs, pageKept⟩
    · obtain ⟨heldBy, rfl, whole⟩ := machine_heldShown shown
      obtain ⟨otherPages, operation⟩ := allowed
      obtain ⟨rfl, -⟩ := release.inj
        (releases.symm.trans ((sessions_traffic tid).symm.trans operation))
      refine ⟨[], _, earlier, rfl, rfl, fun stored isStored held => .inl ?_⟩
      have short : page.length < limit := of_decide_eq_true (lastIs.symm.trans last)
      have among : stored.oid ∈ page.map StoredEvent.oid :=
        mem_map_of_mem (whole short stored isStored held)
      exact pageIs ▸ among
    · obtain ⟨later, shown, oldest, rfl, own, each⟩ := ih (lastIs.symm.trans last)
      refine ⟨_ :: later, shown, oldest, rfl, own, fun stored isStored held => ?_⟩
      rcases each stored isStored held with shown | ⟨release, mem, letGo⟩
      · refine (pageKept stored.oid shown).imp id fun both => ?_
        exact ⟨_, .head _, both.1, both.2⟩
      · exact .inr ⟨release, .tail _ mem, letGo⟩

/-- A release that has answered how many it released has let go of every event that was held for
its source when it began, unless it was let go or removed by somebody else. -/
theorem released_all (governed : Governed env processOf ops subscriptions hist world)
    (kept : Meets (HoldKept ops) hist) {tid : Thread} {pages : Nat}
    (releases : ops tid = .release sourceErn pages) (none : (sessionsOf ops hist tid).page = [])
    (last : (sessionsOf ops hist tid).lastPage = true) {began : _}
    (split : hist = later ++ began :: earlier) (unbegun : ∀ past ∈ earlier, past.thread ≠ tid)
    (isStored : stored ∈ began.before.events) (held : stored.IsHeld sourceErn) :
    ∃ event ∈ later ++ [began], Lets event stored.oid ∨ Removes event stored.oid := by
  obtain ⟨since, shown, oldest, shownSplit, own, each⟩ := lastPage_shown governed releases last
  subst shownSplit
  -- the last page was shown when the release had begun
  obtain ⟨inside, beforeShown⟩ : (∀ event ∈ since ++ [shown], event ∈ later ++ [began]) ∧
      ((∃ event ∈ later ++ [began], Lets event stored.oid ∨ Removes event stored.oid) ∨
        stored ∈ shown.before.events) := by
    rcases cut_cases split with ⟨rfl, rfl, -⟩ | ⟨middle, rfl, rfl⟩ | ⟨middle, rfl, rfl⟩
    · exact ⟨fun event mem => mem, .inr isStored⟩
    · exact absurd own (unbegun shown (mem_append_right _ (.head _)))
    · have inside : ∀ event, event ∈ since ++ [shown] ∨ event ∈ middle ++ [began] →
          event ∈ since ++ shown :: middle ++ [began] := by simp; tauto
      refine ⟨fun event mem => inside event (.inl mem), ?_⟩
      refine (held_fate governed.before kept.suffix isStored held.1).imp ?_ id
      rintro ⟨past, mem, gone⟩
      exact ⟨past, inside past (.inr mem), gone⟩
  rcases beforeShown with gone | still
  · exact gone
  obtain ⟨release, mem, answered, visibleAt, expiresAt, asked⟩ :=
    (each stored still held).resolve_left (by rw [none]; exact not_mem_nil)
  obtain ⟨newest, middle, rfl⟩ := append_of_mem mem
  rw [append_assoc, cons_append] at governed kept
  rcases held_fate governed.before kept.suffix still held.1 with ⟨past, mem, gone⟩ | waits
  · exact ⟨past, inside past (by simp at mem ⊢; tauto), gone⟩
  refine ⟨release, inside release (by simp), .inl ⟨⟨visibleAt, expiresAt, asked⟩,
    stored.released visibleAt expiresAt, ?_, rfl, rfl⟩⟩
  rw [answered_after governed asked answered]
  refine EventStatement.mem_after.mpr (.inl ⟨stored, waits, ?_⟩)
  have selected : (EventStatement.release stored.oid visibleAt expiresAt).selects stored :=
    decide_eq_true rfl
  rw [EventStatement.effect, if_pos selected]
  rfl

/-! ### Every run -/

structure HoldsAndReleases (meant : String → StoredEvent → Prop) (ops : Thread → Traffic)
    (pool : Pool Thread Req Answer Empty (Option Int) World) : Prop where
  held : HeldBack meant ops pool.history pool.world
  once : ∀ later newer middle older earlier oid,
    pool.history = later ++ newer :: (middle ++ older :: earlier) → Lets newer oid →
    Lets older oid → ∃ hold ∈ middle, ∃ sourceErn, hold.request = .event (.hold sourceErn) ∧
      ∃ stored ∈ hold.after.events, stored.oid = oid ∧ stored.status = .held
  all : ∀ tid sourceErn pages released, ops tid = .release sourceErn pages →
    sourceErn ≠ "" → pool.programs tid = .done (some released) → 0 ≤ released →
    ∀ later began earlier, pool.history = later ++ began :: earlier → began.thread = tid →
      (∀ past ∈ earlier, past.thread ≠ tid) → ∀ stored ∈ began.before.events,
        stored.IsHeld sourceErn →
        ∃ event ∈ later ++ [began], Lets event stored.oid ∨ Removes event stored.oid

/-- In every run in which no requeue finds an event held, and every release finds its event held
for it: what a hold found waiting stays held until a release of the source; each time it was held
it is let go once; and a release that has answered leaves nothing behind. -/
theorem holds_and_releases (env : Env) (processOf : Thread → Nat)
    (ops : Thread → Traffic) (subscriptions : Subscriptions) (schedule : List Thread)
    (kept : Meets (HoldKept ops)
      ((pool env processOf (.opened subscriptions) ops).run
        (machines env processOf) schedule).history) :
    HoldsAndReleases Waiting ops
      ((pool env processOf (.opened subscriptions) ops).run
        (machines env processOf) schedule) := by
  obtain ⟨governed, following⟩ := traffic_run env processOf ops subscriptions schedule
  generalize (pool env processOf (.opened subscriptions) ops).run
    (machines env processOf) schedule = pool at kept governed following
  refine ⟨waiting_heldBack governed kept, ?_, ?_⟩
  · intro later newer middle older earlier oid split again before
    rw [split] at governed kept
    exact lets_once governed kept again before
  · intro tid sourceErn pages released releases named finished nonneg later began earlier split
      own unbegun stored isStored held
    have ends := following tid
    rw [finished] at ends
    obtain ⟨none, last⟩ := ends sourceErn pages releases named released rfl nonneg
    exact released_all governed kept releases none last split unbegun isStored held

end History

/-! ### Both outcomes -/

instance {Thread : Type} [DecidableEq Thread] (ops : Thread → Traffic)
    (earlier : History Thread Req Answer World)
    (event : Event Thread Req Answer World) :
    Decidable (HoldKept ops earlier event) := by
  unfold HoldKept
  generalize event.request = request
  rcases request with _ | _ | _ | _ | _ | ⟨⟨⟩⟩ | _ | _ <;> infer_instance

/-- A publisher of a bucket's notification, the bucket being stopped and started, a consumer, and a
reaper. -/
def stoppedBucket (place : Fin 5) : Traffic :=
  if place = 0 then .single "made" .null "esm" ⟨"queue", "bucket", "message", ""⟩
  else if place = 1 then .hold "bucket"
  else if place = 2 then .release "bucket" 1
  else if place = 3 then .poll "eqs"
  else .sweep

/-- A notification is published, the bucket is stopped and started again, and the notification is
delivered. -/
theorem holds_and_releases_of_bucket :
    HoldsAndReleases Waiting stoppedBucket ((pool (.stepping 1) (fun _ => 0)
      (.opened (.ofModule "eqs" "made")) stoppedBucket).run (machines (.stepping 1) fun _ => 0)
        (List.replicate 6 0 ++ [1] ++ List.replicate 6 3 ++ List.replicate 3 2 ++
          List.replicate 8 3)) :=
  holds_and_releases (.stepping 1) (fun _ => 0) stoppedBucket _ _ (by decide)

/-- A consumer has claimed a notification when its bucket is stopped, and loses its lease: the
reaper makes the notification claimable while the bucket is stopped. -/
theorem reap_makes_claimable :
    ¬HoldsAndReleases (fun _ _ => True) stoppedBucket ((pool (.stepping 10000) (fun _ => 0)
      (.opened (.ofModule "eqs" "made")) stoppedBucket).run (machines (.stepping 10000) fun _ => 0)
        (List.replicate 6 0 ++ List.replicate 6 3 ++ [1] ++ List.replicate 2 4)) := by
  intro promised
  generalize final : (pool (.stepping 10000) (fun _ => 0)
      (.opened (.ofModule "eqs" "made")) stoppedBucket).run (machines (.stepping 10000) fun _ => 0)
        (List.replicate 6 0 ++ List.replicate 6 3 ++ [1] ++ List.replicate 2 4) = pool at promised
  obtain ⟨⟨later, hold, earlier⟩, cut, asked, answered, unreleased, stored, isStored, source, now,
      isNow, same, claimable⟩ :
      ∃ cut ∈ cuts pool.history, cut.2.1.request.holds = some "bucket" ∧
        cut.2.1.request.answered cut.2.1.answer ∧
        (∀ event ∈ cut.1, (stoppedBucket event.thread).releases ≠ some "bucket") ∧
        ∃ stored ∈ cut.2.1.before.events, stored.sourceErn = some "bucket" ∧
          ∃ now ∈ pool.world.events, now.oid = stored.oid ∧ now.status = .pending := by
    rw [← final]
    decide
  have waits := promised.held later hold earlier "bucket" (eq_of_mem_cuts cut)
    (eq_hold asked) answered unreleased stored isStored source trivial now isNow same
  exact waits.1 claimable

end Euclid.Bus
