/-
This file follows claims over whole histories: who holds which token, which event carries
it, and what was read back under it.

A token is drawn once, by one thread, and spent on one claim. A stored event carries the
token of the last claim that took it, and has been attempted once for each claim: two
copies of one event with as many attempts behind them carry the same token. So two
consumers never hand on the same attempt.
-/

import Euclid.Bus.Conduct

namespace Euclid.Bus

open Program Discipline List Option Session

/-! ### Tokens of statements -/

/-- The token a statement stamps on what it claims. -/
def EventStatement.claims : EventStatement → Option String
  | .claimPending _ _ claimToken _ => some claimToken
  | .claimClaimable _ _ _ claimToken _ => some claimToken
  | _ => none

/-- The token a request stamps on what it claims. -/
def Req.claims : Req → Option String
  | .event stmt => stmt.claims
  | _ => none

def Req.drawn : (req : Req) → req.Answer → Option String
  | .randomUuid, identifier => some identifier
  | _, _ => none

def Req.handed : Req → Option StoredEvent
  | .handle doc => some doc
  | _ => none

/-- What a request read back to be handed on. -/
def Req.readBack : (req : Req) → req.Answer → List StoredEvent
  | .event (.findClaimed _ _ false), .ok docs => docs
  | _, _ => []

variable {req : Req}

theorem Req.effect_claim {before after : StoredEvent} (becomes : req.effect before = some after) :
    after.claimToken = before.claimToken ∧ after.attempts = before.attempts ∨
      ∃ claimToken, req.claims = some claimToken ∧ after.claimToken = some claimToken ∧
        after.attempts = before.attempts + 1 := by
  cases req with
  | event stmt =>
    have outcome : stmt.effect before = some after := becomes
    unfold EventStatement.effect at outcome
    split at outcome
    · cases stmt <;>
        simp only [EventStatement.outcome, some.injEq, reduceCtorEq] at outcome <;>
        subst outcome <;>
        first
        | exact .inl ⟨rfl, rfl⟩
        | exact .inr ⟨_, rfl, rfl, rfl⟩
    · obtain rfl := some.inj outcome
      exact .inl ⟨rfl, rfl⟩
  | _ =>
    obtain rfl := some.inj becomes
    exact .inl ⟨rfl, rfl⟩

/-- A copy of an event and a later one: with as many attempts behind it, the later one is still
under the same claim. -/
def StoredEvent.Ages (older newer : StoredEvent) : Prop :=
  older.attempts < newer.attempts ∨
    older.attempts = newer.attempts ∧ older.claimToken = newer.claimToken

theorem Req.ages {older before after : StoredEvent}
    (ages : older.Ages before) (becomes : req.effect before = some after) : older.Ages after := by
  unfold StoredEvent.Ages at ages ⊢
  rcases Req.effect_claim becomes with ⟨token, attempts⟩ | ⟨claimToken, -, token, attempts⟩
  · rwa [token, attempts]
  · left
    rw [attempts]
    omega

/-! ### Sessions -/

variable {doc : StoredEvent}

namespace Session

variable {session : Session} {req : Req} {answer : req.Answer}

/-- The session has drawn a token, or claimed under it. -/
def Holds (session : Session) (claimToken : String) : Prop :=
  session.token = some claimToken ∨ ∃ oids, session.claim = some (oids, claimToken)

theorem after_claim {made : List Oid × String} (claimed : session.claim = some made)
    (allowed : session.allows req) : (session.after req answer).claim = some made := by
  cases req with
  | handlerReturned doc =>
    show (session.afterHandler doc answer).claim = some made
    unfold afterHandler
    split
    · exact claimed
    · split <;> exact claimed
  | event stmt =>
    cases stmt with
    | claimPending | claimClaimable => exact absurd (claimed.symm.trans allowed.2.1) (by simp)
    | _ => cases answer <;> exact claimed
  | storeDeadLetter letter => cases answer <;> exact claimed
  | _ => exact claimed

theorem after_holds {claimToken : String} (allowed : session.allows req)
    (holds : (session.after req answer).Holds claimToken) :
    session.Holds claimToken ∨ req.drawn answer = some claimToken := by
  cases req with
  | randomUuid =>
    rcases holds with drawn | spent
    · exact .inr drawn
    · exact .inl (.inr spent)
  | handlerReturned doc =>
    have same : (session.afterHandler doc answer).token = session.token ∧
        (session.afterHandler doc answer).claim = session.claim := by
      unfold afterHandler
      split
      · exact ⟨rfl, rfl⟩
      · split <;> exact ⟨rfl, rfl⟩
    left
    unfold Holds
    rwa [← same.1, ← same.2]
  | event stmt =>
    cases stmt with
    | claimPending | claimClaimable =>
      rcases holds with drawn | ⟨oids, spent⟩
      · exact .inl (.inl drawn)
      · exact .inl (.inl (by rw [allowed.1, (Prod.mk.inj (some.inj spent)).2]))
    | _ => cases answer <;> exact .inl holds
  | storeDeadLetter letter => cases answer <;> exact .inl holds
  | _ => exact .inl holds

theorem after_batch (waiting : doc ∈ (session.after req answer).batch) :
    doc ∈ session.batch ∨ doc ∈ req.readBack answer := by
  cases req with
  | handle other => exact .inl (mem_filter.mp waiting).1
  | handlerReturned other =>
    have same : (session.afterHandler other answer).batch = session.batch := by
      unfold afterHandler
      split
      · rfl
      · split <;> rfl
    exact .inl (same ▸ waiting)
  | event stmt =>
    cases stmt with
    | findClaimed oids claimToken sorted =>
      cases answer with
      | error fault => exact .inl waiting
      | ok docs =>
        cases sorted with
        | true => nomatch waiting
        | false => exact .inr waiting
    | _ => cases answer <;> exact .inl waiting
  | storeDeadLetter letter => cases answer <;> exact .inl waiting
  | _ => exact .inl waiting

theorem after_running (runs : (session.after req answer).running = some doc) :
    session.running = some doc ∨ req.handed = some doc := by
  cases req with
  | handle other => exact .inr runs
  | handlerReturned other =>
    have none : (session.afterHandler other answer).running = none := by
      unfold afterHandler
      split
      · rfl
      · split <;> rfl
    exact absurd (none.symm.trans runs) (by simp)
  | event stmt => cases stmt <;> cases answer <;> exact .inl runs
  | storeDeadLetter letter => cases answer <;> exact .inl runs
  | _ => exact .inl runs

theorem after_failed {oid : Oid} (mem : oid ∈ (session.after req answer).failed) :
    oid ∈ session.failed ∨ ∃ doc ok, req.handlerResult answer = some (doc, ok) ∧ doc.oid = oid := by
  cases req with
  | handlerReturned doc =>
    have recorded : oid ∈ (session.afterHandler doc answer).failed := mem
    unfold afterHandler at recorded
    split at recorded
    · exact .inl recorded
    split at recorded
    · exact .inl recorded
    rcases mem_append.mp recorded with old | new
    · exact .inl old
    · exact .inr ⟨doc, answer, rfl, (mem_singleton.mp new).symm⟩
  | event stmt => cases stmt <;> cases answer <;> exact .inl mem
  | storeDeadLetter letter => cases answer <;> exact .inl mem
  | _ => exact .inl mem

end Session

theorem added_isFresh {session : Session} {moment : Nat} {event : StoredEvent}
    (allowed : session.allows req) (new : event ∈ req.added moment) : event.IsFresh := by
  cases req with
  | event stmt =>
    cases stmt with
    | insert doc =>
      rw [mem_singleton.mp new]
      exact ⟨allowed.unclaimed, allowed.unattempted, allowed.waiting⟩
    | insertMany docs =>
      obtain ⟨place, bound, rfl⟩ := mem_mapIdx.mp new
      have fresh := allowed _ (getElem_mem bound)
      exact ⟨fresh.unclaimed, fresh.unattempted, fresh.waiting⟩
    | _ => nomatch new
  | _ => nomatch new

theorem machine_readBack {env : Env} {proc : Nat} {world : World}
    (read : doc ∈ req.readBack (machine env proc req world).1) :
    doc ∈ world.events ∧ ∃ oids claimToken,
      req = .event (.findClaimed oids claimToken false) ∧ doc.claimToken = some claimToken := by
  cases req with
  | event stmt =>
    cases stmt with
    | findClaimed oids claimToken sorted =>
      cases sorted with
      | true =>
        have none : doc ∈ ([] : List StoredEvent) := read
        nomatch none
      | false =>
        cases answered :
            (machine env proc (.event (.findClaimed oids claimToken false)) world).1 with
        | error fault =>
          rw [answered] at read
          nomatch read
        | ok docs =>
          rw [answered] at read
          obtain ⟨rfl, -⟩ := machine_event_ok env proc world answered
          obtain ⟨stored, chosen⟩ := mem_filter.mp read
          have named := of_decide_eq_true chosen
          exact ⟨stored, oids, claimToken, rfl, named.2⟩
    | _ => nomatch read
  | _ => nomatch read

/-! ### Histories -/

section History

variable {Thread : Type} [DecidableEq Thread]
variable {env : Env} {processOf : Thread → Nat} {ops : Thread → Traffic}
variable {subscriptions : Subscriptions} {world : World} {hist : Past Thread}

/-- Tokens held were drawn before now, and each is held by one thread. -/
structure Issued (env : Env) (sessions : Thread → Session) (moment : Nat) :
    Prop where
  past : ∀ tid claimToken, (sessions tid).Holds claimToken →
    ∃ drawnAt < moment, claimToken = env.randomUuid drawnAt
  apart : ∀ first second claimToken, (sessions first).Holds claimToken →
    (sessions second).Holds claimToken → first = second

variable (governed : Governed env processOf ops subscriptions hist world)

include governed in
theorem governed_issued : Issued env (sessionsOf ops hist) world.moment := by
  induction governed with
  | start =>
    have none : ∀ tid claimToken, ¬(opening (ops tid)).Holds claimToken := by
      rintro tid claimToken (drawn | ⟨oids, spent⟩)
      · exact absurd drawn (by simp [opening])
      · exact absurd spent (by simp [opening])
    exact ⟨fun tid claimToken holds => absurd holds (none tid claimToken),
      fun first _ claimToken holds => absurd holds (none first claimToken)⟩
  | @step earlier world governed asking req allowed ih =>
    have traced : ∀ tid claimToken,
        (sessionsOf ops (Event.made (machines env processOf) asking req world ::
          earlier) tid).Holds claimToken →
        (sessionsOf ops earlier tid).Holds claimToken ∨
          tid = asking ∧ claimToken = env.randomUuid world.moment := by
      intro tid claimToken holds
      unfold sessionsOf at holds
      rw [sessions_cons] at holds
      split at holds
      · rename_i own
        subst own
        refine (after_holds allowed holds).imp id fun drawn => ⟨rfl, ?_⟩
        cases req with
        | randomUuid => exact (some.inj drawn).symm
        | _ => cases drawn
      · exact .inl holds
    have unheld : ∀ tid, ¬(sessionsOf ops earlier tid).Holds (env.randomUuid world.moment) := by
      intro tid holds
      obtain ⟨drawnAt, before, same⟩ := ih.past _ _ holds
      exact absurd (env.randomUuid_injective same) (Nat.ne_of_gt before)
    rw [show (machines env processOf asking req world).2.moment = world.moment + 1 from
      machine_moment _ _ _ _]
    refine ⟨fun tid claimToken holds => ?_, fun first second claimToken left right => ?_⟩
    · rcases traced tid claimToken holds with old | ⟨-, rfl⟩
      · obtain ⟨drawnAt, before, same⟩ := ih.past _ _ old
        exact ⟨drawnAt, Nat.lt_succ_of_lt before, same⟩
      · exact ⟨world.moment, Nat.lt_succ_self _, rfl⟩
    · rcases traced first claimToken left with oldFirst | ⟨rfl, rfl⟩
      · rcases traced second claimToken right with oldSecond | ⟨rfl, rfl⟩
        · exact ih.apart first second claimToken oldFirst oldSecond
        · exact absurd oldFirst (unheld first)
      · rcases traced second _ right with oldSecond | ⟨rfl, -⟩
        · exact absurd oldSecond (unheld second)
        · rfl

variable {event : Event Thread Req Req.Answer World} {earlier : Past Thread} {later : Past Thread}
  {tid : Thread}

theorem claim_kept (governed : Governed env processOf ops subscriptions (later ++ event :: earlier)
      world) {made : List Oid × String} (claimed : (sessionsOf ops earlier tid).claim = some made) :
    (sessionsOf ops (later ++ event :: earlier) tid).claim = some made := by
  refine governed.sessions_since (fun session => session.claim = some made) ?_
    fun session req answer => after_claim
  rw [sessions_cons]
  split
  · rename_i own
    obtain ⟨allowed, -⟩ := governed.made
    exact after_claim claimed (own ▸ allowed)
  · exact claimed

include governed in
theorem batch_readBack (waiting : doc ∈ (sessionsOf ops hist tid).batch) :
    ∃ event ∈ hist, event.thread = tid ∧ doc ∈ event.before.events ∧
      ∃ oids claimToken, doc.claimToken = some claimToken ∧
        (sessionsOf ops hist tid).claim = some (oids, claimToken) := by
  obtain ⟨later, event, earlier, rfl, rfl, read⟩ :=
    sessions_learned traffic _ (fun session => doc ∈ session.batch)
      (fun _ req answer => doc ∈ req.readBack answer)
      (fun session req answer => after_batch) not_mem_nil waiting
  obtain ⟨allowed, made⟩ := governed.made
  rw [made] at read
  obtain ⟨stored, oids, claimToken, asked, named⟩ := machine_readBack read
  rw [asked] at allowed
  exact ⟨event, mem_append_right _ (.head _), rfl, stored, oids, claimToken, named,
    claim_kept governed allowed.1⟩

theorem ages_since (governed : Governed env processOf ops subscriptions (later ++ event :: earlier)
      world) {older newer : StoredEvent} (wasStored : older ∈ event.before.events)
    (stored : newer ∈ world.events) (same : newer.oid = older.oid) : older.Ages newer := by
  have kept : ∀ (tid : Thread) (req : Req) (world : World),
      Tracked older.Ages older.oid world →
        Tracked older.Ages older.oid (machines env processOf tid req world).2 :=
    fun tid req world tracked => tracked.step req fun before _ _ ages after becomes =>
      Req.ages ages becomes
  have before : Tracked older.Ages older.oid event.before :=
    (governed_identified governed.before).tracked wasStored (.inr ⟨rfl, rfl⟩)
  obtain ⟨-, made⟩ := governed.made
  have after : Tracked older.Ages older.oid event.after := by
    rw [made]
    exact kept _ _ _ before
  exact (governed.records.since (Tracked older.Ages older.oid) after kept).each newer stored same

include governed in
theorem ages_or_ages {first second : Event Thread Req Req.Answer World} (left : first ∈ hist)
    (right : second ∈ hist) (different : first ≠ second) {one other : StoredEvent}
    (inFirst : one ∈ first.before.events) (inSecond : other ∈ second.before.events)
    (same : one.oid = other.oid) : one.Ages other ∨ other.Ages one := by
  obtain ⟨later, middle, earlier, split | split⟩ := History.ordered left right different
  · subst split
    exact .inr (ages_since governed.before inSecond inFirst same)
  · subst split
    exact .inl (ages_since governed.before inFirst inSecond same.symm)

/-! ### Handing on -/

theorem batch_read : (sessionsOf ops hist tid).batch = [] ∨
      (sessionsOf ops hist tid).readBack = true := by
  refine sessions_invariant traffic _ (fun session => session.batch = [] ∨ session.readBack = true)
    (fun tid => .inl rfl) ?_ hist tid
  intro session req answer held
  cases req with
  | handle doc =>
    refine held.imp (fun none => ?_) id
    show session.batch.filter _ = []
    rw [none]
    rfl
  | handlerReturned doc =>
    show (session.afterHandler doc answer).batch = [] ∨
      (session.afterHandler doc answer).readBack = true
    unfold afterHandler
    split
    · exact held
    · split <;> exact held
  | event stmt =>
    cases stmt with
    | findClaimed => cases answer with
      | error fault => exact held
      | ok docs => exact .inr rfl
    | _ => cases answer <;> exact held
  | storeDeadLetter letter => cases answer <;> exact held
  | _ => exact held

theorem handed_once (governed : Governed env processOf ops subscriptions (later ++ event :: earlier)
      world) (handed : event.request.handed = some doc) :
    ∀ other ∈ (sessionsOf ops (later ++ event :: earlier) event.thread).batch,
      other.oid ≠ doc.oid := by
  refine (governed.sessions_since (fun session => session.readBack = true ∧
    ∀ other ∈ session.batch, other.oid ≠ doc.oid) ?_ ?_).2
  · obtain ⟨allowed, -⟩ := governed.made
    have read : (sessionsOf ops earlier event.thread).batch = [] ∨
        (sessionsOf ops earlier event.thread).readBack = true := batch_read
    rw [sessions_self]
    obtain ⟨tid, req, answer, before, after⟩ := event
    cases req with
    | handle given =>
      obtain rfl := some.inj handed
      refine ⟨read.resolve_left (ne_nil_of_mem allowed), fun other mem => ?_⟩
      exact of_decide_eq_true (mem_filter.mp mem).2
    | _ => cases handed
  · rintro session req answer ⟨read, each⟩ allowed
    cases req with
    | handle given => exact ⟨read, fun other mem => each other (mem_filter.mp mem).1⟩
    | handlerReturned given =>
      have same : (session.afterHandler given answer).batch = session.batch ∧
          (session.afterHandler given answer).readBack = session.readBack := by
        unfold afterHandler
        split
        · exact ⟨rfl, rfl⟩
        · split <;> exact ⟨rfl, rfl⟩
      exact ⟨same.2.trans read, fun other mem => each other (same.1 ▸ mem)⟩
    | event stmt =>
      cases stmt with
      | findClaimed => exact absurd (read.symm.trans allowed.2) (by decide)
      | _ => cases answer <;> exact ⟨read, each⟩
    | storeDeadLetter letter => cases answer <;> exact ⟨read, each⟩
    | _ => exact ⟨read, each⟩

theorem handed_waits (governed : Governed env processOf ops subscriptions (event :: hist) world)
    (handed : event.request.handed = some doc) :
    doc ∈ (sessionsOf ops hist event.thread).batch := by
  cases governed with
  | step governed tid req allowed =>
    cases req with
    | handle given =>
      obtain rfl := some.inj handed
      exact allowed
    | _ => cases handed

include governed in
theorem handed_claim (happened : event ∈ hist) (handed : event.request.handed = some doc) :
    ∃ oids claimToken, doc.claimToken = some claimToken ∧
      (sessionsOf ops hist event.thread).claim = some (oids, claimToken) := by
  obtain ⟨later, earlier, rfl⟩ := append_of_mem happened
  obtain ⟨-, -, -, -, oids, claimToken, token, claim⟩ :=
    batch_readBack governed.before (handed_waits governed.upTo handed)
  exact ⟨oids, claimToken, token, claim_kept governed claim⟩

include governed in
theorem returned_handed (happened : event ∈ hist) {ok : Option Bool}
    (returned : event.request.handlerResult event.answer = some (doc, ok)) :
    ∃ past ∈ hist, past.thread = event.thread ∧ past.request.handed = some doc := by
  obtain ⟨later, earlier, rfl⟩ := append_of_mem happened
  obtain ⟨allowed, -⟩ := governed.made
  obtain ⟨tid, req, answer, before, after⟩ := event
  cases req with
  | handlerReturned given =>
    obtain ⟨rfl, -⟩ := Prod.mk.inj (some.inj returned)
    obtain ⟨middle, past, oldest, rfl, own, handed⟩ :=
      sessions_learned traffic _ (fun session => session.running = some given)
        (fun _ req _ => req.handed = some given)
        (fun session req answer => after_running) (by simp [opening]) allowed
    exact ⟨past, by simp, own, handed⟩
  | _ => cases returned

theorem handed_attempts {middle : Past Thread} {newer older : Event Thread Req Req.Answer World}
    (governed : Governed env processOf ops subscriptions
      (newer :: (middle ++ older :: earlier)) world) {copy : StoredEvent}
    (handed : newer.request.handed = some doc) (before : older.request.handed = some copy)
    (same : doc.oid = copy.oid) : doc.attempts ≠ copy.attempts := by
  have inBatch := handed_waits governed handed
  obtain ⟨governed, -⟩ := governed.cons_inv
  have alsoInBatch := handed_waits governed.upTo before
  have once := handed_once governed before
  have different : newer.thread ≠ older.thread := by
    intro own
    rw [own] at inBatch
    exact once doc inBatch same
  obtain ⟨read, inHistory, own, stored, oids, claimToken, token, claim⟩ :=
    batch_readBack governed inBatch
  obtain ⟨otherRead, inEarlier, otherOwn, otherStored, otherOids, otherToken, copyToken,
    otherClaim⟩ := batch_readBack governed.before alsoInBatch
  have alsoInHistory : otherRead ∈ middle ++ older :: earlier :=
    mem_append_right _ (.tail _ inEarlier)
  have apart : claimToken ≠ otherToken := by
    intro sameToken
    refine different ((governed_issued governed).apart _ _ claimToken (.inr ⟨oids, claim⟩)
      (.inr ⟨otherOids, ?_⟩))
    rw [sameToken]
    exact claim_kept governed otherClaim
  intro sameAttempts
  have differ : read ≠ otherRead := fun oneRead => different (own ▸ oneRead ▸ otherOwn)
  refine apart (some.inj ?_)
  rw [← token, ← copyToken]
  rcases ages_or_ages governed inHistory alsoInHistory differ stored otherStored same with
    (fewer | ⟨-, sameToken⟩) | (fewer | ⟨-, sameToken⟩)
  · exact absurd fewer (by omega)
  · exact sameToken
  · exact absurd fewer (by omega)
  · exact sameToken.symm

end History

end Euclid.Bus
