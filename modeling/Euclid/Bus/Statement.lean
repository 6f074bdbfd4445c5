/-
This file says what one statement of the event bus does: a read or write of the event
collection, of the dead letters, of the subscriptions, or of what one process remembers.

There is one constructor for each place in the bus that issues a statement, with the
filter and the update of that place. A statement over the events acts on each of them by
itself: `selects` is its filter, `outcome` what becomes of a selected event, and `effect`
the two together, so that the life of one event is the composition of effects. A handler
runs between statements; its call and its return are requests like them, the second
answered from outside.
-/

import Euclid.Program
import Euclid.Bus.Entity

namespace Euclid.Bus

/-! ### The surroundings -/

/-- How the store can fail a statement: it did nothing, or its answer was lost. -/
inductive Outage where
  | refused
  | unanswered
  deriving DecidableEq

inductive StoreError where
  | duplicateKey
  | outage (outage : Outage)
  deriving DecidableEq

/-- What the bus reads from outside: clocks, random identifiers, the JSON library, its
configuration, what the handlers of each process do, and which statements fail. -/
structure Env where
  systemClock : Nat → Time
  steadyClock : Nat → Time
  randomUuid : Nat → String
  randomUuid_injective : Function.Injective randomUuid
  instanceId : Nat → String
  subscriptionCacheTtl : Time
  parse : String → Option Json
  serialize : Json → String
  sameJson : Json → Json → Bool
  handles : Nat → String → Bool
  succeeds : Nat → EventEnvelope → Bool
  outage : Nat → Option Outage

/-- Surroundings in which no statement fails, every process has a handler for every type and
it always succeeds, and the clocks advance by a fixed step from one moment to the next. -/
def Env.stepping (step : Time) : Env where
  systemClock moment := step * moment
  steadyClock moment := step * moment
  randomUuid moment := String.ofList (List.replicate (moment + 1) 'u')
  randomUuid_injective := by
    intro first second same
    have lengths := congrArg String.length same
    simpa using lengths
  instanceId _ := "instance"
  subscriptionCacheTtl := 5 * 1000
  parse _ := none
  serialize _ := ""
  sameJson _ _ := false
  handles _ _ := true
  succeeds _ _ := true
  outage _ := none

/-! ### What a process keeps to itself -/

/-- The subscribers of an event type, and when they were read. -/
structure CacheEntry where
  refreshedAt : Time
  subscribers : List SubscriberRecord

structure Process where
  subscriberCache : List (String × CacheEntry)
  cacheGeneration : Nat

def Process.fresh : Process := ⟨[], 0⟩

/-- The requests a process makes of its own memory. -/
inductive ProcessRequest where
  | cachedSubscribers (eventType : String)
  | rememberSubscribers (eventType : String) (readAt : Time) (generation : Nat)
      (subscribers : List SubscriberRecord)
  | invalidateSubscribers (eventType : String)

/-- A lookup says when it was made and in which generation. -/
@[reducible] def ProcessRequest.Answer : ProcessRequest → Type
  | .cachedSubscribers _ => Time × Nat × Option (List SubscriberRecord)
  | _ => Unit

/-- One locked region over the memory of a process. -/
def ProcessRequest.apply (env : Env) (moment : Nat) (proc : Process) :
    (req : ProcessRequest) → req.Answer × Process
  | .cachedSubscribers eventType =>
    let now := env.steadyClock moment
    let fresh := proc.subscriberCache.find? fun entry =>
      entry.1 = eventType ∧ now - entry.2.refreshedAt < env.subscriptionCacheTtl
    ((now, proc.cacheGeneration, fresh.map fun entry => entry.2.subscribers), proc)
  | .rememberSubscribers eventType readAt generation subscribers =>
    if 0 < env.subscriptionCacheTtl ∧ generation = proc.cacheGeneration then
      ((), { proc with
        subscriberCache := (eventType, ⟨readAt, subscribers⟩) ::
          proc.subscriberCache.filter fun entry => entry.1 ≠ eventType })
    else ((), proc)
  | .invalidateSubscribers eventType =>
    ((), { proc with
      subscriberCache := if eventType = "" then []
        else proc.subscriberCache.filter fun entry => entry.1 ≠ eventType
      cacheGeneration := proc.cacheGeneration + 1 })

/-! ### Event statements -/

/-- The statements over the event collection. The last is the store's own: the index on `expiresAt`
removes what is to be kept no longer. -/
inductive EventStatement where
  | insert (doc : StoredEvent)
  | insertMany (docs : List StoredEvent)
  | findPending (targetModule : String) (limit : Nat)
  | claimPending (oids : List Oid) (claimedBy claimToken : String) (visibleAt : Time)
  | findClaimable (targetModule : String) (now : Time) (limit : Nat)
  | claimClaimable (oids : List Oid) (now : Time) (claimedBy claimToken : String) (visibleAt : Time)
  | findClaimed (oids : List Oid) (claimToken : String) (sorted : Bool)
  | deleteMany (oids : List Oid)
  | requeue (oids : List Oid) (visibleAt : Time)
  | deleteOne (oid : Oid)
  | reap (now : Time)
  | hold (sourceErn : String)
  | findHeld (heldBy : String) (limit : Nat)
  | release (oid : Oid) (visibleAt expiresAt : Time)
  | acknowledge (targetModule : String) (eventIds : List String)
  | expire (now : Time)

open EventStatement

/-- A write answers how many documents it changed, where its caller asks. -/
@[reducible] def EventStatement.Answer : EventStatement → Type
  | .insertMany _ => Nat
  | .findPending .. => List Oid
  | .claimPending .. => Nat
  | .findClaimable .. => List Oid
  | .claimClaimable .. => Nat
  | .findClaimed .. => List StoredEvent
  | .reap _ => Nat
  | .hold _ => Nat
  | .findHeld .. => List StoredEvent
  | .release .. => Nat
  | .acknowledge .. => Nat
  | _ => Unit

namespace StoredEvent

/-- Claimed: leased under a token, once more attempted. -/
def claimed (claimedBy claimToken : String) (visibleAt : Time) (event : StoredEvent) :
    StoredEvent :=
  { event with
    status := .claimed
    claimedBy := claimedBy
    claimToken := some claimToken
    visibleAt := visibleAt
    attempts := event.attempts + 1 }

/-- Put back after its handler failed. -/
def requeued (visibleAt : Time) (event : StoredEvent) : StoredEvent :=
  { event with status := .pending, visibleAt := visibleAt }

/-- Put back after its lease ran out. -/
def reaped (event : StoredEvent) : StoredEvent := { event with status := .pending }

/-- Held back, and no longer expiring. -/
def heldFor (sourceErn : String) (event : StoredEvent) : StoredEvent :=
  { event with status := .held, heldBy := some sourceErn, expiresAt := none }

/-- Let go, with a retention period from now. -/
def released (visibleAt expiresAt : Time) (event : StoredEvent) : StoredEvent :=
  { event with
    status := .pending
    visibleAt := visibleAt
    expiresAt := some expiresAt
    heldBy := none }

/-- Whether the time is over until which an event is kept. A held event has none. -/
def isExpired (now : Time) (event : StoredEvent) : Bool :=
  event.expiresAt.any fun expiresAt => expiresAt ≤ now

/-- The filter of `ClaimEvents`: pending, or claimed by somebody whose lease has run out. -/
def isClaimable (now : Time) (event : StoredEvent) : Bool :=
  decide (event.status = .pending) || decide (event.status = .claimed ∧ event.visibleAt ≤ now)

end StoredEvent

namespace EventStatement

/-- The filter of a statement that writes. -/
def selects : EventStatement → StoredEvent → Bool
  | .claimPending oids _ _ _, event => decide (event.oid ∈ oids ∧ event.status = .pending)
  | .claimClaimable oids now _ _ _, event => decide (event.oid ∈ oids) && event.isClaimable now
  | .deleteMany oids, event => decide (event.oid ∈ oids)
  | .requeue oids _, event => decide (event.oid ∈ oids)
  | .deleteOne oid, event => decide (event.oid = oid)
  | .reap now, event => decide (event.status = .claimed ∧ event.visibleAt ≤ now)
  | .hold sourceErn, event =>
    decide (event.sourceErn = some sourceErn ∧ event.status = .pending)
  | .release oid _ _, event => decide (event.oid = oid)
  | .acknowledge targetModule eventIds, event =>
    decide (event.targetModule = targetModule ∧ event.eventId ∈ eventIds)
  | .expire now, event => event.isExpired now
  | _, _ => false

/-- What becomes of a document the filter selects. -/
def outcome : EventStatement → StoredEvent → Option StoredEvent
  | .claimPending _ claimedBy claimToken visibleAt, event =>
    some (event.claimed claimedBy claimToken visibleAt)
  | .claimClaimable _ _ claimedBy claimToken visibleAt, event =>
    some (event.claimed claimedBy claimToken visibleAt)
  | .deleteMany _, _ => none
  | .requeue _ visibleAt, event => some (event.requeued visibleAt)
  | .deleteOne _, _ => none
  | .reap _, event => some event.reaped
  | .hold sourceErn, event => some (event.heldFor sourceErn)
  | .release _ visibleAt expiresAt, event => some (event.released visibleAt expiresAt)
  | .acknowledge _ _, _ => none
  | .expire _, _ => none
  | _, event => some event

def effect (stmt : EventStatement) (event : StoredEvent) : Option StoredEvent :=
  if stmt.selects event then stmt.outcome event else some event

/-- The documents a statement adds, each under an identity of its own. -/
def added (moment : Nat) : EventStatement → List StoredEvent
  | .insert doc => [{ doc with oid := (moment, 0) }]
  | .insertMany docs =>
    docs.mapIdx fun place doc => { doc with oid := (moment, place) }
  | _ => []

def after (moment : Nat) (stmt : EventStatement) (events : List StoredEvent) : List StoredEvent :=
  events.filterMap stmt.effect ++ stmt.added moment

theorem after_of_unselected {stmt : EventStatement}
    (unselected : ∀ event, stmt.selects event = false) (moment : Nat) (events : List StoredEvent) :
    stmt.after moment events = events ++ stmt.added moment := by
  have same : stmt.effect = some := by
    funext event
    rw [effect, unselected event]
    rfl
  rw [after, same, List.filterMap_some]

/-- How many documents a statement changes or removes. -/
def modified (stmt : EventStatement) (events : List StoredEvent) : Nat :=
  (events.filter fun event =>
    stmt.selects event && decide (stmt.outcome event ≠ some event)).length

end EventStatement

def byCreation (events : List StoredEvent) : List StoredEvent :=
  events.insertionSort fun first second => first.createdAt ≤ second.createdAt

/-- What a statement over the events answers. -/
def EventStatement.answer (events : List StoredEvent) : (stmt : EventStatement) → stmt.Answer
  | .insert _ => ()
  | .insertMany docs => docs.length
  | .findPending targetModule limit =>
    ((byCreation (events.filter fun event => event.targetModule = targetModule ∧
      event.status = .pending)).take limit).map StoredEvent.oid
  | .claimPending oids claimedBy claimToken visibleAt =>
    (claimPending oids claimedBy claimToken visibleAt).modified events
  | .findClaimable targetModule now limit =>
    ((byCreation (events.filter fun event => decide (event.targetModule = targetModule) &&
      event.isClaimable now)).take limit).map StoredEvent.oid
  | .claimClaimable oids now claimedBy claimToken visibleAt =>
    (claimClaimable oids now claimedBy claimToken visibleAt).modified events
  | .findClaimed oids claimToken sorted =>
    let found := events.filter fun event => event.oid ∈ oids ∧ event.claimToken = some claimToken
    if sorted then byCreation found else found
  | .deleteMany _ => ()
  | .requeue _ _ => ()
  | .deleteOne _ => ()
  | .reap now => (reap now).modified events
  | .hold sourceErn => (hold sourceErn).modified events
  | .findHeld heldBy limit =>
    (events.filter fun event => event.heldBy = some heldBy ∧ event.status = .held).take limit
  | .release oid visibleAt expiresAt =>
    (release oid visibleAt expiresAt).modified events
  | .acknowledge targetModule eventIds =>
    (acknowledge targetModule eventIds).modified events
  | .expire _ => ()

/-! ### Subscription statements -/

/-- The statements over the subscription collection. -/
inductive SubscriptionStatement where
  | find (eventType : String)
  | subscribe (moduleType eventType : String)
  | subscribeExternal (target eventType filter accountId mode : String)

@[reducible] def SubscriptionStatement.Answer : SubscriptionStatement → Type
  | .find _ => List Subscription
  | _ => Unit

def SubscriptionStatement.apply (subscriptions : Subscriptions) :
    (stmt : SubscriptionStatement) → stmt.Answer × Subscriptions
  | .find eventType =>
    (subscriptions.documents.filter fun subscription => subscription.eventType = eventType,
      subscriptions)
  | .subscribe moduleType eventType =>
    ((), subscriptions.upsert id moduleType eventType Subscriptions.id_keepsNames)
  | .subscribeExternal target eventType filter accountId mode =>
    ((), subscriptions.upsert (fun subscription => { subscription with
      filter := some filter, accountId := some accountId, mode := some mode })
      target eventType fun _ => ⟨rfl, rfl⟩)

/-! ### The world -/

inductive Req where
  | systemClock
  | randomUuid
  | handle (doc : StoredEvent)
  | handlerReturned (doc : StoredEvent)
  | process (req : ProcessRequest)
  | event (stmt : EventStatement)
  | storeDeadLetter (letter : DeadLetter)
  | subscription (stmt : SubscriptionStatement)

/-- A statement may fail. A handler is called, and returns later: whether it succeeded, if there
is one for the type of the event. An exception it throws is a failure. -/
@[reducible] def Req.Answer : Req → Type
  | .systemClock => Time
  | .randomUuid => String
  | .handle _ => Unit
  | .handlerReturned _ => Option Bool
  | .process req => req.Answer
  | .event stmt => Except StoreError stmt.Answer
  | .storeDeadLetter _ => Except StoreError Unit
  | .subscription stmt => Except StoreError stmt.Answer

/-- The three collections, the memory of every process, and how many requests have been made. -/
structure World where
  events : List StoredEvent
  deadLetters : List DeadLetter
  subscriptions : Subscriptions
  processes : Nat → Process
  moment : Nat

/-- An empty store, and processes that have just started. -/
def World.empty : World := ⟨[], [], .empty, fun _ => .fresh, 0⟩

/-- A statement under the outage of its moment: what it answers, and what it leaves. -/
def underOutage {Answer State : Type} (outage : Option Outage) (before : State)
    (outcome : Except StoreError Answer × State) : Except StoreError Answer × State :=
  match outage with
  | none => outcome
  | some .refused => (.error (.outage .refused), before)
  | some .unanswered => (.error (.outage .unanswered), outcome.2)

theorem underOutage_snd {Answer State : Type} (outage : Option Outage) (before : State)
    (outcome : Except StoreError Answer × State) :
    (underOutage outage before outcome).2 = outcome.2 ∨
      (underOutage outage before outcome).2 = before := by
  unfold underOutage
  split
  · exact .inl rfl
  · exact .inr rfl
  · exact .inl rfl

theorem underOutage_snd_eq {Answer State : Type} (outage : Option Outage) (before : State)
    (outcome : Except StoreError Answer × State) :
    (underOutage outage before outcome).2 = if outage = some .refused then before
      else outcome.2 := by
  unfold underOutage
  split <;> simp

theorem underOutage_of_ok {Answer State : Type} {outage : Option Outage} {before : State}
    {outcome : Except StoreError Answer × State} {value : Answer}
    (answered : (underOutage outage before outcome).1 = .ok value) :
    underOutage outage before outcome = outcome := by
  unfold underOutage at answered ⊢
  split at answered
  · rfl
  · cases answered
  · cases answered

/-- The dead letters keep each identity once. -/
def storeDeadLetter (letter : DeadLetter) (letters : List DeadLetter) :
    Except StoreError Unit × List DeadLetter :=
  if letters.any fun other => other.event.oid = letter.event.oid then
    (.error .duplicateKey, letters)
  else (.ok (), letters ++ [letter])

/-- One request of one process. Every request is a moment of its own. -/
def machine (env : Env) (proc : Nat) : Machine Req Req.Answer World
  | .systemClock, world =>
    (env.systemClock world.moment, { world with moment := world.moment + 1 })
  | .randomUuid, world =>
    (env.randomUuid world.moment, { world with moment := world.moment + 1 })
  | .handle _, world => ((), { world with moment := world.moment + 1 })
  | .handlerReturned doc, world =>
    (if env.handles proc doc.eventType then
        some (env.succeeds world.moment (doc.envelope env.parse))
      else none,
      { world with moment := world.moment + 1 })
  | .process req, world =>
    let outcome := req.apply env world.moment (world.processes proc)
    (outcome.1, { world with
      processes := Function.update world.processes proc outcome.2
      moment := world.moment + 1 })
  | .event stmt, world =>
    let outcome := underOutage (env.outage world.moment) world.events
      (.ok (stmt.answer world.events), stmt.after world.moment world.events)
    (outcome.1, { world with events := outcome.2, moment := world.moment + 1 })
  | .storeDeadLetter letter, world =>
    let outcome := underOutage (env.outage world.moment) world.deadLetters
      (storeDeadLetter letter world.deadLetters)
    (outcome.1, { world with deadLetters := outcome.2, moment := world.moment + 1 })
  | .subscription stmt, world =>
    let applied := stmt.apply world.subscriptions
    let outcome := underOutage (env.outage world.moment) world.subscriptions
      (.ok applied.1, applied.2)
    (outcome.1, { world with subscriptions := outcome.2, moment := world.moment + 1 })

section Machine

variable (env : Env) (proc : Nat) (world : World)

@[simp] theorem machine_moment (req : Req) :
    (machine env proc req world).2.moment = world.moment + 1 := by
  cases req <;> rfl

theorem machine_events (stmt : EventStatement) : (machine env proc (.event stmt) world).2.events =
        stmt.after world.moment world.events ∨
      (machine env proc (.event stmt) world).2.events = world.events :=
  underOutage_snd _ _ _

theorem machine_event_ok {stmt : EventStatement} {value : stmt.Answer}
    (answered : (machine env proc (.event stmt) world).1 = .ok value) :
    value = stmt.answer world.events ∧
      (machine env proc (.event stmt) world).2.events = stmt.after world.moment world.events := by
  have certain : underOutage (env.outage world.moment) world.events
      (.ok (stmt.answer world.events), stmt.after world.moment world.events) =
        (.ok (stmt.answer world.events), stmt.after world.moment world.events) :=
    underOutage_of_ok answered
  have answers : (Except.ok (stmt.answer world.events) : Except StoreError _) = .ok value :=
    (congrArg Prod.fst certain).symm.trans answered
  exact ⟨(Except.ok.inj answers).symm, congrArg Prod.snd certain⟩

variable {letter : DeadLetter}

theorem machine_deadLetters (req : Req) (stored : letter ∈ world.deadLetters) :
    letter ∈ (machine env proc req world).2.deadLetters := by
  cases req with
  | storeDeadLetter other =>
    have kept : letter ∈ (storeDeadLetter other world.deadLetters).2 := by
      unfold storeDeadLetter
      split
      · exact stored
      · exact List.mem_append_left _ stored
    show letter ∈ (underOutage (env.outage world.moment) world.deadLetters
      (storeDeadLetter other world.deadLetters)).2
    rcases underOutage_snd (env.outage world.moment) world.deadLetters
      (storeDeadLetter other world.deadLetters) with after | after
    · rw [after]
      exact kept
    · rw [after]
      exact stored
  | _ => exact stored

theorem machine_storeDeadLetter_ok
    (answered : (machine env proc (.storeDeadLetter letter) world).1 = .ok ()) :
    letter ∈ (machine env proc (.storeDeadLetter letter) world).2.deadLetters := by
  have certain : underOutage (env.outage world.moment) world.deadLetters
      (storeDeadLetter letter world.deadLetters) = storeDeadLetter letter world.deadLetters :=
    underOutage_of_ok answered
  have answers : (storeDeadLetter letter world.deadLetters).1 = .ok () :=
    (congrArg Prod.fst certain).symm.trans answered
  have after : (machine env proc (.storeDeadLetter letter) world).2.deadLetters =
      (storeDeadLetter letter world.deadLetters).2 := congrArg Prod.snd certain
  rw [after]
  unfold storeDeadLetter at answers ⊢
  split at answers
  · cases answers
  · rw [if_neg ‹_›]
    exact List.mem_append_right _ (.head _)

end Machine

end Euclid.Bus
