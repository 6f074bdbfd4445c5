/-
This file says what the operations of the event bus have in common when many of them run
at once, in one process or in several.

`Traffic` lists the operations and `traffic` is the discipline all of them follow: a claim
spends the identifier its own call drew, under a lease counted from the clock it read; what
is handed to a handler was read back under that claim; only what a handler accepted is
deleted, only what was buried as a dead letter is removed for it, only what failed is put
back; a release touches what its page showed as held.
-/

import Euclid.Bus.Effect
import Euclid.Bus.EventBus

namespace Euclid.Bus

open Program Discipline List

/-! ### Operations and threads -/

/-- The operations of the bus, with their arguments, and the passes of the store. -/
inductive Traffic where
  | single (eventType : String) (payload : Json) (sourceModule : String) (delivery : Delivery)
  | batch (eventType : String) (entries : List (Json × Delivery)) (sourceModule : String)
  | module (moduleType eventType : String)
  | client (subscriber eventType : String) (filter : List (String × Json))
      (accountId : String) (mode : DeliveryMode)
  | poll (moduleType : String)
  | claim (subscriber : String) (maxEvents : Int) (visibility : Time)
  | ack (subscriber : String) (eventIds : List String)
  | sweep
  | hold (sourceErn : String)
  | release (heldBy : String) (pages : Nat)
  | expiry

/-- The operation as a program of one process. It answers the figure its caller is told, if it
ends. -/
def Traffic.program (env : Env) (proc : Nat) : Traffic → Op Empty (Option Int)
  | .single eventType payload sourceModule delivery => do
    publish env eventType payload sourceModule delivery
    pure (some 0)
  | .batch eventType entries sourceModule => do
    publishBatch env eventType entries sourceModule
    pure (some 0)
  | .module moduleType eventType => do
    subscribe moduleType eventType
    pure (some 0)
  | .client subscriber eventType filter accountId mode => do
    subscribeExternal env subscriber eventType filter accountId mode
    pure (some 0)
  | .poll moduleType => do
    pollOnce (env.instanceId proc) moduleType
    pure (some 0)
  | .claim subscriber maxEvents visibility => do
    let claimed ← claimEvents env subscriber maxEvents visibility
    pure (some (claimed.length : Int))
  | .ack subscriber eventIds => do
    let acknowledged ← ackEvents subscriber eventIds
    pure (some (acknowledged : Int))
  | .sweep => do
    reap
    pure (some 0)
  | .hold sourceErn => do
    let held ← holdDeliveries sourceErn
    pure (some held)
  | .release heldBy pages => releaseHeld heldBy pages
  | .expiry => do
    expire
    pure (some 0)

section Pool

variable {Thread : Type} [DecidableEq Thread]

/-- Threads that each run one operation in the process they belong to. -/
abbrev Traffic.pool (env : Env) (processOf : Thread → Nat) (origin : World)
    (ops : Thread → Traffic) : Pool Thread Req Req.Answer Empty (Option Int) World :=
  Pool.start origin fun tid => (ops tid).program env (processOf tid)

/-- Every thread talks to the store through its own process. -/
abbrev machines (env : Env) (processOf : Thread → Nat) : Thread → Machine Req Req.Answer World :=
  fun tid => machine env (processOf tid)

end Pool

/-- A store in which somebody may have subscribed and nothing has been published, and processes
that have just started. -/
def World.opened (subscriptions : Subscriptions) : World :=
  ⟨[], [], subscriptions, fun _ => .fresh, 0⟩

/-- A store with one subscriber, a module. -/
def Subscriptions.ofModule (moduleType eventType : String) : Subscriptions :=
  Subscriptions.empty.upsert id moduleType eventType id_keepsNames

/-! ### Sessions -/

/-- What a thread has asked and been told. `claim` is the claim it has made, `batch` what it has
read back of it and not handed on, `running` the event a handler has; what the handlers
returned is `acknowledged`, `failed` or, after the last attempt, `exhausted`. `page` is what
the last page of a release showed and has not been released. -/
structure Session where
  traffic : Traffic
  readAt : Option Time
  token : Option String
  candidates : List Oid
  claim : Option (List Oid × String)
  readBack : Bool
  batch : List StoredEvent
  running : Option StoredEvent
  acknowledged : List Oid
  failed : List Oid
  exhausted : List StoredEvent
  buried : List Oid
  page : List Oid
  lastPage : Bool

/-- A thread that has not asked anything. -/
def Session.opening (traffic : Traffic) : Session :=
  ⟨traffic, none, none, [], none, false, [], none, [], [], [], [], [], false⟩

/-- An event as it is published: never claimed. -/
structure StoredEvent.IsFresh (event : StoredEvent) : Prop where
  unclaimed : event.claimToken = none
  unattempted : event.attempts = 0
  waiting : event.status ≠ .claimed

namespace Session

open StoredEvent

/-- The statements over the events a thread may issue. -/
def allowsEvent (session : Session) : EventStatement → Prop
  | .insert doc => doc.IsFresh
  | .insertMany docs => ∀ doc ∈ docs, doc.IsFresh
  | .findPending _ _ => True
  | .claimPending _ _ claimToken visibleAt =>
    session.token = some claimToken ∧ session.claim = none ∧
      ∃ now, session.readAt = some now ∧ visibleAt = now + kVisibilityTimeout
  | .findClaimable targetModule _ _ => isExternal targetModule
  | .claimClaimable oids now _ claimToken _ =>
    session.token = some claimToken ∧ session.claim = none ∧ session.readAt = some now ∧
      oids = session.candidates
  | .findClaimed oids claimToken _ =>
    session.claim = some (oids, claimToken) ∧ session.readBack = false
  | .deleteMany oids => ∀ oid ∈ oids, oid ∈ session.acknowledged
  | .requeue oids visibleAt =>
    (∀ oid ∈ oids, oid ∈ session.failed) ∧ session.readAt = some visibleAt
  | .deleteOne oid => oid ∈ session.buried
  | .reap now => session.readAt = some now
  | .hold sourceErn => session.traffic = .hold sourceErn
  | .findHeld heldBy _ => ∃ pages, session.traffic = .release heldBy pages
  | .release oid visibleAt _ => oid ∈ session.page ∧ session.readAt = some visibleAt
  | .acknowledge targetModule _ => isExternal targetModule
  | .expire now => session.readAt = some now

/-- The requests a thread may make. -/
def allows (session : Session) : Req → Prop
  | .event stmt => session.allowsEvent stmt
  | .handle doc => doc ∈ session.batch
  | .handlerReturned doc => session.running = some doc
  | .storeDeadLetter letter => letter.event ∈ session.exhausted
  | _ => True

/-- What a thread may expect to be answered: a list names an event once. -/
def expects : (req : Req) → req.Answer → Prop
  | .event (.findClaimed ..), .ok docs => (docs.map oid).Nodup
  | .event (.findHeld ..), .ok docs => (docs.map oid).Nodup
  | _, _ => True

/-- A statement that failed may have had its effect. -/
def afterEvent (session : Session) :
    (stmt : EventStatement) → Except StoreError stmt.Answer → Session
  | .findClaimable .., .ok oids => { session with candidates := oids }
  | .claimPending oids _ claimToken _, _ => { session with claim := some (oids, claimToken) }
  | .claimClaimable oids _ _ claimToken _, _ => { session with claim := some (oids, claimToken) }
  | .findClaimed _ _ sorted, .ok docs =>
    { session with readBack := true, batch := if sorted then [] else docs }
  | .findHeld _ limit, .ok docs =>
    { session with
      page := docs.map oid
      lastPage := decide (docs.length < limit) }
  | .release oid _ _, .ok _ => { session with page := session.page.filter fun other => other ≠ oid }
  | _, _ => session

/-- A handler that is not there has accepted. One that failed leaves the event to be tried again,
or to be buried after its last attempt. -/
def afterHandler (session : Session) (doc : StoredEvent) (ok : Option Bool) : Session :=
  if ok ≠ some false then
    { session with running := none, acknowledged := session.acknowledged ++ [doc.oid] }
  else if kMaxAttempts ≤ doc.attempts then
    { session with running := none, exhausted := session.exhausted ++ [doc] }
  else { session with running := none, failed := session.failed ++ [doc.oid] }

def after (session : Session) : (req : Req) → req.Answer → Session
  | .systemClock, now => { session with readAt := some now }
  | .randomUuid, identifier => { session with token := some identifier }
  | .handle doc, _ =>
    { session with
      batch := session.batch.filter fun other => other.oid ≠ doc.oid
      running := some doc }
  | .handlerReturned doc, ok => session.afterHandler doc ok
  | .storeDeadLetter letter, .ok _ =>
    { session with buried := session.buried ++ [letter.event.oid] }
  | .event stmt, answer => session.afterEvent stmt answer
  | _, _ => session

end Session

/-! ### What a session learns -/

/-- What a handler was given and what it returned, if a request was its return. -/
def Req.handlerResult : (req : Req) → req.Answer → Option (StoredEvent × Option Bool)
  | .handlerReturned doc, ok => some (doc, ok)
  | _, _ => none

def Req.letterStored : (req : Req) → req.Answer → Option DeadLetter
  | .storeDeadLetter letter, .ok _ => some letter
  | _, _ => none

namespace Session

variable {session : Session} {req : Req} {answer : req.Answer} {oid : Oid}

theorem afterHandler_acknowledged {doc : StoredEvent} {ok : Option Bool}
    (mem : oid ∈ (session.afterHandler doc ok).acknowledged) :
    oid ∈ session.acknowledged ∨ ok ≠ some false ∧ doc.oid = oid := by
  unfold afterHandler at mem
  split at mem
  · rename_i accepted
    rcases mem_append.mp mem with old | new
    · exact .inl old
    · exact .inr ⟨accepted, (mem_singleton.mp new).symm⟩
  · split at mem <;> exact .inl mem

theorem after_acknowledged (mem : oid ∈ (session.after req answer).acknowledged) :
    oid ∈ session.acknowledged ∨ ∃ doc ok, req.handlerResult answer = some (doc, ok) ∧
      ok ≠ some false ∧ doc.oid = oid := by
  cases req with
  | handlerReturned doc =>
    refine (afterHandler_acknowledged mem).imp id fun accepted => ?_
    exact ⟨doc, answer, rfl, accepted⟩
  | event stmt => cases stmt <;> cases answer <;> exact .inl mem
  | storeDeadLetter letter => cases answer <;> exact .inl mem
  | _ => exact .inl mem

theorem after_buried (mem : oid ∈ (session.after req answer).buried) :
    oid ∈ session.buried ∨ ∃ letter, req.letterStored answer = some letter ∧
      letter.event.oid = oid := by
  cases req with
  | handlerReturned doc =>
    have same : (session.afterHandler doc answer).buried = session.buried := by
      unfold afterHandler
      split
      · rfl
      · split <;> rfl
    exact .inl (same ▸ mem)
  | event stmt => cases stmt <;> cases answer <;> exact .inl mem
  | storeDeadLetter letter =>
    cases answer with
    | error fault => exact .inl mem
    | ok stored =>
      rcases mem_append.mp mem with old | new
      · exact .inl old
      · exact .inr ⟨letter, rfl, (mem_singleton.mp new).symm⟩
  | _ => exact .inl mem

end Session

/-- What every thread of the bus keeps to. -/
def traffic : Discipline Req Req.Answer Session where
  allows := Session.allows
  expects := fun _ => Session.expects
  after := Session.after

/-! ### What the store answers -/

section Answers

variable {env : Env} {proc : Nat} {world : World}

theorem findClaimed_nodup (identified : Identified world.events world.moment) {oids : List Oid}
    {claimToken : String} {sorted : Bool} :
    (((EventStatement.findClaimed oids claimToken sorted).answer world.events).map
      StoredEvent.oid).Nodup := by
  have found := identified.distinct.sublist ((filter_sublist
    (p := fun event : StoredEvent => decide (event.oid ∈ oids ∧ event.claimToken = some claimToken))
    (l := world.events)).map StoredEvent.oid)
  unfold EventStatement.answer
  dsimp only
  split
  · exact ((perm_insertionSort _ _).map _).nodup_iff.mpr found
  · exact found

theorem machine_letterStored {req : Req} {letter : DeadLetter}
    (stored : req.letterStored (machine env proc req world).1 = some letter) :
    letter ∈ (machine env proc req world).2.deadLetters := by
  cases req with
  | storeDeadLetter other =>
    cases answered : (machine env proc (.storeDeadLetter other) world).1 with
    | error fault =>
      rw [answered] at stored
      cases stored
    | ok value =>
      rw [answered] at stored
      obtain rfl := Option.some.inj stored
      exact machine_storeDeadLetter_ok env proc world answered
  | _ => cases stored

theorem machine_expected (identified : Identified world.events world.moment) (req : Req) :
    Session.expects req (machine env proc req world).1 := by
  cases req with
  | event stmt =>
    cases answered : (machine env proc (.event stmt) world).1 with
    | error error => cases stmt <;> trivial
    | ok value =>
      obtain ⟨rfl, -⟩ := machine_event_ok env proc world answered
      cases stmt with
      | findClaimed oids claimToken sorted => exact findClaimed_nodup identified
      | findHeld heldBy limit =>
        exact identified.distinct.sublist (((take_sublist _ _).trans
          filter_sublist).map StoredEvent.oid)
      | _ => trivial
  | _ => trivial

end Answers

end Euclid.Bus
