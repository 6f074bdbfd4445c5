/-
This file is the event bus: publishing, the poll loop of a module, claiming and
acknowledging by an external subscriber, the reaper, and holding and releasing.

Each function issues the statements of the source's function in its order, and catches
what it catches: nothing here ever raises a fault to its caller. What a publish pushes to
connected sessions and whom it wakes is left out, since neither touches the store.
-/

import Euclid.Bus.Statement

namespace Euclid.Bus

open Program

variable {Fault Result : Type}

/-- A piece of the bus that may fail with a fault. -/
abbrev Op (Fault Result : Type) := Program Req Req.Answer Fault Result

/-! ### Statements -/

def readSystemClock : Op Fault Time := issue Req.systemClock

def createRandomUuid : Op Fault String := issue Req.randomUuid

def onEvents (stmt : EventStatement) : Op StoreError stmt.Answer := do
  ofExcept (← issue (Req.event stmt))

def onSubscriptions (stmt : SubscriptionStatement) : Op StoreError stmt.Answer := do
  ofExcept (← issue (Req.subscription stmt))

/-- A `try` whose `catch` logs and answers `fallback`. -/
def orAnswer (operation : Op StoreError Result) (fallback : Result) : Op Fault Result :=
  operation.catching fun _ => .done fallback

/-! ### Subscriptions -/

/-- `Subscribe`, without the handler, which is the environment's. -/
def subscribe (moduleType eventType : String) : Op Fault Unit :=
  orAnswer (do
    onSubscriptions (.subscribe moduleType eventType)
    issue (Req.process (.invalidateSubscribers eventType))) ()

def subscribeExternal (env : Env) (subscriber eventType : String)
    (filter : List (String × Json)) (accountId : String) (mode : DeliveryMode) : Op Fault Unit :=
  orAnswer (do
    onSubscriptions (.subscribeExternal (externalTarget subscriber) eventType
      (env.serialize (.object filter)) accountId mode.toString)
    issue (Req.process (.invalidateSubscribers eventType))) ()

/-- `subscribersOf`: from this process's cache, or read and remembered. -/
def subscribersOf (env : Env) (eventType : String) : Op Fault (List SubscriberRecord) := do
  let (now, generation, cached) ← issue (Req.process (.cachedSubscribers eventType))
  match cached with
  | some subscribers => pure subscribers
  | none =>
    orAnswer (do
      let docs : List Subscription ← onSubscriptions (.find eventType)
      let subscribers := docs.map (Subscription.record env.parse)
      issue (Req.process (.rememberSubscribers eventType now generation subscribers))
      pure subscribers) []

/-! ### Publishing -/

/-- The payload has every member the subscriber asked for. -/
def SubscriberRecord.matchesFilter (sameJson : Json → Json → Bool)
    (payload : List (String × Json)) (record : SubscriberRecord) : Bool :=
  record.filter.all fun expected =>
    match Json.ifContains expected.1 payload with
    | some actual => sameJson actual expected.2
    | none => false

/-- An event that names an account is for subscribers of that account. -/
def SubscriberRecord.matchesAccount (payload : List (String × Json))
    (record : SubscriberRecord) : Bool :=
  match Json.ifContains "accountId" payload with
  | some (.string account) =>
    decide (record.accountId = "") || decide (record.accountId = cString account)
  | _ => true

/-- `appendStatus`: an envelope as written, held or not. -/
def StoredEvent.withStatus (heldBy : String) (expiresAt : Time) (event : StoredEvent) :
    StoredEvent :=
  if heldBy = "" then
    { event with status := .pending, heldBy := none, expiresAt := some expiresAt }
  else { event with status := .held, heldBy := some heldBy, expiresAt := none }

section

variable (eventType sourceModule payload : String) (delivery : Delivery) (now : Time)
  (target eventId : String)

/-- The document of a module's event. -/
def moduleEvent : StoredEvent :=
  StoredEvent.withStatus delivery.heldBy (now + kModuleRetention)
    { oid := (0, 0)
      eventId := eventId
      eventType := eventType
      sourceModule := sourceModule
      targetModule := target
      targetErn := some delivery.targetErn
      sourceErn := some delivery.sourceErn
      messageId := some delivery.messageId
      payload := payload
      claimedBy := ""
      claimToken := none
      attempts := 0
      visibleAt := now
      createdAt := now
      status := .pending
      heldBy := none
      expiresAt := none }

/-- The document of an external subscriber's event, which carries no address. -/
def externalEvent : StoredEvent :=
  StoredEvent.withStatus delivery.heldBy (now + kExternalRetention)
    { oid := (0, 0)
      eventId := eventId
      eventType := eventType
      sourceModule := sourceModule
      targetModule := target
      targetErn := none
      sourceErn := none
      messageId := none
      payload := payload
      claimedBy := ""
      claimToken := none
      attempts := 0
      visibleAt := now
      createdAt := now
      status := .pending
      heldBy := none
      expiresAt := none }

end

/-- The elements of a `std::set` of names, in its order. -/
def nameSet (names : List String) : List String := names.dedup.insertionSort (· ≤ ·)

/-- The targets of the subscribers a check accepts. -/
def targetsOf (accepts : SubscriberRecord → Bool) (subscribers : List SubscriberRecord) :
    List String :=
  nameSet ((subscribers.filter accepts).map SubscriberRecord.target)

/-- What decides whether an external subscriber is meant by an event. -/
def SubscriberRecord.isMeant (env : Env) (payload : Json) (record : SubscriberRecord) : Bool :=
  record.external && record.matchesFilter env.sameJson payload.members &&
    record.matchesAccount payload.members

def publish (env : Env) (eventType : String) (payload : Json)
    (sourceModule : String) (delivery : Delivery) : Op Fault Unit :=
  orAnswer (do
    let subscribers ← subscribersOf env eventType
    let targets := targetsOf (fun record => !record.external) subscribers
    let externalTargets := targetsOf (fun record =>
      record.isMeant env payload && decide (record.mode = .durable)) subscribers
    let liveTargets := targetsOf (fun record =>
      record.isMeant env payload && decide (record.mode = .live)) subscribers
    onlyIf (targets ≠ [] ∨ externalTargets ≠ [] ∨ liveTargets ≠ []) do
      let now ← readSystemClock
      let payloadJson := env.serialize payload
      forEach targets fun target => do
        let eventId ← createRandomUuid
        onEvents
          (.insert (moduleEvent eventType sourceModule payloadJson delivery now target eventId))
      forEach externalTargets fun target => do
        let eventId ← createRandomUuid
        onEvents (.insert
          (externalEvent eventType sourceModule payloadJson delivery now target eventId))) ()

/-- The envelopes a batch writes for one payload: one for each module, and one for each
external subscriber that stores what it is meant by. -/
def envelopesOf (env : Env) (eventType sourceModule : String) (now : Time)
    (targets : List String) (subscribers : List SubscriberRecord) (entry : Json × Delivery) :
    Op Fault (List StoredEvent) := do
  let payloadJson := env.serialize entry.1
  let forModules ← mapEach targets fun target => do
    let eventId ← createRandomUuid
    pure (moduleEvent eventType sourceModule payloadJson entry.2 now target eventId)
  let meant := subscribers.filter fun record =>
    record.isMeant env entry.1 && decide (record.mode ≠ .live)
  let forExternals ← mapEach meant fun record => do
    let eventId ← createRandomUuid
    pure (externalEvent eventType sourceModule payloadJson entry.2 now record.target eventId)
  pure (forModules ++ forExternals)

def publishBatch (env : Env) (eventType : String)
    (batch : List (Json × Delivery)) (sourceModule : String) : Op Fault Unit :=
  onlyIf (batch ≠ []) (orAnswer (do
    let known ← subscribersOf env eventType
    let targets := targetsOf (fun record => !record.external) known
    let externalTargets := targetsOf (fun record => record.external) known
    onlyIf (targets ≠ [] ∨ externalTargets ≠ []) do
      let subscribers ← subscribersOf env eventType
      let now ← readSystemClock
      let docs ← mapEach batch (envelopesOf env eventType sourceModule now targets subscribers)
      onlyIf (docs.flatten ≠ []) do
        let _ ← onEvents (.insertMany docs.flatten)
        pure ()) ())

/-! ### External subscribers -/

/-- `ClaimEvents`. The time it stamps on the subscription is left out. -/
def claimEvents (env : Env) (subscriber : String) (maxEvents : Int)
    (visibility : Time) : Op Fault (List EventEnvelope) :=
  orAnswer (do
    let now ← readSystemClock
    let limit := (max 1 (min maxEvents kBatchSize)).toNat
    let candidateIds : List Oid ←
      onEvents (.findClaimable (externalTarget subscriber) now limit)
    if candidateIds = [] then pure []
    else
      let claimToken ← createRandomUuid
      let modified : Nat ←
        onEvents (.claimClaimable candidateIds now subscriber claimToken (now + visibility))
      if modified = 0 then pure []
      else
        let mine : List StoredEvent ← onEvents (.findClaimed candidateIds claimToken true)
        pure (mine.map (StoredEvent.envelope env.parse))) []

def ackEvents (subscriber : String) (eventIds : List String) : Op Fault Nat :=
  if eventIds = [] then pure 0
  else orAnswer (onEvents (.acknowledge (externalTarget subscriber) eventIds)) 0

/-! ### Holding and releasing -/

/-- `HoldDeliveries`: how many were held, or -1. -/
def holdDeliveries (sourceErn : String) : Op Fault Int :=
  if sourceErn = "" then pure 0
  else
    orAnswer (do
      let held : Nat ← onEvents (.hold sourceErn)
      pure (held : Int)) (-1)

/-- `kPage` of `ReleaseHeld`. -/
def kReleasePage : Nat := 1000

/-- How long an event is kept from its release on. -/
def retentionOf (event : StoredEvent) : Time :=
  if isExternal event.targetModule then kExternalRetention else kModuleRetention

/-- `update_each` of a release: one update for each event of a page. All of them are made, and
one that failed fails the page. -/
def releaseEach (now : Time) : List StoredEvent → Op StoreError Nat
  | [] => pure 0
  | event :: rest => do
    let answer ← issue (Req.event (.release event.oid now (now + retentionOf event)))
    let released ← releaseEach now rest
    let modified : Nat ← ofExcept answer
    pure (modified + released)

/-- The loop of `ReleaseHeld`, page after page. A page that is not full is the last. A loop that
has not ended after so many pages has no result. -/
def releasePages (heldBy : String) (now : Time) : Nat → Int → Op StoreError (Option Int)
  | 0, _ => pure none
  | pages + 1, released => do
    let page : List StoredEvent ← onEvents (.findHeld heldBy kReleasePage)
    if page = [] then pure (some released)
    else
      let modified ← releaseEach now page
      if page.length < kReleasePage then pure (some (released + modified))
      else releasePages heldBy now pages (released + modified)

/-- `ReleaseHeld`: how many were released, or -1. -/
def releaseHeld (heldBy : String) (pages : Nat) : Op Fault (Option Int) :=
  if heldBy = "" then pure (some 0)
  else
    orAnswer (do
      let now ← readSystemClock
      releasePages heldBy now pages 0) (some (-1))

/-! ### Modules -/

def moveToDlq (doc : StoredEvent) (reason : String) : Op Fault Unit :=
  orAnswer (do
    ofExcept (← issue (Req.storeDeadLetter ⟨doc, reason⟩))
    onEvents (.deleteOne doc.oid)) ()

/-- The part of `pollOnce` that hands each event of a batch to its handler, and sorts them by
what to do with them: those to delete, and those to put back. An event nobody here handles is
deleted as though it had been. -/
def handleEach : List StoredEvent → List Oid → List Oid → Op Fault (List Oid × List Oid)
  | [], acked, requeue => pure (acked, requeue)
  | doc :: rest, acked, requeue => do
    issue (Req.handle doc)
    let ok : Option Bool ← issue (Req.handlerReturned doc)
    if ok ≠ some false then handleEach rest (acked ++ [doc.oid]) requeue
    else if kMaxAttempts ≤ doc.attempts then do
      moveToDlq doc "max attempts exceeded"
      handleEach rest acked requeue
    else handleEach rest acked (requeue ++ [doc.oid])

def pollOnce (instanceId moduleType : String) : Op Fault Unit :=
  orAnswer (do
    let now ← readSystemClock
    let candidateIds : List Oid ← onEvents (.findPending moduleType kBatchSize)
    onlyIf (candidateIds ≠ []) do
      let claimToken ← createRandomUuid
      let modified : Nat ←
        onEvents (.claimPending candidateIds instanceId claimToken (now + kVisibilityTimeout))
      onlyIf (modified ≠ 0) do
        let batch : List StoredEvent ← onEvents (.findClaimed candidateIds claimToken false)
        let (acked, requeue) ← handleEach batch [] []
        onlyIf (acked ≠ []) (onEvents (.deleteMany acked))
        onlyIf (requeue ≠ []) do
          let again ← readSystemClock
          onEvents (.requeue requeue again)) ()

def reap : Op Fault Unit :=
  orAnswer (do
    let now ← readSystemClock
    let _ ← onEvents (.reap now)
    pure ()) ()

/-- A pass of the store over the index on `expiresAt`. -/
def expire : Op Fault Unit :=
  orAnswer (do
    let now ← readSystemClock
    onEvents (.expire now)) ()

end Euclid.Bus
