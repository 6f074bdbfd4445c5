/-
This file says what one statement of the queue service does: a read or write of the message
collection, of the queue collection, or of the state one process keeps for itself.

Each statement is atomic, and there is one constructor for each place in the repository
that issues one, with the filter and the update of that place. The state a process keeps
(counter adjustments not yet written, what it remembers about queues) is reached under a
lock, so a locked region is a request like any other. `machine` puts the three families
together over one `World`.
-/

import Euclid.Program
import Euclid.Collection
import Euclid.Eqs.Entity

namespace Euclid.Eqs

open Collection Message

/-! ### The surroundings -/

/-- What answers the collections: a server, or the store the service carries itself. -/
inductive Backend where
  | mongo
  | memory

/-- What a tier is due of a receive: its part of the count rounded down to a `long`, and what the
rounding leaves. -/
structure Share where
  whole : Int
  remainder : Rat

/-- What the service reads from outside: two clocks, random identifiers, the content sniffer
and its configuration. Clocks and identifiers are streams, indexed by the moment they are
read at. The configured weights are doubles, and `shares` is what they make of a count: nothing
if their sum is not positive. -/
structure Env where
  systemClock : Nat → Time
  steadyClock : Nat → Time
  randomUuid : Nat → String
  randomUuid_injective : Function.Injective randomUuid
  randomUuid_ne_empty : ∀ moment, randomUuid moment ≠ ""
  region : String
  contentTypeOf : String → String
  defaultRetentionPeriod : Int
  queueCacheTtl : Time
  shares : Int → Option (MessagePriority → Share)
  backend : Backend

theorem stepping_injective :
    Function.Injective fun moment : ℕ => String.ofList (List.replicate (moment + 1) 'u') := by
  intro first second same
  have lengths := congrArg String.length same
  simpa using lengths

/-- Surroundings as an installation has them out of the box, except that the clocks advance by
a fixed step from one moment to the next and the identifiers grow longer. -/
def Env.stepping (backend : Backend) (step : Time) : Env where
  systemClock moment := step * moment
  steadyClock moment := step * moment
  randomUuid moment := String.ofList (List.replicate (moment + 1) 'u')
  randomUuid_injective := stepping_injective
  randomUuid_ne_empty := by
    intro moment empty
    have length := congrArg String.length empty
    simp at length
  region := "eu-central-1"
  contentTypeOf := fun _ => "text/plain"
  defaultRetentionPeriod := 4 * 24 * 60 * 60
  queueCacheTtl := 5 * 1000
  shares maxCount :=
    let weight : MessagePriority → Rat
      | .high => 4
      | .medium => 2
      | .low => 1
    some fun tier =>
      let raw := maxCount * weight tier / 7
      ⟨raw.floor, raw - raw.floor⟩
  backend := backend

/-- Why a statement failed. A refused one did nothing, an unanswered one took effect and its
answer was lost. -/
inductive StoreError where
  | duplicateKey
  | refused
  | unanswered

/-! ### What a process keeps to itself -/

/-- Counter adjustments waiting to be written, and since when. -/
structure PendingCounters where
  counters : Counters
  since : Time

/-- A queue's configuration, and when it was read. -/
structure CachedConfig where
  config : QueueConfig
  readAt : Time

/-- A queue record held for a while. -/
structure CachedQueue where
  queue : Queue
  expiresAt : Time

/-- The memory of one process of the pool. -/
structure Process where
  pendingCounters : List (String × PendingCounters)
  queueConfigs : List (String × CachedConfig)
  cachedQueues : List (String × CachedQueue)
  cacheGeneration : Nat

def Process.fresh : Process := ⟨[], [], [], 0⟩

/-- `kCounterFlushInterval`, in milliseconds. -/
def kCounterFlushInterval : Time := 250

/-- `kQueueConfigTtl`, in milliseconds. -/
def kQueueConfigTtl : Time := 30 * 1000

/-- How many records the queue cache holds before it makes room. -/
def kQueueCacheEntries : Nat := 4096

/-- What a process owes a queue's stored counters. -/
def Process.owed (proc : Process) (queueErn : String) : Counters :=
  (proc.pendingCounters.map fun entry =>
    if entry.1 = queueErn then entry.2.counters else 0).sum

/-- The locked part of `adjustQueueCounters`: the clock is read when nothing was waiting. -/
def addPending (now : Time) (queueErn : String) (delta : Counters) :
    List (String × PendingCounters) → List (String × PendingCounters)
  | [] => [(queueErn, ⟨delta, now⟩)]
  | entry :: rest =>
    if entry.1 = queueErn then
      (queueErn, ⟨entry.2.counters + delta,
        if entry.2.counters = 0 then now else entry.2.since⟩) :: rest
    else entry :: addPending now queueErn delta rest

/-- What `flushPendingCounters` takes out to write. -/
def PendingCounters.isDue (now : Time) (force : Bool) (pending : PendingCounters) : Bool :=
  force || decide (now - pending.since ≥ kCounterFlushInterval)

/-- The requests a process makes of its own memory. -/
inductive ProcessRequest where
  | cachedConfig (ern : String)
  | rememberConfig (ern : String) (config : QueueConfig) (readAt : Time)
  | forgetConfig (ern : String)
  | cachedQueue (ern : String)
  | rememberQueue (ern : String) (queue : Queue) (generation : Nat) (readAt : Time)
  | forgetQueue (ern : String)
  | addPending (ern : String) (delta : Counters)
  | takePending (force : Bool)
  deriving DecidableEq

/-- A lookup that has to be loaded says when it was made and, for the queue cache, in which
generation. -/
@[reducible] def ProcessRequest.Answer : ProcessRequest → Type
  | .cachedConfig _ => Time × Option QueueConfig
  | .cachedQueue _ => Time × Nat × Option Queue
  | .takePending _ => List (String × Counters)
  | _ => Unit

/-- Make room in the queue cache: what has expired goes first, the whole of it second. -/
def evict (now : Time) (entries : List (String × CachedQueue)) : List (String × CachedQueue) :=
  let kept := entries.filter fun entry => now < entry.2.expiresAt
  if kQueueCacheEntries ≤ kept.length then [] else kept

/-- One locked region over the memory of a process. -/
def ProcessRequest.apply (env : Env) (moment : Nat) (proc : Process) :
    (req : ProcessRequest) → req.Answer × Process
  | .cachedConfig ern =>
    let now := env.steadyClock moment
    let fresh := proc.queueConfigs.find? fun entry =>
      entry.1 = ern ∧ now - entry.2.readAt < kQueueConfigTtl
    ((now, fresh.map fun entry => entry.2.config), proc)
  | .rememberConfig ern config readAt =>
    ((), { proc with
      queueConfigs := (ern, ⟨config, readAt⟩) ::
        proc.queueConfigs.filter fun entry => entry.1 ≠ ern })
  | .forgetConfig ern =>
    ((), { proc with
      queueConfigs := proc.queueConfigs.filter fun entry => entry.1 ≠ ern })
  | .cachedQueue ern =>
    let now := env.steadyClock moment
    let fresh := proc.cachedQueues.find? fun entry =>
      entry.1 = ern ∧ now < entry.2.expiresAt
    ((now, proc.cacheGeneration, fresh.map fun entry => entry.2.queue), proc)
  | .rememberQueue ern queue generation readAt =>
    if generation ≠ proc.cacheGeneration then ((), proc)
    else
      let room := if kQueueCacheEntries ≤ proc.cachedQueues.length
        then evict readAt proc.cachedQueues else proc.cachedQueues
      ((), { proc with
        cachedQueues := (ern, ⟨queue, readAt + env.queueCacheTtl⟩) ::
          room.filter fun entry => entry.1 ≠ ern })
  | .forgetQueue ern =>
    ((), { proc with
      cachedQueues := proc.cachedQueues.filter fun entry => entry.1 ≠ ern
      cacheGeneration := proc.cacheGeneration + 1 })
  | .addPending ern delta =>
    ((), { proc with
      pendingCounters := Eqs.addPending (env.steadyClock moment) ern delta proc.pendingCounters })
  | .takePending force =>
    let due := fun entry : String × PendingCounters =>
      entry.2.isDue (env.steadyClock moment) force
    ((proc.pendingCounters.filter due).map fun entry => (entry.1, entry.2.counters),
      { proc with pendingCounters := proc.pendingCounters.filter fun entry => !due entry })

/-! ### Queue statements -/

/-- The statements over the queue collection. -/
inductive QueueStatement where
  | readConfig (ern : String)
  | findByErn (ern : String)
  | upsert (queue : Queue)
  | increment (ern : String) (delta : Counters)
  | clamp (ern : String) (field : Counters.Field)
  | zero (ern : String)
  deriving DecidableEq

@[reducible] def QueueStatement.Answer : QueueStatement → Type
  | .readConfig _ => Option QueueConfig
  | .findByErn _ => Option Queue
  | .upsert _ => Queue
  | _ => Unit

/-- What `$set` with a whole queue leaves: the fields of `toDocument`, counters included, over
a document that keeps its identity and its creation date. -/
def Queue.replacedBy (stored queue : Queue) (now : Time) : Queue :=
  { queue with oid := stored.oid, created := stored.created, modified := now }

/-- Both unique indexes of the collection, for a queue written under its own key. -/
def Queue.clashes (queues : List Queue) (queue : Queue) : Bool :=
  queues.any fun other => decide (other.key ≠ queue.key) && decide (other.ern = queue.ern)

/-- One statement over the queue collection. -/
def QueueStatement.apply (now : Time) (moment : Nat) (queues : List Queue) :
    (stmt : QueueStatement) → Except StoreError stmt.Answer × List Queue
  | .readConfig ern =>
    (.ok ((queues.find? fun queue => queue.ern = ern).map Queue.config), queues)
  | .findByErn ern => (.ok (queues.find? fun queue => queue.ern = ern), queues)
  | .upsert queue =>
    if queue.clashes queues then (.error .duplicateKey, queues)
    else
      match queues.find? fun stored => stored.key = queue.key with
      | some stored =>
        (.ok (stored.replacedBy queue now), updateFirst (fun stored => stored.key = queue.key)
            (fun stored => stored.replacedBy queue now) queues)
      | none =>
        let inserted : Queue := { queue with oid := (moment, 0), modified := now }
        (.ok inserted, queues ++ [inserted])
  | .increment ern delta =>
    (.ok (), updateFirst (fun queue => queue.ern = ern)
      (fun queue => { queue with counters := queue.counters + delta, modified := now }) queues)
  | .clamp ern field =>
    (.ok (), updateFirst (fun queue => queue.ern = ern ∧ queue.counters.get field < 0)
      (fun queue => { queue with counters := queue.counters.set field 0 }) queues)
  | .zero ern =>
    (.ok (), updateFirst (fun queue => queue.ern = ern)
      (fun queue => { queue with counters := 0, modified := now }) queues)

/-! ### Message statements -/

/-- The statements over the message collection. `expire` is the store's own: the index on
`expiresAt` removes what has run out. -/
inductive MessageStatement where
  | insert (doc : Message)
  | insertMany (docs : List Message)
  | countAvailable (queueErn : String) (priority : MessagePriority) (limit : Int)
  | findAvailable (queueErn : String) (priority : MessagePriority) (limit : Nat)
  | claim (oid : Oid) (receiptHandle : String)
  | readBack (oids : List Oid) (handles : List String)
  | moveToDeadLetter (oids : List Oid) (deadLetterQueueErn queueErn : String)
  | setLease (oids : List Oid) (handles : List String) (visibility : Int)
  | findByStatus (status : MessageStatus)
  | resetInvisible (oid : Oid)
  | resetDelayed (oid : Oid)
  | findById (messageId : String)
  | upsert (msg : Message)
  | rewriteBody (messageId body contentType : String)
  | deleteByHandle (receiptHandle : String)
  | deleteById (messageId : String)
  | deleteQueue (queueErn : String)
  | sumSizes (deadLetterQueueErn sourceQueueErn : String)
  | redrive (deadLetterQueueErn targetQueueErn sourceQueueErn : String)
  | expire
  deriving DecidableEq

/-- A write answers how many documents it modified, where its caller asks. -/
@[reducible] def MessageStatement.Answer : MessageStatement → Type
  | .insertMany _ => Nat
  | .countAvailable .. => Int
  | .findAvailable .. => List Oid
  | .claim .. => Nat
  | .readBack .. => List Message
  | .findByStatus _ => List Message
  | .resetInvisible _ => Nat
  | .resetDelayed _ => Nat
  | .findById _ => Option Message
  | .rewriteBody .. => Option Message
  | .deleteByHandle _ => Option Message
  | .deleteById _ => Option Message
  | .deleteQueue _ => Nat
  | .sumSizes .. => Int
  | .redrive .. => Nat
  | _ => Unit

namespace Message

/-- Claimed by a receive: under its handle, once more received, as of now. -/
def claimed (receiptHandle : String) (now : Time) (msg : Message) : Message :=
  { msg with
    status := .invisible
    receiptHandle := receiptHandle
    receivedCount := msg.receivedCount + 1
    modified := now
    lastReceived := now }

/-- Moved to a dead letter queue, which notes where it came from. -/
def deadLettered (deadLetterQueueErn queueErn : String) (now : Time) (msg : Message) : Message :=
  { msg with
    queueErn := deadLetterQueueErn
    sourceQueueErn := queueErn
    status := .available
    receivedCount := 0
    receiptHandle := ""
    modified := now }

/-- Leased for the queue's visibility. -/
def leased (visibility : Int) (msg : Message) : Message :=
  { msg with visibilityTimeout := visibility }

/-- Put back by the sweep after its lease. -/
def resetFromInvisible (now : Time) (msg : Message) : Message :=
  { msg with status := .available, receiptHandle := "", modified := now, lastReceived := now }

/-- Made available by the sweep after its delay. -/
def resetFromDelayed (now : Time) (msg : Message) : Message :=
  { msg with status := .available, modified := now }

/-- What `$set` with a whole message leaves: every field of `ToDocument` over a document that
keeps its identity and its creation date. -/
def replacedBy (written : Message) (now : Time) (stored : Message) : Message :=
  { written with oid := stored.oid, created := stored.created, modified := now }

/-- Given another body: body, size and content type move together. -/
def rewritten (body contentType : String) (now : Time) (msg : Message) : Message :=
  { msg with
    body := body
    size := body.utf8ByteSize
    contentType := contentType
    modified := now }

/-- Sent back from a dead letter queue, as though it were new. -/
def redriven (targetQueueErn : String) (now : Time) (msg : Message) : Message :=
  { msg with
    queueErn := targetQueueErn
    sourceQueueErn := ""
    status := .available
    receivedCount := 0
    receiptHandle := ""
    modified := now }

/-- The filter of a redrive: the queue, and the origin where one is named. -/
def isRedriven (deadLetterQueueErn sourceQueueErn : String) (msg : Message) : Bool :=
  decide (msg.queueErn = deadLetterQueueErn) &&
    (decide (sourceQueueErn = "") || decide (msg.sourceQueueErn = sourceQueueErn))

/-- The filter of a receive's count and find. -/
def isWaiting (queueErn : String) (priority : MessagePriority) (msg : Message) : Bool :=
  decide (msg.queueErn = queueErn) && decide (msg.status = .available) &&
    decide (msg.priority = priority)

end Message

/-- Insert documents one by one, from a place in the batch on: whether all of them went in, and
what is stored. A document is refused for its message identifier, or because the store will
not have it. The server goes on with the next one, the carried store stops there. -/
def insertAll (backend : Backend) (refuses : Nat → Bool) (moment : Nat) :
    Nat → List Message → List Message → Bool × List Message
  | _, [], stored => (true, stored)
  | place, doc :: rest, stored =>
    if refuses place || stored.any (fun other => other.messageId = doc.messageId) then
      match backend with
      | .mongo => (false, (insertAll backend refuses moment (place + 1) rest stored).2)
      | .memory => (false, stored)
    else
      insertAll backend refuses moment (place + 1) rest
        (stored ++ [{ doc with oid := (moment, place) }])

theorem insertAll_cons (backend : Backend) (refuses : Nat → Bool) (moment place : Nat)
    (doc : Message) (rest stored : List Message) :
    insertAll backend refuses moment place (doc :: rest) stored =
      if refuses place || stored.any (fun other => other.messageId = doc.messageId) then
        match backend with
        | .mongo => (false, (insertAll backend refuses moment (place + 1) rest stored).2)
        | .memory => (false, stored)
      else
        insertAll backend refuses moment (place + 1) rest
          (stored ++ [{ doc with oid := (moment, place) }]) := by
  cases backend <;> rfl

/-- How many documents an update of the first selected one modified. -/
def modifiedByFirst (selects : Message → Bool) (change : Message → Message)
    (msgs : List Message) : Nat :=
  match msgs.find? selects with
  | some found => if change found = found then 0 else 1
  | none => 0

/-- One statement over the message collection. -/
def MessageStatement.apply (backend : Backend) (now : Time) (moment : Nat) (msgs : List Message) :
    (stmt : MessageStatement) → Except StoreError stmt.Answer × List Message
  | .insert doc =>
    if msgs.any fun other => other.messageId = doc.messageId then
      (.error .duplicateKey, msgs)
    else (.ok (), msgs ++ [{ doc with oid := (moment, 0) }])
  | .insertMany docs =>
    let inserted := insertAll backend (fun _ => false) moment 0 docs msgs
    (if inserted.1 then .ok docs.length else .error .duplicateKey, inserted.2)
  | .countAvailable queueErn priority limit =>
    let waiting : Int := (msgs.filter (isWaiting queueErn priority)).length
    let counted : Int := if limit ≤ 0 then waiting else min waiting limit
    (.ok counted, msgs)
  | .findAvailable queueErn priority limit =>
    (.ok (((msgs.filter (isWaiting queueErn priority)).take limit).map oid), msgs)
  | .claim oid receiptHandle =>
    let selects := fun msg : Message => msg.oid = oid ∧ msg.status = .available
    (.ok (modifiedByFirst (fun msg => selects msg) (claimed receiptHandle now) msgs),
      updateFirst (fun msg => selects msg) (claimed receiptHandle now) msgs)
  | .readBack oids handles =>
    (.ok (msgs.filter fun msg =>
      msg.oid ∈ oids ∧ msg.receiptHandle ∈ handles), msgs)
  | .moveToDeadLetter oids deadLetterQueueErn queueErn =>
    (.ok (), updateAll (fun msg => msg.oid ∈ oids)
      (deadLettered deadLetterQueueErn queueErn now) msgs)
  | .setLease oids handles visibility =>
    (.ok (), updateAll (fun msg => msg.oid ∈ oids ∧ msg.receiptHandle ∈ handles)
      (leased visibility) msgs)
  | .findByStatus status => (.ok (msgs.filter fun msg => msg.status = status), msgs)
  | .resetInvisible oid =>
    let selects := fun msg : Message => msg.oid = oid ∧ msg.status = .invisible
    (.ok (modifiedByFirst (fun msg => selects msg) (resetFromInvisible now) msgs),
      updateFirst (fun msg => selects msg) (resetFromInvisible now) msgs)
  | .resetDelayed oid =>
    let selects := fun msg : Message => msg.oid = oid ∧ msg.status = .delayed
    (.ok (modifiedByFirst (fun msg => selects msg) (resetFromDelayed now) msgs),
      updateFirst (fun msg => selects msg) (resetFromDelayed now) msgs)
  | .findById messageId =>
    (.ok (msgs.find? fun msg => msg.messageId = messageId), msgs)
  | .upsert msg =>
    if msgs.any fun stored => stored.messageId = msg.messageId then
      (.ok (), updateFirst (fun stored => stored.messageId = msg.messageId)
        (replacedBy msg now) msgs)
    else (.ok (), msgs ++ [{ msg with oid := (moment, 0), modified := now }])
  | .rewriteBody messageId body contentType =>
    (.ok (msgs.find? fun msg => msg.messageId = messageId),
      updateFirst (fun msg => msg.messageId = messageId)
        (rewritten body contentType now) msgs)
  | .deleteByHandle receiptHandle =>
    (.ok (msgs.find? fun msg => msg.receiptHandle = receiptHandle),
      msgs.eraseP fun msg => msg.receiptHandle = receiptHandle)
  | .deleteById messageId =>
    (.ok (msgs.find? fun msg => msg.messageId = messageId),
      msgs.eraseP fun msg => msg.messageId = messageId)
  | .deleteQueue queueErn =>
    (.ok (msgs.filter fun msg => msg.queueErn = queueErn).length,
      msgs.filter fun msg => msg.queueErn ≠ queueErn)
  | .sumSizes deadLetterQueueErn sourceQueueErn =>
    (.ok ((msgs.filter
      (isRedriven deadLetterQueueErn sourceQueueErn)).map size).sum, msgs)
  | .redrive deadLetterQueueErn targetQueueErn sourceQueueErn =>
    (.ok (modifiedBy (isRedriven deadLetterQueueErn sourceQueueErn)
        (redriven targetQueueErn now) msgs),
      updateAll (isRedriven deadLetterQueueErn sourceQueueErn)
        (redriven targetQueueErn now) msgs)
  | .expire => (.ok (), msgs.filter fun msg => now < msg.expiresAt)

/-! ### The world -/

inductive Req where
  | systemClock
  | steadyClock
  | randomUuid
  | process (req : ProcessRequest)
  | queue (stmt : QueueStatement)
  | message (stmt : MessageStatement)
  deriving DecidableEq

/-- A statement may fail. A clock, an identifier and a process's own memory do not. -/
@[reducible] def Req.Answer : Req → Type
  | .systemClock => Time
  | .steadyClock => Time
  | .randomUuid => String
  | .process req => req.Answer
  | .queue stmt => Except StoreError stmt.Answer
  | .message stmt => Except StoreError stmt.Answer

/-- The two collections, the memory of every process, and how many requests have been made. -/
structure World where
  messages : List Message
  queues : List Queue
  processes : Nat → Process
  moment : Nat

/-- A store with one queue and nothing in it, and processes that have just started. -/
def World.oneQueue : World where
  messages := []
  queues := [{ Queue.blank with ern := "orders", name := "orders" }]
  processes := fun _ => .fresh
  moment := 1

/-- One request of one process. Every request is a moment of its own. -/
def machine (env : Env) (proc : Nat) : Machine Req Req.Answer World
  | .systemClock, world =>
    (env.systemClock world.moment, { world with moment := world.moment + 1 })
  | .steadyClock, world =>
    (env.steadyClock world.moment, { world with moment := world.moment + 1 })
  | .randomUuid, world =>
    (env.randomUuid world.moment, { world with moment := world.moment + 1 })
  | .process req, world =>
    let outcome := req.apply env world.moment (world.processes proc)
    (outcome.1, { world with
      processes := Function.update world.processes proc outcome.2
      moment := world.moment + 1 })
  | .queue stmt, world =>
    let outcome := stmt.apply (env.systemClock world.moment) world.moment world.queues
    (outcome.1, { world with queues := outcome.2, moment := world.moment + 1 })
  | .message stmt, world =>
    let outcome := stmt.apply env.backend (env.systemClock world.moment) world.moment world.messages
    (outcome.1, { world with messages := outcome.2, moment := world.moment + 1 })

section Machine

variable (env : Env) (proc : Nat) (world : World)

@[simp] theorem machine_moment (req : Req) :
    (machine env proc req world).2.moment = world.moment + 1 := by
  cases req <;> rfl

end Machine

end Euclid.Eqs
