/-
This file translates the repository of the queue service: every operation of
`MongoEqsRepository` that moves messages or counters, as a program over the statements of
`Euclid/Eqs/Statement.lean`.

A statement that fails throws, and each operation has the `try` the source gives it. What
an operation has done to its local variables when it throws matters where its `catch` goes
on with them, so such a `try` is a program whose fault is the local state. Waking the
waiters of a long poll, logging and the monitoring timers are not modelled. Floating-point
priority weights are rationals.
-/

import Mathlib.Data.List.Dedup
import Mathlib.Data.Rat.Floor
import Mathlib.Data.String.Basic
import Euclid.Eqs.Statement

namespace Euclid.Eqs

open Program

abbrev Op (Fault Result : Type) := Program Req Req.Answer Fault Result

variable {Fault State Result : Type}

/-! ### Requests as operations -/

def readSystemClock : Op Fault Time := issue Req.systemClock

def readSteadyClock : Op Fault Time := issue Req.steadyClock

def createRandomUuid : Op Fault String := issue Req.randomUuid

/-- A locked region over this process's memory. -/
def locally (req : ProcessRequest) : Op Fault req.Answer :=
  issue (Req.process req)

/-- A statement over the queue collection, thrown when it fails. -/
def onQueues (stmt : QueueStatement) : Op StoreError stmt.Answer :=
  (issue (Req.queue stmt) : Op StoreError (Except StoreError stmt.Answer)) >>= ofExcept

/-- A statement over the message collection, thrown when it fails. -/
def onMessages (stmt : MessageStatement) : Op StoreError stmt.Answer :=
  (issue (Req.message stmt) : Op StoreError (Except StoreError stmt.Answer)) >>= ofExcept

/-- Throw the local state a `catch` goes on with. -/
def orThrow (operation : Op StoreError Result) (state : State) : Op State Result :=
  operation.catching fun _ => .raise state

/-- A `catch` that logs the failure and answers something else. -/
def orAnswer (operation : Op StoreError Result) (fallback : Result) : Op Fault Result :=
  operation.catching fun _ => .done fallback

/-! ### Queue configuration -/

/-- `queueConfig`: from this process's cache while fresh, from the queue's row otherwise. -/
def queueConfig (ern : String) : Op StoreError (Option QueueConfig) := do
  let cached : Time × Option QueueConfig ← locally (.cachedConfig ern)
  match cached.2 with
  | some config => pure (some config)
  | none => do
    let read : Option QueueConfig ← onQueues (.readConfig ern)
    match read with
    | none => pure none
    | some config => do
      locally (.rememberConfig ern config cached.1)
      pure (some config)

/-- `forgetQueueConfig`: both caches. -/
def forgetQueueConfig (ern : String) : Op Fault Unit := do
  locally (.forgetConfig ern)
  locally (.forgetQueue ern)

/-- `findQueueByErn`: a failure reads as an absence. -/
def findQueueByErn (ern : String) : Op Fault (Option Queue) :=
  orAnswer (onQueues (.findByErn ern)) none

/-- `upsertQueue`: write the whole queue under its key, then forget what was cached of it. -/
def upsertQueue (queue : Queue) : Op StoreError Queue := do
  let stored : Queue ← onQueues (.upsert queue)
  forgetQueueConfig stored.ern
  pure stored

/-! ### Counters -/

/-- The counters in the order `writeCounters` clamps them. -/
def clampOrder : List Counters.Field := [.available, .invisible, .delayed, .size]

/-- `writeCounters`: one increment, then a clamp for each counter something was taken from. -/
def writeCounters (queueErn : String) (pending : Counters) : Op Fault Unit :=
  orAnswer (do
    onQueues (.increment queueErn pending)
    forEach clampOrder fun field =>
      onlyIf (pending.get field < 0) (onQueues (.clamp queueErn field)))
    ()

/-- `flushPendingCounters`: take out what is due, then write it outside the lock. -/
def flushPendingCounters (force : Bool) : Op Fault Unit := do
  let due : List (String × Counters) ← locally (.takePending force)
  forEach due fun entry => writeCounters entry.1 entry.2

def flushQueueCounters : Op Fault Unit := flushPendingCounters true

/-- `adjustQueueCounters`: hold the adjustment back, and write out what has waited enough. -/
def adjustQueueCounters (queueErn : String) (delta : Counters) : Op Fault Unit :=
  if delta = 0 then pure ()
  else do
    locally (.addPending queueErn delta)
    flushPendingCounters false

/-- What a delete takes out of the counters: the counter the message's status puts it in. -/
def deletedDelta (msg : Message) : Counters :=
  match msg.status with
  | .invisible => ⟨0, -1, 0, -msg.size⟩
  | .delayed => ⟨0, 0, -1, -msg.size⟩
  | _ => ⟨-1, 0, 0, -msg.size⟩

def adjustForDeleted (msg : Message) : Op Fault Unit :=
  adjustQueueCounters msg.queueErn (deletedDelta msg)

/-! ### Sending -/

/-- `MessageDraft`: what a caller asks to be sent. -/
structure MessageDraft where
  messageId : String
  ern : String
  body : String
  attributes : Attributes
  systemAttributes : Attributes
  priority : MessagePriority

/-- The message a draft becomes, before its queue's configuration is looked at. -/
def MessageDraft.message (env : Env) (queueErn : String) (created modified : Time)
    (draft : MessageDraft) : Message :=
  { Message.blank with
    ern := draft.ern
    queueErn := queueErn
    body := draft.body
    size := draft.body.utf8ByteSize
    messageId := draft.messageId
    contentType := env.contentTypeOf draft.body
    attributes := draft.attributes
    systemAttributes := draft.systemAttributes
    status := .available
    priority := draft.priority
    created := created
    modified := modified }

/-- A queue that has been given no retention period follows the installation's. -/
def retention (env : Env) (config : QueueConfig) : Int :=
  if config.retentionPeriod > 0 then config.retentionPeriod
  else env.defaultRetentionPeriod

/-- A message sent under a configuration, with the two clock readings that takes. -/
def Message.under (env : Env) (config : QueueConfig) (delayedAt expiresFrom : Time)
    (msg : Message) : Message :=
  { msg with
    visibilityTimeout := config.visibility
    status := if config.delay > 0 then .delayed else msg.status
    delayUntil := if config.delay > 0 then delayedAt + 1000 * config.delay else msg.delayUntil
    expiresAt := expiresFrom + 1000 * retention env config }

/-- The fields a queue's configuration decides, with the clock readings that takes. -/
def applyConfig (env : Env) (msg : Message) : Option QueueConfig → Op Fault Message
  | none => pure msg
  | some config =>
    if config.delay > 0 then do
      let delayedAt ← readSystemClock
      let expiresFrom ← readSystemClock
      pure (msg.under env config delayedAt expiresFrom)
    else do
      let expiresFrom ← readSystemClock
      pure (msg.under env config 0 expiresFrom)

/-- The counter a send adds to, for so many messages of so many bytes. -/
def sentDelta (delayed : Bool) (msgs bytes : Int) : Counters :=
  if delayed then ⟨0, 0, msgs, bytes⟩ else ⟨msgs, 0, 0, bytes⟩

/-- `sendMessage`. Whatever the store throws, the message as built so far is the answer. -/
def sendMessage (env : Env) (queueErn : String) (draft : MessageDraft) : Op Fault Message := do
  let created ← readSystemClock
  let modified ← readSystemClock
  let msg := draft.message env queueErn created modified
  catching (do
    let config ← orThrow (queueConfig queueErn) msg
    let msg ← applyConfig env msg config
    let stamp ← readSystemClock
    orThrow (onMessages (.insert { msg.toDocument with created := stamp, modified := stamp })) msg
    adjustQueueCounters queueErn (sentDelta (msg.status = .delayed) 1 msg.size)
    pure msg) pure

def MessageDraft.batched (env : Env) (queueErn : String)
    (config : Option QueueConfig) (now : Time) (draft : MessageDraft) : Message :=
  match config with
  | none => draft.message env queueErn now now
  | some config => (draft.message env queueErn now now).under env config now now

/-- `sendMessages`: one configuration, one clock reading and one insert for the whole batch. -/
def sendMessages (env : Env) (queueErn : String) (drafts : List MessageDraft) :
    Op Fault (List Message) :=
  if drafts = [] then pure []
  else
    orAnswer (do
      let config ← queueConfig queueErn
      let now ← readSystemClock
      let msgs := drafts.map (MessageDraft.batched env queueErn config now)
      let inserted : Nat ← onMessages (.insertMany (msgs.map Message.toDocument))
      onlyIf (0 < inserted) (adjustQueueCounters queueErn
        (sentDelta ((msgs.head?.map Message.status) = some .delayed) inserted
          (msgs.map Message.size).sum))
      pure msgs) []

/-! ### Receiving -/

def priorityOrder : List MessagePriority := [.high, .medium, .low]

/-- The largest-remainder targets: every share rounded down, and one more for the tiers with
the largest remainders until the count is used up. -/
def targetCounts (maxCount : Int) (share : MessagePriority → Share) (priority : MessagePriority) :
    Int :=
  let byRemainder := priorityOrder.insertionSort fun first second =>
    (share second).remainder ≤ (share first).remainder
  let allocated := (priorityOrder.map fun tier => (share tier).whole).sum
  (share priority).whole +
    if priority ∈ byRemainder.take (maxCount - allocated).toNat then 1 else 0

/-- Hand a shortfall to the tiers that have messages to spare, in order. -/
def spillShortfall (available : MessagePriority → Int) :
    List MessagePriority → Int → (MessagePriority → Int) → MessagePriority → Int
  | [], _, taken => taken
  | priority :: rest, shortfall, taken =>
    if shortfall > 0 then
      let spare := min (available priority - taken priority) shortfall
      spillShortfall available rest (shortfall - spare)
        (Function.update taken priority (taken priority + spare))
    else taken

/-- `ComputeReceiveCounts`: how many messages of each tier one receive goes for. -/
def computeReceiveCounts (maxCount : Int) (available : MessagePriority → Int)
    (shares : Option (MessagePriority → Share)) : MessagePriority → Int :=
  if maxCount ≤ 0 then fun _ => 0
  else
    match shares with
    | none => fun _ => 0
    | some share =>
      let target := targetCounts maxCount share
      let taken := fun priority => min (target priority) (available priority)
      let shortfall := (priorityOrder.map fun priority => target priority - taken priority).sum
      spillShortfall available priorityOrder shortfall taken

def kClaimPasses : Nat := 4

/-- What one call of `receiveMessages` has read of its queue and was asked for. -/
structure ReceiveCall where
  queueErn : String
  maxCount : Int
  maxReceiveCount : Int
  queueVisibility : Int
  deadLetterQueueErn : String

/-- The call under the configuration it read, if any. -/
def ReceiveCall.under (queueErn : String) (maxCount : Int) : Option QueueConfig → ReceiveCall
  | none => ⟨queueErn, maxCount, 0, 0, ""⟩
  | some config =>
    ⟨queueErn, maxCount, config.maxReceiveCount, config.visibility, config.deadLetterQueueErn⟩

/-- The local variables of `receiveMessages` its `catch` goes on with. -/
structure Receive where
  result : List Message
  claimedCount : Int
  movedToDlq : Int
  movedBytes : Int

def Receive.start : Receive := ⟨[], 0, 0, 0⟩

section

variable (call : ReceiveCall) (msg : Message)

/-- A message received too often goes to the dead letter queue, where there is one. -/
def ReceiveCall.isDead : Bool :=
  decide (call.deadLetterQueueErn ≠ "") && decide (call.maxReceiveCount < msg.receivedCount)

/-- A message still carrying another timeout than its queue's, and not holding on to it. -/
def ReceiveCall.isStale : Bool :=
  !(msg.visibilityPinned || decide (call.queueVisibility ≤ 0) ||
    decide (msg.visibilityTimeout = call.queueVisibility))

def ReceiveCall.handOut : Message :=
  if call.isStale msg then msg.leased call.queueVisibility else msg

end

/-- `settleCounters`: what the call has done to its queue and to the dead letter queue. -/
def settleCounters (call : ReceiveCall) (receive : Receive) : Op Fault Unit := do
  adjustQueueCounters call.queueErn
    ⟨-receive.claimedCount, receive.claimedCount - receive.movedToDlq, 0, -receive.movedBytes⟩
  onlyIf (receive.movedToDlq > 0)
    (adjustQueueCounters call.deadLetterQueueErn ⟨receive.movedToDlq, 0, 0, receive.movedBytes⟩)

/-- A fresh receipt handle for each candidate. -/
def drawHandles : List Oid → Op Fault (List String)
  | [] => pure []
  | _ :: rest => do
    let handle ← createRandomUuid
    let handles ← drawHandles rest
    pure (handle :: handles)

/-- `update_each`: every claim on its own, and how many of them took. -/
def updateEach : List (Oid × String) → Op StoreError Nat
  | [] => pure 0
  | claim :: rest => do
    let modified : Nat ← onMessages (.claim claim.1 claim.2)
    let more ← updateEach rest
    pure (modified + more)

/-- What was read back, in the order the candidates were found. -/
def inOrder (cands : List Oid) (found : List Message) : List Message :=
  cands.filterMap fun oid => found.find? fun msg => msg.oid = oid

/-- Move the dead messages of a pass to the dead letter queue, in one write. -/
def moveDead (call : ReceiveCall) (dead : List Message) (receive : Receive) : Op Receive Receive :=
  if dead = [] then pure receive
  else do
    orThrow (onMessages (.moveToDeadLetter (dead.map Message.oid) call.deadLetterQueueErn
      call.queueErn)) receive
    pure { receive with movedToDlq := receive.movedToDlq + dead.length }

/-- Lease the messages that carry another timeout for the queue's visibility, as far as it has 32
bits, in one write. -/
def leaseStale (call : ReceiveCall) (handles : List String) (stale : List Message)
    (receive : Receive) : Op Receive Unit :=
  onlyIf (stale ≠ [])
    (orThrow (onMessages (.setLease (stale.map Message.oid) handles (int32 call.queueVisibility)))
      receive)

/-- What becomes of the messages a pass has won: the dead ones move, the others are leased for
the queue's visibility and handed out. -/
def deliver (call : ReceiveCall) (handles : List String) (won : List Message)
    (receive : Receive) : Op Receive Receive := do
  let dead := won.filter call.isDead
  let delivered := won.filter fun msg => !call.isDead msg
  let moved ← moveDead call dead { receive with
    claimedCount := receive.claimedCount + won.length
    movedBytes := receive.movedBytes + (dead.map Message.size).sum }
  leaseStale call handles (delivered.filter call.isStale) moved
  pure { moved with result := moved.result ++ delivered.map call.handOut }

/-- The passes over one tier. A pass finds candidates, claims each under a handle of its own,
and reads back what it won; one that won nothing is spent, and no candidates end the tier. -/
def claimPasses (call : ReceiveCall) (priority : MessagePriority) (target : Int) :
    Nat → Int → Receive → Op Receive Receive
  | 0, _, receive => pure receive
  | passes + 1, taken, receive =>
    if taken < target ∧ (receive.result.length : Int) < call.maxCount then do
      let want := min (target - taken) (call.maxCount - receive.result.length)
      let cands : List Oid ← orThrow
        (onMessages (.findAvailable call.queueErn priority want.toNat)) receive
      if cands = [] then pure receive
      else do
        let handles ← drawHandles cands
        let modified ← orThrow (updateEach (cands.zip handles)) receive
        if modified = 0 then claimPasses call priority target passes taken receive
        else do
          let found : List Message ← orThrow (onMessages (.readBack cands handles)) receive
          let settled ← deliver call handles (inOrder cands found) receive
          claimPasses call priority target passes
            (taken + (settled.result.length - receive.result.length)) settled
    else pure receive

/-- How many messages of each tier are waiting, counted no further than they can matter. -/
def countTiers (call : ReceiveCall) (receive : Receive) :
    List MessagePriority → (MessagePriority → Int) → Op Receive (MessagePriority → Int)
  | [], counts => pure counts
  | priority :: rest, counts => do
    let waiting : Int ← orThrow
      (onMessages (.countAvailable call.queueErn priority call.maxCount)) receive
    countTiers call receive rest (Function.update counts priority waiting)

/-- The tiers in turn, each towards its target. -/
def claimTiers (call : ReceiveCall) (takeCounts : MessagePriority → Int) :
    List MessagePriority → Receive → Op Receive Receive
  | [], receive => pure receive
  | priority :: rest, receive => do
    let receive ← claimPasses call priority (takeCounts priority) kClaimPasses 0 receive
    claimTiers call takeCounts rest receive

def look (env : Env) (call : ReceiveCall) (receive : Receive) : Op Receive Receive := do
  let available ← countTiers call receive priorityOrder fun _ => 0
  claimTiers call (computeReceiveCounts call.maxCount available (env.shares call.maxCount))
    priorityOrder receive

/-- The long poll: look, and look again until there is something or the deadline has passed.
`polls` bounds how often the wait ends before it. -/
def poll (env : Env) (call : ReceiveCall) (waitTime : Int) (deadline : Time) :
    Nat → Receive → Op Receive Receive
  | 0, receive => look env call receive
  | polls + 1, receive => do
    let receive ← look env call receive
    if receive.result ≠ [] ∨ waitTime ≤ 0 then pure receive
    else do
      let now ← readSteadyClock
      if deadline ≤ now then pure receive
      else poll env call waitTime deadline polls receive

/-- `receiveMessages`. Whatever it threw at, the counters are settled for what was claimed and
the messages collected so far are handed out; only the read of the configuration, before the
`try`, is thrown to the caller. -/
def receiveMessages (env : Env) (queueErn : String) (maxCount waitTime : Int)
    (polls : Nat) : Op StoreError (List Message) := do
  let start ← readSteadyClock
  let config ← queueConfig queueErn
  let call := ReceiveCall.under queueErn maxCount config
  let receive ← (poll env call waitTime (start + 1000 * waitTime) polls .start).catching pure
  settleCounters call receive
  pure receive.result

/-! ### Changing, deleting and moving -/

/-- `findMessageByName`: a failure reads as an absence. -/
def findMessageByName (messageId : String) : Op Fault (Option Message) :=
  orAnswer (onMessages (.findById messageId)) none

/-- `upsertMessage`: write the whole message under its identifier, or insert it. -/
def upsertMessage (msg : Message) : Op Fault Unit :=
  orAnswer (onMessages (.upsert msg)) ()

def updateMessageBody (env : Env) (messageId body : String) : Op Fault (Option Message) :=
  orAnswer (do
    let before : Option Message ←
      onMessages (.rewriteBody messageId body (env.contentTypeOf body))
    match before with
    | none => pure none
    | some previous => do
      adjustQueueCounters previous.queueErn ⟨0, 0, 0, body.utf8ByteSize - previous.size⟩
      findMessageByName messageId) none

/-- `deleteMessage`: by receipt handle. -/
def deleteMessage (receiptHandle : String) : Op Fault Unit :=
  orAnswer (do
    let deleted : Option Message ← onMessages (.deleteByHandle receiptHandle)
    match deleted with
    | none => pure ()
    | some msg => adjustForDeleted msg) ()

def deleteMessageById (messageId : String) : Op Fault Unit :=
  orAnswer (do
    let deleted : Option Message ← onMessages (.deleteById messageId)
    match deleted with
    | none => pure ()
    | some msg => adjustForDeleted msg) ()

/-- `redriveMessages`: measure what is about to move, move it, and move the counters after it.
Every message counts as one that was available. -/
def redriveMessages (deadLetterQueueErn targetQueueErn sourceQueueErn : String) : Op Fault Nat :=
  if deadLetterQueueErn = "" ∨ targetQueueErn = "" then pure 0
  else
    orAnswer (do
      let movedBytes : Int ← onMessages (.sumSizes deadLetterQueueErn sourceQueueErn)
      let moved : Nat ←
        onMessages (.redrive deadLetterQueueErn targetQueueErn sourceQueueErn)
      onlyIf (0 < moved) (do
        adjustQueueCounters deadLetterQueueErn ⟨-moved, 0, 0, -movedBytes⟩
        adjustQueueCounters targetQueueErn ⟨moved, 0, 0, movedBytes⟩)
      pure moved) 0

/-- `purgeQueue`: pending adjustments go out before the counters are zeroed. -/
def purgeQueue (queueErn : String) : Op Fault Unit := do
  flushPendingCounters true
  orAnswer (do
    let _ : Nat ← onMessages (.deleteQueue queueErn)
    onQueues (.zero queueErn)) ()

/-! ### The sweep -/

/-- The local variables of `resetExpiredMessages`: the queue of every message put back. -/
abbrev ResetErns := List String

/-- Put back each message of a snapshot that has run out, and note the queue of each that
was. -/
def resetEach (reset : Oid → Op StoreError Nat) (runOut : Message → Bool) :
    List Message → ResetErns → Op StoreError ResetErns
  | [], erns => pure erns
  | msg :: rest, erns =>
    if runOut msg then do
      let modified ← reset msg.oid
      if modified = 0 then resetEach reset runOut rest erns
      else resetEach reset runOut rest (erns ++ [msg.queueErn])
    else resetEach reset runOut rest erns

/-- One adjustment for each queue that had messages put back, in the order of the queues'
names. -/
def adjustEach (delta : Int → Counters) (erns : ResetErns) : Op Fault Unit :=
  forEach (erns.dedup.insertionSort (· ≤ ·)) fun queueErn =>
    adjustQueueCounters queueErn (delta (erns.count queueErn))

/-- `resetExpiredMessages`: judge what each cursor read against one clock reading, put back
what has run out, and adjust the counters when both sweeps are through. -/
def resetExpiredMessages : Op Fault Unit :=
  orAnswer (do
    let now ← readSystemClock
    let claimed : List Message ← onMessages (.findByStatus .invisible)
    let reset ← resetEach (fun oid => onMessages (.resetInvisible oid))
      (fun msg => decide (msg.leaseEnd ≤ now)) claimed []
    let delayed : List Message ← onMessages (.findByStatus .delayed)
    let released ← resetEach (fun oid => onMessages (.resetDelayed oid))
      (fun msg => decide (msg.delayUntil ≤ now)) delayed []
    adjustEach (fun count => ⟨count, -count, 0, 0⟩) reset
    adjustEach (fun count => ⟨count, 0, -count, 0⟩) released) ()

end Euclid.Eqs
