/-
This file translates the handlers of `EqsServer` that define queues, accept messages and
change single messages: what each checks, in which order, with which refusal, and which
repository operations it runs.

A request arrives authenticated or not, and parsed: the caller and the fields of the body
are arguments. What the resource gate answers for a queue is an argument too. What a
handler publishes or counts after its operations has run is left out.
-/

import Euclid.Eqs.Repository

namespace Euclid.Eqs

open Program

variable {Fault : Type}

/-! ### Names and answers -/

/-- `createErn`, for a resource of a namespace. -/
def createErn (env : Env) (service accountId nameSpace resourceId : String) : String :=
  "ern:" ++ service ++ ":" ++ env.region ++ ":" ++ accountId ++ ":" ++ nameSpace ++ ":" ++
    resourceId

def createEqsQueueErn (env : Env) (accountId nameSpace name : String) : String :=
  createErn env "eqs" accountId nameSpace ("queue:" ++ name)

/-- The fourth field of a name, or nothing where there are fewer. -/
def accountIdFromErn (ern : String) : String := (ern.splitOn ":").getD 3 ""

/-- `TryMessagePriorityFromString`: any case, and the middle tier's old name. -/
def tryMessagePriorityFromString (priority : String) : Option MessagePriority :=
  match priority.toUpper with
  | "MIDDLE" => some .medium
  | "LOW" => some .low
  | "MEDIUM" => some .medium
  | "HIGH" => some .high
  | _ => none

structure Caller where
  userId : String
  accountId : String
  region : String

inductive Status where
  | badRequest
  | notFound
  | conflict
  | forbidden
  deriving DecidableEq

/-- What a handler answers. `denied` is the resource gate's own refusal. -/
inductive Response (Payload : Type) where
  | unauthorized
  | denied
  | refused (status : Status) (msg : String)
  | success (payload : Payload)
  deriving DecidableEq

def Queue.isInternalPlumbingOf (queue : Queue) (userId : String) : Bool :=
  queue.internal && decide (userId ≠ "") && decide (queue.owner = userId)

/-- `priority must be "LOW", "MEDIUM" or "HIGH", not "..."`. -/
def priorityRefusal (priority : String) : String :=
  "priority must be \"LOW\", \"MEDIUM\" or \"HIGH\", not \"" ++ priority ++ "\""

/-! ### Defining queues -/

structure CreateQueueRequest where
  name : String
  dlqName : String
  priority : String
  visibility : Int
  maxMessageLength : Int
  maxRetries : Int
  delay : Int
  internal : Bool

/-- The entity a create-queue writes under a name: freshly built, so its counters are zero. -/
def CreateQueueRequest.queue (env : Env) (caller : Caller) (nameSpace name : String)
    (deadLetterQueueErn : String) (priority : MessagePriority) (created modified : Time)
    (req : CreateQueueRequest) : Queue :=
  { Queue.blank with
    accountId := caller.accountId
    nameSpace := nameSpace
    name := name
    ern := createEqsQueueErn env caller.accountId nameSpace name
    visibility := req.visibility
    maxMessageLength := req.maxMessageLength
    maxReceiveCount := req.maxRetries
    region := caller.region
    owner := caller.userId
    deadLetterQueueErn := deadLetterQueueErn
    internal := req.internal
    delay := req.delay
    priority := priority
    created := created
    modified := modified }

/-- The priority a create-queue asks for. Empty is not given. -/
def CreateQueueRequest.queuePriority (req : CreateQueueRequest) : Option MessagePriority :=
  if req.priority = "" then some .medium else tryMessagePriorityFromString req.priority

/-- The dead letter queue of a create-queue, where one is named, and the name it got. -/
def createDeadLetterQueue (env : Env) (caller : Caller) (nameSpace : String)
    (priority : MessagePriority) (req : CreateQueueRequest) : Op StoreError String :=
  if req.dlqName = "" then pure ""
  else do
    let created ← readSystemClock
    let modified ← readSystemClock
    let saved ← upsertQueue
      (req.queue env caller nameSpace req.dlqName "" priority created modified)
    pure saved.ern

/-- `handleCreateQueue`: the dead letter queue first, where one is named, then the queue. -/
def handleCreateQueue (env : Env) (caller : Option Caller) (nameSpace : String)
    (req : CreateQueueRequest) : Op StoreError (Response Queue) :=
  match caller, req.queuePriority with
  | none, _ => pure .unauthorized
  | some _, none => pure (.refused .badRequest (priorityRefusal req.priority))
  | some caller, some priority => do
    let deadLetterQueueErn ←
      createDeadLetterQueue env caller nameSpace priority req
    let created ← readSystemClock
    let modified ← readSystemClock
    let saved ← upsertQueue
      (req.queue env caller nameSpace req.name deadLetterQueueErn priority created modified)
    pure (.success saved)

/-- The form all handlers share that change one part of a queue: look it up, change the copy,
write the whole of it back. -/
def changeQueue (ern : String) (change : Queue → Except (Response Queue) Queue) :
    Op StoreError (Response Queue) := do
  let found ← findQueueByErn ern
  match found with
  | none => pure (.refused .notFound ("Queue not found, ern: " ++ ern))
  | some queue =>
    match change queue with
    | .error response => pure response
    | .ok changed => do
      let saved ← upsertQueue changed
      pure (.success saved)

/-- What the gate says of a queue, with the caller's own plumbing let through. -/
def permit (caller : Caller) (granted : Bool) (queue : Queue) (changed : Queue) :
    Except (Response Queue) Queue :=
  if queue.isInternalPlumbingOf caller.userId || granted then .ok changed else .error .denied

def kOwnerTag : String := "euclid:application"

/-- `refuseOwnerTag`. -/
def ownerTagRefusal : String :=
  "The tag " ++ kOwnerTag ++ " records which application owns this, and is written by \"eap apply\""

/-- The form of the three tag handlers: only an administrator reaches the owner tag. -/
def changeTags (caller : Option Caller) (isEamAdmin granted : Bool) (ern key : String)
    (change : Queue → Except (Response Queue) (List (String × String))) :
    Op StoreError (Response Queue) :=
  match caller with
  | none => pure .unauthorized
  | some caller =>
    if key = kOwnerTag ∧ isEamAdmin = false then pure (.refused .forbidden ownerTagRefusal)
    else changeQueue ern fun queue => do
      let permitted ← permit caller granted queue queue
      let tags ← change queue
      pure { permitted with tags := tags }

def assignTag (tags : List (String × String)) (key value : String) : List (String × String) :=
  tags.filter (fun tag => tag.1 ≠ key) ++ [(key, value)]

section

variable (caller : Option Caller)

def handleAddQueueTag (isEamAdmin granted : Bool) (ern key value : String) :
    Op StoreError (Response Queue) :=
  changeTags caller isEamAdmin granted ern key fun queue => .ok (assignTag queue.tags key value)

def handleSetQueueTag (isEamAdmin granted : Bool) (ern key value : String) :
    Op StoreError (Response Queue) :=
  changeTags caller isEamAdmin granted ern key fun queue =>
    if queue.tags.any fun tag => tag.1 = key then .ok (assignTag queue.tags key value)
    else .error (.refused .notFound ("Tag not found, key: " ++ key))

def handleDeleteQueueTag (isEamAdmin granted : Bool) (ern key : String) :
    Op StoreError (Response Queue) :=
  changeTags caller isEamAdmin granted ern key fun queue =>
    .ok (queue.tags.filter fun tag => tag.1 ≠ key)

/-- `handleSetQueueStopped`: the gate is asked before the queue is looked up. -/
def handleSetQueueStopped (granted : Bool) (ern : String) (stopped : Bool) :
    Op StoreError (Response Queue) :=
  match caller with
  | none => pure .unauthorized
  | some _ =>
    if ern = "" then pure (.refused .badRequest "Queue ERN missing")
    else if granted = false then pure .denied
    else changeQueue ern fun queue =>
      .ok { queue with status := if stopped then .stopped else .available }

def handleStopQueue (granted : Bool) (ern : String) : Op StoreError (Response Queue) :=
  handleSetQueueStopped caller granted ern true

def handleStartQueue (granted : Bool) (ern : String) : Op StoreError (Response Queue) :=
  handleSetQueueStopped caller granted ern false

/-- The form of the handlers that set one figure of a queue within bounds. -/
def setFigure (ern : String) (accepted : Bool) (refusal : String) (change : Queue → Queue) :
    Op StoreError (Response Queue) :=
  match caller with
  | none => pure .unauthorized
  | some _ =>
    if ern = "" then pure (.refused .badRequest "Queue ERN missing")
    else if accepted = false then pure (.refused .badRequest refusal)
    else changeQueue ern fun queue => .ok (change queue)

def handleSetQueueVisibility (ern : String) (visibility : Int) : Op StoreError (Response Queue) :=
  setFigure caller ern (decide (0 ≤ visibility ∧ visibility ≤ 43200))
    "Visibility must be between 0 and 43200 seconds"
    fun queue => { queue with visibility := visibility }

def handleSetQueueDelay (ern : String) (delay : Int) : Op StoreError (Response Queue) :=
  setFigure caller ern (decide (0 ≤ delay ∧ delay ≤ 900))
    "Delay must be between 0 and 900 seconds" fun queue => { queue with delay := delay }

def handleSetQueueMaxMessageLength (ern : String) (maxMessageLength : Int) :
    Op StoreError (Response Queue) :=
  setFigure caller ern (decide (0 ≤ maxMessageLength))
    ("maxMessageLength cannot be negative; zero follows the default of " ++
      toString kDefaultMaxMessageLength ++ " bytes")
    fun queue => { queue with maxMessageLength := maxMessageLength }

def handleSetQueueMaxRetries (ern : String) (maxRetries : Int) : Op StoreError (Response Queue) :=
  setFigure caller ern (decide (1 ≤ maxRetries ∧ maxRetries ≤ 1000))
    "maxRetries must be between 1 and 1000"
    fun queue => { queue with maxReceiveCount := maxRetries }

end

/-! ### Changing messages -/

/-- The copy set-message-visibility writes back. A lease in flight restarts now, a timeout
asked for ahead of the receive is pinned. -/
def Message.withVisibility (visibility : Int) (now : Time) (msg : Message) : Message :=
  if msg.status = .invisible then
    { msg with visibilityTimeout := visibility, lastReceived := now }
  else { msg with visibilityTimeout := visibility, visibilityPinned := true }

/-- The clock is read for a message whose lease the change restarts. -/
def leaseRestart (msg : Message) : Op Fault Time :=
  if msg.status = .invisible then readSystemClock else pure 0

/-- `handleSetVisibility`: read the message, change the copy, write the whole of it back. -/
def handleSetVisibility (caller : Option Caller) (messageId : String) (visibility : Int) :
    Op Fault (Response Unit) :=
  match caller with
  | none => pure .unauthorized
  | some _ =>
    if messageId = "" then pure (.refused .badRequest "Message ID missing")
    else if visibility < 0 ∨ visibility > 43200 then
      pure (.refused .badRequest "Visibility must be between 0 and 43200 seconds")
    else do
      let found ← findMessageByName messageId
      match found with
      | none => pure (.refused .notFound ("Message not found, messageId: " ++ messageId))
      | some msg => do
        let now ← leaseRestart msg
        upsertMessage (msg.withVisibility visibility now)
        pure (.success ())

def handleSetMessageAttribute (caller : Option Caller) (messageId key : String)
    (value : Variant) : Op Fault (Response Variant) :=
  match caller with
  | none => pure .unauthorized
  | some _ => do
    let found ← findMessageByName messageId
    match found with
    | none => pure (.refused .notFound ("Message not found, messageId: " ++ messageId))
    | some msg => do
      upsertMessage { msg with attributes := msg.attributes.assign key value }
      pure (.success value)

/-- `handleDeleteMessage`: by receipt handle, else by identifier. -/
def handleDeleteMessage (caller : Option Caller) (receiptHandle messageId : String) :
    Op Fault (Response Unit) :=
  match caller with
  | none => pure .unauthorized
  | some _ =>
    if receiptHandle ≠ "" then do
      deleteMessage receiptHandle
      pure (.success ())
    else if messageId ≠ "" then do
      deleteMessageById messageId
      pure (.success ())
    else pure (.refused .badRequest "Receipt handle or message ID missing")

end Euclid.Eqs
