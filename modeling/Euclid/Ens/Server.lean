/-
This file translates the handlers of `EnsServer` that define topics, accept messages, send
them again and change them: what each checks, in which order, with which refusal, and which
repository operations it runs.

A request arrives authenticated or not, and parsed: the caller and the fields of the body
are arguments. What the owner tag is reserved for is decided by the caller's role, which is
an argument too. What a handler counts for monitoring is left out.
-/

import Euclid.Ens.Repository

namespace Euclid.Ens

open Program
open Bus (Json StoreError EventEnvelope)
open Eqs (Caller Response Status Attributes)

variable {Fault : Type}

/-! ### Names -/

def createEnsTopicErn (env : Env) (accountId nameSpace name : String) : String :=
  "ern:ens:" ++ env.region ++ ":" ++ accountId ++ ":" ++ nameSpace ++ ":topic:" ++ name

def createEnsMessageErn (env : Env) (accountId messageId : String) : String :=
  "ern:ens:" ++ env.region ++ ":" ++ accountId ++ ":message:" ++ messageId

/-- Why a handler failed with an exception: a statement did, or its payload was not what it
reads. -/
inductive ServerError where
  | store (error : StoreError)
  | json
  deriving DecidableEq

/-- The failure of a statement, where nothing catches it. -/
def orFail {Result : Type} (operation : Op StoreError Result) : Op ServerError Result :=
  operation.catching fun error => .raise (.store error)

/-- `GetStringValue`: a string member of an object. -/
def getStringValue (value : Json) (name : String) : Except ServerError String :=
  match value with
  | .object members =>
    match Json.ifContains name members with
    | none => .ok ""
    | some .null => .ok ""
    | some (.string text) => .ok text
    | some _ => .error .json
  | _ => .error .json

def topicNotFound (ern : String) : String := "Topic not found, ern: " ++ ern

def messageNotFound (messageId : String) : String :=
  "Message not found, messageId: " ++ messageId

/-- The refusal of a body longer than its topic takes. -/
def lengthRefusal (length maxMessageLength : Int) : String :=
  "message is " ++ toString length ++ " bytes, and this topic accepts " ++
    toString maxMessageLength ++ " - see set-topic-max-message-length"

/-! ### Delivering -/

/-- What is published for one subscription of a topic. -/
def publicationFor (env : Env) (topicErn messageId body : String)
    (attributes : Attributes) (systemAttributes : List (String × Json))
    (priority bucketPriority : String) (subscription : Subscription) : Publication where
  eventType := "ens.message.published"
  payload := .object ([("body", .string body),
      ("attributes", .object (attributesToJson env attributes)),
      ("systemAttributes", .object systemAttributes),
      ("priority", .string priority)] ++
    if bucketPriority = "" then [] else [("bucketPriority", .string bucketPriority)])
  sourceModule := "ens"
  delivery := ⟨subscription.targetErn, topicErn, messageId, ""⟩

def publish (env : Env) (publication : Publication) : Op Fault Unit := do
  issue (Req.publishing publication)
  onBus (Bus.publish env.toEnv publication.eventType publication.payload
    publication.sourceModule publication.delivery)

def queuesOf (subscriptions : List Subscription) : List Subscription :=
  subscriptions.filter fun subscription => subscription.type = "SQS"

/-- `deliverToSubscriptions`: to how many. -/
def deliverToSubscriptions (env : Env) (topicErn messageId body : String)
    (attributes : Attributes) (systemAttributes : List (String × Json))
    (priority bucketPriority : String) : Op Fault Nat := do
  let subscriptions ← listSubscriptionsBySourceErnCached topicErn
  forEach (queuesOf subscriptions) fun subscription =>
    publish env (publicationFor env topicErn messageId body attributes
      systemAttributes priority bucketPriority subscription)
  pure (queuesOf subscriptions).length

def publishToTopic (env : Env) (topicErn body : String) (attributes : Attributes)
    (accountId priority : String) (systemAttributes : List (String × Json))
    (bucketPriority : String) (deleteAfterDelivery : Bool) : Op Fault Message := do
  let messageId ← createRandomUuid
  let ern := createEnsMessageErn env accountId messageId
  let msg ← publishMessage env messageId ern topicErn body attributes priority
  recordSend topicErn 1
  if msg.status = .held then pure msg
  else do
    let delivered ← deliverToSubscriptions env topicErn msg.messageId body attributes
      systemAttributes priority bucketPriority
    onlyIf (deleteAfterDelivery = true ∧ 0 < delivered) do
      let _ ← deleteDeliveredMessage topicErn msg.messageId msg.size
      pure ()
    pure msg

structure PublishMessageRequest where
  ern : String
  body : String
  attributes : Attributes
  priority : String

/-- `handlePublishMessage`: the identifier of the message. -/
def handlePublishMessage (env : Env) (caller : Option Caller)
    (req : PublishMessageRequest) : Op Fault (Response String) :=
  match caller with
  | none => pure .unauthorized
  | some user => do
    match ← findTopicByErn req.ern with
    | none => pure (.refused .notFound (topicNotFound req.ern))
    | some topic =>
      let maxMessageLength := effectiveMaxMessageLength topic.maxMessageLength
      if maxMessageLength < req.body.utf8ByteSize then
        pure (.refused .badRequest (lengthRefusal req.body.utf8ByteSize maxMessageLength))
      else if req.priority ≠ "" ∧ Eqs.tryMessagePriorityFromString req.priority = none then
        pure (.refused .badRequest (Eqs.priorityRefusal req.priority))
      else do
        let msg ← publishToTopic env req.ern req.body req.attributes
          user.accountId req.priority [] "" topic.deleteAfterDelivery
        pure (.success msg.messageId)

def systemAttributesOf (payload : Json) : List (String × Json) :=
  match Json.ifContains "systemAttributes" payload.members with
  | some (.object members) => members
  | _ => []

/-- `handleObjectPublishedNotification`: whether the event is acknowledged. -/
def handleObjectPublishedNotification (env : Env) (envelope : EventEnvelope) :
    Op ServerError Bool := do
  let targetErn ← if envelope.targetErn ≠ "" then pure envelope.targetErn
    else ofExcept (getStringValue envelope.payload "targetErn")
  let body ← ofExcept (getStringValue envelope.payload "body")
  match ← findTopicByErn targetErn with
  | none => pure true
  | some topic =>
    let bucketPriority ← ofExcept (getStringValue envelope.payload "bucketPriority")
    let _ ← publishToTopic env targetErn body [] (Eqs.accountIdFromErn targetErn) "MEDIUM"
      (systemAttributesOf envelope.payload) bucketPriority topic.deleteAfterDelivery
    pure true

/-! ### Stopping and starting -/

def kPage : Nat := 500

/-- What a start does with one held message. -/
def releaseMessage (env : Env) (topic : Topic) (ern : String) (msg : Message) :
    Op StoreError Unit := do
  let delivered ← deliverToSubscriptions env ern msg.messageId msg.body
    msg.attributes (attributesToJson env msg.systemAttributes) msg.priority ""
  if topic.deleteAfterDelivery = true ∧ 0 < delivered then do
    let _ ← deleteDeliveredMessage ern msg.messageId msg.size
    pure ()
  else markMessageDelivered msg.messageId

/-- The loop of a start, page after page: how many messages it has released. A page that is not
full is the last. A loop that has not ended after so many pages has no result. -/
def releasePages (env : Env) (topic : Topic) (ern : String) : Nat → Nat → Op StoreError (Option Nat)
  | 0, _ => pure none
  | pages + 1, released => do
    let held ← listHeldMessages env ern kPage
    if held = [] then pure (some released)
    else do
      forEach held (releaseMessage env topic ern)
      if held.length < kPage then pure (some (released + held.length))
      else releasePages env topic ern pages (released + held.length)

/-- What stopping or starting a topic answers. -/
structure TopicState where
  ern : String
  status : String
  released : Nat

def setTopicDelivering (env : Env) (delivering : Bool) (pages : Nat)
    (caller : Option Caller) (ern : String) : Op ServerError (Option (Response TopicState)) :=
  if caller = none then pure (some .unauthorized)
  else if ern = "" then pure (some (.refused .badRequest "ern is required"))
  else do
    match ← findTopicByErn ern with
    | none => pure (some (.refused .notFound (topicNotFound ern)))
    | some found =>
      let topic ← upsertTopic { found with delivering := delivering }
      if delivering then do
        match ← orFail (releasePages env topic ern pages 0) with
        | none => pure none
        | some released =>
          recordResend ern released
          pure (some (.success ⟨topic.ern, topic.status, released⟩))
      else pure (some (.success ⟨topic.ern, topic.status, 0⟩))

def handleStartTopic (env : Env) (pages : Nat) (caller : Option Caller)
    (ern : String) : Op ServerError (Option (Response TopicState)) :=
  setTopicDelivering env true pages caller ern

def handleStopTopic (env : Env) (caller : Option Caller) (ern : String) :
    Op ServerError (Option (Response TopicState)) :=
  setTopicDelivering env false 0 caller ern

/-! ### Resending -/

def resendMessage (env : Env) (topicErn : String) (msg : Message) : Op Fault Unit := do
  let _ ← deliverToSubscriptions env topicErn msg.messageId msg.body
    msg.attributes (attributesToJson env msg.systemAttributes) msg.priority ""
  pure ()

structure ResendCounts where
  resent : Nat
  held : Nat

/-- `resendAllMessages`: held messages are passed over. A loop that has not ended after so many
pages has no result. -/
def resendAllMessages (env : Env) (ern : String) :
    Nat → List String → ResendCounts → Op Fault (Option ResendCounts)
  | 0, _, _ => pure none
  | pages + 1, listed, counts => do
    let msgs ← listMessagesAfter env ern kPage listed
    if msgs = [] then pure (some counts)
    else do
      let resent := msgs.filter fun msg => msg.status ≠ .held
      forEach resent (resendMessage env ern)
      let counted : ResendCounts :=
        ⟨counts.resent + resent.length, counts.held + (msgs.length - resent.length)⟩
      if msgs.length < kPage then pure (some counted)
      else resendAllMessages env ern pages (listed ++ msgs.map Message.messageId) counted

/-- The refusal of a resend from a stopped topic. -/
def stoppedRefusal : String :=
  "Topic is stopped and delivers nothing - start it first, which also releases " ++
    "whatever was published while it was stopped; see start-topic"

/-- `handleResendMessages`: all messages of a topic, or one of them. An asynchronous resend answers
first and resends in the background; it is modelled by the resend alone. -/
def handleResendMessages (env : Env) (pages : Nat) (caller : Option Caller)
    (ern messageId : String) : Op Fault (Option (Response (String × ResendCounts))) :=
  if caller = none then pure (some .unauthorized)
  else if ern = "" then pure (some (.refused .badRequest "ern is required"))
  else do
    match ← findTopicByErn ern with
    | none => pure (some (.refused .notFound (topicNotFound ern)))
    | some topic =>
      if topic.delivering = false then pure (some (.refused .conflict stoppedRefusal))
      else if messageId ≠ "" then do
        match ← findMessageById env messageId with
        | none => pure (some (.refused .notFound (messageNotFound messageId)))
        | some msg =>
          if msg.topicErn ≠ ern then
            pure (some (.refused .badRequest
              ("Message " ++ messageId ++ " belongs to another topic")))
          else if msg.status = .held then pure (some (.success (topic.ern, ⟨0, 1⟩)))
          else do
            resendMessage env ern msg
            recordResend ern 1
            pure (some (.success (topic.ern, ⟨1, 0⟩)))
      else do
        match ← resendAllMessages env ern pages [] ⟨0, 0⟩ with
        | none => pure none
        | some counts =>
          recordResend ern counts.resent
          pure (some (.success (topic.ern, counts)))

/-! ### Defining topics -/

structure CreateTopicRequest where
  name : String
  maxMessageLength : Int

/-- `handleCreateTopic`: the ERN of the topic. -/
def handleCreateTopic (env : Env) (caller : Option Caller) (nameSpace : String)
    (req : CreateTopicRequest) : Op Fault (Response String) :=
  match caller with
  | none => pure .unauthorized
  | some user => do
    let saved ← upsertTopic { Topic.blank with
      accountId := user.accountId
      nameSpace := nameSpace
      name := req.name
      ern := createEnsTopicErn env user.accountId nameSpace req.name
      maxMessageLength := req.maxMessageLength
      region := user.region
      owner := user.userId }
    pure (.success saved.ern)

def handleDeleteTopic (caller : Option Caller) (ern : String) : Op Fault (Response Unit) :=
  if caller = none then pure .unauthorized
  else do
    deleteTopicByErn ern
    pure (.success ())

/-- The handlers that read a topic, change it and write it back. What is wrong with the request is
`refusal`, with the topic `check`. -/
def changeTopic (caller : Option Caller) (refusal : Option (Status × String)) (ern : String)
    (check : Topic → Option (Status × String)) (change : Topic → Topic) :
    Op Fault (Response Topic) :=
  if caller = none then pure .unauthorized
  else
    match refusal with
    | some (status, msg) => pure (.refused status msg)
    | none => do
      match ← findTopicByErn ern with
      | none => pure (.refused .notFound (topicNotFound ern))
      | some topic =>
        match check topic with
        | some (status, msg) => pure (.refused status msg)
        | none => do
          let saved ← upsertTopic (change topic)
          pure (.success saved)

def kOwnerTag : String := "euclid:application"

/-- `refuseOwnerTag`, for a caller who is an administrator or not. -/
def refuseOwnerTag (administrator : Bool) (key : String) : Option (Status × String) :=
  if key = kOwnerTag ∧ administrator = false then
    some (.forbidden, "The tag " ++ kOwnerTag ++
      " records which application owns this, and is written by \"eap apply\"")
  else none

/-- Assign one tag, replacing the value its key has. -/
def assignTag (key value : String) (tags : List (String × String)) : List (String × String) :=
  tags.filter (fun tag => tag.1 ≠ key) ++ [(key, value)]

section

variable (caller : Option Caller)

def handleAddTopicTag (administrator : Bool) (ern key value : String) : Op Fault (Response Topic) :=
  changeTopic caller (refuseOwnerTag administrator key) ern (fun _ => none)
    fun topic => { topic with tags := assignTag key value topic.tags }

def handleSetTopicTag (administrator : Bool) (ern key value : String) : Op Fault (Response Topic) :=
  changeTopic caller (refuseOwnerTag administrator key) ern
    (fun topic => if topic.tags.any fun tag => tag.1 = key then none
      else some (.notFound, "Tag not found, key: " ++ key))
    fun topic => { topic with tags := assignTag key value topic.tags }

def handleDeleteTopicTag (administrator : Bool) (ern key : String) : Op Fault (Response Topic) :=
  changeTopic caller (refuseOwnerTag administrator key) ern (fun _ => none)
    fun topic => { topic with tags := topic.tags.filter fun tag => tag.1 ≠ key }

def handleSetTopicRetention (ern : String) (retentionPeriod : Int) : Op Fault (Response Topic) :=
  changeTopic caller
    (if retentionPeriod < kRetentionForever then
      some (.badRequest, "retentionPeriod has to be seconds, 0 to follow the installation " ++
        "default, or -1 to keep messages forever")
    else none)
    ern (fun _ => none) fun topic => { topic with retentionPeriod := retentionPeriod }

def handleSetTopicMaxMessageLength (ern : String) (maxMessageLength : Int) :
    Op Fault (Response Topic) :=
  changeTopic caller
    (if maxMessageLength ≤ 0 then
      some (.badRequest, "maxMessageLength has to be a positive number of bytes")
    else none)
    ern (fun _ => none) fun topic => { topic with maxMessageLength := maxMessageLength }

def handleSetTopicDeleteAfterDelivery (ern : String) (deleteAfterDelivery : Bool) :
    Op Fault (Response Topic) :=
  changeTopic caller none ern (fun _ => none)
    fun topic => { topic with deleteAfterDelivery := deleteAfterDelivery }

/-! ### Purging -/

/-- `handlePurgeTopic`. An asynchronous purge answers first and purges in the background; it is
modelled by the purge alone. -/
def handlePurgeTopic (ern : String) : Op Fault (Response Unit) :=
  if caller = none then pure .unauthorized
  else do
    purgeTopic ern
    pure (.success ())

def handlePurgeAllTopics (region accountId nameSpace : String) : Op Fault (Response Unit) :=
  if caller = none then pure .unauthorized
  else do
    purgeAllTopics region accountId nameSpace
    pure (.success ())

end

/-! ### Changing messages -/

/-- `handleUpdateMessageBody`: the message as it is afterwards. -/
def handleUpdateMessageBody (env : Env) (caller : Option Caller)
    (messageId body : String) : Op Fault (Response Message) :=
  if caller = none then pure .unauthorized
  else if messageId = "" then pure (.refused .badRequest "messageId is required")
  else do
    match ← findMessageById env messageId with
    | none => pure (.refused .notFound (messageNotFound messageId))
    | some msg =>
      let topic ← findTopicByErn msg.topicErn
      let maxMessageLength := effectiveMaxMessageLength ((topic.map Topic.maxMessageLength).getD 0)
      if maxMessageLength < body.utf8ByteSize then
        pure (.refused .badRequest (lengthRefusal body.utf8ByteSize maxMessageLength))
      else do
        match ← updateMessageBody env messageId body with
        | none => pure (.refused .notFound (messageNotFound messageId))
        | some updated => pure (.success updated)

def handleSetMessageAttribute (env : Env) (caller : Option Caller)
    (messageId key : String) (value : Eqs.Variant) : Op Fault (Response Eqs.Variant) :=
  if caller = none then pure .unauthorized
  else do
    match ← findMessageById env messageId with
    | none => pure (.refused .notFound (messageNotFound messageId))
    | some msg =>
      upsertMessage env { msg with attributes := msg.attributes.assign key value }
      pure (.success value)

end Euclid.Ens
