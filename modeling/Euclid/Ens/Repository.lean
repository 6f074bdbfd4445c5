/-
This file translates the operations of `MongoEnsRepository`: what each reads and writes, in
which order, and which failures it catches.

Every operation but two logs what fails below it and answers as though nothing had been
found or nothing had to be done. Listing the held messages and marking one delivered pass
the failure on.
-/

import Euclid.Ens.Statement
import Euclid.Bus.EventBus

namespace Euclid.Ens

open Program
open Bus (Time StoreError)

variable {Fault Result : Type}

/-- A piece of ENS that may fail with a fault. -/
abbrev Op (Fault Result : Type) := Program Req Req.Answer Fault Result

/-! ### Statements -/

/-- A program of the event bus, run by a handler of ENS. The bus passes on no failure. -/
def onBus (operation : Bus.Op Empty Result) : Op Fault Result :=
  (operation.lift Req.bus fun _ => id).catching Empty.elim

def readSystemClock : Op Fault Time := issue (Req.bus .systemClock)

def createRandomUuid : Op Fault String := issue (Req.bus .randomUuid)

def onTopics (stmt : TopicStatement) : Op StoreError stmt.Answer := do
  ofExcept (← issue (Req.topic stmt))

def onMessages (stmt : MessageStatement) : Op StoreError stmt.Answer := do
  ofExcept (← issue (Req.message stmt))

/-- A `try` whose `catch` logs and answers `fallback`. -/
def orAnswer (operation : Op StoreError Result) (fallback : Result) : Op Fault Result :=
  operation.catching fun _ => .done fallback

/-! ### Topics -/

def findTopicByErn (ern : String) : Op Fault (Option Topic) :=
  orAnswer (onTopics (.findByErn ern)) none

def upsertTopic (topic : Topic) : Op Fault Topic :=
  orAnswer (onTopics (.upsert topic)) topic

def deleteTopicByErn (ern : String) : Op Fault Unit :=
  orAnswer (do
    onTopics (.deleteByErn ern)
    onMessages (.deleteTopics [ern])) ()

def recordSend (ern : String) (sent : Int) : Op Fault Unit :=
  onlyIf (0 < sent) (orAnswer (onTopics (.recordSend ern sent)) ())

def recordResend (ern : String) (resent : Int) : Op Fault Unit :=
  onlyIf (0 < resent) (orAnswer (onTopics (.recordResend ern resent)) ())

def purgeTopic (ern : String) : Op Fault Unit :=
  orAnswer (do
    onMessages (.deleteTopics [ern])
    onTopics (.zero [ern])) ()

def purgeAllTopics (region accountId nameSpace : String) : Op Fault Unit :=
  orAnswer (do
    let topics : List Topic ← onTopics (.findInScope region accountId nameSpace)
    onlyIf (topics ≠ []) do
      onMessages (.deleteTopics (topics.map Topic.ern))
      onTopics (.zero (topics.map Topic.ern))) ()

/-- The figures a recount has for a topic. -/
def recounted (counted : List (String × Int × Int)) (ern : String) : Int × Int :=
  ((counted.find? fun entry => entry.1 = ern).map Prod.snd).getD 0

def recountTopics : Op Fault Unit :=
  orAnswer (do
    let counted : List (String × Int × Int) ← onMessages .countByTopic
    let topics : List Topic ← onTopics .findAll
    forEach topics fun topic =>
      onTopics (.setCounts topic.ern (recounted counted topic.ern).1
        (recounted counted topic.ern).2)) ()

/-! ### Subscriptions -/

/-- `listSubscriptionsBySourceErnCached`: from this process's cache, or read and remembered. A
read that failed is not remembered, and answers nothing. -/
def listSubscriptionsBySourceErnCached (sourceErn : String) : Op Fault (List Subscription) := do
  let (now, cached) ← issue (Req.cachedSubscriptions sourceErn)
  match cached with
  | some subscriptions => pure subscriptions
  | none =>
    orAnswer (do
      let subscriptions : List Subscription ←
        ofExcept (← issue (Req.subscriptionsOf sourceErn))
      issue (Req.rememberSubscriptions sourceErn now subscriptions)
      pure subscriptions) []

/-! ### Messages -/

def findMessageById (env : Env) (messageId : String) : Op Fault (Option Message) :=
  orAnswer (do
    let found : Option MessageDocument ← onMessages (.findById messageId)
    pure (found.map (Message.fromDocument env))) none

def upsertMessage (env : Env) (msg : Message) : Op Fault Unit :=
  orAnswer (onMessages (.upsert (msg.toDocument env msg.created))) ()

/-- A message as it is about to be published, before its topic has been read. -/
def newMessage (env : Env) (messageId ern topicErn body : String)
    (attributes : Eqs.Attributes) (priority : String) : Message where
  ern := ern
  topicErn := topicErn
  body := body
  size := body.utf8ByteSize
  messageId := messageId
  attributes := attributes
  systemAttributes := []
  contentType := env.contentTypeOf body
  status := .published
  priority := priority
  expiresAt := none
  created := 0

/-- When a message published to a topic stops being kept. -/
def expiryOf (env : Env) (topic : Topic) : Op Fault (Option Time) :=
  let retention := effectiveRetentionPeriod env topic
  if retention = kRetentionForever then pure none
  else do
    let now ← readSystemClock
    pure (some (now + retention * 1000))

/-- The part of `publishMessage` that stores the message and its count. -/
def storeMessage (env : Env) (msg : Message) : Op StoreError Unit := do
  let now ← readSystemClock
  onMessages (.insert (msg.toDocument env now))

/-- What a topic decides about a message that is published to it. -/
def Message.decidedBy (topic : Topic) (expiresAt : Option Time) (msg : Message) : Message :=
  { msg with
    expiresAt := expiresAt
    status := if topic.delivering then .published else .held }

/-- `publishMessage`: the message as it was stored, or as far as it had got when something
failed. A message whose topic could not be read is not stored and not held either. -/
def publishMessage (env : Env) (messageId ern topicErn body : String)
    (attributes : Eqs.Attributes) (priority : String) : Op Fault Message := do
  let msg := newMessage env messageId ern topicErn body attributes priority
  let read : Option (Option Topic) ← orAnswer (do
    let found : Option Topic ← onTopics (.findByErn topicErn)
    pure (some found)) none
  match read with
  | none => pure msg
  | some none =>
    orAnswer (storeMessage env msg) ()
    pure msg
  | some (some topic) =>
    let expiresAt ← expiryOf env topic
    let decided := msg.decidedBy topic expiresAt
    orAnswer (do
      onTopics (.count topicErn 1 msg.size)
      storeMessage env decided) ()
    pure decided

/-- `updateMessageBody`: the message as it is afterwards, if it was there. -/
def updateMessageBody (env : Env) (messageId body : String) : Op Fault (Option Message) :=
  orAnswer (do
    let before : Option MessageDocument ←
      onMessages (.rewriteBody messageId body (env.contentTypeOf body))
    match before with
    | none => pure none
    | some previous =>
      let delta : Int := body.utf8ByteSize - previous.size
      onlyIf (delta ≠ 0) (onTopics (.count previous.topicErn 0 delta))
      findMessageById env messageId) none

def listHeldMessages (env : Env) (topicErn : String) (limit : Nat) :
    Op StoreError (List Message) := do
  let held : List MessageDocument ← onMessages (.listHeld topicErn limit)
  pure (held.map (Message.fromDocument env))

def listMessagesAfter (env : Env) (topicErn : String) (pageSize : Nat)
    (listed : List String) : Op Fault (List Message) :=
  orAnswer (do
    let found : List MessageDocument ← onMessages (.listAfter topicErn pageSize listed)
    pure (found.map (Message.fromDocument env))) []

def markMessageDelivered (messageId : String) : Op StoreError Unit :=
  onMessages (.markDelivered messageId)

/-- `deleteDeliveredMessage`: whether there was one to delete. -/
def deleteDeliveredMessage (topicErn messageId : String) (size : Int) : Op Fault Bool :=
  orAnswer (do
    let deleted : Nat ← onMessages (.deleteOne messageId)
    if deleted = 0 then pure false
    else do
      onTopics (.count topicErn (-1) (-size))
      pure true) false

end Euclid.Ens
