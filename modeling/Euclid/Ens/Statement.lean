/-
This file says what one statement of ENS does: a read or write of the topics, of the
messages or of the subscriptions, or a look at what one process remembers of the latter.

There is one constructor for each place in the repository that issues a statement, with the
filter and the update of that place. A request of the event bus is a request here too. A
call of `EventBus::Publish` is one on its own, before the statements it is made of, and the
world keeps a list of what has been published.
-/

import Euclid.Ens.Entity

namespace Euclid.Ens

open Collection MessageDocument
open Bus (Time Outage StoreError underOutage)

/-! ### Topic statements -/

/-- The statements over the topic collection. -/
inductive TopicStatement where
  | findByErn (ern : String)
  | findInScope (region accountId nameSpace : String)
  | findAll
  | upsert (topic : Topic)
  | count (ern : String) (available size : Int)
  | recordSend (ern : String) (sent : Int)
  | recordResend (ern : String) (resent : Int)
  | zero (erns : List String)
  | setCounts (ern : String) (available size : Int)
  | deleteByErn (ern : String)

@[reducible] def TopicStatement.Answer : TopicStatement → Type
  | .findByErn _ => Option Topic
  | .findInScope .. => List Topic
  | .findAll => List Topic
  | .upsert _ => Topic
  | _ => Unit

namespace Topic

/-- Counted: so many messages and bytes more. -/
def counted (available size : Int) (topic : Topic) : Topic :=
  { topic with available := topic.available + available, size := topic.size + size }

/-- Started over by a purge. -/
def zeroed (topic : Topic) : Topic :=
  { topic with size := 0, available := 0, send := 0, resend := 0 }

/-- The filter of a purge of all topics: no namespace stands for every namespace. -/
def isInScope (region accountId nameSpace : String) (topic : Topic) : Bool :=
  decide (topic.region = region) && decide (topic.accountId = accountId) &&
    (decide (nameSpace = "") || decide (topic.nameSpace = nameSpace))

/-- Both unique indexes of the collection, for a topic written under its own key. -/
def clashes (topics : List Topic) (topic : Topic) : Bool :=
  topics.any fun other => decide (other.key ≠ topic.key) && decide (other.ern = topic.ern)

end Topic

/-- One statement over the topic collection. The dates an upsert stamps are left out. -/
def TopicStatement.apply (topics : List Topic) :
    (stmt : TopicStatement) → Except StoreError stmt.Answer × List Topic
  | .findByErn ern => (.ok (topics.find? fun topic => topic.ern = ern), topics)
  | .findInScope region accountId nameSpace =>
    (.ok (topics.filter (Topic.isInScope region accountId nameSpace)), topics)
  | .findAll => (.ok topics, topics)
  | .upsert topic =>
    if topic.clashes topics then (.error .duplicateKey, topics)
    else if topics.any fun stored => stored.key = topic.key then
      (.ok topic, updateFirst (fun stored => stored.key = topic.key) (fun _ => topic) topics)
    else (.ok topic, topics ++ [topic])
  | .count ern available size =>
    (.ok (), updateFirst (fun topic => topic.ern = ern) (Topic.counted available size) topics)
  | .recordSend ern sent =>
    (.ok (), updateFirst (fun topic => topic.ern = ern)
      (fun topic => { topic with send := topic.send + sent }) topics)
  | .recordResend ern resent =>
    (.ok (), updateFirst (fun topic => topic.ern = ern)
      (fun topic => { topic with resend := topic.resend + resent }) topics)
  | .zero erns => (.ok (), updateAll (fun topic => topic.ern ∈ erns) Topic.zeroed topics)
  | .setCounts ern available size =>
    (.ok (), updateFirst (fun topic => topic.ern = ern)
      (fun topic => { topic with available := available, size := size }) topics)
  | .deleteByErn ern => (.ok (), topics.filter fun topic => topic.ern ≠ ern)

/-! ### Message statements -/

/-- The statements over the message collection. -/
inductive MessageStatement where
  | insert (doc : MessageDocument)
  | findById (messageId : String)
  | upsert (doc : MessageDocument)
  | rewriteBody (messageId body contentType : String)
  | listHeld (topicErn : String) (limit : Nat)
  | listAfter (topicErn : String) (limit : Nat) (listed : List String)
  | markDelivered (messageId : String)
  | deleteOne (messageId : String)
  | deleteTopics (erns : List String)
  | countByTopic

/-- A deletion of one message answers how many it deleted. -/
@[reducible] def MessageStatement.Answer : MessageStatement → Type
  | .findById _ => Option MessageDocument
  | .rewriteBody .. => Option MessageDocument
  | .listHeld .. => List MessageDocument
  | .listAfter .. => List MessageDocument
  | .deleteOne _ => Nat
  | .countByTopic => List (String × Int × Int)
  | _ => Unit

namespace MessageDocument

/-- Given another body: body, size and content type move together. -/
def rewritten (body contentType : String) (doc : MessageDocument) : MessageDocument :=
  { doc with body := body, size := body.utf8ByteSize, contentType := contentType }

/-- No longer held. -/
def delivered (doc : MessageDocument) : MessageDocument :=
  { doc with status := .published }

/-- What `$set` with a whole message leaves: every field that was written, over a document that
keeps its creation stamp, and its expiry where none was written. -/
def replacedBy (written stored : MessageDocument) : MessageDocument :=
  { written with
    created := stored.created
    expiresAt := written.expiresAt.orElse fun _ => stored.expiresAt }

/-- The filter of a start: what the topic holds back. -/
def isHeldFor (topicErn : String) (doc : MessageDocument) : Bool :=
  decide (doc.topicErn = topicErn) && decide (doc.status = .held)

/-- The filter of a resend: what comes in the topic after the messages listed so far. Messages are
listed in the order they were inserted in, which is that of their object ids. -/
def isAfter (topicErn : String) (listed : List String) (doc : MessageDocument) : Bool :=
  decide (doc.topicErn = topicErn) && decide (doc.messageId ∉ listed)

def weight (ern : String) (doc : MessageDocument) : Int × Int :=
  if doc.topicErn = ern then (1, doc.size) else 0

end MessageDocument

/-- How many messages a topic has, and how many bytes. -/
def tally (msgs : List MessageDocument) (ern : String) : Int × Int :=
  (msgs.map (weight ern)).sum

def byCreation (msgs : List MessageDocument) : List MessageDocument :=
  msgs.insertionSort fun first second => first.created ≤ second.created

/-- One statement over the message collection. -/
def MessageStatement.apply (msgs : List MessageDocument) :
    (stmt : MessageStatement) → Except StoreError stmt.Answer × List MessageDocument
  | .insert doc =>
    if msgs.any fun other => other.messageId = doc.messageId then
      (.error .duplicateKey, msgs)
    else (.ok (), msgs ++ [doc])
  | .findById messageId =>
    (.ok (msgs.find? fun doc => doc.messageId = messageId), msgs)
  | .upsert doc =>
    if msgs.any fun stored => stored.messageId = doc.messageId then
      (.ok (), updateFirst (fun stored => stored.messageId = doc.messageId) doc.replacedBy msgs)
    else (.ok (), msgs ++ [doc])
  | .rewriteBody messageId body contentType =>
    (.ok (msgs.find? fun doc => doc.messageId = messageId),
      updateFirst (fun doc => doc.messageId = messageId)
        (rewritten body contentType) msgs)
  | .listHeld topicErn limit =>
    (.ok ((byCreation (msgs.filter (isHeldFor topicErn))).take limit), msgs)
  | .listAfter topicErn limit listed =>
    (.ok ((msgs.filter (isAfter topicErn listed)).take limit), msgs)
  | .markDelivered messageId =>
    (.ok (), updateFirst (fun doc => doc.messageId = messageId) delivered msgs)
  | .deleteOne messageId =>
    (.ok (if msgs.any fun doc => doc.messageId = messageId then 1 else 0),
      msgs.eraseP fun doc => doc.messageId = messageId)
  | .deleteTopics erns => (.ok (), msgs.filter fun doc => doc.topicErn ∉ erns)
  | .countByTopic =>
    (.ok ((msgs.map topicErn).dedup.map fun ern => (ern, tally msgs ern)), msgs)

/-! ### The world -/

/-- The subscriptions of a topic as a process has read them, and until when it believes them. -/
structure CachedSubscriptions where
  subscriptions : List Subscription
  expiresAt : Time

/-- What a handler of ENS may ask for. -/
inductive Req where
  | bus (req : Bus.Req)
  | topic (stmt : TopicStatement)
  | message (stmt : MessageStatement)
  | subscriptionsOf (sourceErn : String)
  | cachedSubscriptions (sourceErn : String)
  | rememberSubscriptions (sourceErn : String) (now : Time) (subscriptions : List Subscription)
  | publishing (publication : Publication)

/-- A statement may fail. A process's own memory does not. -/
@[reducible] def Req.Answer : Req → Type
  | .bus req => req.Answer
  | .topic stmt => Except StoreError stmt.Answer
  | .message stmt => Except StoreError stmt.Answer
  | .subscriptionsOf _ => Except StoreError (List Subscription)
  | .cachedSubscriptions _ => Time × Option (List Subscription)
  | .rememberSubscriptions .. => Unit
  | .publishing _ => Unit

/-- What the event bus keeps, the three collections of ENS, what every process remembers of the
subscriptions, and what has been published. -/
structure World where
  bus : Bus.World
  topics : List Topic
  messages : List MessageDocument
  subscriptions : List Subscription
  caches : Nat → List (String × CachedSubscriptions)
  published : List Publication

/-- A store in which modules and topics may have subscribers, and nothing else. -/
def World.opened (subscribers : Bus.Subscriptions) (subscriptions : List Subscription) : World :=
  ⟨⟨[], [], subscribers, fun _ => .fresh, 0⟩, [], [], subscriptions, fun _ => [], []⟩

/-- How many requests have been made. -/
abbrev World.moment (world : World) : Nat := world.bus.moment

abbrev World.tick (world : World) : World :=
  { world with bus := { world.bus with moment := world.bus.moment + 1 } }

/-- How many topics one process remembers the subscriptions of before it makes room. -/
def kCacheEntries : Nat := 4096

/-- The locked part of a lookup that stores what was loaded. -/
def rememberIn (ttl now : Time) (sourceErn : String) (subscriptions : List Subscription)
    (cache : List (String × CachedSubscriptions)) : List (String × CachedSubscriptions) :=
  if ttl ≤ 0 then cache
  else
    let fresh := cache.filter fun entry => now < entry.2.expiresAt
    let room := if cache.length < kCacheEntries then cache
      else if fresh.length < kCacheEntries then fresh else []
    (sourceErn, ⟨subscriptions, now + ttl⟩) :: room.filter fun entry => entry.1 ≠ sourceErn

/-- One request of one process. Every request is a moment of its own. -/
def machine (env : Env) (proc : Nat) : Machine Req Req.Answer World
  | .bus req, world =>
    let outcome := Bus.machine env.toEnv proc req world.bus
    (outcome.1, { world with bus := outcome.2 })
  | .topic stmt, world =>
    let outcome := underOutage (env.outage world.moment) world.topics (stmt.apply world.topics)
    (outcome.1, { world.tick with topics := outcome.2 })
  | .message stmt, world =>
    let outcome := underOutage (env.outage world.moment) world.messages (stmt.apply world.messages)
    (outcome.1, { world.tick with messages := outcome.2 })
  | .subscriptionsOf sourceErn, world =>
    let outcome := underOutage (env.outage world.moment) world.subscriptions
      (.ok (world.subscriptions.filter fun subscription => subscription.sourceErn = sourceErn),
        world.subscriptions)
    (outcome.1, world.tick)
  | .cachedSubscriptions sourceErn, world =>
    let now := env.steadyClock world.moment
    let found := (world.caches proc).find? fun entry =>
      entry.1 = sourceErn ∧ now < entry.2.expiresAt
    ((now, if env.topicCacheTtl ≤ 0 then none
      else found.map fun entry => entry.2.subscriptions), world.tick)
  | .rememberSubscriptions sourceErn now subscriptions, world =>
    ((), { world.tick with
      caches := Function.update world.caches proc
        (rememberIn env.topicCacheTtl now sourceErn subscriptions (world.caches proc)) })
  | .publishing publication, world =>
    ((), { world.tick with published := world.published ++ [publication] })

section Machine

variable (env : Env) (proc : Nat) (world : World)

@[simp] theorem machine_moment (req : Req) :
    (machine env proc req world).2.moment = world.moment + 1 := by
  cases req with
  | bus req => exact Bus.machine_moment env.toEnv proc world.bus req
  | _ => rfl

end Machine

end Euclid.Ens
