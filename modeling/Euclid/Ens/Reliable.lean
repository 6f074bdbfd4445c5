/-
This file says what the operations of ENS do when no statement fails: what they leave in the
collections, and what they publish.

Publishing an event touches neither topics nor messages, so between two statements of ENS on
its own collections nothing happens to them. What a lookup of subscriptions answers is what
is stored, as long as no process remembers anything else.
-/

import Euclid.Ens.Server

namespace Euclid.Ens

open Program Collection List Nat MessageStatement
open Bus (Json Time StoreError)

/-- No statement fails. -/
def Reliable (env : Env) : Prop := ∀ moment, env.outage moment = none

/-- Surroundings in which nothing fails, and a moment takes a millisecond. -/
def steady : Env := .past (.stepping 1)

theorem steady_reliable : Reliable steady := fun _ => rfl

/-! ### What one request does -/

section Machine

variable {env : Env} (proc : Nat) (world : World)

theorem machine_topic (reliable : Reliable env) (stmt : TopicStatement) :
    machine env proc (.topic stmt) world =
      ((stmt.apply world.topics).1, { world.tick with topics := (stmt.apply world.topics).2 }) := by
  simp only [machine, reliable world.moment, Bus.underOutage]

theorem machine_message (reliable : Reliable env) (stmt : MessageStatement) :
    machine env proc (.message stmt) world =
      ((stmt.apply world.messages).1,
        { world.tick with messages := (stmt.apply world.messages).2 }) := by
  simp only [machine, reliable world.moment, Bus.underOutage]

theorem machine_subscriptionsOf (reliable : Reliable env) (sourceErn : String) :
    machine env proc (.subscriptionsOf sourceErn) world =
      (.ok (world.subscriptions.filter fun subscription => subscription.sourceErn = sourceErn),
        world.tick) := by
  simp only [machine, reliable world.moment, Bus.underOutage]

end Machine

/-! ### What stays as it is -/

/-- Topics, messages and subscriptions are as they were, some moments later. -/
structure Untouched (before after : World) : Prop where
  topics : after.topics = before.topics
  messages : after.messages = before.messages
  subscriptions : after.subscriptions = before.subscriptions
  moment : before.moment ≤ after.moment

theorem Untouched.refl (world : World) : Untouched world world := ⟨rfl, rfl, rfl, le_rfl⟩

theorem Untouched.trans {first second third : World} (left : Untouched first second)
    (right : Untouched second third) : Untouched first third :=
  ⟨right.topics.trans left.topics, right.messages.trans left.messages,
    right.subscriptions.trans left.subscriptions, left.moment.trans right.moment⟩

/-- What processes remember of the subscriptions is what is stored. -/
def Coherent (world : World) : Prop :=
  ∀ proc, ∀ entry ∈ world.caches proc, entry.2.subscriptions =
    world.subscriptions.filter fun subscription => subscription.sourceErn = entry.1

/-- The topic is the first of its ERN in the collection. -/
abbrev World.HasTopic (world : World) (ern : String) (topic : Topic) : Prop :=
  world.topics.find? (fun stored => stored.ern = ern) = some topic

/-- The subscriptions a message published to a topic goes to. -/
def World.queues (world : World) (ern : String) : List Subscription :=
  queuesOf (world.subscriptions.filter fun subscription => subscription.sourceErn = ern)

/-- What every request of the event bus keeps. -/
structure Aside (before after : World) : Prop where
  untouched : Untouched before after
  published : after.published = before.published
  caches : after.caches = before.caches

theorem Aside.refl (world : World) : Aside world world := ⟨.refl world, rfl, rfl⟩

theorem machine_bus_aside (env : Env) (proc : Nat) (req : Bus.Req)
    (world : World) : Aside world (machine env proc (.bus req) world).2 := by
  refine ⟨⟨rfl, rfl, rfl, ?_⟩, rfl, rfl⟩
  rw [machine_moment]
  exact le_succ _

section Ensures

variable {env : Env} {proc : Nat} {Fault Result : Type}
variable {assumed : Req → World → Prop} {world : World}

theorem onBus_ensures {operation : Bus.Op Empty Result} :
    (onBus operation : Op Fault Result).Ensures (machine env proc) assumed world
      fun outcome after => (∃ result, outcome = .ok result) ∧ Aside world after := by
  unfold onBus
  rw [ensures_catching]
  induction operation generalizing world with
  | done result => exact ⟨⟨result, rfl⟩, .refl world⟩
  | raise fault => exact fault.elim
  | ask req next ih =>
    intro _
    have step := machine_bus_aside env proc req world
    refine (ih _).mono fun outcome after kept => ?_
    cases outcome with
    | error fault => exact fault.elim
    | ok result =>
      obtain ⟨ended, later⟩ := kept
      exact ⟨ended, step.untouched.trans later.untouched, later.published.trans step.published,
        later.caches.trans step.caches⟩

theorem publish_ensures {publication : Publication} :
    (publish env publication : Op Fault Unit).Ensures
      (machine env proc) assumed world fun outcome after =>
        outcome = .ok () ∧ Untouched world after ∧ after.caches = world.caches ∧
          after.published = world.published ++ [publication] := by
  unfold publish
  rw [ensures_bind, ensures_issue]
  intro _
  refine onBus_ensures.mono fun outcome after kept => ?_
  obtain ⟨⟨⟨⟩, rfl⟩, aside⟩ := kept
  have made : Untouched world (machine env proc (.publishing publication) world).2 :=
    ⟨rfl, rfl, rfl, le_succ _⟩
  exact ⟨rfl, made.trans aside.untouched, aside.caches, aside.published⟩

theorem publishEach_ensures {publicationOf : Subscription → Publication} :
    ∀ (subscriptions : List Subscription) {world : World},
      (forEach subscriptions fun subscription =>
          publish env (publicationOf subscription) : Op Fault Unit).Ensures
        (machine env proc) assumed world fun outcome after =>
          outcome = .ok () ∧ Untouched world after ∧ after.caches = world.caches ∧
            after.published = world.published ++ subscriptions.map publicationOf
  | [], world => ⟨rfl, .refl world, rfl, (append_nil _).symm⟩
  | subscription :: rest, world => by
    unfold forEach
    rw [ensures_bind]
    refine publish_ensures.mono fun outcome middle kept => ?_
    obtain ⟨rfl, untouched, caches, published⟩ := kept
    refine (publishEach_ensures rest).mono fun outcome after kept => ?_
    obtain ⟨ended, later, laterCaches, laterPublished⟩ := kept
    refine ⟨ended, untouched.trans later, laterCaches.trans caches, ?_⟩
    rw [laterPublished, published, append_assoc, map_cons, singleton_append]

/-! ### Statements and repository operations -/

variable {assumed : Req → World → Prop} (reliable : Reliable env)

include reliable in
theorem onTopics_ensures {stmt : TopicStatement}
    {post : Except StoreError stmt.Answer → World → Prop} :
    (onTopics stmt).Ensures (machine env proc) assumed world post ↔
      (assumed (.topic stmt) world → post (stmt.apply world.topics).1
        { world.tick with topics := (stmt.apply world.topics).2 }) := by
  unfold onTopics
  rw [ensures_bind, ensures_issue, machine_topic proc world reliable]
  dsimp only
  rw [ensures_ofExcept]

include reliable in
theorem onMessages_ensures {stmt : MessageStatement}
    {post : Except StoreError stmt.Answer → World → Prop} :
    (onMessages stmt).Ensures (machine env proc) assumed world post ↔
      (assumed (.message stmt) world → post (stmt.apply world.messages).1
        { world.tick with messages := (stmt.apply world.messages).2 }) := by
  unfold onMessages
  rw [ensures_bind, ensures_issue, machine_message proc world reliable]
  dsimp only
  rw [ensures_ofExcept]

theorem ensures_readSystemClock {post : Except Fault Time → World → Prop} :
    (readSystemClock : Op Fault Time).Ensures (machine env proc) assumed world post ↔
      (assumed (.bus .systemClock) world → post (.ok (env.systemClock world.moment)) world.tick) :=
  Iff.rfl

theorem ensures_createRandomUuid {post : Except Fault String → World → Prop} :
    (createRandomUuid : Op Fault String).Ensures (machine env proc) assumed world post ↔
      (assumed (.bus .randomUuid) world → post (.ok (env.randomUuid world.moment)) world.tick) :=
  Iff.rfl

include reliable in
theorem findTopicByErn_ensures (ern : String) {post : Except Fault (Option Topic) → World → Prop} :
    (findTopicByErn ern : Op Fault (Option Topic)).Ensures (machine env proc) assumed world post ↔
      (assumed (.topic (.findByErn ern)) world →
        post (.ok (world.topics.find? fun topic => topic.ern = ern)) world.tick) := by
  unfold findTopicByErn
  rw [orAnswer, ensures_catching, onTopics_ensures reliable]
  rfl

include reliable in
theorem findMessageById_ensures (messageId : String)
    {post : Except Fault (Option Message) → World → Prop} :
    (findMessageById env messageId : Op Fault (Option Message)).Ensures
        (machine env proc) assumed world post ↔
      (assumed (.message (.findById messageId)) world →
        post (.ok ((world.messages.find? fun doc => doc.messageId = messageId).map
          (Message.fromDocument env))) world.tick) := by
  unfold findMessageById
  rw [orAnswer, ensures_catching, ensures_bind, onMessages_ensures reliable]
  rfl

/-! ### Delivering -/

theorem coherent_of_same {before after : World} (untouched : Untouched before after)
    (caches : after.caches = before.caches) (coherent : Coherent before) : Coherent after := by
  intro proc entry mem
  rw [caches] at mem
  rw [untouched.subscriptions]
  exact coherent proc entry mem

variable {sourceErn : String}

theorem mem_rememberIn {ttl now : Time} {subscriptions : List Subscription}
    {cache : List (String × CachedSubscriptions)} {entry : String × CachedSubscriptions}
    (mem : entry ∈ rememberIn ttl now sourceErn subscriptions cache) :
    entry = (sourceErn, ⟨subscriptions, now + ttl⟩) ∨ entry ∈ cache := by
  unfold rememberIn at mem
  split at mem
  · exact .inr mem
  · rcases mem_cons.mp mem with rfl | kept
    · exact .inl rfl
    · have inRoom := (mem_filter.mp kept).1
      split at inRoom
      · exact .inr inRoom
      · split at inRoom
        · exact .inr (mem_filter.mp inRoom).1
        · nomatch inRoom

theorem Coherent.cached (coherent : Coherent world) {subscriptions : List Subscription}
    (remembered : (machine env proc (.cachedSubscriptions sourceErn) world).1.2 =
      some subscriptions) :
    subscriptions =
      world.subscriptions.filter fun subscription => subscription.sourceErn = sourceErn := by
  simp only [machine] at remembered
  split at remembered
  · cases remembered
  · obtain ⟨entry, found, rfl⟩ := Option.map_eq_some_iff.mp remembered
    have selected := List.find?_some found
    simp only [decide_eq_true_eq] at selected
    rw [coherent proc entry (mem_of_find?_eq_some found), selected.1]

include reliable in
/-- The subscriptions of a topic are read, from the store or from the process's memory. -/
theorem listSubscriptionsBySourceErnCached_ensures :
    (listSubscriptionsBySourceErnCached sourceErn : Op Fault _).Ensures
      (machine env proc) assumed world fun outcome after =>
        ∃ subscriptions, outcome = .ok subscriptions ∧ Untouched world after ∧
          after.published = world.published ∧
          (Coherent world → Coherent after ∧ subscriptions =
            world.subscriptions.filter fun subscription => subscription.sourceErn = sourceErn) := by
  unfold listSubscriptionsBySourceErnCached
  rw [ensures_bind, ensures_issue]
  intro _
  have looked : Aside world
      (machine env proc (.cachedSubscriptions sourceErn) world).2 :=
    ⟨⟨rfl, rfl, rfl, le_succ _⟩, rfl, rfl⟩
  cases remembered : (machine env proc (.cachedSubscriptions sourceErn) world).1.2 with
  | some subscriptions =>
    simp only [remembered]
    exact ⟨subscriptions, rfl, looked.untouched, looked.published, fun coherent =>
      ⟨coherent_of_same looked.untouched looked.caches coherent, coherent.cached remembered⟩⟩
  | none =>
    simp only [remembered]
    rw [orAnswer, ensures_catching, ensures_bind, ensures_issue]
    intro _
    rw [machine_subscriptionsOf proc _ reliable]
    dsimp only
    rw [ensures_bind, ensures_ofExcept]
    dsimp only
    rw [ensures_bind, ensures_issue]
    intro _
    have read : Untouched world
        (machine env proc (.cachedSubscriptions sourceErn) world).2.tick :=
      ⟨rfl, rfl, rfl, (le_succ _).trans (le_succ _)⟩
    refine ⟨_, rfl, read.trans ⟨rfl, rfl, rfl, le_succ _⟩, rfl, fun coherent => ⟨?_, rfl⟩⟩
    intro other entry mem
    -- only this process remembers anything more, and that is what it has just read
    by_cases own : other = proc
    · subst own
      replace mem := (congrArg (entry ∈ ·) (Function.update_self ..)).mp mem
      rcases mem_rememberIn mem with rfl | before
      · rfl
      · exact coherent other entry before
    · replace mem := (congrArg (entry ∈ ·) (Function.update_of_ne own ..)).mp mem
      exact coherent other entry mem

include reliable in
theorem deliverToSubscriptions_ensures
    (topicErn messageId body : String) (attributes : Eqs.Attributes)
    (systemAttributes : List (String × Json)) (priority bucketPriority : String) :
    (deliverToSubscriptions env topicErn messageId body attributes systemAttributes priority
        bucketPriority : Op Fault Nat).Ensures
      (machine env proc) assumed world fun outcome after =>
        ∃ queues : List Subscription, outcome = .ok queues.length ∧ Untouched world after ∧
          after.published = world.published ++ queues.map (publicationFor env topicErn
            messageId body attributes systemAttributes priority bucketPriority) ∧
          (Coherent world → Coherent after ∧ queues = world.queues topicErn) := by
  unfold deliverToSubscriptions
  rw [ensures_bind]
  refine (listSubscriptionsBySourceErnCached_ensures reliable).mono
    fun outcome middle kept => ?_
  obtain ⟨subscriptions, rfl, untouched, published, coherently⟩ := kept
  dsimp only
  rw [ensures_bind]
  refine (publishEach_ensures (queuesOf subscriptions)).mono fun outcome after kept => ?_
  obtain ⟨rfl, later, caches, publications⟩ := kept
  refine ⟨queuesOf subscriptions, rfl, untouched.trans later, by rw [publications, published],
    fun coherent => ?_⟩
  obtain ⟨stillCoherent, read⟩ := coherently coherent
  exact ⟨coherent_of_same later caches stillCoherent, by rw [read]; rfl⟩

/-! ### Storing and releasing -/

/-- Nothing has been published, and the subscriptions are what they were. -/
structure Quietly (before after : World) : Prop where
  subscriptions : after.subscriptions = before.subscriptions
  caches : after.caches = before.caches
  published : after.published = before.published
  moment : before.moment ≤ after.moment

theorem Quietly.trans {first second third : World} (left : Quietly first second)
    (right : Quietly second third) : Quietly first third :=
  ⟨right.subscriptions.trans left.subscriptions, right.caches.trans left.caches,
    right.published.trans left.published, left.moment.trans right.moment⟩

theorem Quietly.coherent {before after : World} (quiet : Quietly before after)
    (coherent : Coherent before) : Coherent after := by
  intro proc entry mem
  rw [quiet.caches] at mem
  rw [quiet.subscriptions]
  exact coherent proc entry mem

theorem tick_quietly (world : World) : Quietly world world.tick := ⟨rfl, rfl, rfl, le_succ _⟩

theorem topics_quietly {world : World} {topics : List Topic} :
    Quietly world { world.tick with topics := topics } := ⟨rfl, rfl, rfl, le_succ _⟩

theorem messages_quietly (world : World) (msgs : List MessageDocument) :
    Quietly world { world.tick with messages := msgs } := ⟨rfl, rfl, rfl, le_succ _⟩

theorem expiryOf_ensures {topic : Topic} : (expiryOf env topic : Op Fault (Option Time)).Ensures
      (machine env proc) assumed world fun outcome after =>
        ∃ expiresAt, outcome = .ok expiresAt ∧ Aside world after := by
  unfold expiryOf
  dsimp only
  split
  · exact ⟨none, rfl, .refl world⟩
  · rw [ensures_bind, ensures_readSystemClock]
    intro _
    exact ⟨_, rfl, ⟨rfl, rfl, rfl, le_succ _⟩, rfl, rfl⟩

variable {msgs : List MessageDocument} {doc : MessageDocument}

theorem insert_unused (unused : ∀ other ∈ msgs, other.messageId ≠ doc.messageId) :
    (insert doc).apply msgs = (.ok (), msgs ++ [doc]) :=
  if_neg (by simpa using unused)

theorem upsert_stored (stored : ∃ other ∈ msgs, other.messageId = doc.messageId) :
    (upsert doc).apply msgs =
      (.ok (), updateFirst (fun other => other.messageId = doc.messageId) doc.replacedBy msgs) :=
  if_pos (by simpa using stored)

section

variable (reliable : Reliable env)

include reliable

theorem upsertMessage_ensures {msg : Message}
    (stored : ∃ other ∈ world.messages, other.messageId = msg.messageId) :
    (upsertMessage env msg : Op Fault Unit).Ensures
      (machine env proc) assumed world fun outcome after => outcome = .ok () ∧
        after.topics = world.topics ∧
        after.messages = updateFirst (fun other => other.messageId = msg.messageId)
          (msg.toDocument env msg.created).replacedBy world.messages ∧ Quietly world after := by
  unfold upsertMessage
  rw [orAnswer, ensures_catching, onMessages_ensures reliable]
  intro _
  have wrote : (upsert (msg.toDocument env msg.created)).apply
      world.messages = _ := upsert_stored stored
  rw [wrote]
  exact ⟨rfl, rfl, rfl, messages_quietly world _⟩

theorem storeMessage_ensures {msg : Message}
    (unused : ∀ doc ∈ world.messages, doc.messageId ≠ msg.messageId) :
    (storeMessage env msg).Ensures (machine env proc) assumed world
      fun outcome after => ∃ created, outcome = .ok () ∧ after.topics = world.topics ∧
        after.messages = world.messages ++ [msg.toDocument env created] ∧ Quietly world after := by
  unfold storeMessage
  rw [ensures_bind, ensures_readSystemClock]
  intro _
  dsimp only
  rw [onMessages_ensures reliable]
  intro _
  have inserted : (insert (msg.toDocument env
      (env.systemClock world.moment))).apply world.messages = _ := insert_unused unused
  rw [inserted]
  exact ⟨env.systemClock world.moment, rfl, rfl, rfl,
    (tick_quietly world).trans (messages_quietly _ _)⟩

/-- A message of a stored topic is counted and stored, with the state the topic gives it. -/
theorem publishMessage_ensures {topic : Topic}
    (messageId ern topicErn body : String) (attributes : Eqs.Attributes) (priority : String)
    (found : world.HasTopic topicErn topic)
    (unused : ∀ doc ∈ world.messages, doc.messageId ≠ messageId) :
    (publishMessage env messageId ern topicErn body attributes priority :
        Op Fault Message).Ensures (machine env proc) assumed world
      fun outcome after => ∃ expiresAt created msg,
        msg = (newMessage env messageId ern topicErn body attributes
          priority).decidedBy topic expiresAt ∧ outcome = .ok msg ∧
        after.topics = updateFirst (fun stored => stored.ern = topicErn)
          (Topic.counted 1 body.utf8ByteSize) world.topics ∧
        after.messages = world.messages ++ [msg.toDocument env created] ∧ Quietly world after := by
  unfold publishMessage
  rw [ensures_bind, orAnswer, ensures_catching, ensures_bind, onTopics_ensures reliable]
  intro _
  simp only [TopicStatement.apply, found, pure_eq]
  show Ensures _ _ (_ >>= _) _ _
  rw [ensures_bind]
  refine expiryOf_ensures.mono fun outcome middle kept => ?_
  obtain ⟨expiresAt, rfl, aside⟩ := kept
  dsimp only
  rw [ensures_bind, orAnswer, ensures_catching, ensures_bind, onTopics_ensures reliable]
  intro _
  refine (storeMessage_ensures reliable ?_).mono fun outcome after kept => ?_
  · intro doc mem
    replace mem := aside.untouched.messages ▸ mem
    exact unused doc mem
  · obtain ⟨created, rfl, topics, msgs, quiet⟩ := kept
    refine ⟨expiresAt, created, _, rfl, rfl, ?_, ?_, ?_⟩
    · rw [topics, aside.untouched.topics]
      rfl
    · rw [msgs, aside.untouched.messages]
    · exact (((tick_quietly world).trans
        ⟨aside.untouched.subscriptions, aside.caches, aside.published,
          aside.untouched.moment⟩).trans
          topics_quietly).trans quiet

theorem recordSend_ensures (ern : String) (sent : Int) :
    (recordSend ern sent : Op Fault Unit).Ensures (machine env proc) assumed world
      fun outcome after => outcome = .ok () ∧ after.messages = world.messages ∧
        (after.topics = world.topics ∨ after.topics = updateFirst (fun topic => topic.ern = ern)
            (fun topic => { topic with send := topic.send + sent }) world.topics) ∧
        Quietly world after := by
  unfold recordSend onlyIf
  split
  · rw [orAnswer, ensures_catching, onTopics_ensures reliable]
    intro _
    exact ⟨rfl, rfl, .inr rfl, topics_quietly⟩
  · exact ⟨rfl, rfl, .inl rfl, ⟨rfl, rfl, rfl, le_rfl⟩⟩

theorem recordResend_ensures (ern : String) (resent : Int) :
    (recordResend ern resent : Op Fault Unit).Ensures (machine env proc) assumed
      world fun outcome after => outcome = .ok () ∧ after.messages = world.messages ∧
        (after.topics = world.topics ∨ after.topics = updateFirst (fun topic => topic.ern = ern)
            (fun topic => { topic with resend := topic.resend + resent }) world.topics) ∧
        Quietly world after := by
  unfold recordResend onlyIf
  split
  · rw [orAnswer, ensures_catching, onTopics_ensures reliable]
    intro _
    exact ⟨rfl, rfl, .inr rfl, topics_quietly⟩
  · exact ⟨rfl, rfl, .inl rfl, ⟨rfl, rfl, rfl, le_rfl⟩⟩

end

theorem upsert_cases (topics : List Topic) (topic : Topic) : (topic.clashes topics ∧
        (TopicStatement.upsert topic).apply topics = (.error .duplicateKey, topics)) ∨
      (¬topic.clashes topics ∧ (∃ stored ∈ topics, stored.key = topic.key) ∧
        (TopicStatement.upsert topic).apply topics = (.ok topic,
          updateFirst (fun stored => stored.key = topic.key) (fun _ => topic) topics)) ∨
      (¬topic.clashes topics ∧ (∀ stored ∈ topics, stored.key ≠ topic.key) ∧
        (TopicStatement.upsert topic).apply topics = (.ok topic, topics ++ [topic])) := by
  by_cases clashes : topic.clashes topics
  · exact .inl ⟨clashes, if_pos clashes⟩
  · by_cases stored : ∃ other ∈ topics, other.key = topic.key
    · exact .inr (.inl ⟨clashes, stored, (if_neg clashes).trans (if_pos (by simpa using stored))⟩)
    · have absent : ∀ other ∈ topics, other.key ≠ topic.key :=
        fun other mem same => stored ⟨other, mem, same⟩
      exact .inr (.inr ⟨clashes, absent, (if_neg clashes).trans (if_neg (by simpa using absent))⟩)

include reliable

theorem upsertTopic_ensures (topic : Topic) :
    (upsertTopic topic : Op Fault Topic).Ensures (machine env proc) assumed world
      fun outcome after => outcome = .ok topic ∧ after.messages = world.messages ∧
        after.topics = ((TopicStatement.upsert topic).apply world.topics).2 ∧
        Quietly world after := by
  unfold upsertTopic
  rw [orAnswer, ensures_catching, onTopics_ensures reliable]
  intro _
  rcases upsert_cases world.topics topic with ⟨_, wrote⟩ | ⟨_, _, wrote⟩ | ⟨_, _, wrote⟩
  · rw [wrote]
    exact ⟨rfl, rfl, rfl, topics_quietly⟩
  · rw [wrote]
    exact ⟨rfl, rfl, rfl, topics_quietly⟩
  · rw [wrote]
    exact ⟨rfl, rfl, rfl, topics_quietly⟩

/-- A delivered message is deleted and taken out of its topic's figures, if it is there. -/
theorem deleteDeliveredMessage_ensures (topicErn messageId : String) (size : Int) :
    (deleteDeliveredMessage topicErn messageId size : Op Fault Bool).Ensures
      (machine env proc) assumed world fun outcome after =>
        Quietly world after ∧
        ((outcome = .ok false ∧ (∀ doc ∈ world.messages, doc.messageId ≠ messageId) ∧
            after.topics = world.topics ∧ after.messages = world.messages) ∨
          (outcome = .ok true ∧ (∃ doc ∈ world.messages, doc.messageId = messageId) ∧
            after.topics = updateFirst (fun topic => topic.ern = topicErn)
              (Topic.counted (-1) (-size)) world.topics ∧
            after.messages = world.messages.eraseP fun doc => doc.messageId = messageId)) := by
  unfold deleteDeliveredMessage
  rw [orAnswer, ensures_catching, ensures_bind, onMessages_ensures reliable]
  intro _
  simp only [apply]
  by_cases stored : ∃ doc ∈ world.messages, doc.messageId = messageId
  · have any : (world.messages.any fun doc => doc.messageId = messageId) = true := by
      simpa using stored
    rw [any, if_pos rfl, if_neg one_ne_zero, ensures_bind, onTopics_ensures reliable]
    intro _
    exact ⟨(messages_quietly world _).trans topics_quietly, .inr ⟨rfl, stored, rfl, rfl⟩⟩
  · have absent : ∀ doc ∈ world.messages, doc.messageId ≠ messageId :=
      fun doc mem same => stored ⟨doc, mem, same⟩
    have any : (world.messages.any fun doc => doc.messageId = messageId) = false := by
      simpa using absent
    have same : (world.messages.eraseP fun doc => doc.messageId = messageId) =
        world.messages := eraseP_of_forall_not (by simpa using absent)
    rw [any, same]
    exact ⟨messages_quietly world _, .inl ⟨rfl, absent, rfl, rfl⟩⟩

end Ensures

end Euclid.Ens
