/-
This file follows a message from its publish to a stopped topic to the start that releases it,
and compares what is then published with what would have been published at once.

At once a message is delivered from the arguments of the call. Late it is delivered from what
the repository stored of them. The attributes come back from the store as they went in, but
what a bucket notification carries beside them is not stored at all.
-/

import Euclid.Ens.Exactness

namespace Euclid.Ens

open Program Collection List Option MessageDocument
open Bus (Json Time StoreError EventEnvelope)
open Eqs (Caller Response Attributes)

variable {env : Env} {proc : Nat} {world : World} {Fault Result : Type}

/-! ### What releasing does to the messages -/

/-- The messages with some identifiers are no longer held, or no longer there, and the others are
as they were. -/
structure Released (ids : List String) (before after : List MessageDocument) : Prop where
  apart : Apart after
  others : ∀ doc, doc.messageId ∉ ids → (doc ∈ after ↔ doc ∈ before)
  released : ∀ doc ∈ after, doc.messageId ∈ ids → doc.status = .published

variable {msgs : List MessageDocument}

theorem Released.refl (apart : Apart msgs) : Released [] msgs msgs :=
  ⟨apart, fun _ _ => Iff.rfl, nofun⟩

theorem Released.trans {earlier later : List String} {first second third : List MessageDocument}
    (left : Released earlier first second) (right : Released later second third) :
    Released (earlier ++ later) first third where
  apart := right.apart
  others := by
    intro doc absent
    rw [mem_append, not_or] at absent
    exact (right.others doc absent.2).trans (left.others doc absent.1)
  released := by
    intro doc mem among
    by_cases late : doc.messageId ∈ later
    · exact right.released doc mem late
    · have early := (mem_append.mp among).resolve_right late
      exact left.released doc ((right.others doc late).mp mem) early

theorem Apart.unique (apart : Apart msgs) (messageId : String) :
    msgs.Pairwise fun first second => ¬(decide (first.messageId = messageId) = true ∧
      decide (second.messageId = messageId) = true) :=
  pairwise_of_key apart fun _ selected => of_decide_eq_true selected

variable {messageId : String}

theorem released_markDelivered (apart : Apart msgs) :
    Released [messageId] msgs (updateFirst (fun doc => doc.messageId = messageId)
      MessageDocument.delivered msgs) := by
  rw [updateFirst_eq_updateAll (apart.unique messageId)]
  have sameIds : (updateAll (fun doc => doc.messageId = messageId)
      MessageDocument.delivered msgs).map MessageDocument.messageId =
        msgs.map MessageDocument.messageId := map_updateAll fun _ _ _ => rfl
  refine ⟨(congrArg List.Nodup sameIds).mpr apart, fun doc absent => ?_, fun doc mem among => ?_⟩
  · have other : doc.messageId ≠ messageId := by simpa using absent
    rw [mem_updateAll]
    constructor
    · rintro ⟨old, stored, rfl⟩
      split at other
      · rename_i selected
        exact absurd (of_decide_eq_true selected) other
      · rw [if_neg ‹_›]
        exact stored
    · intro stored
      exact ⟨doc, stored, if_neg (by simpa using other)⟩
  · obtain ⟨old, stored, rfl⟩ := mem_updateAll.mp mem
    split at among
    · rw [if_pos ‹_›]
      rfl
    · rename_i unselected
      exact absurd (mem_singleton.mp among) (by simpa using unselected)

theorem released_eraseP (apart : Apart msgs) : Released [messageId] msgs
      (msgs.eraseP fun doc => doc.messageId = messageId) := by
  refine ⟨apart.sublist (eraseP_sublist.map _), fun doc absent => ?_, fun doc mem among => ?_⟩
  · have other : doc.messageId ≠ messageId := by simpa using absent
    exact mem_eraseP_of_neg (by simpa using other)
  · rw [eraseP_eq_filter (apart.unique messageId)] at mem
    have other := (mem_filter.mp mem).2
    exact absurd (mem_singleton.mp among) (by simpa using other)

variable {ern : String}

theorem heldAfter_perm {before after page rest : List MessageDocument} (apart : Apart before)
    (listed : (page ++ rest).Perm (before.filter (isHeldFor ern)))
    (released : Released (page.map MessageDocument.messageId) before after) :
    rest.Perm (after.filter (isHeldFor ern)) := by
  have distinct : ((page ++ rest).map messageId).Nodup :=
    (listed.map _).nodup_iff.mpr (apart.sublist (filter_sublist.map _))
  rw [map_append, nodup_append] at distinct
  obtain ⟨_, restDistinct, disjoint⟩ := distinct
  refine (perm_ext_iff_of_nodup restDistinct.of_map
    (List.Nodup.of_map _ (released.apart.sublist (filter_sublist.map _)))).mpr fun doc => ?_
  rw [mem_filter]
  constructor
  · intro mem
    have stored := mem_filter.mp (listed.mem_iff.mp (mem_append_right _ mem))
    refine ⟨(released.others doc fun among => ?_).mpr stored.1, stored.2⟩
    exact disjoint _ among _ (mem_map_of_mem mem) rfl
  · rintro ⟨stored, isHeld⟩
    have absent : doc.messageId ∉ page.map messageId := fun among => by
      have published := released.released doc stored among
      simp [isHeldFor, published] at isHeld
    have before := mem_filter.mpr ⟨(released.others doc absent).mp stored, isHeld⟩
    refine (mem_append.mp (listed.mem_iff.mpr before)).resolve_left fun inPage => ?_
    exact absent (mem_map_of_mem inPage)

/-! ### One start -/

/-- What a start publishes for a message. -/
def lateFor (env : Env) (ern : String) (doc : MessageDocument)
    (queues : List Subscription) : List Publication :=
  queues.map (publicationFor env ern doc.messageId doc.body
    (attributesFromDocument env doc.attributes)
    (attributesToJson env (attributesFromDocument env doc.systemAttributes)) doc.priority "")

section Releasing

variable (reliable : Reliable env)

include reliable

variable {ern : String}

/-- One message is published to the queues of its topic, and held no longer. -/
theorem releaseMessage_ensures (coherent : Coherent world) (apart : Apart world.messages)
    {topic : Topic} {doc : MessageDocument} :
    (releaseMessage env topic ern (Message.fromDocument env doc)).Ensures
      (machine env proc) (fun _ _ => True) world fun outcome after =>
        outcome = .ok () ∧ Coherent after ∧ after.subscriptions = world.subscriptions ∧
          after.published = world.published ++ lateFor env ern doc (world.queues ern) ∧
          Released [doc.messageId] world.messages after.messages := by
  unfold releaseMessage
  rw [ensures_bind]
  refine (deliverToSubscriptions_ensures reliable ern _ _ _ _ _ _).mono
    fun outcome delivered kept => ?_
  obtain ⟨queues, rfl, untouched, published, coherently⟩ := kept
  obtain ⟨coherent, rfl⟩ := coherently coherent
  rw [← untouched.messages] at apart ⊢
  rw [← untouched.subscriptions]
  dsimp only
  split
  · rw [ensures_bind]
    refine (deleteDeliveredMessage_ensures reliable ern _ _).mono fun outcome after kept => ?_
    obtain ⟨quiet, ⟨rfl, absent, _, msgs⟩ | ⟨rfl, _, _, msgs⟩⟩ := kept
    · refine ⟨rfl, quiet.coherent coherent, quiet.subscriptions,
        quiet.published.trans published, ?_⟩
      rw [msgs]
      refine ⟨apart, fun _ _ => Iff.rfl, fun other mem among => ?_⟩
      exact absurd (mem_singleton.mp among) (absent other mem)
    · refine ⟨rfl, quiet.coherent coherent, quiet.subscriptions,
        quiet.published.trans published, ?_⟩
      rw [msgs]
      exact released_eraseP apart
  · unfold markMessageDelivered
    rw [onMessages_ensures reliable]
    intro _
    have quiet := messages_quietly delivered (updateFirst
      (fun other => other.messageId = doc.messageId) MessageDocument.delivered delivered.messages)
    exact ⟨rfl, quiet.coherent coherent, rfl, published, released_markDelivered apart⟩

theorem releaseEach_ensures (topic : Topic) (ern : String) :
    ∀ (docs : List MessageDocument) {world : World}, Coherent world → Apart world.messages →
      (forEach (docs.map (Message.fromDocument env))
          (releaseMessage env topic ern)).Ensures (machine env proc)
        (fun _ _ => True) world fun outcome after =>
          outcome = .ok () ∧ Coherent after ∧ after.subscriptions = world.subscriptions ∧
            after.published = world.published ++
              docs.flatMap (lateFor env ern · (world.queues ern)) ∧
            Released (docs.map MessageDocument.messageId) world.messages after.messages
  | [], world, coherent, apart =>
    ⟨rfl, coherent, rfl, (append_nil _).symm, .refl apart⟩
  | doc :: rest, world, coherent, apart => by
    rw [map_cons, forEach, ensures_bind]
    refine (releaseMessage_ensures reliable coherent apart).mono
      fun outcome middle kept => ?_
    obtain ⟨rfl, coherent, subscriptions, published, released⟩ := kept
    refine (releaseEach_ensures topic ern rest coherent released.apart).mono
      fun outcome after kept => ?_
    obtain ⟨ended, coherent, laterSubscriptions, laterPublished, laterReleased⟩ := kept
    have sameQueues : middle.queues ern = world.queues ern := by
      rw [World.queues, subscriptions, World.queues]
    refine ⟨ended, coherent, laterSubscriptions.trans subscriptions, ?_,
      released.trans laterReleased⟩
    rw [laterPublished, published, sameQueues, append_assoc, flatMap_cons]

theorem listHeldMessages_ensures {limit : Nat} :
    (listHeldMessages env ern limit).Ensures (machine env proc)
      (fun _ _ => True) world fun outcome after =>
        outcome = .ok (((byCreation (world.messages.filter
          (isHeldFor ern))).take limit).map (Message.fromDocument env)) ∧ after = world.tick := by
  unfold listHeldMessages
  rw [ensures_bind, onMessages_ensures reliable]
  exact fun _ => ⟨rfl, rfl⟩

/-- A start releases every message its topic holds back, once each. -/
theorem releasePages_ensures (topic : Topic) (ern : String) :
    ∀ (pages count : Nat) {world : World}, Coherent world → Apart world.messages →
      (world.messages.filter (isHeldFor ern)).length < pages →
      (releasePages env topic ern pages count).Ensures (machine env proc)
        (fun _ _ => True) world fun outcome after => ∃ docs : List MessageDocument,
          outcome = .ok (some (count + docs.length)) ∧
          docs.Perm (world.messages.filter (isHeldFor ern)) ∧
          Coherent after ∧ after.subscriptions = world.subscriptions ∧
          after.published = world.published ++ docs.flatMap (lateFor env ern · (world.queues ern)) ∧
          Released (docs.map MessageDocument.messageId) world.messages after.messages
  | 0, count, world, coherent, apart, enough => absurd enough (Nat.not_lt_zero _)
  | pages + 1, count, world, coherent, apart, enough => by
    unfold releasePages
    rw [ensures_bind]
    refine (listHeldMessages_ensures reliable).mono fun outcome listing kept => ?_
    obtain ⟨rfl, rfl⟩ := kept
    dsimp only
    have sorted := perm_insertionSort
      (fun first second : MessageDocument => first.created ≤ second.created)
      (world.messages.filter (isHeldFor ern))
    rw [← byCreation] at sorted
    generalize byCreation (world.messages.filter (isHeldFor ern)) = held at *
    have listed : Coherent world.tick := (tick_quietly world).coherent coherent
    split
    · rename_i none
      have empty : held = [] := by
        rw [map_eq_nil_iff, take_eq_nil_iff] at none
        exact none.resolve_left (by decide)
      exact ⟨[], rfl, empty ▸ sorted, listed, rfl, (append_nil _).symm, .refl apart⟩
    · rw [ensures_bind]
      refine (releaseEach_ensures reliable topic ern (held.take kPage) listed apart).mono
        fun outcome middle kept => ?_
      obtain ⟨rfl, coherent, subscriptions, published, released⟩ := kept
      have sameQueues : middle.queues ern = world.queues ern := by
        rw [World.queues, subscriptions, World.queues]
      dsimp only
      split
      · rename_i short
        have whole : held.take kPage = held := by
          rw [length_map, length_take] at short
          exact take_of_length_le (by omega)
        rw [whole] at published released
        refine ⟨held, ?_, sorted, coherent, subscriptions, published, released⟩
        rw [length_map, whole]
      · rename_i full
        have listed : (held.take kPage ++ held.drop kPage).Perm
            (world.messages.filter (isHeldFor ern)) := by
          rw [take_append_drop]
          exact sorted
        have left := heldAfter_perm apart listed released
        have fewer : (middle.messages.filter (isHeldFor ern)).length < pages := by
          rw [length_map, length_take] at full
          rw [← left.length_eq, length_drop]
          rw [← sorted.length_eq] at enough
          have some : 0 < kPage := by decide
          omega
        refine (releasePages_ensures topic ern pages _ coherent released.apart fewer).mono
          fun outcome after kept => ?_
        obtain ⟨docs, rfl, perm, coherent, laterSubscriptions, laterPublished,
          laterReleased⟩ := kept
        refine ⟨held.take kPage ++ docs, ?_, ?_, coherent,
          laterSubscriptions.trans subscriptions, ?_, ?_⟩
        · rw [length_map, length_append, Nat.add_assoc]
        · have together := (perm.trans left.symm).append_left (held.take kPage)
          rw [take_append_drop] at together
          exact together.trans sorted
        · rw [laterPublished, published, sameQueues, append_assoc, flatMap_append]
          rfl
        · rw [map_append]
          exact released.trans laterReleased

/-- A start of a topic that is stored, by someone who may, publishes each message it holds back and
ends. -/
theorem handleStartTopic_ensures (coherent : Coherent world) (apart : Apart world.messages)
    {user : Caller} (named : ern ≠ "") (stored : ern ∈ world.topics.map Topic.ern) {pages : Nat}
    (enough : (world.messages.filter (isHeldFor ern)).length < pages) :
    (handleStartTopic env pages (some user) ern).Ensures (machine env proc)
      (fun _ _ => True) world fun outcome after =>
        ∃ (docs : List MessageDocument) (state : TopicState),
          outcome = .ok (some (.success state)) ∧
          docs.Perm (world.messages.filter (isHeldFor ern)) ∧
          after.published = world.published ++ docs.flatMap (lateFor env ern · (world.queues ern)) ∧
          Released (docs.map MessageDocument.messageId) world.messages after.messages := by
  obtain ⟨topic, mem, rfl⟩ := mem_map.mp stored
  have some : (world.topics.find? fun other => other.ern = topic.ern).isSome :=
    List.find?_isSome.mpr ⟨topic, mem, decide_eq_true rfl⟩
  obtain ⟨found, found_eq⟩ := isSome_iff_exists.mp some
  unfold handleStartTopic setTopicDelivering
  rw [if_neg (some_ne_none user), if_neg named, ensures_bind,
    findTopicByErn_ensures reliable, found_eq]
  intro _
  dsimp only
  rw [ensures_bind]
  refine (upsertTopic_ensures reliable _).mono fun outcome middle kept => ?_
  obtain ⟨rfl, msgs, _, quiet⟩ := kept
  dsimp only
  rw [if_pos rfl, ensures_bind]
  unfold orFail
  rw [ensures_catching]
  have listed : Coherent middle := ((tick_quietly world).trans quiet).coherent coherent
  have sameQueues : middle.queues topic.ern = world.queues topic.ern := by
    rw [World.queues, quiet.subscriptions, World.queues]
  rw [← msgs] at apart enough ⊢
  refine (releasePages_ensures reliable _ topic.ern pages 0 listed apart enough).mono
    fun outcome released kept => ?_
  obtain ⟨docs, rfl, perm, coherent, _, published, releasing⟩ := kept
  dsimp only
  rw [ensures_bind]
  refine (recordResend_ensures reliable topic.ern _).mono fun outcome after kept => ?_
  obtain ⟨rfl, sameMessages, _, counted⟩ := kept
  refine ⟨docs, _, rfl, perm, ?_, sameMessages.symm ▸ releasing⟩
  rw [counted.published, published, quiet.published, sameQueues]

end Releasing

/-! ### One publish -/

structure Posting where
  topicErn : String
  body : String
  attributes : Attributes
  accountId : String
  priority : String
  systemAttributes : List (String × Json)
  bucketPriority : String

def Posting.operation (env : Env) (deleteAfterDelivery : Bool) (posting : Posting) :
    Op Fault Message :=
  publishToTopic env posting.topicErn posting.body posting.attributes posting.accountId
    posting.priority posting.systemAttributes posting.bucketPriority deleteAfterDelivery

/-- What is published at once for a message with an identifier. -/
def Posting.publications (env : Env) (posting : Posting) (messageId : String)
    (queues : List Subscription) : List Publication :=
  queues.map (publicationFor env posting.topicErn messageId posting.body posting.attributes
    posting.systemAttributes posting.priority posting.bucketPriority)

/-- The message a posting becomes, before its topic has been read. -/
def Posting.message (env : Env) (posting : Posting) (messageId : String) : Message :=
  newMessage env messageId (createEnsMessageErn env posting.accountId messageId)
    posting.topicErn posting.body posting.attributes posting.priority

inductive Publish where
  | request (caller : Option Caller) (req : PublishMessageRequest)
  | notification (envelope : EventEnvelope)

def Publish.handler (env : Env) : Publish → Op ServerError Unit
  | .request caller asked => discarding (handlePublishMessage env caller asked)
  | .notification envelope => discarding (handleObjectPublishedNotification env envelope)

/-- What a publish asks of `publishToTopic`, if its topic takes bodies of such a length. -/
def Publish.posting (maxMessageLength : Int) : Publish → Option Posting
  | .request none _ => none
  | .request (some user) asked =>
    if effectiveMaxMessageLength maxMessageLength < asked.body.utf8ByteSize then none
    else if asked.priority ≠ "" ∧ Eqs.tryMessagePriorityFromString asked.priority = none then none
    else some ⟨asked.ern, asked.body, asked.attributes, user.accountId, asked.priority, [], ""⟩
  | .notification envelope =>
    (if envelope.targetErn ≠ "" then .ok envelope.targetErn
      else getStringValue envelope.payload "targetErn").toOption.bind fun targetErn =>
    (getStringValue envelope.payload "body").toOption.bind fun body =>
    (getStringValue envelope.payload "bucketPriority").toOption.map fun bucketPriority =>
      ⟨targetErn, body, [], Eqs.accountIdFromErn targetErn, "MEDIUM",
        systemAttributesOf envelope.payload, bucketPriority⟩

/-- The publish carries nothing that a message is not stored with. -/
def Publish.CarriesNoMore : Publish → Prop
  | .request _ _ => True
  | .notification envelope => systemAttributesOf envelope.payload = [] ∧
    getStringValue envelope.payload "bucketPriority" = .ok ""

/-- What a bucket notification comes to, once its target is known. -/
def notified (env : Env) (envelope : EventEnvelope) (targetErn : String) : Op ServerError Bool := do
  let body ← ofExcept (getStringValue envelope.payload "body")
  match ← findTopicByErn targetErn with
  | none => pure true
  | some topic =>
    let bucketPriority ← ofExcept (getStringValue envelope.payload "bucketPriority")
    let _ ← publishToTopic env targetErn body [] (Eqs.accountIdFromErn targetErn) "MEDIUM"
      (systemAttributesOf envelope.payload) bucketPriority topic.deleteAfterDelivery
    pure true

theorem handleObjectPublishedNotification_eq (env : Env) (envelope : EventEnvelope) :
    handleObjectPublishedNotification env envelope =
      ofExcept (if envelope.targetErn ≠ "" then .ok envelope.targetErn
        else getStringValue envelope.payload "targetErn") >>= notified env envelope := by
  unfold handleObjectPublishedNotification
  split
  · rfl
  · rfl

variable {posting : Posting} {topic : Topic}

section Publishing

variable (reliable : Reliable env)

include reliable

/-- A message published to a running topic is delivered at once, and one published to a stopped
topic is not delivered. Nothing but the message is stored. -/
theorem posting_ensures (coherent : Coherent world) (found : world.HasTopic posting.topicErn topic)
    (unused : ∀ doc ∈ world.messages,
      doc.messageId ≠ env.randomUuid world.moment) {deleteAfterDelivery : Bool} :
    (posting.operation env deleteAfterDelivery : Op Fault Message).Ensures
      (machine env proc) (fun _ _ => True) world fun _ after =>
        (after.published = world.published ++ if topic.delivering then posting.publications
          env (env.randomUuid world.moment) (world.queues posting.topicErn) else []) ∧
        ∃ expiresAt created, after.messages.Sublist (world.messages ++
          [((posting.message env (env.randomUuid world.moment)).decidedBy topic
            expiresAt).toDocument env created]) := by
  unfold Posting.operation publishToTopic
  rw [ensures_bind, ensures_createRandomUuid]
  intro _
  dsimp only
  rw [ensures_bind]
  refine (publishMessage_ensures reliable _ _ _ _ _ _ (by exact found)
    (by exact unused)).mono fun outcome stored kept => ?_
  obtain ⟨expiresAt, created, msg, message_eq, rfl, topics, msgs, quiet⟩ := kept
  dsimp only
  rw [ensures_bind]
  refine (recordSend_ensures reliable posting.topicErn 1).mono fun outcome counted kept => ?_
  obtain ⟨rfl, sameMessages, _, countedQuiet⟩ := kept
  have quiet := (tick_quietly world).trans (quiet.trans countedQuiet)
  replace msgs := sameMessages.trans msgs
  have id : msg.messageId = env.randomUuid world.moment := by
    subst message_eq
    rfl
  have status : msg.status = if topic.delivering then .published else .held := by
    subst message_eq
    rfl
  dsimp only
  split
  · rename_i held
    have stopped : topic.delivering = false := by
      cases delivering : topic.delivering with
      | false => rfl
      | true => simp [status, delivering] at held
    refine ⟨?_, expiresAt, created, ?_⟩
    · rw [stopped, if_neg Bool.false_ne_true, append_nil, quiet.published]
    · rw [msgs, message_eq]
      exact .refl _
  · rename_i published
    have delivering : topic.delivering = true := by
      cases stopped : topic.delivering with
      | true => rfl
      | false => simp [status, stopped] at published
    rw [ensures_bind]
    refine (deliverToSubscriptions_ensures reliable _ _ _ _ _ _ _).mono
      fun outcome delivered kept => ?_
    obtain ⟨queues, rfl, untouched, publications, coherently⟩ := kept
    obtain ⟨_, rfl⟩ := coherently (quiet.coherent coherent)
    have sameQueues : counted.queues posting.topicErn = world.queues posting.topicErn := by
      rw [World.queues, quiet.subscriptions, World.queues]
    rw [quiet.published, sameQueues, id] at publications
    dsimp only
    rw [ensures_bind]
    have deleted : (onlyIf (deleteAfterDelivery = true ∧
          0 < (counted.queues posting.topicErn).length) (do
        let _ ← deleteDeliveredMessage posting.topicErn msg.messageId msg.size
        pure ()) : Op Fault Unit).Ensures (machine env proc) (fun _ _ => True)
        delivered fun outcome after => outcome = .ok () ∧ after.published = delivered.published ∧
          after.messages.Sublist delivered.messages := by
      unfold onlyIf
      split
      · rw [ensures_bind]
        refine (deleteDeliveredMessage_ensures reliable _ _ _).mono fun outcome after kept => ?_
        obtain ⟨quiet, ⟨rfl, _, _, msgs⟩ | ⟨rfl, _, _, msgs⟩⟩ := kept
        · exact ⟨rfl, quiet.published, msgs ▸ .refl _⟩
        · exact ⟨rfl, quiet.published, msgs ▸ eraseP_sublist⟩
      · exact ⟨rfl, rfl, .refl _⟩
    refine deleted.mono fun outcome after kept => ?_
    obtain ⟨rfl, same, fewer⟩ := kept
    refine ⟨?_, expiresAt, created, ?_⟩
    · rw [delivering, if_pos rfl, same]
      exact publications
    · rw [untouched.messages, msgs, message_eq] at fewer
      exact fewer

omit reliable in
theorem toOption_eq_some {Error Value : Type} {outcome : Except Error Value} {value : Value}
    (some : outcome.toOption = some value) : outcome = .ok value := by
  cases outcome with
  | ok found => exact congrArg Except.ok (Option.some.inj some)
  | error error => cases some

/-- A publish whose topic is stored and that asks for a posting is that posting. -/
theorem handler_of_posting {publish : Publish} {post : World → Prop}
    (found : world.HasTopic posting.topicErn topic)
    (asked : publish.posting topic.maxMessageLength = some posting)
    (ensures : (posting.operation env topic.deleteAfterDelivery :
      Op ServerError Message).Ensures (machine env proc) (fun _ _ => True)
        world.tick fun _ after => post after) :
    (publish.handler env).Ensures (machine env proc) (fun _ _ => True) world
      fun _ after => post after := by
  cases publish with
  | request caller asking =>
    refine discarding_ensures ?_
    unfold handlePublishMessage
    cases caller with
    | none => cases asked
    | some user =>
      dsimp only [Publish.posting] at asked ⊢
      split at asked
      · cases asked
      · split at asked
        · cases asked
        · obtain rfl := some.inj asked
          rw [ensures_bind, findTopicByErn_ensures reliable, found]
          intro _
          dsimp only
          rw [if_neg ‹_›, if_neg ‹_›, ensures_bind]
          refine ensures.mono fun outcome after holds => ?_
          cases outcome with
          | ok msg => exact holds
          | error fault => exact holds
  | notification envelope =>
    refine discarding_ensures ?_
    obtain ⟨targetErn, target, asked⟩ := bind_eq_some_iff.mp asked
    obtain ⟨body, hasBody, asked⟩ := bind_eq_some_iff.mp asked
    obtain ⟨bucketPriority, hasPriority, rfl⟩ := map_eq_some_iff.mp asked
    rw [handleObjectPublishedNotification_eq, toOption_eq_some target]
    unfold notified
    rw [toOption_eq_some hasBody, toOption_eq_some hasPriority]
    simp only [ofExcept_ok, done_bind]
    rw [ensures_bind, findTopicByErn_ensures reliable, found]
    intro _
    dsimp only
    rw [ensures_bind]
    refine ensures.mono fun outcome after holds => ?_
    cases outcome with
    | ok msg => exact holds
    | error fault => exact holds

/-- A publish that stores anything is a posting to a topic that is stored. -/
theorem handler_cases (publish : Publish) :
    (publish.handler env).Ensures (machine env proc) (fun _ _ => True) world
      fun _ after => after.messages = world.messages ∨ ∃ posting topic,
        world.HasTopic posting.topicErn topic ∧
          publish.posting topic.maxMessageLength = some posting := by
  cases publish with
  | request caller asking =>
    refine discarding_ensures ?_
    unfold handlePublishMessage
    cases caller with
    | none => exact .inl rfl
    | some user =>
      rw [ensures_bind, findTopicByErn_ensures reliable]
      intro _
      cases found : world.topics.find? fun stored => stored.ern = asking.ern with
      | none => exact .inl rfl
      | some topic =>
        dsimp only
        split
        · exact .inl rfl
        · split
          · exact .inl rfl
          · refine ensures_of_forall fun _ _ => .inr ⟨⟨asking.ern, asking.body, asking.attributes,
              user.accountId, asking.priority, [], ""⟩, topic, found, ?_⟩
            exact (if_neg ‹_›).trans (if_neg ‹_›)
  | notification envelope =>
    refine discarding_ensures ?_
    rw [handleObjectPublishedNotification_eq]
    cases target : (if envelope.targetErn ≠ "" then .ok envelope.targetErn
        else getStringValue envelope.payload "targetErn") with
    | error error => exact .inl rfl
    | ok targetErn =>
      unfold notified
      cases hasBody : getStringValue envelope.payload "body" with
      | error error => exact .inl rfl
      | ok body =>
        simp only [ofExcept_ok, done_bind]
        rw [ensures_bind, findTopicByErn_ensures reliable]
        intro _
        cases found : world.topics.find? fun stored => stored.ern = targetErn with
        | none => exact .inl rfl
        | some topic =>
          cases hasPriority : getStringValue envelope.payload "bucketPriority" with
          | error error => exact .inl rfl
          | ok bucketPriority =>
            refine ensures_of_forall fun _ _ => .inr ⟨⟨targetErn, body, [],
              Eqs.accountIdFromErn targetErn, "MEDIUM", systemAttributesOf envelope.payload,
              bucketPriority⟩, topic, found, ?_⟩
            simp only [Publish.posting, target, hasBody, hasPriority]
            rfl

end Publishing

/-! ### Late and at once -/

/-- The same world, with the topic of a name running. -/
def World.resumed (ern : String) (world : World) : World :=
  { world with
    topics := world.topics.map fun topic =>
      if topic.ern = ern then { topic with delivering := true } else topic }

theorem find_resumed (found : world.HasTopic ern topic) :
    (world.resumed ern).topics.find? (fun stored => stored.ern = ern) =
      some { topic with delivering := true } := by
  have same : (fun stored : Topic => decide (stored.ern = ern)) ∘ (fun topic : Topic =>
      if topic.ern = ern then { topic with delivering := true } else topic) =
        fun stored => decide (stored.ern = ern) := by
    funext stored
    show decide ((if stored.ern = ern then { stored with delivering := true } else stored).ern =
      ern) = _
    split
    · rfl
    · rfl
  have own : topic.ern = ern := by simpa using List.find?_some found
  rw [World.resumed, List.find?_map, same, found, map_some, if_pos own]

/-- What a publish would produce at once, were its topic running. -/
def publishedAtOnce (env : Env) (proc : Nat) (world : World) (ern : String)
    (publish : Publish) : List Publication :=
  ((publish.handler env).run (machine env proc)
    (world.resumed ern)).2.published.drop world.published.length

/-- What a start of its topic produces for a message that is stored. -/
def publishedLate (env : Env) (proc : Nat) (world : World) (user : Caller)
    (pages : Nat) (doc : MessageDocument) : List Publication :=
  (((handleStartTopic env pages (some user) doc.topicErn).run
    (machine env proc) world).2.published.drop world.published.length).filter
      fun publication => publication.delivery.messageId = doc.messageId

variable {queues : List Subscription}

theorem filter_late {docs : List MessageDocument} (apart : Apart docs)
    {doc : MessageDocument} (mem : doc ∈ docs) :
    (docs.flatMap (lateFor env ern · queues)).filter
        (fun publication => publication.delivery.messageId = doc.messageId) =
      lateFor env ern doc queues := by
  have own : ∀ other : MessageDocument, (lateFor env ern other queues).filter
      (fun publication => publication.delivery.messageId = doc.messageId) =
        if other.messageId = doc.messageId then lateFor env ern other queues
          else [] := by
    intro other
    split
    · rename_i same
      refine filter_eq_self.mpr fun publication inLate => ?_
      obtain ⟨subscription, _, rfl⟩ := mem_map.mp inLate
      exact decide_eq_true same
    · rename_i different
      refine filter_eq_nil_iff.mpr fun publication inLate => ?_
      obtain ⟨subscription, _, rfl⟩ := mem_map.mp inLate
      simpa [publicationFor] using different
  rw [filter_flatMap]
  simp only [own]
  induction docs with
  | nil => cases mem
  | cons first rest ih =>
    obtain ⟨absent, distinct⟩ := nodup_cons.mp apart
    rw [flatMap_cons]
    rcases mem_cons.mp mem with rfl | later
    · rw [if_pos rfl, flatMap_eq_nil_iff.mpr fun other among => ?_, append_nil]
      exact if_neg fun same => absent (mem_map.mpr ⟨other, among, same⟩)
    · have different : first.messageId ≠ doc.messageId := fun same =>
        absent (mem_map.mpr ⟨doc, later, same.symm⟩)
      rw [if_neg different, nil_append]
      exact ih distinct later

theorem publicationFor_eq_iff {topicErn body : String} {attributes : Attributes}
    {systemAttributes : List (String × Json)} {priority bucketPriority : String}
    {subscription : Subscription} :
    publicationFor env topicErn messageId body attributes [] priority "" subscription =
        publicationFor env topicErn messageId body attributes systemAttributes priority
          bucketPriority subscription ↔ systemAttributes = [] ∧ bucketPriority = "" := by
  constructor
  · intro same
    simp only [publicationFor, Publication.mk.injEq, Json.object.injEq, if_pos] at same
    obtain ⟨_, members, _⟩ := same
    by_cases none : bucketPriority = ""
    · rw [if_pos none] at members
      simp at members
      exact ⟨members, none⟩
    · rw [if_neg none] at members
      simp at members
  · rintro ⟨rfl, rfl⟩
    rfl

theorem late_eq_publications_iff {expiresAt : Option Time} {created : Time} :
    lateFor env posting.topicErn
        (((posting.message env messageId).decidedBy topic expiresAt).toDocument env
          created) queues = posting.publications env messageId queues ↔
      (posting.systemAttributes = [] ∧ posting.bucketPriority = "") ∨ queues = [] := by
  have late : lateFor env posting.topicErn
      (((posting.message env messageId).decidedBy topic expiresAt).toDocument env
        created) queues = queues.map (publicationFor env posting.topicErn messageId
          posting.body posting.attributes [] posting.priority "") := by
    have attributes := attributesFromDocument_toDocument env posting.attributes
    refine map_congr_left fun subscription _ => ?_
    exact congrArg (publicationFor env posting.topicErn messageId posting.body · []
      posting.priority "" subscription) attributes
  rw [late, Posting.publications]
  cases queues with
  | nil => exact ⟨fun _ => .inr rfl, fun _ => rfl⟩
  | cons subscription rest =>
    rw [map_inj_left]
    constructor
    · intro same
      exact .inl (publicationFor_eq_iff.mp (same subscription (.head _)))
    · rintro (⟨noSystem, noBucket⟩ | empty)
      · exact fun other _ => publicationFor_eq_iff.mpr ⟨noSystem, noBucket⟩
      · cases empty

theorem carriesNoMore_iff {publish : Publish} {maxMessageLength : Int}
    (asked : publish.posting maxMessageLength = some posting) :
    publish.CarriesNoMore ↔ posting.systemAttributes = [] ∧ posting.bucketPriority = "" := by
  cases publish with
  | request caller asking =>
    cases caller with
    | none => cases asked
    | some user =>
      dsimp only [Publish.posting] at asked
      split at asked
      · cases asked
      · split at asked
        · cases asked
        · obtain rfl := some.inj asked
          exact ⟨fun _ => ⟨rfl, rfl⟩, fun _ => trivial⟩
  | notification envelope =>
    obtain ⟨targetErn, target, asked⟩ := bind_eq_some_iff.mp asked
    obtain ⟨body, hasBody, asked⟩ := bind_eq_some_iff.mp asked
    obtain ⟨bucketPriority, hasPriority, rfl⟩ := map_eq_some_iff.mp asked
    rw [Publish.CarriesNoMore, toOption_eq_some hasPriority, Except.ok.injEq]

section Comparison

variable (reliable : Reliable env)

include reliable

theorem publishedLate_eq {later : World} (coherent : Coherent later) (apart : Apart later.messages)
    {user : Caller} {doc : MessageDocument} (stored : doc ∈ later.messages)
    (held : doc.status = .held) (named : doc.topicErn ≠ "")
    (home : doc.topicErn ∈ later.topics.map Topic.ern) {pages : Nat}
    (enough : (later.messages.filter (isHeldFor doc.topicErn)).length < pages) :
    publishedLate env proc later user pages doc =
      lateFor env doc.topicErn doc (later.queues doc.topicErn) := by
  have started : (handleStartTopic env pages (some user) doc.topicErn).Ensures
      (machine env proc) _ later _ :=
    handleStartTopic_ensures reliable coherent apart named home enough
  obtain ⟨docs, state, _, perm, published, _⟩ := started.run_of_true
  rw [publishedLate, published, drop_left]
  have mem : doc ∈ docs := perm.mem_iff.mpr
    (mem_filter.mpr ⟨stored, by simp [isHeldFor, held]⟩)
  have distinct : Apart docs :=
    (perm.map _).nodup_iff.mpr (apart.sublist (filter_sublist.map _))
  exact filter_late distinct mem

/-- A message held while its topic is stopped is published by a later start exactly as it would
have been at once, unless it goes to some queue and carries system attributes or a priority of
its bucket. -/
theorem late_as_at_once_iff {process' : Nat} {later : World} {publish : Publish}
    {doc : MessageDocument} {topic : Topic} (coherent : Coherent world)
    (posted : Posted env world.moment world.messages)
    (found : world.topics.find? (fun stored => stored.ern = doc.topicErn) = some topic)
    (stopped : topic.delivering = false)
    (stored : ((publish.handler env).run (machine env proc) world).2.messages =
      world.messages ++ [doc]) (laterCoherent : Coherent later) (apart : Apart later.messages)
    (kept : doc ∈ later.messages) (home : doc.topicErn ∈ later.topics.map Topic.ern)
    (sameQueues : later.queues doc.topicErn = world.queues doc.topicErn)
    (user : Caller) (named : doc.topicErn ≠ "") {pages : Nat}
    (enough : (later.messages.filter (isHeldFor doc.topicErn)).length < pages) :
    publishedLate env process' later user pages doc =
        publishedAtOnce env proc world doc.topicErn publish ↔
      publish.CarriesNoMore ∨ world.queues doc.topicErn = [] := by
  have unused : ∀ other ∈ world.messages,
      other.messageId ≠ env.randomUuid (world.moment + 1) :=
    (posted.sublist (.refl _) (Nat.le_succ _)).unused
  have came : ((publish.handler env).run (machine env proc) world).2.messages =
      world.messages ∨ ∃ posting topic,
        world.topics.find? (fun stored => stored.ern = posting.topicErn) = some topic ∧
          publish.posting topic.maxMessageLength = some posting :=
    (handler_cases reliable publish).run_of_true
  rcases came with same | ⟨posting, target, targetFound, asked⟩
  · rw [same] at stored
    simp at stored
  · -- what was stored is the message of the posting
    have storing : (publish.handler env).Ensures (machine env proc)
        (fun _ _ => True) world fun _ after => ∃ expiresAt created, after.messages.Sublist
          (world.messages ++ [((posting.message env (env.randomUuid
            (world.moment + 1))).decidedBy target expiresAt).toDocument env created]) :=
      handler_of_posting reliable targetFound asked ((posting_ensures reliable
        ((tick_quietly world).coherent coherent) targetFound unused).mono fun _ _ kept => kept.2)
    obtain ⟨expiresAt, created, fewer⟩ := storing.run_of_true
    rw [stored] at fewer
    obtain rfl := singleton_inj.mp (append_cancel_left (fewer.eq_of_length (by simp)))
    obtain rfl := some.inj (found.symm.trans targetFound)
    -- the same publish in the world in which the topic is running
    have resumedFound : (world.resumed posting.topicErn).topics.find?
        (fun stored => stored.ern = posting.topicErn) = some { topic with delivering := true } :=
      find_resumed targetFound
    have resumedCoherent : Coherent (world.resumed posting.topicErn).tick :=
      (tick_quietly world).coherent coherent
    have delivering : (publish.handler env).Ensures (machine env proc)
        (fun _ _ => True) (world.resumed posting.topicErn) fun _ after =>
          after.published = world.published ++ posting.publications env
            (env.randomUuid (world.moment + 1)) (world.queues posting.topicErn) := by
      refine handler_of_posting reliable resumedFound asked ?_
      refine (posting_ensures reliable resumedCoherent resumedFound unused).mono
        fun _ after kept => ?_
      rw [kept.1, if_pos rfl]
      rfl
    have held : (((posting.message env (env.randomUuid
        (world.moment + 1))).decidedBy topic expiresAt).toDocument env created).status =
          .held := if_neg (by simp [stopped])
    rw [publishedLate_eq reliable laterCoherent apart kept held named home enough, sameQueues,
      carriesNoMore_iff asked]
    have atOnce : publishedAtOnce env proc world posting.topicErn publish =
        posting.publications env (env.randomUuid (world.moment + 1))
          (world.queues posting.topicErn) := by
      rw [publishedAtOnce, delivering.run_of_true, drop_left]
    exact (iff_of_eq (congrArg (lateFor env posting.topicErn _ _ = ·) atOnce)).trans
      late_eq_publications_iff

end Comparison

/-! ### A topic with one queue -/

def stoppedTopic : Topic := { Topic.blank with ern := "t", delivering := false }

/-- The stopped topic, with a queue subscribed to it. -/
def stoppedWorld : World :=
  { World.opened .empty [⟨"s", "t", "SQS", "q"⟩] with topics := [stoppedTopic] }

theorem stoppedWorld_coherent (msgs : List MessageDocument) :
    Coherent { stoppedWorld with messages := msgs } :=
  nofun

/-- A message that is published to it by a client. -/
def clientPublish : Publish :=
  .request (some ⟨"u", "a", "r"⟩) ⟨"t", "body", [("k", .float 7)], "HIGH"⟩

def clientDocument : MessageDocument :=
  ((newMessage steady "uu" (createEnsMessageErn steady "a" "uu") "t" "body" [("k", .float 7)]
    "HIGH").decidedBy stoppedTopic (some 1209600003)).toDocument steady 5

theorem client_late_as_at_once :
    publishedLate steady 1 { stoppedWorld with messages := [clientDocument] } ⟨"u", "a", "r"⟩ 2
        clientDocument = publishedAtOnce steady 0 stoppedWorld "t" clientPublish := by
  have found : stoppedWorld.topics.find? (fun stored => stored.ern = clientDocument.topicErn) =
      some stoppedTopic := rfl
  have posted : Posted steady stoppedWorld.moment stoppedWorld.messages :=
    ⟨.nil, nofun, nofun⟩
  have stored : ((clientPublish.handler steady).run (machine steady 0) stoppedWorld).2.messages =
      [clientDocument] := by decide +kernel
  exact (late_as_at_once_iff steady_reliable (stoppedWorld_coherent []) posted found rfl stored
    (stoppedWorld_coherent [clientDocument]) (nodup_singleton _) (.head _)
    (.head _) rfl ⟨"u", "a", "r"⟩ (by decide) (by decide)).mpr (.inl trivial)

/-- A message that is published to it by a bucket with a priority of its own. -/
def bucketPublish : Publish := .notification {
  eventId := "e"
  eventType := "esm.subscription.publication"
  sourceModule := "esm"
  payload := .object [("body", .string "body"), ("bucketPriority", .string "HIGH")]
  targetErn := "t"
  sourceErn := "b"
  messageId := ""
  attempts := 1
  createdAt := 0 }

def bucketDocument : MessageDocument :=
  ((newMessage steady "uu" (createEnsMessageErn steady (Eqs.accountIdFromErn "t") "uu") "t" "body"
    [] "MEDIUM").decidedBy stoppedTopic (some 1209600003)).toDocument steady 5

/-- Late the priority of the bucket is missing from what is published. -/
theorem bucket_priority_lost :
    ((bucketPublish.handler steady).run (machine steady 0) stoppedWorld).2.messages =
        [bucketDocument] ∧ bucketDocument.status = .held ∧
      publishedLate steady 1 { stoppedWorld with messages := [bucketDocument] } ⟨"u", "a", "r"⟩ 2
        bucketDocument ≠ publishedAtOnce steady 0 stoppedWorld "t" bucketPublish := by
  refine ⟨by rfl, by decide, fun same => ?_⟩
  have members := congrArg (List.map fun publication : Publication =>
    publication.payload.members.length) same
  revert members
  decide

end Euclid.Ens
