/-
This file proves when the figures of topics are exact: whatever a client asks of a single
instance in which no statement fails, a recount would find what is stored.

A create-topic writes a topic with no messages over whatever has its name. That is the one
request that can break the account, and it does if the topic that has the name holds messages.
-/

import Mathlib.Data.List.Induction
import Euclid.Ens.Figures

namespace Euclid.Ens

open Program Collection List Nat
open Bus (Json Time StoreError)
open Eqs (Caller Response Status)

variable {env : Env} {proc : Nat} {world : World} {Fault Result : Type}

/-! ### Repository operations -/

/-- The operation leaves the books in order. -/
abbrev KeepsBooks (env : Env) (proc : Nat) (world : World) (operation : Op Fault Result) : Prop :=
  operation.Ensures (machine env proc) (fun _ _ => True) world fun _ after => Books env after

variable {operation : Op Fault Result}

theorem keepsBooks_bind {Result' : Type} {continuation : Result → Op Fault Result'}
    (first : KeepsBooks env proc world operation) (next : ∀ result after, Books env after →
      KeepsBooks env proc after (continuation result)) :
    KeepsBooks env proc world (operation >>= continuation) := by
  rw [KeepsBooks, ensures_bind]
  refine first.mono fun outcome after books => ?_
  cases outcome with
  | ok result => exact next result after books
  | error fault => exact books

section Operations

variable (reliable : Reliable env)

include reliable

variable (books : Books env world) {ern : String}

include books in
theorem findTopicByErn_books :
    (findTopicByErn ern : Op Fault (Option Topic)).Ensures (machine env proc)
      (fun _ _ => True) world fun outcome after => Books env after ∧
        ∃ found, outcome = .ok found ∧ ∀ topic, found = some topic →
          after.topics.find? (fun stored => stored.ern = ern) = some topic := by
  rw [findTopicByErn_ensures reliable]
  intro _
  exact ⟨books.untouched ⟨rfl, rfl, rfl, le_succ _⟩, _, rfl, fun topic found => found⟩

variable {topic : Topic}

include books in
theorem upsertTopic_books {changed : Topic}
    (stored : topic ∈ world.topics) (sameErn : changed.ern = topic.ern)
    (sameKey : changed.key = topic.key) (sameFigures : changed.figures = topic.figures) :
    KeepsBooks env proc world (upsertTopic changed : Op Fault Topic) := by
  refine (upsertTopic_ensures reliable changed).mono fun outcome after kept => ?_
  obtain ⟨rfl, msgs, topics, quiet⟩ := kept
  rcases upsert_cases world.topics changed with ⟨_, wrote⟩ | ⟨_, _, wrote⟩ | ⟨_, absent, _⟩
  · rw [wrote] at topics
    exact books.untouched ⟨topics, msgs, quiet.subscriptions, quiet.moment⟩
  · rw [wrote] at topics
    refine books.rewriting (fun other mem selected => ?_) topics msgs quiet.moment
    -- only one topic has the key
    have own : other.key = changed.key := of_decide_eq_true selected
    obtain rfl := books.defined.eq_of_key mem stored (own.trans sameKey)
    exact ⟨sameErn, sameKey, sameFigures⟩
  · exact absurd sameKey.symm (absent topic stored)

/-- What a handler that changes a topic may change of it. -/
def KeepsAccount (change : Topic → Topic) : Prop :=
  ∀ topic, (change topic).ern = topic.ern ∧ (change topic).key = topic.key ∧
    (change topic).figures = topic.figures

include books

theorem changeTopic_books {caller : Option Caller} {refusal : Option (Status × String)}
    {check : Topic → Option (Status × String)} {change : Topic → Topic}
    (keeps : KeepsAccount change) :
    KeepsBooks env proc world
      (changeTopic caller refusal ern check change : Op Fault (Response Topic)) := by
  unfold changeTopic
  by_cases absent : caller = none
  · rw [if_pos absent]
    exact books
  · rw [if_neg absent]
    cases refusal with
    | some refusal => exact books
    | none =>
      rw [KeepsBooks, ensures_bind]
      refine (findTopicByErn_books reliable books).mono fun outcome middle kept => ?_
      obtain ⟨books, found, rfl, stored⟩ := kept
      cases found with
      | none => exact books
      | some topic =>
        dsimp only
        cases check topic with
        | some refusal => exact books
        | none =>
          obtain ⟨ern, key, figures⟩ := keeps topic
          exact keepsBooks_bind (upsertTopic_books reliable books
            (mem_of_find?_eq_some (stored topic rfl)) ern key figures) fun _ _ books => books

variable {messageId : String} {topicErn : String}

theorem deleteDeliveredMessage_books
    {size : Int} (own : ∀ doc ∈ world.messages, doc.messageId = messageId →
      doc.topicErn = topicErn ∧ doc.size = size) :
    KeepsBooks env proc world (deleteDeliveredMessage topicErn messageId size : Op Fault Bool) := by
  refine (deleteDeliveredMessage_ensures reliable topicErn messageId size).mono
    fun outcome after kept => ?_
  obtain ⟨quiet, ⟨_, _, topics, msgs⟩ | ⟨_, stored, topics, msgs⟩⟩ := kept
  · exact books.untouched ⟨topics, msgs, quiet.subscriptions, quiet.moment⟩
  · exact books.dropping stored own quiet.moment topics msgs

variable {body : String}

/-- A message is published to a topic that is stored, and deleted again if that is how the topic
is set. -/
theorem publishToTopic_books
    (found : world.topics.find? (fun stored => stored.ern = topicErn) = some topic)
    {attributes : Eqs.Attributes} {accountId priority : String}
    {systemAttributes : List (String × Json)} {bucketPriority : String}
    {deleteAfterDelivery : Bool} :
    KeepsBooks env proc world (publishToTopic env topicErn body attributes
      accountId priority systemAttributes bucketPriority deleteAfterDelivery :
        Op Fault Message) := by
  unfold publishToTopic
  rw [KeepsBooks, ensures_bind, ensures_createRandomUuid]
  intro _
  dsimp only
  have drawn : Untouched world world.tick := ⟨rfl, rfl, rfl, le_succ _⟩
  have unused : ∀ doc ∈ world.tick.messages,
      doc.messageId ≠ env.randomUuid world.moment := books.posted.unused
  rw [ensures_bind]
  refine (publishMessage_ensures reliable _ _ topicErn body attributes priority (by exact found)
    (by exact unused)).mono fun outcome published kept => ?_
  obtain ⟨expiresAt, created, msg, message_eq, rfl, topics, msgs, quiet⟩ := kept
  have named : topicErn ∈ world.topics.map Topic.ern := mem_map.mpr
    ⟨topic, mem_of_find?_eq_some found, by simpa using List.find?_some found⟩
  have posted : Books env published := by
    subst message_eq
    exact (books.untouched drawn).posting named unused rfl quiet.moment rfl quiet.moment topics msgs
  have own : ∀ doc ∈ published.messages, doc.messageId = msg.messageId →
      doc.topicErn = topicErn ∧ doc.size = msg.size := by
    intro doc mem same
    rw [msgs] at mem
    rcases mem_append.mp mem with earlier | new
    · subst message_eq
      exact absurd same (unused doc earlier)
    · obtain rfl := mem_singleton.mp new
      subst message_eq
      exact ⟨rfl, rfl⟩
  dsimp only
  rw [ensures_bind]
  refine (recordSend_ensures reliable topicErn 1).mono fun outcome counted kept => ?_
  obtain ⟨rfl, sameMessages, countedTopics, quiet⟩ := kept
  have books : Books env counted := by
    rcases countedTopics with topics | topics
    · exact posted.untouched ⟨topics, sameMessages, quiet.subscriptions, quiet.moment⟩
    · refine posted.rewriting ?_ topics sameMessages quiet.moment
      exact fun _ _ _ => ⟨rfl, rfl, rfl⟩
  dsimp only
  split
  · exact books
  · rw [ensures_bind]
    refine (deliverToSubscriptions_ensures reliable topicErn _ body attributes systemAttributes
      priority bucketPriority).mono fun outcome delivered kept => ?_
    obtain ⟨queues, rfl, untouched, _, _⟩ := kept
    refine keepsBooks_bind ?_ fun _ _ books => books
    unfold onlyIf
    split
    · refine keepsBooks_bind ?_ fun _ _ books => books
      refine deleteDeliveredMessage_books reliable (books.untouched untouched) ?_
      rw [untouched.messages, sameMessages]
      exact own
    · exact books.untouched untouched

omit books

/-- What a start knows of a message it has listed: if it is still stored, then for the topic, and
with the same bytes. -/
def Listed (ern : String) (msgs : List MessageDocument) (msg : Message) : Prop :=
  ∀ doc ∈ msgs, doc.messageId = msg.messageId → doc.topicErn = ern ∧ doc.size = msg.size

include books in
theorem releaseMessage_books {topic : Topic}
    {msg : Message} (listed : Listed ern world.messages msg) :
    (releaseMessage env topic ern msg).Ensures (machine env proc)
      (fun _ _ => True) world fun outcome after => outcome = .ok () ∧ Books env after ∧
        ∀ other, Listed ern world.messages other → Listed ern after.messages other := by
  unfold releaseMessage
  rw [ensures_bind]
  refine (deliverToSubscriptions_ensures reliable ern _ _ _ _ _ _).mono
    fun outcome delivered kept => ?_
  obtain ⟨queues, rfl, untouched, _, _⟩ := kept
  have books := books.untouched untouched
  rw [← untouched.messages] at listed ⊢
  dsimp only
  split
  · rw [ensures_bind]
    refine (deleteDeliveredMessage_ensures reliable ern msg.messageId msg.size).mono
      fun outcome after kept => ?_
    obtain ⟨quiet, ⟨rfl, _, topics, msgs⟩ | ⟨rfl, stored, topics, msgs⟩⟩ := kept
    · refine ⟨rfl, books.untouched ⟨topics, msgs, quiet.subscriptions, quiet.moment⟩,
        fun other kept => ?_⟩
      rw [msgs]
      exact kept
    · refine ⟨rfl, books.dropping stored listed quiet.moment topics msgs, fun other kept => ?_⟩
      rw [msgs]
      exact fun doc mem => kept doc (mem_of_mem_eraseP mem)
  · unfold markMessageDelivered
    rw [onMessages_ensures reliable]
    intro _
    refine ⟨rfl, books.readdressing (fun _ _ _ => ?_) rfl rfl (le_succ _), ?_⟩
    · exact ⟨rfl, rfl, rfl, rfl⟩
    · intro other kept doc mem
      rcases mem_updateFirst mem with stored | ⟨old, stored, _, rfl⟩
      · exact kept doc stored
      · exact kept old stored

include books in
theorem listHeldMessages_books {limit : Nat} :
    (listHeldMessages env ern limit).Ensures (machine env proc)
      (fun _ _ => True) world fun outcome after => ∃ held, outcome = .ok held ∧
        Books env after ∧ ∀ msg ∈ held, Listed ern after.messages msg := by
  unfold listHeldMessages
  rw [ensures_bind, onMessages_ensures reliable]
  intro _
  refine ⟨_, rfl, books.untouched ⟨rfl, rfl, rfl, le_succ _⟩, fun msg mem => ?_⟩
  obtain ⟨listed, inPage, rfl⟩ := mem_map.mp mem
  have held := (mem_insertionSort _).mp (mem_of_mem_take inPage)
  obtain ⟨stored, isHeld⟩ := mem_filter.mp held
  simp only [MessageDocument.isHeldFor, Bool.and_eq_true, decide_eq_true_eq] at isHeld
  intro doc also same
  obtain rfl := inj_on_of_nodup_map books.posted.apart also stored same
  exact ⟨isHeld.1, rfl⟩

theorem releasePages_books (topic : Topic) (ern : String) :
    ∀ (pages released : Nat) {world : World}, Books env world →
      KeepsBooks env proc world (releasePages env topic ern pages released)
  | 0, _, _, books => books
  | pages + 1, released, world, books => by
    unfold releasePages
    rw [KeepsBooks, ensures_bind]
    refine (listHeldMessages_books reliable books).mono fun outcome listing kept => ?_
    obtain ⟨held, rfl, books, listed⟩ := kept
    dsimp only
    split
    · exact books
    · rw [ensures_bind]
      -- every message of the page that is still ahead is as it was listed
      refine (ensures_forEach (fun rest after => Books env after ∧
        ∀ msg ∈ rest, Listed ern after.messages msg) ⟨books, listed⟩ ?_).mono
          fun outcome after kept => ?_
      · intro msg rest before kept
        refine (releaseMessage_books reliable kept.1
          (kept.2 msg (.head _))).mono fun outcome after released => ?_
        exact ⟨released.1, released.2.1, fun other mem =>
          released.2.2 other (kept.2 other (.tail _ mem))⟩
      · obtain ⟨rfl, books, _⟩ := kept
        dsimp only
        split
        · exact books
        · exact releasePages_books topic ern pages _ books

section

variable (books : Books env world)

include books

variable {caller : Option Caller} {ern : String}

theorem setTopicDelivering_books {delivering : Bool} {pages : Nat} :
    KeepsBooks env proc world (setTopicDelivering env delivering pages caller ern) := by
  unfold setTopicDelivering
  split
  · exact books
  · split
    · exact books
    · rw [KeepsBooks, ensures_bind]
      refine (findTopicByErn_books reliable books).mono fun outcome middle kept => ?_
      obtain ⟨books, found, rfl, stored⟩ := kept
      cases found with
      | none => exact books
      | some topic =>
        refine keepsBooks_bind (upsertTopic_books reliable books
          (mem_of_find?_eq_some (stored topic rfl)) rfl rfl rfl) fun saved after books => ?_
        split
        · refine keepsBooks_bind ?_ fun released after books => ?_
          · unfold orFail
            rw [KeepsBooks, ensures_catching]
            refine (releasePages_books reliable saved ern pages 0 books).mono
              fun outcome after books => ?_
            cases outcome with
            | ok result => exact books
            | error fault => exact books
          · cases released with
            | none => exact books
            | some released =>
              refine keepsBooks_bind ?_ fun _ _ books => books
              refine (recordResend_ensures reliable ern released).mono fun outcome after kept => ?_
              obtain ⟨rfl, msgs, countedTopics, quiet⟩ := kept
              rcases countedTopics with topics | topics
              · exact books.untouched ⟨topics, msgs, quiet.subscriptions, quiet.moment⟩
              · refine books.rewriting ?_ topics msgs quiet.moment
                exact fun _ _ _ => ⟨rfl, rfl, rfl⟩
        · exact books

/-! ### Changing messages and purging -/

theorem updateMessageBody_books :
    KeepsBooks env proc world
      (updateMessageBody env messageId body : Op Fault (Option Message)) := by
  unfold updateMessageBody onlyIf
  rw [KeepsBooks, orAnswer, ensures_catching, ensures_bind, onMessages_ensures reliable]
  intro _
  dsimp only [MessageStatement.apply]
  cases found : world.messages.find? fun doc => doc.messageId = messageId with
  | none =>
    rw [updateFirst_of_none found]
    exact books.untouched ⟨rfl, rfl, rfl, le_succ _⟩
  | some previous =>
    dsimp only
    split
    · rw [ensures_bind, onTopics_ensures reliable]
      intro _
      rw [findMessageById_ensures reliable]
      intro _
      exact books.rewording found rfl (.inr rfl)
        ((le_succ _).trans ((le_succ _).trans (le_succ _)))
    · rename_i same
      rw [done_bind, findMessageById_ensures reliable]
      intro _
      exact books.rewording found rfl (.inl ⟨not_ne_iff.mp same, rfl⟩)
        ((le_succ _).trans (le_succ _))

theorem handleUpdateMessageBody_books :
    KeepsBooks env proc world (handleUpdateMessageBody env caller messageId body :
      Op Fault (Response Message)) := by
  unfold handleUpdateMessageBody
  split
  · exact books
  · split
    · exact books
    · rw [KeepsBooks, ensures_bind, findMessageById_ensures reliable]
      intro _
      have books : Books env world.tick := books.untouched ⟨rfl, rfl, rfl, le_succ _⟩
      cases world.messages.find? fun doc => doc.messageId = messageId with
      | none => exact books
      | some doc =>
        dsimp only [Option.map_some]
        rw [ensures_bind]
        refine (findTopicByErn_books reliable books).mono fun outcome middle kept => ?_
        obtain ⟨books, topic, rfl, _⟩ := kept
        dsimp only
        split
        · exact books
        · refine keepsBooks_bind (updateMessageBody_books reliable books)
            fun updated after books => ?_
          cases updated with
          | none => exact books
          | some msg => exact books

theorem handleSetMessageAttribute_books {key : String} {value : Eqs.Variant} :
    KeepsBooks env proc world (handleSetMessageAttribute env caller messageId key
      value : Op Fault (Response Eqs.Variant)) := by
  unfold handleSetMessageAttribute
  split
  · exact books
  · rw [KeepsBooks, ensures_bind, findMessageById_ensures reliable]
    intro _
    cases found : world.messages.find? fun doc => doc.messageId = messageId with
    | none => exact books.untouched ⟨rfl, rfl, rfl, le_succ _⟩
    | some doc =>
      have stored := mem_of_find?_eq_some found
      refine keepsBooks_bind ?_ fun _ _ books => books
      have kept : ∃ other ∈ world.tick.messages, other.messageId = doc.messageId :=
        ⟨doc, stored, rfl⟩
      refine (upsertMessage_ensures reliable kept).mono fun outcome after kept => ?_
      obtain ⟨rfl, topics, msgs, quiet⟩ := kept
      refine books.readdressing (fun other mem selected => ?_) topics msgs
        ((le_succ _).trans quiet.moment)
      obtain rfl := inj_on_of_nodup_map books.posted.apart mem stored
        (of_decide_eq_true selected)
      exact ⟨rfl, rfl, rfl, rfl⟩

theorem purgeTopic_books :
    KeepsBooks env proc world (purgeTopic ern : Op Fault Unit) := by
  unfold purgeTopic
  rw [KeepsBooks, orAnswer, ensures_catching, ensures_bind, onMessages_ensures reliable]
  intro _
  rw [onTopics_ensures reliable]
  intro _
  exact books.purging [ern] rfl rfl ((le_succ _).trans (le_succ _))

theorem purgeAllTopics_books {region accountId nameSpace : String} :
    KeepsBooks env proc world (purgeAllTopics region accountId nameSpace : Op Fault Unit) := by
  unfold purgeAllTopics onlyIf
  rw [KeepsBooks, orAnswer, ensures_catching, ensures_bind, onTopics_ensures reliable]
  intro _
  have drawn : Untouched world world.tick := ⟨rfl, rfl, rfl, le_succ _⟩
  dsimp only [TopicStatement.apply]
  split
  · rw [ensures_bind, onMessages_ensures reliable]
    intro _
    rw [onTopics_ensures reliable]
    intro _
    exact (books.untouched drawn).purging _ rfl rfl ((le_succ _).trans (le_succ _))
  · exact books.untouched drawn

theorem deleteTopicByErn_books :
    KeepsBooks env proc world (deleteTopicByErn ern : Op Fault Unit) := by
  unfold deleteTopicByErn
  rw [KeepsBooks, orAnswer, ensures_catching, ensures_bind, onTopics_ensures reliable]
  intro _
  rw [onMessages_ensures reliable]
  intro _
  exact books.deleting ern rfl rfl ((le_succ _).trans (le_succ _))

/-! ### Creating topics -/

end

def createdTopic (env : Env) (user : Caller) (nameSpace : String)
    (req : CreateTopicRequest) : Topic :=
  { Topic.blank with
    accountId := user.accountId
    nameSpace := nameSpace
    name := req.name
    ern := createEnsTopicErn env user.accountId nameSpace req.name
    maxMessageLength := req.maxMessageLength
    region := user.region
    owner := user.userId }

variable {req : CreateTopicRequest}
variable {nameSpace : String} {user : Caller}

theorem handleCreateTopic_ensures :
    (handleCreateTopic env (some user) nameSpace req :
        Op Fault (Response String)).Ensures (machine env proc) (fun _ _ => True)
      world fun _ after => after.messages = world.messages ∧ Quietly world after ∧
        after.topics = ((TopicStatement.upsert
          (createdTopic env user nameSpace req)).apply world.topics).2 := by
  unfold handleCreateTopic
  rw [ensures_bind]
  refine (upsertTopic_ensures reliable (createdTopic env user nameSpace req)).mono
    fun outcome after kept => ?_
  obtain ⟨rfl, msgs, topics, quiet⟩ := kept
  exact ⟨msgs, quiet, topics⟩

include books in
/-- A create-topic keeps the books if the topic that has the name, if any, holds no message. -/
theorem handleCreateTopic_books
    (empty : ∀ topic ∈ world.topics, topic.key = (user.accountId, nameSpace, req.name) →
      ∀ doc ∈ world.messages, doc.topicErn ≠ topic.ern) :
    KeepsBooks env proc world (handleCreateTopic env (some user) nameSpace
      req : Op Fault (Response String)) := by
  refine (handleCreateTopic_ensures reliable).mono fun outcome after kept => ?_
  obtain ⟨msgs, quiet, topics⟩ := kept
  have named : (createdTopic env user nameSpace req).ern = createEnsTopicErn env
      (createdTopic env user nameSpace req).accountId
      (createdTopic env user nameSpace req).nameSpace
      (createdTopic env user nameSpace req).name := rfl
  have figures : (createdTopic env user nameSpace req).figures = 0 := rfl
  replace empty : ∀ topic ∈ world.topics,
      topic.key = (createdTopic env user nameSpace req).key →
        ∀ doc ∈ world.messages, doc.topicErn ≠ topic.ern := empty
  generalize createdTopic env user nameSpace req = created at *
  rcases upsert_cases world.topics created with ⟨_, wrote⟩ | ⟨_, _, wrote⟩ | ⟨apart, absent, wrote⟩
  · rw [wrote] at topics
    exact books.untouched ⟨topics, msgs, quiet.subscriptions, quiet.moment⟩
  · rw [wrote] at topics
    refine books.rewriting (fun topic mem selected => ?_) topics msgs quiet.moment
    -- a topic of the same key has the same name, and its figures were zero before
    have own : topic.key = created.key := of_decide_eq_true selected
    refine ⟨named.trans ?_, own.symm, figures.trans ?_⟩
    · simp only [Topic.key, Prod.mk.injEq] at own
      rw [books.defined.named topic mem, own.1, own.2.1, own.2.2]
    · rw [books.balanced topic mem, tally_of_none (empty topic mem own)]
  · rw [wrote] at topics
    refine books.adding named (fun other mem same => apart ?_) figures topics msgs quiet.moment
    exact any_eq_true.mpr ⟨other, mem, by simp [absent other mem, same]⟩

include books in
/-- A create-topic that finds a topic of the name with a message in it counts the message no
more. -/
theorem handleCreateTopic_breaks {doc : MessageDocument}
    (stored : topic ∈ world.topics) (own : topic.key = (user.accountId, nameSpace, req.name))
    (mem : doc ∈ world.messages) (ofTopic : doc.topicErn = topic.ern) :
    (handleCreateTopic env (some user) nameSpace req :
        Op Fault (Response String)).Ensures (machine env proc) (fun _ _ => True)
      world fun _ after => ¬Exact after := by
  refine (handleCreateTopic_ensures reliable).mono
    fun outcome after kept exact => ?_
  obtain ⟨msgs, quiet, topics⟩ := kept
  have sameErn : (createdTopic env user nameSpace req).ern = topic.ern := by
    rw [books.defined.named topic stored]
    simp only [Topic.key, Prod.mk.injEq] at own
    rw [own.1, own.2.1, own.2.2]
    rfl
  have available : (createdTopic env user nameSpace req).available = 0 := rfl
  replace own : topic.key = (createdTopic env user nameSpace req).key := own
  generalize createdTopic env user nameSpace req = created at *
  rcases upsert_cases world.topics created with ⟨clash, _⟩ | ⟨_, _, wrote⟩ | ⟨_, absent, _⟩
  · obtain ⟨other, also, apart⟩ := any_eq_true.mp clash
    simp only [Bool.and_eq_true, decide_eq_true_eq] at apart
    obtain rfl := inj_on_of_nodup_map books.defined.erns also stored (apart.2.trans sameErn)
    exact apart.1 own
  · rw [wrote] at topics
    have replaced : created ∈ after.topics := by
      have some : (world.topics.find? fun other => other.key = created.key).isSome :=
        List.find?_isSome.mpr ⟨topic, stored, decide_eq_true own⟩
      obtain ⟨found, found_eq⟩ := Option.isSome_iff_exists.mp some
      rw [topics]
      exact mem_updateFirst_self (fun _ => created) found_eq
    have counted := congrArg Prod.fst (exact created replaced)
    rw [sum_bodyWeight, msgs, sameErn] at counted
    have none : (world.messages.filter fun doc => doc.topicErn = topic.ern).length = 0 :=
      Int.ofNat_eq_zero.mp (counted.symm.trans available)
    rw [length_eq_zero_iff, filter_eq_nil_iff] at none
    exact none doc mem (decide_eq_true ofTopic)
  · exact absent topic stored own

/-! ### Recounting -/

omit reliable in
theorem recounted_eq (msgs : List MessageDocument) (ern : String) :
    recounted ((msgs.map MessageDocument.topicErn).dedup.map fun ern => (ern, tally msgs ern))
      ern = tally msgs ern := by
  unfold recounted
  rw [List.find?_map]
  cases found : (msgs.map MessageDocument.topicErn).dedup.find?
      ((fun entry : String × Int × Int => decide (entry.1 = ern)) ∘
        fun ern => (ern, tally msgs ern)) with
  | some other =>
    have own : other = ern := by simpa using List.find?_some found
    rw [own]
    rfl
  | none =>
    refine (tally_of_none fun doc mem own => ?_).symm
    refine List.find?_eq_none.mp found doc.topicErn ?_ (decide_eq_true own)
    exact mem_dedup.mpr (mem_map_of_mem mem)

include books in
theorem recountTopics_ensures :
    (recountTopics : Op Fault Unit).Ensures (machine env proc) (fun _ _ => True)
      world fun _ after => after.topics = world.topics := by
  unfold recountTopics
  rw [orAnswer, ensures_catching, ensures_bind, onMessages_ensures reliable]
  intro _
  dsimp only [MessageStatement.apply]
  rw [ensures_bind, onTopics_ensures reliable]
  intro _
  refine (ensures_forEach (fun _ after => after.topics = world.topics) rfl
    fun topic rest before same => ?_).mono fun outcome after kept => ?_
  · rw [onTopics_ensures reliable]
    intro _
    refine ⟨rfl, ?_⟩
    rw [recounted_eq]
    refine (updateFirst_of_fixed fun stored mem selected => ?_).trans same
    have own : stored.ern = topic.ern := of_decide_eq_true selected
    rw [same] at mem
    rw [← own, ← books.balanced stored mem]
    rfl
  · obtain ⟨rfl, same⟩ := kept
    exact same

end Operations

/-! ### Sequences of requests -/

/-- What a client may ask of ENS about topics and their messages. A start reads so many pages at
most. -/
inductive ClientRequest where
  | createTopic (caller : Option Caller) (nameSpace : String) (req : CreateTopicRequest)
  | publishMessage (caller : Option Caller) (req : PublishMessageRequest)
  | updateMessageBody (caller : Option Caller) (messageId body : String)
  | setMessageAttribute (caller : Option Caller) (messageId key : String) (value : Eqs.Variant)
  | startTopic (pages : Nat) (caller : Option Caller) (ern : String)
  | stopTopic (caller : Option Caller) (ern : String)
  | addTopicTag (caller : Option Caller) (administrator : Bool) (ern key value : String)
  | setTopicTag (caller : Option Caller) (administrator : Bool) (ern key value : String)
  | deleteTopicTag (caller : Option Caller) (administrator : Bool) (ern key : String)
  | setTopicRetention (caller : Option Caller) (ern : String) (retentionPeriod : Int)
  | setTopicMaxMessageLength (caller : Option Caller) (ern : String) (maxMessageLength : Int)
  | setTopicDeleteAfterDelivery (caller : Option Caller) (ern : String) (deleteAfterDelivery : Bool)
  | purgeTopic (caller : Option Caller) (ern : String)
  | purgeAllTopics (caller : Option Caller) (region accountId nameSpace : String)
  | deleteTopic (caller : Option Caller) (ern : String)

def discarding (operation : Op Fault Result) : Op Fault Unit := do
  let _ ← operation
  pure ()

theorem discarding_ensures {post : World → Prop}
    (ensures : operation.Ensures (machine env proc) (fun _ _ => True) world
      fun _ after => post after) :
    (discarding operation).Ensures (machine env proc) (fun _ _ => True) world
      fun _ after => post after := by
  unfold discarding
  rw [ensures_bind]
  refine ensures.mono fun outcome after holds => ?_
  cases outcome with
  | ok result => exact holds
  | error fault => exact holds

def ClientRequest.handler (env : Env) : ClientRequest → Op ServerError Unit
  | .createTopic caller nameSpace req =>
    discarding (handleCreateTopic env caller nameSpace req)
  | .publishMessage caller req => discarding (handlePublishMessage env caller req)
  | .updateMessageBody caller messageId body =>
    discarding (handleUpdateMessageBody env caller messageId body)
  | .setMessageAttribute caller messageId key value =>
    discarding (handleSetMessageAttribute env caller messageId key value)
  | .startTopic pages caller ern => discarding (handleStartTopic env pages caller ern)
  | .stopTopic caller ern => discarding (handleStopTopic env caller ern)
  | .addTopicTag caller administrator ern key value =>
    discarding (handleAddTopicTag caller administrator ern key value)
  | .setTopicTag caller administrator ern key value =>
    discarding (handleSetTopicTag caller administrator ern key value)
  | .deleteTopicTag caller administrator ern key =>
    discarding (handleDeleteTopicTag caller administrator ern key)
  | .setTopicRetention caller ern retentionPeriod =>
    discarding (handleSetTopicRetention caller ern retentionPeriod)
  | .setTopicMaxMessageLength caller ern maxMessageLength =>
    discarding (handleSetTopicMaxMessageLength caller ern maxMessageLength)
  | .setTopicDeleteAfterDelivery caller ern deleteAfterDelivery =>
    discarding (handleSetTopicDeleteAfterDelivery caller ern deleteAfterDelivery)
  | .purgeTopic caller ern => discarding (handlePurgeTopic caller ern)
  | .purgeAllTopics caller region accountId nameSpace =>
    discarding (handlePurgeAllTopics caller region accountId nameSpace)
  | .deleteTopic caller ern => discarding (handleDeleteTopic caller ern)

/-- The request creates no topic over one that holds messages. -/
def ClientRequest.OverwritesNone (world : World) : ClientRequest → Prop
  | .createTopic (some user) nameSpace req =>
    ∀ topic ∈ world.topics, topic.key = (user.accountId, nameSpace, req.name) →
      ∀ doc ∈ world.messages, doc.topicErn ≠ topic.ern
  | _ => True

/-- The world after a sequence of requests, each run alone. -/
def serve (env : Env) (proc : Nat) (world : World) (requests : List ClientRequest) : World :=
  requests.foldl (fun before req =>
    ((req.handler env).run (machine env proc) before).2) world

theorem serve_append (first second : List ClientRequest) : serve env proc world (first ++ second) =
      serve env proc (serve env proc world first) second :=
  foldl_append

section Sequences

variable (reliable : Reliable env)

include reliable

theorem handlePublishMessage_books (books : Books env world) {caller : Option Caller}
    {req : PublishMessageRequest} :
    KeepsBooks env proc world
      (handlePublishMessage env caller req : Op Fault (Response String)) := by
  unfold handlePublishMessage
  cases caller with
  | none => exact books
  | some user =>
    rw [KeepsBooks, ensures_bind]
    refine (findTopicByErn_books reliable books).mono fun outcome middle kept => ?_
    obtain ⟨books, found, rfl, stored⟩ := kept
    cases found with
    | none => exact books
    | some topic =>
      dsimp only
      split
      · exact books
      · split
        · exact books
        · exact keepsBooks_bind (publishToTopic_books reliable books (stored topic rfl))
            fun _ _ books => books

variable {req : ClientRequest}

/-- A request keeps the books, unless it creates a topic over one that holds messages. -/
theorem handler_books (books : Books env world) (overwrites : req.OverwritesNone world) :
    KeepsBooks env proc world (req.handler env) := by
  cases req with
  | createTopic caller nameSpace req =>
    cases caller with
    | none => exact books
    | some user =>
      exact discarding_ensures
        (handleCreateTopic_books reliable books overwrites)
  | publishMessage caller req =>
    exact discarding_ensures (handlePublishMessage_books reliable books)
  | updateMessageBody caller messageId body =>
    exact discarding_ensures (handleUpdateMessageBody_books reliable books)
  | setMessageAttribute caller messageId key value =>
    exact discarding_ensures
      (handleSetMessageAttribute_books reliable books)
  | startTopic pages caller ern =>
    exact discarding_ensures (setTopicDelivering_books reliable books)
  | stopTopic caller ern =>
    exact discarding_ensures (setTopicDelivering_books reliable books)
  | purgeTopic caller ern =>
    refine discarding_ensures ?_
    unfold handlePurgeTopic
    split
    · exact books
    · exact keepsBooks_bind (purgeTopic_books reliable books) fun _ _ books => books
  | purgeAllTopics caller region accountId nameSpace =>
    refine discarding_ensures ?_
    unfold handlePurgeAllTopics
    split
    · exact books
    · exact keepsBooks_bind (purgeAllTopics_books reliable books)
        fun _ _ books => books
  | deleteTopic caller ern =>
    refine discarding_ensures ?_
    unfold handleDeleteTopic
    split
    · exact books
    · exact keepsBooks_bind (deleteTopicByErn_books reliable books) fun _ _ books => books
  | _ =>
    refine discarding_ensures (changeTopic_books reliable books ?_)
    exact fun topic => ⟨rfl, rfl, rfl⟩

theorem handler_exact_iff (books : Books env world) :
    Exact ((req.handler env).run (machine env proc) world).2 ↔ req.OverwritesNone world := by
  constructor
  · intro exact
    cases req with
    | createTopic caller nameSpace req =>
      cases caller with
      | none => trivial
      | some user =>
        intro topic stored own doc mem ofTopic
        exact (discarding_ensures (handleCreateTopic_breaks reliable books stored own mem
          ofTopic)).run_of_true exact
    | _ => trivial
  · intro overwrites
    exact Books.exact (handler_books reliable books overwrites).run_of_true

/-- Every topic is exact, and a recount changes no figure. -/
structure FiguresHold (env : Env) (proc : Nat) (world : World) : Prop where
  exact : Exact world
  recount : ((recountTopics : Op ServerError Unit).run (machine env proc)
    world).2.topics = world.topics

omit reliable in
theorem Books.nothing (world : World) : Books env { world with topics := [], messages := [] } where
  defined := ⟨nofun, .nil⟩
  posted := ⟨.nil, nofun,
    nofun⟩
  homed := nofun
  balanced := nofun

/-- In every sequence of requests from a store without topics and messages, the figures hold after
every step exactly if no step creates a topic over one that holds messages. -/
theorem figures_hold_iff (proc : Nat) (world : World) (requests : List ClientRequest) :
    (∀ served, served <+: requests → FiguresHold env proc
        (serve env proc { world with topics := [], messages := [] } served)) ↔
      ∀ served req, served ++ [req] <+: requests → req.OverwritesNone
        (serve env proc { world with topics := [], messages := [] } served) := by
  constructor
  · intro hold
    -- the books are in order after every step, since it was exact
    have books : ∀ served, served <+: requests → Books env
        (serve env proc { world with topics := [], messages := [] } served) := by
      intro served
      induction served using List.reverseRecOn with
      | nil => exact fun _ => .nothing world
      | append_singleton served req ih =>
        intro begins
        have before := ih ((prefix_append _ _).trans begins)
        have exact := (hold _ begins).exact
        rw [serve_append] at exact ⊢
        exact (handler_books reliable before
          ((handler_exact_iff reliable before).mp exact)).run_of_true
    intro served req begins
    have exact := (hold _ begins).exact
    rw [serve_append] at exact
    exact (handler_exact_iff reliable
      (books served ((prefix_append _ _).trans begins))).mp exact
  · intro overwrites served begins
    have books : Books env (serve env proc { world with topics := [], messages := [] } served) := by
      induction served using List.reverseRecOn with
      | nil => exact .nothing world
      | append_singleton served req ih =>
        have before := ih ((prefix_append _ _).trans begins)
        rw [serve_append]
        exact (handler_books reliable before (overwrites served req begins)).run_of_true
    exact ⟨books.exact, (recountTopics_ensures reliable books).run_of_true⟩

end Sequences

/-! ### A topic that is created twice -/

/-- A topic is created, a message is published to it, and the topic is created again. -/
def createdTwice : List ClientRequest :=
  [.createTopic (some ⟨"u", "a", "r"⟩) "n" ⟨"t", 10⟩,
    .publishMessage (some ⟨"u", "a", "r"⟩) ⟨createEnsTopicErn steady "a" "n" "t", "body", [], ""⟩,
    .createTopic (some ⟨"u", "a", "r"⟩) "n" ⟨"t", 10⟩]

/-- The second create-topic leaves the topic without a figure for the message it holds. -/
theorem created_twice_loses_figures : ¬∀ served, served <+: createdTwice →
      FiguresHold steady 0 (serve steady 0 (World.opened .empty []) served) := by
  intro hold
  have exact := (hold createdTwice (prefix_refl _)).exact
  unfold Exact at exact
  revert exact
  decide

/-- Up to there the figures hold: a topic is created, and a message published to it. -/
theorem figures_hold_createdTwice :
    FiguresHold steady 0 (serve steady 0 (World.opened .empty []) (createdTwice.take 2)) := by
  refine (figures_hold_iff steady_reliable 0 (World.opened .empty []) _).mpr
    (fun served req begins => ?_) _ (prefix_refl _)
  cases served with
  | nil =>
    obtain rfl := (cons_prefix_cons.mp begins).1
    exact nofun
  | cons first rest =>
    cases rest with
    | nil =>
      obtain rfl := (cons_prefix_cons.mp (cons_prefix_cons.mp begins).2).1
      trivial
    | cons second rest =>
      have long := begins.length_le
      simp [createdTwice] at long

end Euclid.Ens
