/-
This file says when no change to a topic is lost, however the handlers that change its settings
are interleaved with each other and with the traffic on the topic.

A handler of a setting reads the topic, changes its copy and writes all of the copy back, the
counters and every other setting with it. Traffic counts with increments. What is said of one
setting last is what the topic ends with, and the counters are what the traffic makes them,
as long as every write finds the topic as the handler has read it, but for the setting the
handler is about.
-/

import Euclid.Ens.Loss
import Euclid.Interleaving

namespace Euclid.Ens

open Program Collection Asks
open Bus (StoreError EventEnvelope)
open Eqs (Caller)

/-! ### Settings and counters -/

inductive Setting where
  | delivering
  | deleteAfterDelivery
  | retentionPeriod
  | maxMessageLength
  | tag (key : String)

/-- What a setting may be. A tag may be missing. -/
inductive SettingValue where
  | flag (value : Bool)
  | number (value : Int)
  | text (value : Option String)
  deriving DecidableEq

def Topic.setting (topic : Topic) : Setting → SettingValue
  | .delivering => .flag topic.delivering
  | .deleteAfterDelivery => .flag topic.deleteAfterDelivery
  | .retentionPeriod => .number topic.retentionPeriod
  | .maxMessageLength => .number topic.maxMessageLength
  | .tag key => .text ((topic.tags.find? fun tag => tag.1 = key).map Prod.snd)

/-- What the traffic on a topic counts. -/
structure Counters where
  size : Int
  available : Int
  send : Int
  resend : Int

def Topic.counters (topic : Topic) : Counters :=
  ⟨topic.size, topic.available, topic.send, topic.resend⟩

/-- What a statement of the traffic makes of the counters of the topic with an ERN. -/
def TopicStatement.counting (ern : String) (stmt : TopicStatement) (counters : Counters) :
    Counters :=
  match stmt with
  | .count counted available size =>
    if counted = ern then
      { counters with available := counters.available + available, size := counters.size + size }
    else counters
  | .recordSend counted sent =>
    if counted = ern then { counters with send := counters.send + sent } else counters
  | .recordResend counted resent =>
    if counted = ern then { counters with resend := counters.resend + resent } else counters
  | .zero erns => if ern ∈ erns then ⟨0, 0, 0, 0⟩ else counters
  | _ => counters

def Topic.withCounters (counters : Counters) (topic : Topic) : Topic :=
  { topic with
    size := counters.size
    available := counters.available
    send := counters.send
    resend := counters.resend }

/-! ### What a handler is about -/

inductive Edit where
  | deliver (delivering : Bool)
  | deleteAfter (deleteAfterDelivery : Bool)
  | retain (retentionPeriod : Int)
  | limit (maxMessageLength : Int)
  | assign (key value : String)
  | erase (key : String)

namespace Edit

/-- What the handler makes of its copy. -/
def change (edit : Edit) (topic : Topic) : Topic :=
  match edit with
  | .deliver delivering => { topic with delivering := delivering }
  | .deleteAfter deleteAfterDelivery => { topic with deleteAfterDelivery := deleteAfterDelivery }
  | .retain retentionPeriod => { topic with retentionPeriod := retentionPeriod }
  | .limit maxMessageLength => { topic with maxMessageLength := maxMessageLength }
  | .assign key value => { topic with tags := assignTag key value topic.tags }
  | .erase key => { topic with tags := topic.tags.filter fun tag => tag.1 ≠ key }

/-- The value a change gives a setting, if it is about that one. -/
def gives (edit : Edit) (setting : Setting) : Option SettingValue :=
  match edit, setting with
  | .deliver delivering, .delivering => some (.flag delivering)
  | .deleteAfter deleteAfterDelivery, .deleteAfterDelivery => some (.flag deleteAfterDelivery)
  | .retain retentionPeriod, .retentionPeriod => some (.number retentionPeriod)
  | .limit maxMessageLength, .maxMessageLength => some (.number maxMessageLength)
  | .assign key value, .tag other => if other = key then some (.text (some value)) else none
  | .erase key, .tag other => if other = key then some (.text none) else none
  | _, _ => none

theorem find_erased (key other : String) (tags : List (String × String)) :
    (tags.filter fun tag => tag.1 ≠ key).find? (fun tag => tag.1 = other) =
      if other = key then none else tags.find? fun tag => tag.1 = other := by
  rw [List.find?_filter]
  split
  · rename_i same
    refine List.find?_eq_none.mpr fun tag _ => ?_
    simp [same]
  · rename_i different
    congr 1
    funext tag
    by_cases own : tag.1 = other
    · simp [own, different]
    · simp [own]

theorem setting_change (edit : Edit) (setting : Setting) (topic : Topic) :
    (edit.change topic).setting setting = (edit.gives setting).getD (topic.setting setting) := by
  cases edit with
  | assign key value =>
    cases setting with
    | tag other =>
      simp only [change, gives, Topic.setting, assignTag, List.find?_append, find_erased]
      by_cases same : other = key
      · simp [same]
      · simp [same, Ne.symm same]
    | _ => rfl
  | erase key =>
    cases setting with
    | tag other =>
      simp only [change, gives, Topic.setting, find_erased]
      by_cases same : other = key <;> simp [same]
    | _ => rfl
  | _ => cases setting <;> rfl

@[simp] theorem change_counters (edit : Edit) (topic : Topic) :
    (edit.change topic).counters = topic.counters := by
  cases edit <;> rfl

@[simp] theorem change_ern (edit : Edit) (topic : Topic) : (edit.change topic).ern = topic.ern := by
  cases edit <;> rfl

@[simp] theorem change_key (edit : Edit) (topic : Topic) : (edit.change topic).key = topic.key := by
  cases edit <;> rfl

end Edit

section WithCounters

variable (counters : Counters) (topic : Topic)

@[simp] theorem withCounters_setting (setting : Setting) :
    (topic.withCounters counters).setting setting = topic.setting setting := by
  cases setting <;> rfl

end WithCounters

/-! ### Handlers on topics -/

/-- What a client may ask of a topic that stays. A start and a resend read so many pages at most. -/
inductive TopicCall where
  | startTopic (pages : Nat) (caller : Option Caller) (ern : String)
  | stopTopic (caller : Option Caller) (ern : String)
  | addTopicTag (caller : Option Caller) (administrator : Bool) (ern key value : String)
  | setTopicTag (caller : Option Caller) (administrator : Bool) (ern key value : String)
  | deleteTopicTag (caller : Option Caller) (administrator : Bool) (ern key : String)
  | setTopicRetention (caller : Option Caller) (ern : String) (retentionPeriod : Int)
  | setTopicMaxMessageLength (caller : Option Caller) (ern : String) (maxMessageLength : Int)
  | setTopicDeleteAfterDelivery (caller : Option Caller) (ern : String) (deleteAfterDelivery : Bool)
  | publishMessage (caller : Option Caller) (req : PublishMessageRequest)
  | objectPublished (envelope : EventEnvelope)
  | updateMessageBody (caller : Option Caller) (messageId body : String)
  | purgeTopic (caller : Option Caller) (ern : String)
  | purgeAllTopics (caller : Option Caller) (region accountId nameSpace : String)
  | resendMessages (pages : Nat) (caller : Option Caller) (ern messageId : String)

def TopicCall.handler (env : Env) : TopicCall → Op ServerError Unit
  | .startTopic pages caller ern => discarding (handleStartTopic env pages caller ern)
  | .stopTopic caller ern => discarding (handleStopTopic env caller ern)
  | .addTopicTag caller administrator ern key value =>
    discarding (handleAddTopicTag caller administrator ern key value)
  | .setTopicTag caller administrator ern key value =>
    discarding (handleSetTopicTag caller administrator ern key value)
  | .deleteTopicTag caller administrator ern key =>
    discarding (handleDeleteTopicTag caller administrator ern key)
  | .setTopicRetention caller ern retentionPeriod =>
    discarding (handleSetTopicRetention caller ern retentionPeriod)
  | .setTopicMaxMessageLength caller ern maxMessageLength =>
    discarding (handleSetTopicMaxMessageLength caller ern maxMessageLength)
  | .setTopicDeleteAfterDelivery caller ern deleteAfterDelivery =>
    discarding (handleSetTopicDeleteAfterDelivery caller ern deleteAfterDelivery)
  | .publishMessage caller req => discarding (handlePublishMessage env caller req)
  | .objectPublished envelope => discarding (handleObjectPublishedNotification env envelope)
  | .updateMessageBody caller messageId body =>
    discarding (handleUpdateMessageBody env caller messageId body)
  | .purgeTopic caller ern => discarding (handlePurgeTopic caller ern)
  | .purgeAllTopics caller region accountId nameSpace =>
    discarding (handlePurgeAllTopics caller region accountId nameSpace)
  | .resendMessages pages caller ern messageId =>
    discarding (handleResendMessages env pages caller ern messageId)

/-- The setting a call is about, and the value it gives it. -/
def TopicCall.edit : TopicCall → Option Edit
  | .startTopic .. => some (.deliver true)
  | .stopTopic .. => some (.deliver false)
  | .addTopicTag _ _ _ key value => some (.assign key value)
  | .setTopicTag _ _ _ key value => some (.assign key value)
  | .deleteTopicTag _ _ _ key => some (.erase key)
  | .setTopicRetention _ _ retentionPeriod => some (.retain retentionPeriod)
  | .setTopicMaxMessageLength _ _ maxMessageLength => some (.limit maxMessageLength)
  | .setTopicDeleteAfterDelivery _ _ deleteAfterDelivery => some (.deleteAfter deleteAfterDelivery)
  | _ => none

/-! ### Reading and writing back -/

/-- The requests that change no setting. -/
def Req.IsTraffic : Req → Prop
  | .topic (.upsert _) | .topic (.setCounts ..) | .topic (.deleteByErn _) => False
  | _ => True

/-- The topic an answer shows, if the request looks for one. -/
def Req.topicRead : (req : Req) → req.Answer → Option (Option Topic)
  | .topic (.findByErn _), .ok found => some found
  | _, _ => none

/-- A thread knows what it is about and the topic it has read, and writes back its copy of that with
one setting changed. -/
def writeBack : Discipline Req Req.Answer (Option Edit × Option Topic) where
  allows session req :=
    match req with
    | .topic (.upsert topic) =>
      ∃ edit copy, session = (some edit, some copy) ∧ topic = edit.change copy
    | _ => req.IsTraffic
  expects _ _ _ := True
  after session req answer := (session.1, (req.topicRead answer).getD session.2)

variable {operation : Op Fault Result}

section Follows

variable {Fault Result : Type} {env : Env} {session : Option Edit × Option Topic}

theorem traffic_allowed {req : Req} (traffic : req.IsTraffic) : writeBack.allows session req := by
  unfold writeBack
  dsimp only
  split
  · exact absurd traffic id
  · exact traffic

theorem traffic_follows (asks : operation.Asks Req.IsTraffic) :
    operation.Follows writeBack session fun _ _ => True :=
  asks.follows_keeping (fun _ => True) trivial (fun _ _ _ asked => traffic_allowed asked)
    fun _ _ _ _ _ => trivial

theorem discarding_follows (follows : operation.Follows writeBack session fun _ _ => True) :
    (discarding operation).Follows writeBack session fun _ _ => True := by
  unfold discarding
  exact follows.freely fun _ _ => trivial

theorem findTopicByErn_follows {ern : String} :
    (findTopicByErn ern : Op Fault (Option Topic)).Follows writeBack session
      fun outcome reached => ∀ topic, outcome = .ok (some topic) →
        reached = (session.1, some topic) := by
  unfold findTopicByErn orAnswer onTopics
  rw [follows_catching, follows_bind, follows_issue]
  refine ⟨trivial, fun answer _ => ?_⟩
  cases answer with
  | error fault => exact nofun
  | ok found =>
    rintro topic ⟨⟩
    rfl

theorem upsertTopic_follows {edit : Edit} {copy : Topic} :
    (upsertTopic (edit.change copy) : Op Fault Topic).Follows writeBack
      (some edit, some copy) fun outcome _ => ∃ topic, outcome = .ok topic := by
  unfold upsertTopic orAnswer onTopics
  rw [follows_catching, follows_bind, follows_issue]
  refine ⟨⟨edit, copy, rfl, rfl⟩, fun answer _ => ?_⟩
  cases answer with
  | error fault => exact ⟨_, rfl⟩
  | ok saved => exact ⟨_, rfl⟩

theorem changeTopic_follows (caller : Option Caller) (refusal : Option (Eqs.Status × String))
    (ern : String) (check : Topic → Option (Eqs.Status × String)) (edit : Edit) :
    (changeTopic caller refusal ern check edit.change : Op Fault _).Follows writeBack
      (some edit, none) fun _ _ => True := by
  unfold changeTopic
  split
  · trivial
  · split
    · trivial
    · rw [follows_bind]
      refine findTopicByErn_follows.mono fun outcome reached read => ?_
      cases outcome with
      | error fault => trivial
      | ok found =>
        cases found with
        | none => trivial
        | some topic =>
          obtain rfl := read topic rfl
          dsimp only
          split
          · trivial
          · rw [follows_bind]
            refine upsertTopic_follows.mono fun outcome reached saved => ?_
            obtain ⟨saved, rfl⟩ := saved
            trivial

end Follows

/-! ### Traffic -/

section Traffic

variable {Fault Result : Type} {env : Env}

theorem offRows_traffic (asks : operation.Asks Req.IsOffRows) : operation.Asks Req.IsTraffic :=
  asks.mono fun req offRows => by
    cases req with
    | topic stmt => exact absurd offRows id
    | _ => trivial

theorem onTopics_traffic {stmt : TopicStatement}
    (traffic : (Req.topic stmt).IsTraffic) : (onTopics stmt).Asks Req.IsTraffic :=
  (asks_issue traffic).bind asks_ofExcept

theorem onMessages_traffic (stmt : MessageStatement) : (onMessages stmt).Asks Req.IsTraffic :=
  (asks_issue trivial).bind asks_ofExcept

variable {ern : String}

theorem findTopicByErn_traffic :
    (findTopicByErn ern : Op Fault (Option Topic)).Asks Req.IsTraffic :=
  asks_orAnswer (onTopics_traffic trivial)

variable {messageId : String}

theorem findMessageById_traffic :
    (findMessageById env messageId : Op Fault (Option Message)).Asks Req.IsTraffic :=
  asks_orAnswer ((onMessages_traffic _).bind fun _ => trivial)

variable {attributes : Eqs.Attributes}

theorem publishMessage_traffic {topicErn body : String} {priority : String} :
    (publishMessage env messageId ern topicErn body attributes priority :
      Op Fault Message).Asks Req.IsTraffic := by
  have stores : ∀ msg : Message, (storeMessage env msg).Asks Req.IsTraffic :=
    fun msg => (asks_issue trivial).bind fun _ => onMessages_traffic _
  refine bind (asks_orAnswer (bind (onTopics_traffic trivial) fun _ => trivial))
    fun read => ?_
  match read with
  | none => trivial
  | some none => exact (asks_orAnswer (stores _)).bind fun _ => trivial
  | some (some topic) =>
    refine bind ?_ fun expiresAt =>
      bind (asks_orAnswer (bind (onTopics_traffic trivial) fun _ => stores _))
        fun _ => trivial
    unfold expiryOf
    dsimp only
    split
    · trivial
    · exact (asks_issue trivial).bind fun _ => trivial

theorem deleteDeliveredMessage_traffic (topicErn messageId : String) (size : Int) :
    (deleteDeliveredMessage topicErn messageId size : Op Fault Bool).Asks Req.IsTraffic := by
  refine asks_orAnswer ((onMessages_traffic _).bind fun deleted => ?_)
  split
  · trivial
  · exact bind (onTopics_traffic trivial) fun _ => trivial

theorem deliver_traffic (topicErn messageId body : String) (attributes : Eqs.Attributes)
    (systemAttributes : List (String × Bus.Json)) (priority bucketPriority : String) :
    (deliverToSubscriptions env topicErn messageId body attributes systemAttributes priority
        bucketPriority : Op Fault Nat).Asks Req.IsTraffic :=
  offRows_traffic deliverToSubscriptions_offRows

theorem recordSend_traffic {sent : Int} :
    (recordSend ern sent : Op Fault Unit).Asks Req.IsTraffic :=
  onlyIf fun _ => asks_orAnswer (onTopics_traffic trivial)

theorem recordResend_traffic {resent : Int} :
    (recordResend ern resent : Op Fault Unit).Asks Req.IsTraffic :=
  onlyIf fun _ => asks_orAnswer (onTopics_traffic trivial)

theorem publishToTopic_traffic {topicErn body : String}
    {accountId priority : String} {systemAttributes : List (String × Bus.Json)}
    {bucketPriority : String} {deleteAfterDelivery : Bool} :
    (publishToTopic env topicErn body attributes accountId priority systemAttributes
        bucketPriority deleteAfterDelivery : Op Fault Message).Asks Req.IsTraffic := by
  refine (asks_issue trivial).bind fun messageId => publishMessage_traffic.bind
    fun msg => recordSend_traffic.bind fun _ => ?_
  split
  · trivial
  · refine (deliver_traffic _ _ _ _ _ _ _).bind fun delivered => bind ?_ fun _ => trivial
    exact onlyIf fun _ => (deleteDeliveredMessage_traffic _ _ _).bind fun _ => trivial

variable {caller : Option Caller}

theorem handlePublishMessage_traffic {req : PublishMessageRequest} :
    (handlePublishMessage env caller req : Op Fault _).Asks Req.IsTraffic := by
  unfold handlePublishMessage
  split
  · trivial
  · refine findTopicByErn_traffic.bind fun found => ?_
    cases found with
    | none => trivial
    | some topic =>
      dsimp only
      split
      · trivial
      · split
        · trivial
        · exact publishToTopic_traffic.bind fun _ => trivial

theorem handleObjectPublished_traffic {envelope : EventEnvelope} :
    (handleObjectPublishedNotification env envelope).Asks Req.IsTraffic := by
  have serves : ∀ targetErn, (notified env envelope targetErn).Asks Req.IsTraffic := by
    refine fun targetErn => (asks_ofExcept _).bind fun body =>
      findTopicByErn_traffic.bind fun found => ?_
    cases found with
    | none => trivial
    | some topic =>
      exact (asks_ofExcept _).bind fun bucketPriority =>
        publishToTopic_traffic.bind fun _ => trivial
  rw [handleObjectPublishedNotification_eq]
  exact (asks_ofExcept _).bind serves

theorem handleUpdateMessageBody_traffic {body : String} :
    (handleUpdateMessageBody env caller messageId body : Op Fault _).Asks Req.IsTraffic := by
  unfold handleUpdateMessageBody
  split
  · trivial
  · split
    · trivial
    · refine findMessageById_traffic.bind fun found => ?_
      cases found with
      | none => trivial
      | some msg =>
        refine findTopicByErn_traffic.bind fun topic => ?_
        dsimp only
        split
        · trivial
        · refine bind ?_ fun updated => ?_
          · unfold updateMessageBody
            refine asks_orAnswer ((onMessages_traffic _).bind fun before => ?_)
            cases before with
            | none => trivial
            | some previous =>
              exact bind (onlyIf fun _ => onTopics_traffic trivial) fun _ =>
                findMessageById_traffic
          · cases updated <;> trivial

theorem handlePurgeTopic_traffic :
    (handlePurgeTopic caller ern : Op Fault _).Asks Req.IsTraffic := by
  unfold handlePurgeTopic
  split
  · trivial
  · exact bind (asks_orAnswer (bind (onMessages_traffic _) fun _ =>
      onTopics_traffic trivial)) fun _ => trivial

theorem handlePurgeAllTopics_traffic {region accountId nameSpace : String} :
    (handlePurgeAllTopics caller region accountId nameSpace : Op Fault _).Asks Req.IsTraffic := by
  unfold handlePurgeAllTopics
  split
  · trivial
  · refine bind (asks_orAnswer (bind (onTopics_traffic trivial) fun topics => ?_))
      fun _ => trivial
    exact onlyIf fun _ => bind (onMessages_traffic _) fun _ => onTopics_traffic trivial

theorem resendMessage_traffic (topicErn : String) (msg : Message) :
    (resendMessage env topicErn msg : Op Fault Unit).Asks Req.IsTraffic :=
  (deliver_traffic _ _ _ _ _ _ _).bind fun _ => trivial

theorem resendAllMessages_traffic (ern : String) (pages : Nat) (listed : List String)
    (counts : ResendCounts) :
    (resendAllMessages env ern pages listed counts : Op Fault _).Asks Req.IsTraffic := by
  induction pages generalizing listed counts with
  | zero => trivial
  | succ pages ih =>
    have lists : (listMessagesAfter env ern kPage listed :
        Op Fault (List Message)).Asks Req.IsTraffic :=
      asks_orAnswer ((onMessages_traffic _).bind fun _ => trivial)
    refine lists.bind fun msgs => ?_
    split
    · trivial
    · refine (forEach fun msg _ => resendMessage_traffic ern msg).bind fun _ => ?_
      split
      · trivial
      · exact ih _ _

theorem handleResendMessages_traffic {pages : Nat} :
    (handleResendMessages env pages caller ern messageId : Op Fault _).Asks Req.IsTraffic := by
  unfold handleResendMessages
  split
  · trivial
  · split
    · trivial
    · refine findTopicByErn_traffic.bind fun found => ?_
      cases found with
      | none => trivial
      | some topic =>
        dsimp only
        split
        · trivial
        · split
          · refine findMessageById_traffic.bind fun found => ?_
            cases found with
            | none => trivial
            | some msg =>
              dsimp only
              split
              · trivial
              · split
                · trivial
                · exact (resendMessage_traffic _ _).bind fun _ =>
                    recordResend_traffic.bind fun _ => trivial
          · refine (resendAllMessages_traffic ern pages [] _).bind fun counted => ?_
            cases counted with
            | none => trivial
            | some counts => exact recordResend_traffic.bind fun _ => trivial

theorem releasePages_traffic (topic : Topic) (ern : String) (pages released : Nat) :
    (releasePages env topic ern pages released).Asks Req.IsTraffic := by
  induction pages generalizing released with
  | zero => trivial
  | succ pages ih =>
    have lists : (listHeldMessages env ern kPage).Asks Req.IsTraffic :=
      (onMessages_traffic _).bind fun _ => trivial
    refine lists.bind fun held => ?_
    split
    · trivial
    · refine (forEach fun msg _ => ?_).bind fun _ => ?_
      · refine (deliver_traffic _ _ _ _ _ _ _).bind fun delivered => ?_
        split
        · exact (deleteDeliveredMessage_traffic _ _ _).bind fun _ => trivial
        · exact onMessages_traffic _
      · split
        · trivial
        · exact ih _

end Traffic

/-! ### Every handler -/

/-- A stop or a start reads the topic, writes it back, and then is traffic. -/
theorem setTopicDelivering_follows {env : Env} {delivering : Bool} {pages : Nat}
    {caller : Option Caller} {ern : String} :
    (setTopicDelivering env delivering pages caller ern).Follows writeBack
      (some (.deliver delivering), none) fun _ _ => True := by
  unfold setTopicDelivering
  split
  · trivial
  · split
    · trivial
    · rw [follows_bind]
      refine findTopicByErn_follows.mono fun outcome reached read => ?_
      cases outcome with
      | error fault => trivial
      | ok found =>
        cases found with
        | none => trivial
        | some topic =>
          obtain rfl := read topic rfl
          dsimp only
          rw [follows_bind]
          refine upsertTopic_follows.mono fun outcome reached saved => ?_
          obtain ⟨saved, rfl⟩ := saved
          refine traffic_follows ?_
          split
          · refine bind (catching (releasePages_traffic _ _ _ _) fun _ => trivial)
              fun released => ?_
            cases released with
            | none => trivial
            | some count => exact recordResend_traffic.bind fun _ => trivial
          · trivial

theorem handler_follows (env : Env) (call : TopicCall) :
    (call.handler env).Follows writeBack (call.edit, none) fun _ _ => True := by
  cases call with
  | startTopic pages caller ern =>
    exact discarding_follows setTopicDelivering_follows
  | stopTopic caller ern => exact discarding_follows setTopicDelivering_follows
  | addTopicTag caller administrator ern key value =>
    exact discarding_follows (changeTopic_follows caller _ ern _ (.assign key value))
  | setTopicTag caller administrator ern key value =>
    exact discarding_follows (changeTopic_follows caller _ ern _ (.assign key value))
  | deleteTopicTag caller administrator ern key =>
    exact discarding_follows (changeTopic_follows caller _ ern _ (.erase key))
  | setTopicRetention caller ern retentionPeriod =>
    exact discarding_follows (changeTopic_follows caller _ ern _ (.retain retentionPeriod))
  | setTopicMaxMessageLength caller ern maxMessageLength =>
    exact discarding_follows (changeTopic_follows caller _ ern _ (.limit maxMessageLength))
  | setTopicDeleteAfterDelivery caller ern deleteAfterDelivery =>
    exact discarding_follows (changeTopic_follows caller _ ern _ (.deleteAfter deleteAfterDelivery))
  | publishMessage caller req =>
    exact discarding_follows (traffic_follows handlePublishMessage_traffic)
  | objectPublished envelope =>
    exact discarding_follows (traffic_follows handleObjectPublished_traffic)
  | updateMessageBody caller messageId body =>
    exact discarding_follows (traffic_follows handleUpdateMessageBody_traffic)
  | purgeTopic caller ern =>
    exact discarding_follows (traffic_follows handlePurgeTopic_traffic)
  | purgeAllTopics caller region accountId nameSpace =>
    exact discarding_follows
      (traffic_follows handlePurgeAllTopics_traffic)
  | resendMessages pages caller ern messageId =>
    exact discarding_follows
      (traffic_follows handleResendMessages_traffic)

end Euclid.Ens
