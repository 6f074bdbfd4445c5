/-
This file says when a message that a topic has accepted is kept, whatever statements fail while
it is published or released: it stays in the collection, or an event for it is stored for every
queue subscribed to its topic.

Three layers catch what fails below them. A message that was never stored is delivered as
though it had been, or held as though it were there. A delivery counts the events it has
published, not the ones that were stored, and a message that is to be deleted after its
delivery is deleted on the strength of that count.
-/

import Euclid.Bus.Storing
import Euclid.Ens.Held

namespace Euclid.Ens

open Program Collection List Message
open Bus (Json Time Outage StoreError EventEnvelope underOutage)
open Eqs (Caller Response Attributes)

variable {env : Env} {proc : Nat} {world : World} {Fault Result : Type}

/-! ### Stored or delivered -/

def kPublished : String := "ens.message.published"

section

variable (ern messageId : String)

/-- What an event of a message is addressed to, for one queue. -/
def addressOf (subscription : Subscription) :
    String × Option String × Option String × Option String :=
  (kPublished, some subscription.targetErn, some ern, some messageId)

/-- The message is in the collection of the topic. -/
def Stored (world : World) : Prop :=
  ∃ doc ∈ world.messages, doc.messageId = messageId ∧ doc.topicErn = ern

/-- Between two worlds, an event of the message has been stored for each queue of the topic. -/
def Delivered (before after : World) : Prop :=
  ((before.queues ern).map (addressOf ern messageId)).Subperm
    (Bus.addressesFor "eqs" (after.bus.events.drop before.bus.events.length))

def Kept (before after : World) : Prop :=
  Stored ern messageId after ∨ Delivered ern messageId before after

end

/-! ### The statements that matter -/

/-- The statement does not keep a message from being stored, and does not delete it: the topic is
read, the message counted, its insertion not refused, and its deletion refused. -/
def Keeps (env : Env) : Req → World → Prop
  | .topic (.findByErn _), world => env.outage world.moment = none
  | .topic (.count _ available _), world => 0 < available → env.outage world.moment = none
  | .message (.insert _), world => env.outage world.moment ≠ some .refused
  | .message (.deleteOne _), world => env.outage world.moment = some .refused
  | _, _ => True

/-- The statement does not keep a message from being delivered: the subscriptions are read, and
nothing on the way to the event for EQS fails. -/
def Delivers (env : Env) : Req → World → Prop
  | .subscriptionsOf _, world => env.outage world.moment = none
  | .bus req, world => Bus.StoresFor env.toEnv "eqs" req world.bus
  | _, _ => True

/-! ### Operations on rows -/

/-- The requests that concern topics and messages alone. -/
def Req.IsOnRows : Req → Prop
  | .topic _ | .message _ | .bus .systemClock | .bus .randomUuid => True
  | _ => False

/-- Nothing has been published and nothing stored on the bus, and what is known of subscriptions
is what it was. -/
structure Offstage (before after : World) : Prop where
  events : after.bus.events = before.bus.events
  registered : after.bus.subscriptions = before.bus.subscriptions
  processes : after.bus.processes = before.bus.processes
  subscriptions : after.subscriptions = before.subscriptions
  caches : after.caches = before.caches
  published : after.published = before.published

theorem Offstage.refl (world : World) : Offstage world world := ⟨rfl, rfl, rfl, rfl, rfl, rfl⟩

theorem Offstage.trans {first second third : World} (left : Offstage first second)
    (right : Offstage second third) : Offstage first third :=
  ⟨right.events.trans left.events, right.registered.trans left.registered,
    right.processes.trans left.processes, right.subscriptions.trans left.subscriptions,
    right.caches.trans left.caches, right.published.trans left.published⟩

theorem machine_offstage {req : Req} (onRows : req.IsOnRows) :
    Offstage world (machine env proc req world).2 := by
  cases req with
  | topic stmt => exact ⟨rfl, rfl, rfl, rfl, rfl, rfl⟩
  | message stmt => exact ⟨rfl, rfl, rfl, rfl, rfl, rfl⟩
  | bus req => cases req <;> first | exact absurd onRows id | exact ⟨rfl, rfl, rfl, rfl, rfl, rfl⟩
  | _ => exact absurd onRows id

variable {operation : Op Fault Result}

theorem onRows_offstage (asks : operation.Asks Req.IsOnRows) :
    operation.Traces (machine env proc) (Delivers env) world
      fun met _ after => met ∧ Offstage world after := by
  refine asks.traces (Offstage world) (.refl world) fun req before onRows kept =>
    ⟨?_, kept.trans (machine_offstage onRows)⟩
  cases req with
  | bus req => cases req <;> first | exact absurd onRows id | trivial
  | subscriptionsOf _ => exact absurd onRows id
  | _ => trivial

section Rows

variable {condition : Req → World → Prop}

theorem traces_onTopics {stmt : TopicStatement}
    {post : Prop → Except StoreError stmt.Answer → World → Prop} :
    (onTopics stmt).Traces (machine env proc) condition world post ↔
      post (condition (.topic stmt) world) (machine env proc (.topic stmt) world).1
        (machine env proc (.topic stmt) world).2 := by
  unfold onTopics
  rw [traces_bind, traces_issue]
  dsimp only
  rw [traces_ofExcept, and_true]

theorem traces_onMessages {stmt : MessageStatement}
    {post : Prop → Except StoreError stmt.Answer → World → Prop} :
    (onMessages stmt).Traces (machine env proc) condition world post ↔
      post (condition (.message stmt) world) (machine env proc (.message stmt) world).1
        (machine env proc (.message stmt) world).2 := by
  unfold onMessages
  rw [traces_bind, traces_issue]
  dsimp only
  rw [traces_ofExcept, and_true]

end Rows

/-! ### The message in the collection -/

theorem machine_messages {stmt : MessageStatement} :
    (machine env proc (.message stmt) world).2.messages =
      if env.outage world.moment = some .refused then world.messages
      else (stmt.apply world.messages).2 :=
  Bus.underOutage_snd_eq ..

/-- What a store of one message comes to: it is stored unless that is refused. -/
theorem storeMessage_keeps (msg : Message)
    (unused : ∀ doc ∈ world.messages, doc.messageId ≠ msg.messageId) :
    (storeMessage env msg).Traces (machine env proc) (Keeps env) world
      fun met _ after =>
        (met → ∃ created, after.messages = world.messages ++ [msg.toDocument env created]) ∧
        (¬met → after.messages = world.messages) := by
  unfold storeMessage readSystemClock
  rw [traces_bind, traces_issue]
  dsimp only
  rw [traces_onMessages]
  have condition : (Keeps env (.bus .systemClock) world ∧ Keeps env
      (.message (.insert (msg.toDocument env (env.systemClock world.moment))))
        (machine env proc (.bus .systemClock) world).2) ↔
      env.outage (world.moment + 1) ≠ some .refused := iff_of_eq (true_and _)
  refine ⟨fun met => ⟨env.systemClock world.moment, ?_⟩, fun unmet => ?_⟩
  · refine machine_messages.trans ((if_neg (condition.mp met)).trans ?_)
    exact congrArg Prod.snd (insert_unused unused)
  · exact machine_messages.trans (if_pos (not_not.mp fun other => unmet (condition.mpr other)))

variable {condition : Req → World → Prop}

theorem traces_orAnswer {operation : Op StoreError Result} {fallback : Result}
    {post : Prop → Except Fault Result → World → Prop} :
    (orAnswer operation fallback : Op Fault Result).Traces (machine env proc) condition world post ↔
      operation.Traces (machine env proc) condition world fun met outcome after =>
        match outcome with
        | .ok result => post met (.ok result) after
        | .error _ => post met (.ok fallback) after := by
  unfold orAnswer
  rw [traces_catching]
  refine iff_of_eq (congrArg _ ?_)
  funext met outcome after
  cases outcome with
  | ok result => rfl
  | error fault => exact congrArg (post · _ _) (and_true _)

theorem machine_topic_cases (proc : Nat) (world : World) (stmt : TopicStatement) :
    (env.outage world.moment = none ∧
        machine env proc (.topic stmt) world =
          ((stmt.apply world.topics).1,
            { world.tick with topics := (stmt.apply world.topics).2 })) ∨
      ∃ outage topics, env.outage world.moment = some outage ∧
        machine env proc (.topic stmt) world =
          (.error (.outage outage), { world.tick with topics := topics }) := by
  simp only [machine]
  cases env.outage world.moment with
  | none => exact .inl ⟨rfl, rfl⟩
  | some outage =>
    refine .inr ?_
    cases outage with
    | refused => exact ⟨_, _, rfl, rfl⟩
    | unanswered => exact ⟨_, _, rfl, rfl⟩

theorem expiryOf_keeps (topic : Topic) :
    (expiryOf env topic : Op Fault (Option Time)).Traces (machine env proc)
      (Keeps env) world fun met outcome after =>
        met ∧ ∃ expiresAt, outcome = .ok expiresAt ∧ after.messages = world.messages := by
  unfold expiryOf
  dsimp only
  split
  · exact ⟨trivial, none, rfl, rfl⟩
  · exact ⟨⟨trivial, trivial⟩, _, rfl, rfl⟩

variable {topic : Topic}

/-- A message of a topic is stored unless its topic cannot be read, or it cannot be counted, or it
is refused. -/
theorem publishMessage_keeps (messageId ern topicErn body : String)
    (attributes : Attributes) (priority : String) (found : world.HasTopic topicErn topic)
    (unused : ∀ doc ∈ world.messages, doc.messageId ≠ messageId) :
    (publishMessage env messageId ern topicErn body attributes priority :
        Op Fault Message).Traces (machine env proc) (Keeps env) world
      fun met outcome after => ∃ msg : Message, outcome = .ok msg ∧
        msg.messageId = messageId ∧ (msg.status = .held → topic.delivering = false) ∧
        (met → (topic.delivering = false → msg.status = .held) ∧
          ∃ doc : MessageDocument, doc.messageId = messageId ∧
            doc.topicErn = topicErn ∧ after.messages = world.messages ++ [doc]) ∧
        (¬met → after.messages = world.messages) := by
  unfold publishMessage
  rw [traces_bind, traces_orAnswer, traces_bind, traces_onTopics]
  rcases machine_topic_cases proc world (.findByErn topicErn) with
    ⟨answered, step⟩ | ⟨outage, topics, failed, step⟩
  · have read : Keeps env (.topic (.findByErn topicErn)) world = True := eq_true answered
    simp only [step, TopicStatement.apply, found, pure_eq, read, true_and]
    rw [traces_done]
    dsimp only
    rw [traces_bind]
    refine (expiryOf_keeps topic).mono fun met outcome middle kept => ?_
    obtain ⟨met, expiresAt, rfl, msgs⟩ := kept
    dsimp only
    rw [traces_bind, traces_orAnswer, traces_bind, traces_onTopics]
    rcases machine_topic_cases proc middle (.count topicErn 1
        (newMessage env messageId ern topicErn body attributes priority).size) with
      ⟨counted, step⟩ | ⟨outage, topics, failed, step⟩
    · have count : Keeps env (.topic (.count topicErn 1 (newMessage env messageId
          ern topicErn body attributes priority).size)) middle = True := eq_true fun _ => counted
      simp only [step, TopicStatement.apply, count, true_and, eq_true met]
      refine (storeMessage_keeps _ ?_).mono fun met outcome after kept => ?_
      · intro doc mem
        exact unused doc (msgs ▸ mem)
      · obtain ⟨whenMet, whenNot⟩ := kept
        have came : ∃ msg : Message, msg = (newMessage env messageId ern topicErn body
            attributes priority).decidedBy topic expiresAt ∧ msg.messageId = messageId ∧
            (msg.status = .held → topic.delivering = false) ∧
            (met ∧ True → (topic.delivering = false → msg.status = .held) ∧
              ∃ doc : MessageDocument, doc.messageId = messageId ∧
                doc.topicErn = topicErn ∧ after.messages = world.messages ++ [doc]) ∧
            (¬(met ∧ True) → after.messages = world.messages) := by
          refine ⟨_, rfl, rfl, ?_, fun met => ⟨fun stopped => ?_, ?_⟩, fun unmet => ?_⟩
          · cases delivering : topic.delivering <;> simp [decidedBy, delivering]
          · simp [decidedBy, stopped]
          · obtain ⟨created, stored⟩ := whenMet met.1
            exact ⟨_, rfl, rfl, stored.trans (congrArg (· ++ _) msgs)⟩
          · exact (whenNot fun met => unmet ⟨met, trivial⟩).trans msgs
        obtain ⟨msg, rfl, rest⟩ := came
        cases outcome with
        | ok result => exact ⟨_, rfl, rest⟩
        | error fault => exact ⟨_, rfl, rest⟩
    · have count : Keeps env (.topic (.count topicErn 1 (newMessage env messageId
          ern topicErn body attributes priority).size)) middle = False :=
        eq_false (by simp [Keeps, failed])
      simp only [step, count, false_and, and_false]
      refine ⟨_, rfl, rfl, ?_, False.elim, fun _ => msgs⟩
      cases delivering : topic.delivering <;> simp [decidedBy, delivering]
  · have unread : Keeps env (.topic (.findByErn topicErn)) world = False :=
      eq_false (by simp [Keeps, failed])
    simp only [step, unread, false_and, pure_eq]
    exact ⟨_, rfl, rfl, by rintro ⟨⟩, False.elim, fun _ => rfl⟩

theorem recordSend_keeps {ern : String} {sent : Int} :
    (recordSend ern sent : Op Fault Unit).Traces (machine env proc)
      (Keeps env) world fun met outcome after =>
        met ∧ outcome = .ok () ∧ after.messages = world.messages := by
  unfold recordSend onlyIf
  split
  · rw [traces_orAnswer, traces_onTopics]
    cases (machine env proc (.topic (.recordSend ern sent)) world).1 with
    | ok result => exact ⟨trivial, rfl, rfl⟩
    | error fault => exact ⟨trivial, rfl, rfl⟩
  · exact ⟨trivial, rfl, rfl⟩

theorem deleteDeliveredMessage_keeps {topicErn messageId : String} {size : Int} :
    (deleteDeliveredMessage topicErn messageId size : Op Fault Bool).Traces
      (machine env proc) (Keeps env) world fun met _ after =>
        (met → after.messages = world.messages) ∧
        (¬met → after.messages = world.messages.eraseP fun doc => doc.messageId = messageId) := by
  have deleted : ∀ {after : World}, after.messages = (machine env proc
        (.message (.deleteOne messageId)) world).2.messages →
      (Keeps env (.message (.deleteOne messageId)) world → after.messages = world.messages) ∧
      (¬Keeps env (.message (.deleteOne messageId)) world → after.messages =
        world.messages.eraseP fun doc => doc.messageId = messageId) := by
    intro after same
    rw [same, machine_messages]
    exact ⟨fun refused => if_pos refused, fun accepted => if_neg accepted⟩
  unfold deleteDeliveredMessage
  rw [traces_orAnswer, traces_bind, traces_onMessages]
  generalize machine env proc (.message (.deleteOne messageId)) world = step at *
  obtain ⟨answer, middle⟩ := step
  cases answer with
  | error fault => exact deleted rfl
  | ok count =>
    dsimp only
    split
    · rw [pure_eq, traces_done]
      simpa only [and_true] using deleted rfl
    · have uncounted : Keeps env (.topic (.count topicErn (-1) (-size))) middle = True :=
        eq_true fun positive => by omega
      rw [traces_map, traces_onTopics]
      simp only [uncounted, and_true]
      cases (machine env proc (.topic (.count topicErn (-1) (-size))) middle).1 with
      | ok result => exact deleted rfl
      | error fault => exact deleted rfl

/-! ### Operations that leave the rows alone -/

/-- The requests that concern neither topics nor messages. -/
def Req.IsOffRows : Req → Prop
  | .topic _ | .message _ => False
  | _ => True

theorem onBus_offRows {operation : Bus.Op Empty Result} :
    (onBus operation : Op Fault Result).Asks Req.IsOffRows :=
  (asks_lift (fun _ => trivial) operation).catching fun fault => fault.elim

theorem listSubscriptions_offRows {sourceErn : String} :
    (listSubscriptionsBySourceErnCached sourceErn : Op Fault _).Asks Req.IsOffRows := by
  refine (asks_issue trivial).bind fun looked => ?_
  obtain ⟨now, cached⟩ := looked
  cases cached with
  | some subscriptions => trivial
  | none =>
    refine Asks.catching ((asks_issue trivial).bind fun read => ?_) fun fault => trivial
    exact (asks_ofExcept _).bind fun subscriptions =>
      (asks_issue trivial).bind fun _ => trivial

variable {topicErn messageId body : String} {attributes : Attributes}
  {systemAttributes : List (String × Json)} {priority bucketPriority : String}

theorem deliverToSubscriptions_offRows :
    (deliverToSubscriptions env topicErn messageId body attributes systemAttributes priority
        bucketPriority : Op Fault Nat).Asks Req.IsOffRows := by
  refine listSubscriptions_offRows.bind fun subscriptions => ?_
  refine Asks.bind (Asks.forEach fun subscription _ => ?_) fun _ => trivial
  exact (asks_issue trivial).bind fun _ => onBus_offRows

theorem offRows_keeps (asks : operation.Asks Req.IsOffRows) :
    operation.Traces (machine env proc) (Keeps env) world
      fun met _ after => met ∧ after.messages = world.messages := by
  refine asks.traces (fun after : World => after.messages = world.messages) rfl
    fun req before offRows kept => ?_
  cases req with
  | topic stmt => exact absurd offRows id
  | message stmt => exact absurd offRows id
  | _ => exact ⟨trivial, kept⟩

theorem asks_orAnswer {kind : Req → Prop} {operation : Op StoreError Result}
    {fallback : Result} (asks : operation.Asks kind) :
    (orAnswer operation fallback : Op Fault Result).Asks kind :=
  asks.catching fun _ => trivial

theorem onTopics_onRows {stmt : TopicStatement} : (onTopics stmt).Asks Req.IsOnRows :=
  (asks_issue trivial).bind asks_ofExcept

theorem onMessages_onRows {stmt : MessageStatement} : (onMessages stmt).Asks Req.IsOnRows :=
  (asks_issue trivial).bind asks_ofExcept

theorem storeMessage_onRows {msg : Message} : (storeMessage env msg).Asks Req.IsOnRows :=
  (asks_issue trivial).bind fun _ => onMessages_onRows

theorem publishMessage_onRows {messageId ern topicErn body : String} {attributes : Attributes}
    {priority : String} :
    (publishMessage env messageId ern topicErn body attributes priority :
      Op Fault Message).Asks Req.IsOnRows := by
  refine Asks.bind (asks_orAnswer (Asks.bind onTopics_onRows fun _ => trivial)) fun read => ?_
  match read with
  | none => trivial
  | some none => exact (asks_orAnswer storeMessage_onRows).bind fun _ => trivial
  | some (some topic) =>
    refine Asks.bind ?_ fun expiresAt => (asks_orAnswer (onTopics_onRows.bind fun _ =>
      storeMessage_onRows)).bind fun _ => trivial
    unfold expiryOf
    dsimp only
    split
    · trivial
    · exact (asks_issue trivial).bind fun _ => trivial

theorem recordSend_onRows {ern : String} {sent : Int} :
    (recordSend ern sent : Op Fault Unit).Asks Req.IsOnRows :=
  Asks.onlyIf fun _ => asks_orAnswer onTopics_onRows

theorem deleteDeliveredMessage_onRows {topicErn messageId : String} {size : Int} :
    (deleteDeliveredMessage topicErn messageId size : Op Fault Bool).Asks Req.IsOnRows := by
  refine asks_orAnswer (onMessages_onRows.bind fun deleted => ?_)
  split
  · trivial
  · exact onTopics_onRows.bind fun _ => trivial

theorem onRows_ensures {assumed : Req → World → Prop} (asks : operation.Asks Req.IsOnRows) :
    operation.Ensures (machine env proc) assumed world fun _ after =>
      Offstage world after :=
  asks.ensures (Offstage world) (.refl world) fun _ _ onRows kept =>
    kept.trans (machine_offstage onRows)

/-! ### A posting, and its message in the collection -/

/-- What decides whether a message is stored: one that is stored is not published while its topic is
stopped. -/
def DecidesStored (ern messageId : String) (topic : Topic) (before after : World) (keeps : Prop) :
    Prop :=
  (keeps ↔ Stored ern messageId after) ∧
    (keeps → topic.delivering = false → after.published = before.published)

/-- What decides whether a message is delivered, if it is published at all. -/
def DecidesDelivered (ern messageId : String) (topic : Topic) (before after : World)
    (delivers : Prop) : Prop :=
  (before.queues ern = [] → after.published = before.published) ∧
    (before.queues ern ≠ [] →
      (Delivered ern messageId before after ↔ delivers ∧ after.published ≠ before.published) ∧
      (delivers → topic.delivering = true → after.published ≠ before.published))

/-- A message that is posted is in the collection afterwards exactly if nothing kept it from being
stored and nothing deleted it. One that is stored is not published while its topic is stopped. -/
theorem posting_keeps {posting : Posting} (found : world.HasTopic posting.topicErn topic)
    (unused : ∀ doc ∈ world.messages,
      doc.messageId ≠ env.randomUuid world.moment) {deleteAfterDelivery : Bool} :
    (posting.operation env deleteAfterDelivery : Op Fault Message).Traces
      (machine env proc) (Keeps env) world fun met outcome after =>
        DecidesStored posting.topicErn (env.randomUuid world.moment) topic world after met ∧
        ∀ msg, outcome = .ok msg → msg.messageId = env.randomUuid world.moment := by
  unfold Posting.operation publishToTopic createRandomUuid
  rw [traces_bind, traces_issue]
  dsimp only
  rw [traces_bind]
  have stillFound : world.tick.HasTopic posting.topicErn topic := found
  have stillUnused : ∀ doc ∈ world.tick.messages,
      doc.messageId ≠ env.randomUuid world.moment := unused
  refine ((publishMessage_keeps _ _ _ _ _ _ stillFound stillUnused).and_ensures
    (onRows_ensures publishMessage_onRows)).mono fun met outcome stored kept => ?_
  obtain ⟨⟨msg, rfl, sameId, _, whenMet, whenNot⟩, offstage⟩ := kept
  have there : ∀ after : World, after.messages = stored.messages →
      (met ↔ Stored posting.topicErn (env.randomUuid world.moment) after) := by
    intro after same
    constructor
    · intro met
      obtain ⟨_, doc, id, own, msgs⟩ := whenMet met
      exact ⟨doc, by simp [same, msgs], id, own⟩
    · rintro ⟨doc, mem, id, _⟩
      by_contra unmet
      rw [same, whenNot unmet] at mem
      exact unused doc mem id
  have gone : ∀ after : World, after.messages = (stored.messages.eraseP fun doc =>
      doc.messageId = env.randomUuid world.moment) →
        ¬Stored posting.topicErn (env.randomUuid world.moment) after := by
    rintro after erased ⟨doc, mem, id, _⟩
    have none : ∀ other ∈ world.messages,
        ¬decide (other.messageId = env.randomUuid world.moment) = true :=
      fun other among => by simpa using unused other among
    by_cases met : met
    · obtain ⟨_, other, sameOther, _, msgs⟩ := whenMet met
      rw [erased, msgs, eraseP_append_right _ none, eraseP_cons_of_pos (by
        simpa using sameOther), append_nil] at mem
      exact unused doc mem id
    · rw [erased, whenNot met, eraseP_of_forall_not none] at mem
      exact unused doc mem id
  have drawn : Keeps env (.bus .randomUuid) world = True := rfl
  simp only [drawn, true_and]
  rw [traces_bind]
  refine (recordSend_keeps.and_ensures (onRows_ensures recordSend_onRows)).mono
    fun counting outcome counted kept => ?_
  obtain ⟨⟨counting, rfl, countedMessages⟩, countedOffstage⟩ := kept
  simp only [eq_true counting, true_and]
  split
  · rw [pure_eq, traces_done]
    refine ⟨⟨(iff_of_eq (and_true _)).trans (there counted countedMessages), fun _ _ => ?_⟩, ?_⟩
    · exact countedOffstage.published.trans offstage.published
    · rintro _ ⟨⟩
      exact sameId
  · rename_i published
    have running : met → topic.delivering ≠ false := fun met stopped =>
      published ((whenMet met).1 stopped)
    rw [traces_bind]
    refine (offRows_keeps deliverToSubscriptions_offRows).mono
      fun delivering outcome delivered kept => ?_
    obtain ⟨delivering, deliveredMessages⟩ := kept
    have same := deliveredMessages.trans countedMessages
    simp only [eq_true delivering, true_and]
    cases outcome with
    | error fault =>
      exact ⟨⟨(iff_of_eq (and_true _)).trans (there delivered same), fun met stopped =>
        absurd stopped (running met.1)⟩, by rintro _ ⟨⟩⟩
    | ok count =>
      dsimp only
      rw [traces_bind]
      unfold onlyIf
      split
      · rw [traces_map, sameId]
        refine deleteDeliveredMessage_keeps.mono fun refused outcome after kept => ?_
        obtain ⟨whenRefused, whenDeleted⟩ := kept
        have decided : met ∧ refused ↔
            Stored posting.topicErn (env.randomUuid world.moment) after := by
          by_cases refused : refused
          · exact (and_iff_left refused).trans (there after ((whenRefused refused).trans same))
          · refine iff_of_false (fun both => refused both.2) (gone after ?_)
            rw [whenDeleted refused, same]
        cases outcome with
        | ok deleted =>
          simp only [pure_eq, traces_done, and_true]
          refine ⟨⟨decided, fun met stopped => absurd stopped (running met.1)⟩, ?_⟩
          rintro _ ⟨⟩
          exact sameId
        | error fault =>
          exact ⟨⟨decided, fun met stopped => absurd stopped (running met.1)⟩, by rintro _ ⟨⟩⟩
      · simp only [pure_eq, traces_done, and_true]
        refine ⟨⟨there delivered same, fun met stopped => absurd stopped (running met)⟩, ?_⟩
        rintro _ ⟨⟩
        exact sameId

/-! ### A delivery, and the events it stores -/

theorem lift_run (operation : Bus.Op Fault Result) :
    (operation.lift Req.bus fun _ => id).run (machine env proc) world =
      ((operation.run (Bus.machine env.toEnv proc) world.bus).1,
        { world with bus := (operation.run (Bus.machine env.toEnv proc) world.bus).2 }) := by
  induction operation generalizing world with
  | done result => rfl
  | raise fault => rfl
  | ask req next ih => exact ih _

variable {busCondition : Bus.Req → Bus.World → Prop}
  (agree : ∀ req world, condition (.bus req) world ↔ busCondition req world.bus)

include agree in
theorem lift_meets {operation : Bus.Op Fault Result} :
    (operation.lift Req.bus fun _ => id).Meets (machine env proc) condition world ↔
      operation.Meets (Bus.machine env.toEnv proc) busCondition world.bus := by
  induction operation generalizing world with
  | done result => exact Iff.rfl
  | raise fault => exact Iff.rfl
  | ask req next ih =>
    exact and_congr (agree req world) (ih _)

include agree in
theorem onBus_traces {operation : Bus.Op Empty Result}
    {post : Prop → Except Empty Result → Bus.World → Prop}
    (traces : operation.Traces (Bus.machine env.toEnv proc) busCondition world.bus post) :
    (onBus operation : Op Fault Result).Traces (machine env proc) condition world
      fun met outcome after => ∃ result bus, outcome = .ok result ∧ post met (.ok result) bus ∧
        after = { world with bus := bus } := by
  unfold onBus
  rw [traces_catching, Traces, lift_run, propext (lift_meets agree)]
  cases ended : (operation.run (Bus.machine env.toEnv proc) world.bus).1 with
  | ok result => exact ⟨result, _, rfl, ended ▸ traces, rfl⟩
  | error fault => exact fault.elim

/-- Between two worlds messages were published, and events stored for EQS with such addresses. -/
structure Sent (publications : List Publication)
    (addresses : List (String × Option String × Option String × Option String))
    (before after : World) : Prop where
  published : after.published = before.published ++ publications
  subscriptions : after.subscriptions = before.subscriptions
  registered : after.bus.subscriptions = before.bus.subscriptions
  events : ∃ fresh, after.bus.events = before.bus.events ++ fresh ∧
    Bus.addressesFor "eqs" fresh = addresses

theorem Sent.trans {publications more : List Publication}
    {addresses others : List (String × Option String × Option String × Option String)}
    {first second third : World} (left : Sent publications addresses first second)
    (right : Sent more others second third) :
    Sent (publications ++ more) (addresses ++ others) first third := by
  obtain ⟨fresh, leftEvents, leftAddresses⟩ := left.events
  obtain ⟨later, rightEvents, rightAddresses⟩ := right.events
  refine ⟨?_, right.subscriptions.trans left.subscriptions,
    right.registered.trans left.registered, fresh ++ later, ?_, ?_⟩
  · rw [right.published, left.published, append_assoc]
  · rw [rightEvents, leftEvents, append_assoc]
  · rw [Bus.addressesFor_append, leftAddresses, rightAddresses]

variable {before : World} {after : World}

theorem Offstage.sent (offstage : Offstage before after) : Sent [] [] before after :=
  ⟨offstage.published.trans (append_nil _).symm, offstage.subscriptions, offstage.registered,
    [], offstage.events.trans (append_nil _).symm, rfl⟩

theorem Sent.delivered_iff {publications : List Publication}
    {addresses : List (String × Option String × Option String × Option String)}
    (sent : Sent publications addresses before after) (ern messageId : String) :
    Delivered ern messageId before after ↔
      ((before.queues ern).map (addressOf ern messageId)).Subperm addresses := by
  obtain ⟨fresh, events, rfl⟩ := sent.events
  rw [Delivered, events, drop_left]

/-- EQS is registered for the messages of topics, and the process knows. -/
structure Registered (env : Env) (proc : Nat) (world : World) : Prop where
  remembers : world.bus.Remembers env.toEnv proc kPublished
  subscribed : ∃ record ∈ world.bus.subscribers env.toEnv kPublished,
    record.target = "eqs" ∧ record.external = false

theorem Registered.of_same (registered : Registered env proc before)
    (subscriptions : after.bus.subscriptions = before.bus.subscriptions)
    (remembers : after.bus.Remembers env.toEnv proc kPublished) : Registered env proc after := by
  obtain ⟨record, subscribed, target⟩ := registered.subscribed
  refine ⟨remembers, record, ?_, target⟩
  rw [Bus.World.subscribers, subscriptions]
  exact subscribed

theorem Registered.offstage
    (registered : Registered env proc before) (offstage : Offstage before after) :
    Registered env proc after := by
  refine registered.of_same offstage.registered ?_
  have remembers := registered.remembers
  unfold Bus.World.Remembers Bus.World.subscribers at remembers ⊢
  rw [offstage.processes, offstage.registered]
  exact remembers

/-- One call of `EventBus::Publish` stores the event for EQS, or none. -/
theorem publish_sends (registered : Registered env proc world) {subscription : Subscription} :
    (publish env (publicationFor env topicErn messageId body attributes
        systemAttributes priority bucketPriority subscription) : Op Fault Unit).Traces
      (machine env proc) (Delivers env) world fun met outcome after =>
        outcome = .ok () ∧ Registered env proc after ∧ ∃ addresses,
          Sent [publicationFor env topicErn messageId body attributes systemAttributes
            priority bucketPriority subscription] addresses world after ∧
          (met → addresses = [addressOf topicErn messageId subscription]) ∧
          (¬met → addresses = []) := by
  have moved : Registered env proc (machine env proc (.publishing
      (publicationFor env topicErn messageId body attributes systemAttributes priority
        bucketPriority subscription)) world).2 := registered.of_same rfl registered.remembers
  obtain ⟨record, subscribed, target, module⟩ := moved.subscribed
  unfold publish
  rw [traces_bind, traces_issue]
  have agree : ∀ (req : Bus.Req) (world : World), Delivers env (.bus req) world ↔
      Bus.StoresFor env.toEnv record.target req world.bus := by
    intro req world
    rw [target]
    rfl
  refine Traces.mono (onBus_traces agree (Bus.publish_stores moved.remembers subscribed module _ _
    _)) fun met outcome after kept => ?_
  obtain ⟨result, bus, rfl, ⟨_, remembers, subscriptions, fresh, events, whenMet, whenNot⟩, rfl⟩ :=
    kept
  refine ⟨rfl, registered.of_same subscriptions remembers, _,
    ⟨rfl, rfl, subscriptions, fresh, events, rfl⟩, fun met => ?_, fun unmet => ?_⟩
  · rw [← target]
    exact whenMet met.2
  · rw [← target]
    exact whenNot fun also => unmet ⟨trivial, also⟩

/-- A message is published for each of the subscriptions. If anything keeps an event from being
stored, there are fewer events than subscriptions. -/
theorem publishEach_sends :
    ∀ {subscriptions : List Subscription} {world : World}, Registered env proc world →
      (forEach subscriptions fun subscription => publish env (publicationFor env
          topicErn messageId body attributes systemAttributes priority bucketPriority
            subscription) :
            Op Fault Unit).Traces
        (machine env proc) (Delivers env) world fun met outcome after =>
          outcome = .ok () ∧ ∃ addresses,
            Sent (subscriptions.map (publicationFor env topicErn messageId body attributes
              systemAttributes priority bucketPriority)) addresses world after ∧
            (met → addresses = subscriptions.map (addressOf topicErn messageId)) ∧
            addresses.length ≤ subscriptions.length ∧
            (¬met → addresses.length < subscriptions.length)
  | [], world, registered =>
    ⟨rfl, [], (Offstage.refl world).sent, fun _ => rfl, le_rfl, fun unmet => absurd trivial unmet⟩
  | subscription :: rest, world, registered => by
    rw [forEach, traces_bind]
    refine (publish_sends registered).mono fun met outcome middle kept => ?_
    obtain ⟨rfl, registered, addresses, sent, whenMet, whenNot⟩ := kept
    refine (publishEach_sends registered).mono fun also outcome after kept => ?_
    obtain ⟨rfl, others, later, whenAlso, fewer, whenNotAlso⟩ := kept
    refine ⟨rfl, _, sent.trans later, fun both => ?_, ?_, fun unmet => ?_⟩
    · rw [whenMet both.1, whenAlso both.2]
      rfl
    · by_cases met : met
      · rw [whenMet met]
        simpa [Nat.add_comm] using fewer
      · rw [whenNot met]
        exact Nat.le_succ_of_le fewer
    · by_cases met : met
      · have fewer := whenNotAlso fun also => unmet ⟨met, also⟩
        rw [whenMet met]
        simpa [Nat.add_comm] using fewer
      · rw [whenNot met]
        exact Nat.lt_succ_of_le fewer

/-- The subscriptions of a topic are what is stored, or none if they could not be read. -/
theorem listSubscriptions_sends (coherent : Coherent world)
    (registered : Registered env proc world) {sourceErn : String} :
    (listSubscriptionsBySourceErnCached sourceErn : Op Fault _).Traces
      (machine env proc) (Delivers env) world fun met outcome after =>
        Sent [] [] world after ∧ Registered env proc after ∧
        (met → outcome = .ok (world.subscriptions.filter fun subscription =>
          subscription.sourceErn = sourceErn)) ∧ (¬met → outcome = .ok []) := by
  have aside : ∀ {after : World}, after.published = world.published →
      after.subscriptions = world.subscriptions → after.bus.events = world.bus.events →
      after.bus.subscriptions = world.bus.subscriptions →
      after.bus.processes = world.bus.processes →
      Sent [] [] world after ∧ Registered env proc after := by
    intro after published subscriptions events known processes
    refine ⟨⟨published.trans (append_nil _).symm, subscriptions, known, [],
      events.trans (append_nil _).symm, rfl⟩, registered.of_same known ?_⟩
    have remembers := registered.remembers
    unfold Bus.World.Remembers Bus.World.subscribers at remembers ⊢
    rw [processes, known]
    exact remembers
  unfold listSubscriptionsBySourceErnCached
  rw [traces_bind, traces_issue]
  cases remembered : (machine env proc (.cachedSubscriptions sourceErn) world).1.2 with
  | some subscriptions =>
    simp only [remembered]
    obtain ⟨sent, registered⟩ := aside (rfl : (machine env proc
      (.cachedSubscriptions sourceErn) world).2.published = _) rfl rfl rfl rfl
    refine ⟨sent, registered, fun _ => ?_, fun unmet => absurd ⟨trivial, trivial⟩ unmet⟩
    rw [pure_eq, run_done, coherent.cached remembered]
  | none =>
    simp only [remembered]
    rw [traces_orAnswer, traces_bind, traces_issue]
    simp only [machine, Delivers]
    cases failing : env.outage world.tick.moment with
    | none =>
      simp only [underOutage, ofExcept_ok, traces_done, traces_bind, traces_issue]
      rw [pure_eq, traces_done]
      obtain ⟨sent, registered⟩ := aside (rfl : (machine env proc
        (.rememberSubscriptions sourceErn (env.steadyClock world.moment)
          (world.subscriptions.filter fun subscription => subscription.sourceErn = sourceErn))
            world.tick.tick).2.published = _) rfl rfl rfl rfl
      exact ⟨sent, registered, fun _ => rfl, fun unmet =>
        absurd ⟨trivial, trivial, trivial, trivial, trivial⟩ unmet⟩
    | some outage =>
      obtain ⟨sent, registered⟩ := aside (rfl : world.tick.tick.published = _) rfl rfl rfl rfl
      cases outage with
      | refused => exact ⟨sent, registered, fun met => (by cases met.2.1), fun _ => trivial⟩
      | unanswered => exact ⟨sent, registered, fun met => (by cases met.2.1), fun _ => trivial⟩

/-- A message goes to each queue of its topic. If anything keeps that from happening, some queue
has no event of its own. -/
theorem deliverToSubscriptions_sends (coherent : Coherent world)
    (registered : Registered env proc world) :
    (deliverToSubscriptions env topicErn messageId body attributes systemAttributes priority
        bucketPriority : Op Fault Nat).Traces (machine env proc)
      (Delivers env) world fun met _ after => ∃ publications addresses,
        Sent publications addresses world after ∧ (world.queues topicErn = [] → publications = []) ∧
        (met → publications.length = (world.queues topicErn).length ∧
          addresses = (world.queues topicErn).map (addressOf topicErn messageId)) ∧
        (¬met → world.queues topicErn = [] ∨ addresses.length < (world.queues topicErn).length) ∧
        (addresses.length ≤ publications.length) := by
  unfold deliverToSubscriptions
  rw [traces_bind]
  refine (listSubscriptions_sends coherent registered).mono
    fun met outcome middle kept => ?_
  obtain ⟨sent, registered, whenRead, whenNot⟩ := kept
  by_cases read : met
  · obtain rfl := whenRead read
    dsimp only
    rw [traces_bind]
    refine (publishEach_sends registered).mono fun also outcome after kept => ?_
    obtain ⟨rfl, addresses, published, whenMet, fewer, whenFewer⟩ := kept
    refine ⟨_, _, sent.trans published, fun empty => ?_, fun met => ⟨?_, whenMet met.2.1⟩,
      fun unmet => .inr ?_, ?_⟩
    · exact congrArg (List.map _) empty
    · exact length_map _
    · exact whenFewer fun also => unmet ⟨read, also, trivial⟩
    · simpa using fewer
  · obtain rfl := whenNot read
    refine ⟨_, _, sent, fun _ => rfl, fun met => absurd met.1 read, fun _ => ?_, le_rfl⟩
    cases world.queues topicErn with
    | nil => exact .inl rfl
    | cons subscription rest => exact .inr (Nat.succ_pos _)

theorem publishMessage_sends {messageId ern topicErn body : String}
    {attributes : Attributes} {priority : String} (found : world.HasTopic topicErn topic)
    (unused : ∀ doc ∈ world.messages, doc.messageId ≠ messageId) :
    (publishMessage env messageId ern topicErn body attributes priority :
        Op Fault Message).Traces (machine env proc) (Delivers env) world
      fun met outcome after => (met ∧ Offstage world after) ∧ ∃ msg : Message,
        outcome = .ok msg ∧ msg.messageId = messageId ∧
          (msg.status = .held → topic.delivering = false) := by
  refine (onRows_offstage publishMessage_onRows).and_traces
    ((publishMessage_keeps messageId ern topicErn body attributes priority found unused).mono ?_)
  rintro met outcome after ⟨msg, ended, sameId, held, _⟩
  exact ⟨msg, ended, sameId, held⟩

/-- A posting delivers its message if it publishes it at all, and nothing keeps an event from being
stored. While its topic runs, it publishes it. -/
theorem posting_delivers {posting : Posting}
    (coherent : Coherent world) (registered : Registered env proc world)
    (found : world.HasTopic posting.topicErn topic)
    (unused : ∀ doc ∈ world.messages,
      doc.messageId ≠ env.randomUuid world.moment) {deleteAfterDelivery : Bool} :
    (posting.operation env deleteAfterDelivery : Op Fault Message).Traces
      (machine env proc) (Delivers env) world fun met _ after =>
        DecidesDelivered posting.topicErn (env.randomUuid world.moment) topic world after met := by
  unfold Posting.operation publishToTopic createRandomUuid
  rw [traces_bind, traces_issue]
  dsimp only
  rw [traces_bind]
  have stillFound : world.tick.HasTopic posting.topicErn topic := found
  have stillUnused : ∀ doc ∈ world.tick.messages,
      doc.messageId ≠ env.randomUuid world.moment := unused
  have ticked : Offstage world world.tick := ⟨rfl, rfl, rfl, rfl, rfl, rfl⟩
  refine (publishMessage_sends stillFound stillUnused).mono
    fun met outcome stored kept => ?_
  obtain ⟨⟨met, offstage⟩, msg, rfl, sameId, held⟩ := kept
  dsimp only
  rw [traces_bind]
  refine ((onRows_offstage recordSend_onRows).and_traces
    (recordSend_keeps.mono fun _ _ _ kept => kept.2.1)).mono
      fun counting outcome counted kept => ?_
  obtain ⟨⟨counting, countedOffstage⟩, rfl⟩ := kept
  have offstage := (ticked.trans offstage).trans countedOffstage
  have drawn : Delivers env (.bus .randomUuid) world = True := rfl
  simp only [drawn, eq_true met, eq_true counting, true_and]
  split
  · -- a message that is held is not published
    rename_i isHeld
    rw [pure_eq, traces_done]
    refine ⟨fun _ => offstage.published, fun some => ⟨?_, fun _ running => ?_⟩⟩
    · rw [offstage.sent.delivered_iff]
      refine iff_of_false (fun fewer => some ?_) fun both => both.2 offstage.published
      exact map_eq_nil_iff.mp (subperm_nil.mp fewer)
    · rw [held isHeld] at running
      cases running
  · rw [traces_bind]
    have stillCoherent : Coherent counted := by
      intro other entry mem
      rw [offstage.caches] at mem
      rw [offstage.subscriptions]
      exact coherent other entry mem
    have sameQueues : counted.queues posting.topicErn = world.queues posting.topicErn := by
      rw [World.queues, offstage.subscriptions, World.queues]
    refine (deliverToSubscriptions_sends stillCoherent (registered.offstage offstage)).mono
      fun met outcome delivered kept => ?_
    rw [sameQueues, sameId] at kept
    obtain ⟨publications, addresses, sent, whenEmpty, whenMet, whenNot, _⟩ := kept
    -- what follows only concerns rows
    have conclude : ∀ {after : World}, Offstage delivered after →
        DecidesDelivered posting.topicErn (env.randomUuid world.moment) topic world after met := by
      intro after last
      have whole := (offstage.sent.trans sent).trans last.sent
      simp only [nil_append, append_nil] at whole
      have fresh : met → world.queues posting.topicErn ≠ [] →
          after.published ≠ world.published := by
        intro met some same
        rw [whole.published, append_right_eq_self] at same
        have lengths := (whenMet met).1
        rw [same] at lengths
        exact some (eq_nil_of_length_eq_zero lengths.symm)
      refine ⟨fun empty => by rw [whole.published, whenEmpty empty, append_nil],
        fun some => ⟨?_, fun met _ => fresh met some⟩⟩
      rw [whole.delivered_iff]
      constructor
      · intro fewer
        have met : met := by
          by_contra unmet
          have lengths := fewer.length_le
          rw [length_map] at lengths
          exact ((whenNot unmet).resolve_left some).not_ge lengths
        exact ⟨met, fresh met some⟩
      · rintro ⟨met, _⟩
        rw [(whenMet met).2]
    cases outcome with
    | error fault => exact conclude (.refl _)
    | ok count =>
      dsimp only
      rw [traces_bind]
      have deletes : (onlyIf (deleteAfterDelivery = true ∧ 0 < count) (do
            let _ ← deleteDeliveredMessage posting.topicErn msg.messageId msg.size
            pure ()) : Op Fault Unit).Asks Req.IsOnRows :=
        Asks.onlyIf fun _ => deleteDeliveredMessage_onRows.bind fun _ => trivial
      refine (onRows_offstage deletes).mono fun also outcome after kept => ?_
      obtain ⟨also, last⟩ := kept
      simp only [eq_true also, and_true]
      cases outcome with
      | ok result =>
        rw [pure_eq, traces_done]
        simpa only [and_true] using conclude last
      | error fault => exact conclude last

/-! ### One pass of a start -/

theorem stored_iff {ern messageId : String} : Stored ern messageId world ↔
    (messageId, ern) ∈ world.messages.map fun doc => (doc.messageId, doc.topicErn) := by
  simp [Stored]

/-- A message that a start passes stays in the collection exactly if it is not deleted. -/
theorem releaseMessage_keeps {topic : Topic} {doc : MessageDocument}
    (apart : Apart world.messages) (stored : doc ∈ world.messages) :
    (releaseMessage env topic doc.topicErn (fromDocument env doc)).Traces
      (machine env proc) (Keeps env) world fun met _ after =>
        met ↔ Stored doc.topicErn doc.messageId after := by
  have there : ∀ after : World, after.messages = world.messages →
      Stored doc.topicErn doc.messageId after :=
    fun after same => ⟨doc, same ▸ stored, rfl, rfl⟩
  unfold releaseMessage
  rw [traces_bind]
  refine (offRows_keeps deliverToSubscriptions_offRows).mono
    fun delivering outcome delivered kept => ?_
  obtain ⟨delivering, same⟩ := kept
  simp only [eq_true delivering, true_and]
  cases outcome with
  | error fault => exact iff_of_true trivial (there delivered same)
  | ok count =>
    dsimp only
    split
    · rw [traces_map]
      refine deleteDeliveredMessage_keeps.mono fun met outcome after kept => ?_
      obtain ⟨whenRefused, whenDeleted⟩ := kept
      by_cases met : met
      · exact iff_of_true met (there after ((whenRefused met).trans same))
      · refine iff_of_false met ?_
        rintro ⟨other, mem, sameId, _⟩
        have erased := whenDeleted met
        rw [same, eraseP_eq_filter (apart.unique _)] at erased
        rw [erased] at mem
        have different : other.messageId ≠ (fromDocument env doc).messageId :=
          by simpa using (mem_filter.mp mem).2
        exact different sameId
    · unfold markMessageDelivered
      rw [traces_onMessages]
      refine iff_of_true trivial (stored_iff.mpr ?_)
      have pairs : (((MessageStatement.markDelivered doc.messageId).apply
          delivered.messages).2.map fun other => (other.messageId, other.topicErn)) =
            delivered.messages.map fun other => (other.messageId, other.topicErn) :=
        map_updateFirst fun _ _ _ => rfl
      have mem := stored_iff.mp (there delivered same)
      rw [show messageId (fromDocument env doc) = doc.messageId from rfl,
        machine_messages]
      split
      · exact mem
      · rw [pairs]
        exact mem

/-- A message that a start passes is delivered exactly if nothing keeps an event for it from being
stored. -/
theorem releaseMessage_delivers (coherent : Coherent world)
    (registered : Registered env proc world) (topic : Topic)
    (doc : MessageDocument) (some : world.queues doc.topicErn ≠ []) :
    (releaseMessage env topic doc.topicErn (fromDocument env doc)).Traces
      (machine env proc) (Delivers env) world fun met _ after =>
        met ↔ Delivered doc.topicErn doc.messageId world after := by
  unfold releaseMessage
  rw [traces_bind]
  refine (deliverToSubscriptions_sends coherent registered).mono
    fun met outcome delivered kept => ?_
  obtain ⟨publications, addresses, sent, _, whenMet, whenNot, _⟩ := kept
  have conclude : ∀ {after : World}, Offstage delivered after →
      (met ↔ Delivered doc.topicErn doc.messageId world after) := by
    intro after last
    have whole := sent.trans last.sent
    rw [append_nil, append_nil] at whole
    rw [whole.delivered_iff]
    constructor
    · intro met
      rw [(whenMet met).2]
      exact .refl _
    · intro fewer
      by_contra unmet
      have lengths := fewer.length_le
      rw [length_map] at lengths
      exact ((whenNot unmet).resolve_left some).not_ge lengths
  cases outcome with
  | error fault => exact conclude (.refl _)
  | ok count =>
    have rows : (if topic.deleteAfterDelivery = true ∧ 0 < count then do
          let _ ← deleteDeliveredMessage doc.topicErn doc.messageId doc.size
          pure ()
        else markMessageDelivered doc.messageId : Op StoreError Unit).Asks Req.IsOnRows := by
      split
      · exact deleteDeliveredMessage_onRows.bind fun _ => trivial
      · exact onMessages_onRows
    refine (onRows_offstage rows).mono fun also outcome after kept => ?_
    rw [eq_true kept.1, and_true]
    exact conclude kept.2

/-! ### From a handler to its posting -/

theorem findTopicByErn_traces (ern : String)
    {post : Prop → Except Fault (Option Topic) → World → Prop} :
    (findTopicByErn ern : Op Fault (Option Topic)).Traces (machine env proc) condition world post ↔
      post (condition (.topic (.findByErn ern)) world) (.ok (if env.outage world.moment = none
        then world.topics.find? fun topic => topic.ern = ern else none)) world.tick := by
  unfold findTopicByErn
  rw [traces_orAnswer, traces_onTopics]
  simp only [machine]
  cases env.outage world.moment with
  | none => exact Iff.rfl
  | some outage => cases outage <;> exact Iff.rfl

/-- What a request for a publish asks of `publishToTopic`. -/
def PublishMessageRequest.posting (user : Caller) (asked : PublishMessageRequest) : Posting :=
  ⟨asked.ern, asked.body, asked.attributes, user.accountId, asked.priority, [], ""⟩

/-- What a notification asks of `publishToTopic`. -/
def notifiedPosting (envelope : EventEnvelope) (targetErn body bucketPriority : String) : Posting :=
  ⟨targetErn, body, [], Eqs.accountIdFromErn targetErn, "MEDIUM",
    systemAttributesOf envelope.payload, bucketPriority⟩

/-- A request for a publish that is answered with an identifier came to a posting. -/
theorem handlePublishMessage_success {caller : Option Caller} {asked : PublishMessageRequest}
    {messageId : String} (answered : ((handlePublishMessage env caller asked : Op Fault _).run
      (machine env proc) world).1 = .ok (.success messageId)) :
    ∃ user topic, env.outage world.moment = none ∧ world.HasTopic asked.ern topic ∧
      ∀ {condition : Req → World → Prop}
        {post : Prop → Except Fault (Response String) → World → Prop},
        ((asked.posting user).operation env topic.deleteAfterDelivery :
          Op Fault Message).Traces (machine env proc) condition world.tick
            (fun met outcome after => post (condition (.topic (.findByErn asked.ern)) world ∧ met)
              (outcome.map fun msg => .success msg.messageId) after) →
        (handlePublishMessage env caller asked).Traces (machine env proc) condition world post := by
  cases caller with
  | none => cases answered
  | some user =>
    have unconditioned : (handlePublishMessage env (some user) asked :
        Op Fault _).Traces (machine env proc) (fun _ _ => True) world
          fun _ outcome _ => outcome = .ok (.success messageId) := answered
    unfold handlePublishMessage at unconditioned
    rw [traces_bind, findTopicByErn_traces] at unconditioned
    by_cases read : env.outage world.moment = none
    · rw [if_pos read] at unconditioned
      cases found : world.topics.find? fun stored => stored.ern = asked.ern with
      | none =>
        rw [found] at unconditioned
        cases unconditioned
      | some topic =>
        rw [found] at unconditioned
        dsimp only at unconditioned
        split at unconditioned
        · cases unconditioned
        · split at unconditioned
          · cases unconditioned
          · refine ⟨user, topic, read, found, fun {condition post} posted => ?_⟩
            unfold handlePublishMessage
            dsimp only
            rw [traces_bind, findTopicByErn_traces, if_pos read, found]
            dsimp only
            rw [if_neg ‹_›, if_neg ‹_›, traces_map]
            exact posted
    · rw [if_neg read] at unconditioned
      cases unconditioned

/-- A notification for a topic that could be read, acknowledged, came to a posting. -/
theorem handleObjectPublishedNotification_acknowledged {envelope : EventEnvelope}
    {targetErn : String}
    (target : (if envelope.targetErn ≠ "" then .ok envelope.targetErn
      else getStringValue envelope.payload "targetErn") = .ok targetErn)
    (read : env.outage world.moment = none) (found : world.HasTopic targetErn topic)
    (acknowledged : ((handleObjectPublishedNotification env envelope).run
      (machine env proc) world).1 = .ok true) :
    ∃ posting : Posting, posting.topicErn = targetErn ∧
      ∀ {condition : Req → World → Prop} {post : Prop → World → Prop},
        (posting.operation env topic.deleteAfterDelivery :
          Op ServerError Message).Traces (machine env proc) condition world.tick
            (fun met _ after =>
              post (condition (.topic (.findByErn targetErn)) world ∧ met) after) →
        (handleObjectPublishedNotification env envelope).Traces
          (machine env proc) condition world fun met _ after => post met after := by
  have unconditioned : (handleObjectPublishedNotification env envelope).Traces
      (machine env proc) (fun _ _ => True) world fun _ outcome _ => outcome = .ok true :=
    acknowledged
  rw [handleObjectPublishedNotification_eq, target] at unconditioned ⊢
  rw [ofExcept_ok, done_bind] at unconditioned ⊢
  unfold notified at unconditioned ⊢
  cases hasBody : getStringValue envelope.payload "body" with
  | error error =>
    rw [hasBody] at unconditioned
    cases unconditioned
  | ok body =>
    rw [hasBody, ofExcept_ok, done_bind, traces_bind, findTopicByErn_traces, if_pos read, found]
      at unconditioned
    cases hasPriority : getStringValue envelope.payload "bucketPriority" with
    | error error =>
      rw [hasPriority] at unconditioned
      cases unconditioned
    | ok bucketPriority =>
      refine ⟨notifiedPosting envelope targetErn body bucketPriority, rfl,
        fun {condition post} posted => ?_⟩
      rw [ofExcept_ok, done_bind, traces_bind, findTopicByErn_traces, if_pos read, found]
      dsimp only
      rw [ofExcept_ok, done_bind, traces_map]
      exact posted

/-! ### What is accepted is kept -/

/-- The message is kept, and has not been delivered if its topic is stopped. -/
def Lossless (ern messageId : String) (topic : Topic) (before after : World) : Prop :=
  Kept ern messageId before after ∧ (topic.delivering = false → after.published = before.published)

/-- There is no queue to deliver to, or nothing kept the message from being stored and it was not
deleted, or its topic is running and nothing kept it from being delivered. -/
def Unhindered (env : Env) (proc : Nat) (ern : String) (topic : Topic)
    (operation : Op Fault Result) (world : World) : Prop :=
  world.queues ern = [] ∨ operation.Meets (machine env proc) (Keeps env) world ∨
    topic.delivering = true ∧ operation.Meets (machine env proc) (Delivers env) world

/-- What stores the message and what delivers it decide together whether a publish is lossless. -/
theorem lossless_iff {ern messageId : String} {keeps delivers : Prop}
    (stored : DecidesStored ern messageId topic before after keeps)
    (delivered : DecidesDelivered ern messageId topic before after delivers) :
    Lossless ern messageId topic before after ↔
      before.queues ern = [] ∨ keeps ∨ topic.delivering = true ∧ delivers := by
  by_cases empty : before.queues ern = []
  · refine iff_of_true ⟨.inr ?_, fun _ => delivered.1 empty⟩ (.inl empty)
    rw [Delivered, empty]
    exact nil_subperm
  · obtain ⟨decided, fresh⟩ := delivered.2 empty
    rw [Lossless, Kept, ← stored.1, decided]
    constructor
    · rintro ⟨keeps | ⟨delivers, published⟩, quiet⟩
      · exact .inr (.inl keeps)
      · refine .inr (.inr ⟨?_, delivers⟩)
        by_contra stopped
        exact published (quiet (eq_false_of_ne_true stopped))
    · rintro (none | keeps | ⟨running, delivers⟩)
      · exact absurd none empty
      · exact ⟨.inl keeps, stored.2 keeps⟩
      · refine ⟨.inr ⟨delivers, fresh delivers running⟩, fun stopped => ?_⟩
        rw [running] at stopped
        cases stopped

/-- An operation that comes to a posting keeps its message exactly if it is unhindered. -/
theorem posted_kept_iff {operation : Op ServerError Result} {posting : Posting}
    (coherent : Coherent world) (registered : Registered env proc world)
    (unused : ∀ doc ∈ world.messages, doc.messageId ≠ env.randomUuid (world.moment + 1))
    (read : env.outage world.moment = none) (found : world.HasTopic posting.topicErn topic)
    (posted : ∀ {condition : Req → World → Prop} {post : Prop → World → Prop},
      (posting.operation env topic.deleteAfterDelivery : Op ServerError Message).Traces
        (machine env proc) condition world.tick
          (fun met _ after =>
            post (condition (.topic (.findByErn posting.topicErn)) world ∧ met) after) →
      operation.Traces (machine env proc) condition world fun met _ after => post met after) :
    Lossless posting.topicErn (env.randomUuid (world.moment + 1)) topic world
        (operation.run (machine env proc) world).2 ↔
      Unhindered env proc posting.topicErn topic operation world := by
  have tickedCoherent : Coherent world.tick := coherent
  have tickedRegistered : Registered env proc world.tick :=
    registered.of_same rfl registered.remembers
  have tickedUnused : ∀ doc ∈ world.tick.messages,
      doc.messageId ≠ env.randomUuid world.tick.moment := unused
  have stillFound : world.tick.HasTopic posting.topicErn topic := found
  have stored : operation.Traces (machine env proc) (Keeps env) world fun met _ after =>
      DecidesStored posting.topicErn (env.randomUuid (world.moment + 1)) topic world after met := by
    have reads : Keeps env (.topic (.findByErn posting.topicErn)) world = True := eq_true read
    refine posted ((posting_keeps stillFound tickedUnused).mono fun met outcome after kept => ?_)
    rw [reads, true_and]
    exact kept.1
  have delivered : operation.Traces (machine env proc) (Delivers env) world fun met _ after =>
      DecidesDelivered posting.topicErn (env.randomUuid (world.moment + 1)) topic world
        after met := by
    have passed : Delivers env (.topic (.findByErn posting.topicErn)) world = True := rfl
    refine posted ((posting_delivers tickedCoherent tickedRegistered stillFound tickedUnused).mono
      fun met outcome after kept => ?_)
    rw [passed, true_and]
    exact kept
  exact lossless_iff stored delivered

/-- A publish that a topic accepts, or a notification that is acknowledged, or the pass of a start
over a message, keeps the message exactly if it is unhindered. -/
theorem accepted_kept_iff (coherent : Coherent world) (registered : Registered env proc world)
    (unused : ∀ doc ∈ world.messages, doc.messageId ≠ env.randomUuid (world.moment + 1)) :
    (∀ (caller : Option Caller) (asked : PublishMessageRequest) (messageId : String),
      ((handlePublishMessage env caller asked : Op ServerError _).run
        (machine env proc) world).1 = .ok (.success messageId) →
      ∃ topic, world.topics.find? (fun stored => stored.ern = asked.ern) = some topic ∧
        (Lossless asked.ern messageId topic world
            ((handlePublishMessage env caller asked : Op ServerError _).run
              (machine env proc) world).2 ↔
          Unhindered env proc asked.ern topic
            (handlePublishMessage env caller asked : Op ServerError _) world)) ∧
    (∀ (envelope : EventEnvelope) (targetErn : String) (topic : Topic),
      (if envelope.targetErn ≠ "" then .ok envelope.targetErn
        else getStringValue envelope.payload "targetErn") = .ok targetErn →
      env.outage world.moment = none →
      world.topics.find? (fun stored => stored.ern = targetErn) = some topic →
      ((handleObjectPublishedNotification env envelope).run (machine env proc) world).1 = .ok true →
      (Lossless targetErn (env.randomUuid (world.moment + 1)) topic world
          ((handleObjectPublishedNotification env envelope).run (machine env proc) world).2 ↔
        Unhindered env proc targetErn topic
          (handleObjectPublishedNotification env envelope) world)) ∧
    ∀ (topic : Topic) (doc : MessageDocument), Apart world.messages →
      doc ∈ world.messages → topic.delivering = true →
      (Kept doc.topicErn doc.messageId world
          ((releaseMessage env topic doc.topicErn
            (fromDocument env doc)).run (machine env proc) world).2 ↔
        Unhindered env proc doc.topicErn topic
          (releaseMessage env topic doc.topicErn (fromDocument env doc)) world) := by
  refine ⟨fun caller asked messageId answered => ?_,
    fun envelope targetErn topic target read found acknowledged => ?_,
    fun topic doc apart stored running => ?_⟩
  · obtain ⟨user, topic, read, found, posted⟩ := handlePublishMessage_success answered
    have named : (handlePublishMessage env caller asked : Op ServerError _).Traces
        (machine env proc) (Keeps env) world fun _ outcome _ =>
          ∀ id, outcome = .ok (.success id) → id = env.randomUuid (world.moment + 1) := by
      have stillFound : world.tick.topics.find? (fun other =>
          other.ern = (asked.posting user).topicErn) = some topic := found
      refine posted ((posting_keeps stillFound unused).mono fun met outcome after kept => ?_)
      intro id success
      cases outcome with
      | ok msg =>
        cases success
        exact kept.2 msg rfl
      | error fault => cases success
    obtain rfl := named messageId answered
    have kept : Lossless (asked.posting user).topicErn _ topic world _ ↔ _ :=
      posted_kept_iff coherent registered unused read found fun holds => posted holds
    exact ⟨topic, found, kept⟩
  · obtain ⟨posting, rfl, posted⟩ :=
      handleObjectPublishedNotification_acknowledged target read found acknowledged
    exact posted_kept_iff coherent registered unused read found posted
  · have keeps : (releaseMessage env topic doc.topicErn (fromDocument env
        doc)).Traces (machine env proc) (Keeps env) world _ :=
      releaseMessage_keeps apart stored
    rw [Unhindered, Kept, running]
    by_cases empty : world.queues doc.topicErn = []
    · refine iff_of_true (.inr ?_) (.inl empty)
      rw [Delivered, empty]
      exact nil_subperm
    · have delivered := releaseMessage_delivers coherent registered topic doc empty
      rw [or_iff_right empty, eq_self, true_and]
      exact or_congr (Iff.symm keeps) (Iff.symm delivered)

/-! ### A topic with one queue, and EQS registered -/

/-- The store of a stopped topic with a queue, in which EQS is registered for its messages. -/
def registeredWorld : World :=
  { World.opened (Bus.Subscriptions.empty.upsert id "eqs" kPublished
      Bus.Subscriptions.id_keepsNames)
      [⟨"s", "t", "SQS", "q"⟩] with
    topics := [stoppedTopic] }

/-- Surroundings in which the insertion of a message that is published first is refused. -/
def refusing : Env :=
  { steady with outage := fun moment => if moment = 6 then some .refused else none }

/-- The first message a client publishes to the topic. -/
abbrev firstPublish (env : Env) : Op ServerError (Response String) :=
  handlePublishMessage env (some ⟨"u", "a", "r"⟩) ⟨"t", "body", [], "HIGH"⟩

theorem registeredWorld_registered (env : Env) : Registered env 0 registeredWorld := by
  refine ⟨nofun, _, .head _, rfl, rfl⟩

/-- Where nothing fails the first message is kept: it is stored. -/
theorem first_publish_unhindered :
    Unhindered steady 0 "t" stoppedTopic (firstPublish steady) registeredWorld := by
  have kept := (accepted_kept_iff (fun _ _ mem => absurd mem not_mem_nil)
    (registeredWorld_registered steady) fun _ mem => absurd mem not_mem_nil).1
      (some ⟨"u", "a", "r"⟩) ⟨"t", "body", [], "HIGH"⟩ "uu" (by decide +kernel)
  obtain ⟨topic, found, decided⟩ := kept
  obtain rfl : stoppedTopic = topic := Option.some.inj found
  refine decided.mp ⟨.inl ?_, fun _ => ?_⟩
  · unfold Stored
    decide +kernel
  · exact eq_nil_of_length_eq_zero (by decide +kernel)

/-- Where the insertion is refused the client is told that its message was published, and it is
neither stored nor delivered. -/
theorem first_publish_lost :
    ((firstPublish refusing).run (machine refusing 0) registeredWorld).1 = .ok (.success "uu") ∧
      ¬Kept "t" "uu" registeredWorld
        ((firstPublish refusing).run (machine refusing 0) registeredWorld).2 := by
  refine ⟨by decide +kernel, ?_⟩
  rintro (stored | delivered)
  · revert stored
    unfold Stored
    decide +kernel
  · have fewer := delivered.length_le
    revert fewer
    decide +kernel

end Euclid.Ens
