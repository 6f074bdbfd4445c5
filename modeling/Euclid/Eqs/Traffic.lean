/-
This file says what the operations on messages have in common when many of them run at
once, in one process or in several.

`Traffic` lists the operations and `traffic` is the discipline all of them follow: a
claim spends a handle its own thread drew, a read back names every claim still
outstanding, only what was read back moves or is leased, a sweep puts back only what its
snapshot shows as run out, and no traffic writes a whole message or a whole queue. That the
store answers as the discipline expects is proved here as well, so a result about all
interleavings can start from `traffic_run`.
-/

import Euclid.Interleaving
import Euclid.Eqs.Effect
import Euclid.Eqs.Server

namespace Euclid.Eqs

open Program Discipline

/-! ### Operations and threads -/

/-- The operations on messages, with their arguments. -/
inductive Traffic where
  | receive (queueErn : String) (maxCount waitTime : Int) (polls : Nat)
  | send (queueErn : String) (draft : MessageDraft)
  | sendBatch (queueErn : String) (drafts : List MessageDraft)
  | updateBody (messageId body : String)
  | delete (receiptHandle : String)
  | deleteById (messageId : String)
  | redrive (deadLetterQueueErn targetQueueErn sourceQueueErn : String)
  | purge (queueErn : String)
  | flush
  | sweep
  | expire

/-- The operation as a program. Only a receive answers messages. -/
def Traffic.program (env : Env) : Traffic → Op StoreError (List Message)
  | .receive queueErn maxCount waitTime polls =>
    receiveMessages env queueErn maxCount waitTime polls
  | .send queueErn draft => do
    let _ ← sendMessage env queueErn draft
    pure []
  | .sendBatch queueErn drafts => do
    let _ ← sendMessages env queueErn drafts
    pure []
  | .updateBody messageId body => do
    let _ ← updateMessageBody env messageId body
    pure []
  | .delete receiptHandle => do
    deleteMessage receiptHandle
    pure []
  | .deleteById messageId => do
    deleteMessageById messageId
    pure []
  | .redrive deadLetterQueueErn targetQueueErn sourceQueueErn => do
    let _ ← redriveMessages deadLetterQueueErn targetQueueErn sourceQueueErn
    pure []
  | .purge queueErn => do
    purgeQueue queueErn
    pure []
  | .flush => do
    flushQueueCounters
    pure []
  | .sweep => do
    resetExpiredMessages
    pure []
  | .expire => do
    onMessages .expire
    pure []

/-- The queue an operation looks up the configuration of. -/
def Traffic.queue : Traffic → Option String
  | .receive queueErn _ _ _ => some queueErn
  | .send queueErn _ => some queueErn
  | .sendBatch queueErn _ => some queueErn
  | _ => none

section Pool

variable {Thread : Type} [DecidableEq Thread]

/-- Threads that each run one operation in the process they belong to. -/
abbrev Traffic.pool (env : Env) (origin : World) (traffic : Thread → Traffic) :
    Pool Thread Req Req.Answer StoreError (List Message) World :=
  Pool.start origin fun tid => (traffic tid).program env

/-- Every thread talks to the store through its own process. -/
abbrev machines (env : Env) (processOf : Thread → Nat) : Thread → Machine Req Req.Answer World :=
  fun tid => machine env (processOf tid)

end Pool

/-! ### Sessions -/

/-- What a thread has asked and been told. `read` holds every copy it has read back, `held`
those it has not moved away since. `config` is the queue it has looked up, with what it was
told of it. -/
structure Session where
  traffic : Traffic
  drawn : List String
  unspent : List String
  outstanding : List (Oid × String)
  read : List Message
  held : List Message
  config : Option (String × Option QueueConfig)
  sweepTime : Option Time
  snapshot : List Message

namespace Session

/-- A thread that has not asked anything. -/
def opening (traffic : Traffic) : Session := ⟨traffic, [], [], [], [], [], none, none, []⟩

section

variable (session : Session)

/-- The queue is looked up, in the store or in the cache. -/
def configured (ern : String) (config : Option QueueConfig) : Session :=
  { session with config := some (ern, config) }

/-- A cache that knows nothing has not answered. -/
def afterCached (ern : String) : Option QueueConfig → Session
  | none => session
  | some config => session.configured ern (some config)

/-- The call of a receive, under the configuration it was told. -/
def call (queueErn : String) (maxCount : Int) : ReceiveCall :=
  ReceiveCall.under queueErn maxCount (session.config.bind Prod.snd)

/-- Whether the thread takes a message to have been received too often. -/
def isDead (msg : Message) : Bool := (session.call "" 0).isDead msg

/-- Whether the thread takes a message to carry another timeout than it should be leased for. -/
def isStale (msg : Message) : Bool := (session.call "" 0).isStale msg

def handOut (msg : Message) : Message :=
  (session.call "" 0).handOut msg

/-- A claim spends its handle. It is outstanding if it took. -/
def claimed (oid : Oid) (receiptHandle : String) (modified : Nat) : Session :=
  { session with
    unspent := session.unspent.erase receiptHandle
    outstanding := if modified = 0 then session.outstanding
      else (oid, receiptHandle) :: session.outstanding }

/-- What a thread learns from a statement over the messages that went well. -/
def afterMessage : (stmt : MessageStatement) → stmt.Answer → Session
  | .claim oid receiptHandle, modified => session.claimed oid receiptHandle modified
  | .readBack oids _, found =>
    { session with
      outstanding := []
      read := session.read ++ inOrder oids found
      held := session.held ++ inOrder oids found }
  | .moveToDeadLetter oids _ _, _ =>
    { session with held := session.held.filter fun msg => msg.oid ∉ oids }
  | .findByStatus _, found => { session with snapshot := found }
  | _, _ => session

def after : (req : Req) → req.Answer → Session
  | .systemClock, time => { session with sweepTime := some time }
  | .randomUuid, uuid =>
    { session with drawn := uuid :: session.drawn, unspent := uuid :: session.unspent }
  | .process (.cachedConfig ern), answer => session.afterCached ern (Prod.snd answer)
  | .queue (.readConfig ern), .ok config => session.configured ern config
  | .message stmt, .ok answer => session.afterMessage stmt answer
  | _, _ => session

end

end Session

/-- A document as a send builds it: no handle, never received, waiting or delayed. -/
structure Message.IsSent (queueErn : String) (draft : MessageDraft) (msg : Message) :
    Prop where
  queue : msg.queueErn = queueErn
  identifier : msg.messageId = draft.messageId
  unclaimed : msg.receiptHandle = ""
  unreceived : msg.receivedCount = 0
  waiting : msg.status = .available ∨ msg.status = .delayed

/-! ### The discipline -/

/-- What a thread may ask of the messages. -/
def Session.allowsMessage (session : Session) : MessageStatement → Prop
  | .insert doc =>
    ∃ queueErn draft, session.traffic = .send queueErn draft ∧ doc.IsSent queueErn draft
  | .insertMany docs =>
    ∃ queueErn drafts, session.traffic = .sendBatch queueErn drafts ∧
      ∀ doc ∈ docs, ∃ draft ∈ drafts, doc.IsSent queueErn draft
  | .claim _ receiptHandle => receiptHandle ∈ session.unspent
  | .readBack oids handles =>
    handles ⊆ session.drawn ∧ (∀ msg ∈ session.read, msg.receiptHandle ∉ handles) ∧
      ∀ claim ∈ session.outstanding, claim.1 ∈ oids ∧ claim.2 ∈ handles
  | .moveToDeadLetter oids deadLetterQueueErn queueErn =>
    (∃ config, session.config = some (queueErn, some config) ∧
      config.deadLetterQueueErn = deadLetterQueueErn) ∧
      ∀ oid ∈ oids, ∃ msg ∈ session.read, msg.oid = oid ∧ session.isDead msg
  | .setLease oids handles visibility =>
    session.outstanding = [] ∧ handles ⊆ session.drawn ∧
      ∀ msg ∈ session.read, msg.oid ∈ oids → msg.receiptHandle ∈ handles →
      session.isStale msg ∧ visibility = int32 (session.handOut msg).visibilityTimeout
  | .resetInvisible oid =>
    session.traffic = .sweep ∧ ∃ now ∈ session.sweepTime, ∃ msg ∈ session.snapshot,
      msg.oid = oid ∧ msg.leaseEnd ≤ now
  | .resetDelayed oid =>
    session.traffic = .sweep ∧ ∃ now ∈ session.sweepTime, ∃ msg ∈ session.snapshot,
      msg.oid = oid ∧ msg.delayUntil ≤ now
  | .upsert _ => False
  | .rewriteBody messageId body _ => session.traffic = .updateBody messageId body
  | .deleteByHandle receiptHandle => session.traffic = .delete receiptHandle
  | .deleteById messageId => session.traffic = .deleteById messageId
  | .deleteQueue queueErn => session.traffic = .purge queueErn
  | .redrive deadLetterQueueErn targetQueueErn sourceQueueErn =>
    session.traffic = .redrive deadLetterQueueErn targetQueueErn sourceQueueErn
  | .expire => session.traffic = .expire
  | _ => True

/-- What a thread may ask. Nothing writes a whole queue. A thread looks up the configuration of its
own queue, once, before it draws any handle, and has its process remember no other. -/
def Session.allows (session : Session) : Req → Prop
  | .message stmt => session.allowsMessage stmt
  | .queue (.upsert _) => False
  | .process (.cachedConfig ern) | .queue (.readConfig ern) =>
    session.config = none ∧ session.drawn = [] ∧ session.traffic.queue = some ern
  | .process (.rememberConfig ern config _) => session.config = some (ern, some config)
  | _ => True

/-- What a thread may expect of the messages: statements other than inserts do not fail, and
a read back shows each message once, under one of the handles asked for. -/
def Session.expectsMessage : (stmt : MessageStatement) → Except StoreError stmt.Answer → Prop
  | .insert _, _ => True
  | .insertMany _, _ => True
  | .readBack oids handles, answer => ∃ found : List Message, answer = .ok found ∧
      (∀ msg ∈ found, msg.oid ∈ oids ∧ msg.receiptHandle ∈ handles) ∧
      (found.map Message.oid).Nodup
  | _, answer => ∃ value, answer = .ok value

/-- What a thread may expect: identifiers it has not seen, and statements that go well. -/
def Session.expects (session : Session) : (req : Req) → req.Answer → Prop
  | .randomUuid, uuid => uuid ∉ session.drawn ∧ uuid ≠ ""
  | .message stmt, answer => Session.expectsMessage stmt answer
  | _, _ => True

def traffic : Discipline Req Req.Answer Session where
  allows := Session.allows
  expects := Session.expects
  after := Session.after

@[simp] theorem traffic_after (session : Session) (req : Req) (answer : req.Answer) :
    traffic.after session req answer = session.after req answer := rfl

/-! ### What a configuration decides -/

section Call

variable (queueErn otherErn : String) (maxCount otherCount : Int) (config : Option QueueConfig)

theorem ReceiveCall.under_isDead (msg : Message) :
    (ReceiveCall.under queueErn maxCount config).isDead msg =
      (ReceiveCall.under otherErn otherCount config).isDead msg := by
  cases config <;> rfl

open ReceiveCall

theorem ReceiveCall.under_isStale (msg : Message) :
    (under queueErn maxCount config).isStale msg =
      (under otherErn otherCount config).isStale msg := by
  cases config <;> rfl

theorem ReceiveCall.under_handOut (msg : Message) :
    (under queueErn maxCount config).handOut msg =
      (under otherErn otherCount config).handOut msg := by
  cases config <;> rfl

end Call

@[simp] theorem ReceiveCall.handOut_oid (call : ReceiveCall) (msg : Message) :
    (call.handOut msg).oid = msg.oid := by
  unfold handOut
  split <;> rfl

@[simp] theorem ReceiveCall.handOut_receiptHandle (call : ReceiveCall) (msg : Message) :
    (call.handOut msg).receiptHandle = msg.receiptHandle := by
  unfold handOut
  split <;> rfl

variable {stmt : MessageStatement} {session : Session} (allowed : session.allowsMessage stmt)

include allowed

theorem Session.allows_inserts {doc : Message} (inserts : stmt.Inserts doc) :
    ∃ queueErn draft, doc.IsSent queueErn draft ∧
      (session.traffic = .send queueErn draft ∨
        ∃ drafts, session.traffic = .sendBatch queueErn drafts ∧ draft ∈ drafts) := by
  cases stmt with
  | insert inserted =>
    obtain ⟨queueErn, draft, own, sent⟩ := allowed
    obtain rfl : doc = inserted := inserts
    exact ⟨queueErn, draft, sent, .inl own⟩
  | insertMany inserted =>
    obtain ⟨queueErn, drafts, own, sent⟩ := allowed
    obtain ⟨draft, inBatch, sent⟩ := sent doc inserts
    exact ⟨queueErn, draft, sent, .inr ⟨drafts, own, inBatch⟩⟩
  | upsert written => exact absurd allowed id
  | _ => exact absurd inserts id

theorem Session.stores_sent {msg : Message} {moment : Nat} (stores : stmt.Stores moment msg) :
    ∃ queueErn draft, msg.IsSent queueErn draft ∧ (session.traffic = .send queueErn draft ∨
      ∃ drafts, session.traffic = .sendBatch queueErn drafts ∧ draft ∈ drafts) := by
  obtain ⟨_, doc, modified, inserts, same⟩ := stores
  obtain ⟨queueErn, draft, sent, own⟩ := Session.allows_inserts allowed inserts
  refine ⟨queueErn, draft, ?_, own⟩
  rw [same]
  exact ⟨sent.queue, sent.identifier, sent.unclaimed, sent.unreceived, sent.waiting⟩

theorem Session.stores_unclaimed {msg : Message} {moment : Nat}
    (stores : stmt.Stores moment msg) : msg.receiptHandle = "" := by
  obtain ⟨_, _, sent, _⟩ := Session.stores_sent allowed stores
  exact sent.unclaimed

omit allowed

/-! ### Sessions keep what they are about -/

theorem Session.afterCached_traffic (session : Session) (ern : String)
    (config : Option QueueConfig) : (session.afterCached ern config).traffic = session.traffic := by
  cases config <;> rfl

theorem Session.after_traffic (session : Session) (req : Req) (answer : req.Answer) :
    (session.after req answer).traffic = session.traffic := by
  cases req with
  | systemClock => rfl
  | steadyClock => rfl
  | randomUuid => rfl
  | process req =>
    cases req with
    | cachedConfig ern => exact session.afterCached_traffic ern _
    | rememberConfig _ _ _ | forgetConfig _ | cachedQueue _ | rememberQueue _ _ _ _
    | forgetQueue _ | addPending _ _ | takePending _ => rfl
  | queue stmt =>
    cases stmt with
    | readConfig ern => cases answer <;> rfl
    | _ => rfl
  | message stmt =>
    cases answer with
    | ok answer => cases stmt <;> rfl
    | error => cases stmt <;> rfl

end Euclid.Eqs
