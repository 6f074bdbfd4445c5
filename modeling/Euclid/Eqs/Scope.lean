/-
This file says what operations on messages never ask, whatever they are answered: none of
them writes over a whole message or a whole queue, and what they insert is new.

An update that names the fields it changes leaves the others as it finds them. A write of a
whole document puts back everything its writer read, so whatever was written in between is
undone. In this service the handlers that change single messages or define queues are the
only ones to do that.
-/

import Euclid.Eqs.Conduct

namespace Euclid.Eqs

open Program Asks

variable {Fault State Result : Type} {kind : Req → Prop}

/-- A document as a send builds it: waiting or delayed, of the size of its body. -/
structure Message.IsNew (msg : Message) : Prop where
  waiting : msg.status = .available ∨ msg.status = .delayed
  sized : 0 ≤ msg.size

/-- Requests that write over no whole document, and insert only new ones. -/
def Req.IsPartial : Req → Prop
  | .queue (.upsert _) | .message (.upsert _) => False
  | .message (.insert doc) => doc.IsNew
  | .message (.insertMany docs) => ∀ doc ∈ docs, doc.IsNew
  | _ => True

open Req

/-- What writes no message writes none whole. -/
theorem Req.IsSilent.isPartial {req : Req} (silent : req.IsSilent) : req.IsPartial := by
  cases req with
  | queue stmt => cases stmt <;> first | exact absurd silent id | trivial
  | message stmt => exact absurd silent id
  | systemClock | steadyClock | randomUuid | process req => trivial

/-! ### Composition -/

variable {operation : Op StoreError Result}

theorem asks_orThrow {state : State}
    (asks : operation.Asks kind) : (orThrow operation state).Asks kind :=
  asks.catching fun _ => trivial

theorem asks_orAnswer {fallback : Result} (asks : operation.Asks kind) :
    (orAnswer operation fallback : Op Fault Result).Asks kind :=
  asks.catching fun _ => trivial

variable {queueErn : String}

theorem adjustQueueCounters_isPartial {delta : Counters} :
    (adjustQueueCounters queueErn delta : Op Fault Unit).Asks IsPartial :=
  (adjustQueueCounters_silent queueErn delta).mono fun _ => IsSilent.isPartial

theorem flushPendingCounters_isPartial {force : Bool} :
    (flushPendingCounters force : Op Fault Unit).Asks IsPartial :=
  (flushPendingCounters_silent force).mono fun _ => IsSilent.isPartial

theorem queueConfig_isPartial {ern : String} : (queueConfig ern).Asks IsPartial := by
  refine bind (asks_issue trivial) fun cached => ?_
  cases cached.2 with
  | some config => trivial
  | none =>
    refine (asks_onQueues trivial).bind fun read => ?_
    cases read with
    | none => trivial
    | some config => exact bind (asks_issue trivial) fun _ => trivial

/-! ### Sending -/

/-- A draft has neither been handed out nor put into another queue. -/
theorem MessageDraft.message_isNew (env : Env) (queueErn : String)
    (created modified : Time) (draft : MessageDraft) :
    (draft.message env queueErn created modified).IsNew :=
  ⟨.inl rfl, Int.natCast_nonneg _⟩

theorem Message.IsNew.under {msg : Message} (isNew : msg.IsNew) (env : Env)
    (config : QueueConfig) (delayedAt expiresFrom : Time) :
    (msg.under env config delayedAt expiresFrom).IsNew := by
  refine ⟨?_, isNew.sized⟩
  unfold Message.under
  split
  · exact .inr rfl
  · exact isNew.waiting

theorem MessageDraft.batched_isNew (env : Env) (queueErn : String)
    (config : Option QueueConfig) (now : Time) (draft : MessageDraft) :
    (draft.batched env queueErn config now).IsNew := by
  cases config with
  | none => exact draft.message_isNew env queueErn now now
  | some config => exact (draft.message_isNew env queueErn now now).under _ _ _ _

variable {env : Env}

theorem sendMessage_isPartial {draft : MessageDraft} :
    (sendMessage env queueErn draft : Op Fault Message).Asks IsPartial := by
  refine ⟨trivial, fun created => ⟨trivial, fun modified => catching ?_ fun _ => trivial⟩⟩
  have isNew := draft.message_isNew env queueErn created modified
  have inserted : ∀ msg : Message, msg.IsNew → (do
      let stamp ← readSystemClock
      orThrow (onMessages (.insert { msg.toDocument with created := stamp, modified := stamp })) msg
      adjustQueueCounters queueErn (sentDelta (msg.status = .delayed) 1 msg.size)
      pure msg : Op Message Message).Asks IsPartial := by
    intro msg isNew
    refine ⟨trivial, fun stamp => ?_⟩
    have stamped : Message.IsNew { msg.toDocument with created := stamp, modified := stamp } :=
      ⟨isNew.waiting, isNew.sized⟩
    have asks :
      (onMessages (.insert { msg.toDocument with created := stamp, modified := stamp })).Asks
        IsPartial := asks_onMessages stamped
    exact (asks_orThrow asks).bind fun _ =>
      adjustQueueCounters_isPartial.bind fun _ => trivial
  refine (asks_orThrow queueConfig_isPartial).bind fun config => ?_
  cases config with
  | none => exact inserted _ isNew
  | some config =>
    unfold applyConfig
    dsimp only
    split
    · exact ⟨trivial, fun delayedAt => ⟨trivial, fun expiresFrom =>
        inserted _ (isNew.under env config delayedAt expiresFrom)⟩⟩
    · exact ⟨trivial, fun expiresFrom => inserted _ (isNew.under env config 0 expiresFrom)⟩

theorem sendMessages_isPartial {drafts : List MessageDraft} :
    (sendMessages env queueErn drafts : Op Fault (List Message)).Asks IsPartial := by
  unfold sendMessages
  split
  · trivial
  · refine asks_orAnswer (queueConfig_isPartial.bind fun config => ?_)
    refine ⟨trivial, fun now => ?_⟩
    have areNew : ∀ doc ∈ (drafts.map (MessageDraft.batched env queueErn config now)).map
        Message.toDocument, doc.IsNew := by
      intro doc inBatch
      obtain ⟨msg, written, rfl⟩ := List.mem_map.mp inBatch
      obtain ⟨draft, _, rfl⟩ := List.mem_map.mp written
      have isNew := draft.batched_isNew env queueErn config now
      exact ⟨isNew.waiting, isNew.sized⟩
    have asks : (onMessages (.insertMany ((drafts.map
        (MessageDraft.batched env queueErn config now)).map Message.toDocument))).Asks IsPartial :=
      asks_onMessages areNew
    exact asks.bind fun inserted =>
      (onlyIf fun _ => adjustQueueCounters_isPartial).bind fun _ => trivial

/-! ### Receiving -/

/-- A handle is drawn for each candidate, and nothing is written. -/
theorem drawHandles_isPartial (cands : List Oid) :
    (drawHandles cands : Op Fault (List String)).Asks IsPartial := by
  induction cands with
  | nil => trivial
  | cons cand rest ih =>
    exact bind (asks_issue trivial) fun _ => ih.bind fun _ => trivial

theorem updateEach_isPartial (claims : List (Oid × String)) :
    (updateEach claims).Asks IsPartial := by
  induction claims with
  | nil => trivial
  | cons claim rest ih =>
    exact (asks_onMessages trivial).bind fun _ => ih.bind fun _ => trivial

/-- The messages that were won are leased by their handles. -/
theorem deliver_isPartial (call : ReceiveCall) (handles : List String) (won : List Message)
    (receive : Receive) : (deliver call handles won receive).Asks IsPartial := by
  refine bind ?_ fun moved => bind (onlyIf fun _ => ?_) fun _ => trivial
  · unfold moveDead
    split
    · trivial
    · exact (asks_orThrow (asks_onMessages trivial)).bind fun _ => trivial
  · exact asks_orThrow (asks_onMessages trivial)

theorem claimPasses_isPartial (call : ReceiveCall) (priority : MessagePriority) (target : Int)
    (passes : Nat) (taken : Int) (receive : Receive) :
    (claimPasses call priority target passes taken receive).Asks IsPartial := by
  induction passes generalizing taken receive with
  | zero => trivial
  | succ passes ih =>
    unfold claimPasses
    split
    · refine (asks_orThrow (asks_onMessages trivial)).bind fun cands => ?_
      split
      · trivial
      · refine (drawHandles_isPartial cands).bind fun handles => ?_
        refine (asks_orThrow (updateEach_isPartial _)).bind fun modified => ?_
        split
        · exact ih taken receive
        · refine (asks_orThrow (asks_onMessages trivial)).bind fun found => ?_
          exact (deliver_isPartial call handles _ receive).bind fun settled =>
            ih _ settled
    · trivial

theorem countTiers_isPartial (call : ReceiveCall) (receive : Receive)
    (priorities : List MessagePriority) (counts : MessagePriority → Int) :
    (countTiers call receive priorities counts).Asks IsPartial := by
  induction priorities generalizing counts with
  | nil => trivial
  | cons priority rest ih =>
    exact (asks_orThrow (asks_onMessages trivial)).bind fun _ => ih _

/-- Each tier is claimed in its passes. -/
theorem claimTiers_isPartial (call : ReceiveCall) (takeCounts : MessagePriority → Int)
    (priorities : List MessagePriority) (receive : Receive) :
    (claimTiers call takeCounts priorities receive).Asks IsPartial := by
  induction priorities generalizing receive with
  | nil => trivial
  | cons priority rest ih =>
    exact (claimPasses_isPartial _ _ _ _ _ _).bind fun receive => ih receive

/-- A receive looks again until it has found something, or its time is over. -/
theorem poll_isPartial (env : Env) (call : ReceiveCall) (waitTime : Int)
    (deadline : Time) (polls : Nat) (receive : Receive) :
    (poll env call waitTime deadline polls receive).Asks IsPartial := by
  have look_isPartial : ∀ receive, (look env call receive).Asks IsPartial :=
    fun receive => (countTiers_isPartial _ _ _ _).bind fun _ => claimTiers_isPartial _ _ _ _
  induction polls generalizing receive with
  | zero => exact look_isPartial receive
  | succ polls ih =>
    refine (look_isPartial receive).bind fun seen => ?_
    split
    · trivial
    · refine bind (asks_issue trivial) fun now => ?_
      split
      · trivial
      · exact ih seen

theorem receiveMessages_isPartial {maxCount waitTime : Int} {polls : Nat} :
    (receiveMessages env queueErn maxCount waitTime polls).Asks IsPartial := by
  refine bind (asks_issue trivial) fun start => ?_
  refine queueConfig_isPartial.bind fun config => ?_
  refine ((poll_isPartial env _ _ _ _ .start).catching fun receive => ?_).bind fun receive => ?_
  · trivial
  refine bind ?_ fun _ => trivial
  exact (settleCounters_silent _ receive).mono fun _ => IsSilent.isPartial

/-! ### Everything else -/

theorem deleted_isPartial {deleting : Op StoreError (Option Message)}
    (asks : deleting.Asks IsPartial) :
    (orAnswer (do
      let deleted : Option Message ← deleting
      match deleted with
      | none => pure ()
      | some msg => adjustForDeleted msg) () : Op Fault Unit).Asks IsPartial := by
  refine asks_orAnswer (asks.bind fun deleted => ?_)
  cases deleted with
  | none => trivial
  | some msg => exact adjustQueueCounters_isPartial

theorem updateMessageBody_isPartial {messageId body : String} :
    (updateMessageBody env messageId body : Op Fault (Option Message)).Asks IsPartial := by
  refine asks_orAnswer ((asks_onMessages trivial).bind fun before => ?_)
  cases before with
  | none => trivial
  | some previous =>
    exact adjustQueueCounters_isPartial.bind fun _ => asks_orAnswer (asks_onMessages trivial)

theorem redriveMessages_isPartial {deadLetterQueueErn targetQueueErn sourceQueueErn : String} :
    (redriveMessages deadLetterQueueErn targetQueueErn sourceQueueErn :
      Op Fault Nat).Asks IsPartial := by
  unfold redriveMessages
  split
  · trivial
  · refine asks_orAnswer ((asks_onMessages trivial).bind fun movedBytes => ?_)
    refine (asks_onMessages trivial).bind fun moved => ?_
    refine bind (onlyIf fun _ => ?_) fun _ => trivial
    exact adjustQueueCounters_isPartial.bind fun _ => adjustQueueCounters_isPartial

theorem purgeQueue_isPartial : (purgeQueue queueErn : Op Fault Unit).Asks IsPartial :=
  flushPendingCounters_isPartial.bind fun _ =>
    asks_orAnswer ((asks_onMessages trivial).bind fun _ => asks_onQueues trivial)

theorem resetEach_isPartial {reset : Oid → Op StoreError Nat} {runOut : Message → Bool}
    (asks : ∀ oid, (reset oid).Asks IsPartial) (snapshot : List Message)
    (erns : ResetErns) : (resetEach reset runOut snapshot erns).Asks IsPartial := by
  induction snapshot generalizing erns with
  | nil => trivial
  | cons msg rest ih =>
    unfold resetEach
    split
    · refine (asks msg.oid).bind fun modified => ?_
      split
      · exact ih _
      · exact ih _
    · exact ih _

theorem resetExpiredMessages_isPartial : (resetExpiredMessages : Op Fault Unit).Asks IsPartial := by
  have adjusts : ∀ delta erns, (adjustEach delta erns : Op StoreError Unit).Asks
      IsPartial :=
    fun delta erns => (adjustEach_silent delta erns).mono fun _ => IsSilent.isPartial
  refine asks_orAnswer (bind (asks_issue trivial) fun now => ?_)
  refine (asks_onMessages trivial).bind fun claimed => ?_
  refine (resetEach_isPartial (fun _ => asks_onMessages trivial) _ _).bind fun reset => ?_
  refine (asks_onMessages trivial).bind fun delayed => ?_
  refine (resetEach_isPartial (fun _ => asks_onMessages trivial) _ _).bind fun released => ?_
  exact (adjusts _ _).bind fun _ => adjusts _ _

/-- Traffic inserts new messages, and of the others it changes single fields. -/
theorem Traffic.isPartial (env : Env) (operation : Traffic) :
    (operation.program env).Asks IsPartial := by
  cases operation with
  | receive queueErn maxCount waitTime polls => exact receiveMessages_isPartial
  | send queueErn draft => exact sendMessage_isPartial.bind fun _ => trivial
  | sendBatch queueErn drafts => exact sendMessages_isPartial.bind fun _ => trivial
  | updateBody messageId body => exact updateMessageBody_isPartial.bind fun _ => trivial
  | delete receiptHandle =>
    exact (deleted_isPartial (asks_onMessages trivial)).bind fun _ => trivial
  | deleteById messageId =>
    exact (deleted_isPartial (asks_onMessages trivial)).bind fun _ => trivial
  | redrive _ _ _ => exact redriveMessages_isPartial.bind fun _ => trivial
  | purge queueErn => exact purgeQueue_isPartial.bind fun _ => trivial
  | flush => exact flushPendingCounters_isPartial.bind fun _ => trivial
  | sweep => exact resetExpiredMessages_isPartial.bind fun _ => trivial
  | expire => exact (asks_onMessages trivial).bind fun _ => trivial

end Euclid.Eqs
