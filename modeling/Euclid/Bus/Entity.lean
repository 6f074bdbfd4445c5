/-
This file holds what the event bus keeps: events waiting for a subscriber, the
subscriptions that say who gets one, and the envelope a consumer is handed.

An event is published once and stored once for each subscriber, a document with an
address on the outside (`Delivery`) and a payload kept as text. A module's event carries
the address, an external subscriber's does not. JSON text is written and read by a library
outside this repository; only what the bus asks of a value is defined here.
-/

import Mathlib.Data.List.Sort
import Mathlib.Data.Int.Basic

namespace Euclid.Bus

/-- The identity a document is stored under: when it was made, and its place among those made
then. -/
abbrev Oid := Nat × Nat

instance : LawfulBEq Oid := inferInstance

/-- Milliseconds, as the store stamps them. -/
abbrev Time := Int

/-! ### JSON values -/

/-- A JSON value. A floating-point number is its bit pattern. -/
inductive Json where
  | null
  | bool (value : Bool)
  | int64 (value : Int)
  | uint64 (value : Nat)
  | double (bits : UInt64)
  | string (text : String)
  | array (elements : List Json)
  | object (members : List (String × Json))

namespace Json

/-- The members of an object. Any other value has none. -/
def members : Json → List (String × Json)
  | .object members => members
  | _ => []

def ifContains (key : String) (members : List (String × Json)) : Option Json :=
  (members.find? fun mem => mem.1 = key).map Prod.snd

end Json

/-- A string read up to its first zero byte, as `c_str()` hands it on. -/
def cString (text : String) : String :=
  String.ofList (text.toList.takeWhile fun character => character ≠ Char.ofNat 0)

/-! ### Constants -/

/-- `kExternalPrefix`: what sets an external subscriber's name apart from a module's. -/
def kExternalPrefix : String := "client:"

/-- `kExternalRetentionSeconds`, in milliseconds. -/
def kExternalRetention : Time := 7 * 24 * 3600 * 1000

/-- `kModuleRetentionSeconds`, in milliseconds. -/
def kModuleRetention : Time := 30 * 24 * 3600 * 1000

def kMaxAttempts : Int := 5

def kBatchSize : Nat := 200

/-- `kVisibilityTimeout`, in milliseconds. -/
def kVisibilityTimeout : Time := 30 * 1000

def isExternal (target : String) : Bool := kExternalPrefix.toList.isPrefixOf target.toList

def externalTarget (subscriber : String) : String := kExternalPrefix ++ subscriber

theorem isExternal_externalTarget (subscriber : String) :
    isExternal (externalTarget subscriber) := by
  simp [isExternal, externalTarget, kExternalPrefix]

/-! ### Events -/

/-- Where a delivery is going, and what is holding it back. -/
structure Delivery where
  targetErn : String
  sourceErn : String
  messageId : String
  heldBy : String

/-- A domain event: addressed to nobody, and not held. -/
def Delivery.none : Delivery := ⟨"", "", "", ""⟩

inductive EventStatus where
  | pending
  | claimed
  | held
  deriving DecidableEq

/-- One stored event for one subscriber. The address is missing from an external subscriber's
event, the token until the first claim, the expiry while it is held. -/
structure StoredEvent where
  oid : Oid
  eventId : String
  eventType : String
  sourceModule : String
  targetModule : String
  targetErn : Option String
  sourceErn : Option String
  messageId : Option String
  payload : String
  claimedBy : String
  claimToken : Option String
  attempts : Int
  visibleAt : Time
  createdAt : Time
  status : EventStatus
  heldBy : Option String
  expiresAt : Option Time
  deriving DecidableEq

/-- What a handler or a client is given of an event. -/
structure EventEnvelope where
  eventId : String
  eventType : String
  sourceModule : String
  payload : Json
  targetErn : String
  sourceErn : String
  messageId : String
  attempts : Int
  createdAt : Time

/-- The envelope of a document. A payload that cannot be read is a null. -/
def StoredEvent.envelope (parse : String → Option Json) (doc : StoredEvent) : EventEnvelope where
  eventId := doc.eventId
  eventType := doc.eventType
  sourceModule := doc.sourceModule
  payload := (parse doc.payload).getD .null
  targetErn := doc.targetErn.getD ""
  sourceErn := doc.sourceErn.getD ""
  messageId := doc.messageId.getD ""
  attempts := doc.attempts
  createdAt := doc.createdAt

/-- An event that could not be delivered, and why. -/
structure DeadLetter where
  event : StoredEvent
  dlqReason : String

/-! ### Subscriptions -/

inductive DeliveryMode where
  | durable
  | live
  deriving DecidableEq

def DeliveryMode.fromString (mode : String) : DeliveryMode :=
  if mode = "live" then .live else .durable

def DeliveryMode.toString : DeliveryMode → String
  | .live => "live"
  | .durable => "durable"

/-- A stored subscription. A module's has no more than its two names. -/
structure Subscription where
  moduleType : String
  eventType : String
  filter : Option String
  accountId : Option String
  mode : Option String

/-- A subscription as a publish needs it. -/
structure SubscriberRecord where
  target : String
  external : Bool
  filter : List (String × Json)
  accountId : String
  mode : DeliveryMode

/-- The record of a stored subscription. A filter that cannot be read is no filter, which errs
towards delivering too much. -/
def Subscription.record (parse : String → Option Json) (subscription : Subscription) :
    SubscriberRecord :=
  if isExternal subscription.moduleType then
    { target := subscription.moduleType
      external := true
      filter := ((subscription.filter.bind parse).map Json.members).getD []
      accountId := subscription.accountId.getD ""
      mode := (subscription.mode.map DeliveryMode.fromString).getD .durable }
  else
    { target := subscription.moduleType
      external := false
      filter := []
      accountId := ""
      mode := .durable }

/-- The subscription collection. Its unique index keeps one document for each subscriber and
event type. -/
structure Subscriptions where
  documents : List Subscription
  unique : documents.Pairwise fun first second =>
    ¬(first.moduleType = second.moduleType ∧ first.eventType = second.eventType)

namespace Subscriptions

def empty : Subscriptions := ⟨[], .nil⟩

theorem id_keepsNames (subscription : Subscription) :
    (id subscription).moduleType = subscription.moduleType ∧
      (id subscription).eventType = subscription.eventType := ⟨rfl, rfl⟩

/-- An upsert by the two names of a subscription. -/
def upsert (change : Subscription → Subscription) (moduleType eventType : String)
    (keepsNames : ∀ subscription, (change subscription).moduleType = subscription.moduleType ∧
      (change subscription).eventType = subscription.eventType)
    (subscriptions : Subscriptions) : Subscriptions :=
  let selected := fun subscription : Subscription =>
    subscription.moduleType = moduleType ∧ subscription.eventType = eventType
  if found : subscriptions.documents.any fun subscription => selected subscription then
    ⟨subscriptions.documents.map fun subscription =>
        if selected subscription then change subscription else subscription, by
      rw [List.pairwise_map]
      refine subscriptions.unique.imp fun {first second} apart => ?_
      have names : ∀ subscription : Subscription,
          (if selected subscription then change subscription else subscription).moduleType =
            subscription.moduleType ∧
          (if selected subscription then change subscription else subscription).eventType =
            subscription.eventType := by
        intro subscription
        split
        · exact keepsNames subscription
        · exact ⟨rfl, rfl⟩
      rw [(names first).1, (names first).2, (names second).1, (names second).2]
      exact apart⟩
  else
    ⟨subscriptions.documents ++ [change ⟨moduleType, eventType, none, none, none⟩], by
      rw [List.pairwise_append]
      refine ⟨subscriptions.unique, List.pairwise_singleton _ _, fun stored mem added new => ?_⟩
      obtain rfl := List.mem_singleton.mp new
      rw [(keepsNames _).1, (keepsNames _).2]
      intro same
      exact found (List.any_eq_true.mpr ⟨stored, mem, by simpa [selected] using same⟩)⟩

end Subscriptions

end Euclid.Bus
