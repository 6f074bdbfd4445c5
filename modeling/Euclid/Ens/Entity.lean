/-
This file holds what ENS keeps: topics, the messages published to them, and the
subscriptions that say where a message goes.

A message is handled as an entity and stored as a document. The two differ in how an
attribute is written: a `float` is stored as the double it widens to. What is published for
a message is a JSON object, in which an attribute is a type and a value.
-/

import Euclid.Bus.Statement
import Euclid.Eqs.Server

namespace Euclid.Ens

open Bus (Json Time Outage StoreError)
open Eqs (Variant Attributes)

/-! ### Surroundings -/

/-- What ENS reads from outside, beside what the event bus does. -/
structure Env extends Bus.Env where
  region : String
  contentTypeOf : String → String
  configuredRetentionPeriod : Int
  topicCacheTtl : Time
  widen : UInt32 → UInt64
  narrow : UInt64 → UInt32
  narrow_widen : ∀ bits, narrow (widen bits) = bits

/-- Surroundings as an installation has them out of the box, on those of the bus. -/
def Env.past (bus : Bus.Env) : Env where
  toEnv := bus
  region := "eu-central-1"
  contentTypeOf := fun _ => "text/plain"
  configuredRetentionPeriod := 14 * 24 * 60 * 60
  topicCacheTtl := 5 * 1000
  widen bits := bits.toUInt64
  narrow bits := bits.toUInt32
  narrow_widen bits := by simp

/-! ### Attributes -/

/-- A typed attribute value as it is stored. -/
inductive VariantDocument where
  | int (value : Int)
  | long (value : Int)
  | double (bits : UInt64)
  | float (bits : UInt64)
  | bool (value : Bool)
  | string (value : String)
  | binary (bytes : List UInt8)
  deriving DecidableEq

def variantToDocument (env : Env) : Variant → VariantDocument
  | .int value => .int value
  | .long value => .long value
  | .double bits => .double bits
  | .float bits => .float (env.widen bits)
  | .bool value => .bool value
  | .string value => .string value
  | .binary bytes => .binary bytes

def variantFromDocument (env : Env) : VariantDocument → Variant
  | .int value => .int value
  | .long value => .long value
  | .double bits => .double bits
  | .float bits => .float (env.narrow bits)
  | .bool value => .bool value
  | .string value => .string value
  | .binary bytes => .binary bytes

@[simp] theorem variantFromDocument_toDocument (env : Env) (variant : Variant) :
    variantFromDocument env (variantToDocument env variant) = variant := by
  cases variant with
  | float bits => exact congrArg Variant.float (env.narrow_widen bits)
  | _ => rfl

abbrev AttributeDocuments := List (String × VariantDocument)

def attributesToDocument (env : Env) (attributes : Attributes) : AttributeDocuments :=
  attributes.map fun entry => (entry.1, variantToDocument env entry.2)

def attributesFromDocument (env : Env) (docs : AttributeDocuments) : Attributes :=
  docs.map fun entry => (entry.1, variantFromDocument env entry.2)

@[simp] theorem attributesFromDocument_toDocument (env : Env) (attributes : Attributes) :
    attributesFromDocument env (attributesToDocument env attributes) = attributes := by
  simp [attributesFromDocument, attributesToDocument, Function.comp_def]

def kBase64Chars : List Char :=
  "ABCDEFGHIJKLMNOPQRSTUVWXYZabcdefghijklmnopqrstuvwxyz0123456789+/".toList

def toBase64 : List UInt8 → List Char
  | first :: second :: third :: rest =>
    let bits := first.toNat * 65536 + second.toNat * 256 + third.toNat
    [bits / 262144 % 64, bits / 4096 % 64, bits / 64 % 64, bits % 64].map
      (fun index => kBase64Chars.getD index '=') ++ toBase64 rest
  | [first, second] =>
    let bits := first.toNat * 65536 + second.toNat * 256
    [bits / 262144 % 64, bits / 4096 % 64, bits / 64 % 64].map
      (fun index => kBase64Chars.getD index '=') ++ ['=']
  | [first] =>
    let bits := first.toNat * 65536
    [bits / 262144 % 64, bits / 4096 % 64].map
      (fun index => kBase64Chars.getD index '=') ++ ['=', '=']
  | [] => []

/-- `value_from`: the JSON of an attribute value. -/
def variantToJson (env : Env) (variant : Variant) : Json :=
  let typed := fun (type : String) (value : Json) =>
    Json.object [("type", .string type), ("value", value)]
  match variant with
  | .int value => typed "int" (.int64 value)
  | .long value => typed "long" (.int64 value)
  | .double bits => typed "double" (.double bits)
  | .float bits => typed "float" (.double (env.widen bits))
  | .bool value => typed "bool" (.bool value)
  | .string value => typed "string" (.string value)
  | .binary bytes => typed "binary" (.string (String.ofList (toBase64 bytes)))

def attributesToJson (env : Env) (attributes : Attributes) : List (String × Json) :=
  attributes.map fun entry => (entry.1, variantToJson env entry.2)

/-! ### Topics -/

/-- `kDefaultRetentionPeriod`, in seconds. -/
def kDefaultRetentionPeriod : Int := 14 * 24 * 60 * 60

def kRetentionForever : Int := -1

def kDefaultMaxMessageLength : Int := 1024 * 1024

def effectiveMaxMessageLength (configured : Int) : Int :=
  if 0 < configured then configured else kDefaultMaxMessageLength

structure Topic where
  region : String
  accountId : String
  nameSpace : String
  owner : String
  name : String
  ern : String
  size : Int
  available : Int
  send : Int
  resend : Int
  maxMessageLength : Int
  retentionPeriod : Int
  delivering : Bool
  deleteAfterDelivery : Bool
  tags : List (String × String)
  deriving DecidableEq

/-- A topic as the entity is before anything is set. -/
def Topic.blank : Topic where
  region := ""
  accountId := ""
  nameSpace := ""
  owner := ""
  name := ""
  ern := ""
  size := 0
  available := 0
  send := 0
  resend := 0
  maxMessageLength := kDefaultMaxMessageLength
  retentionPeriod := 0
  delivering := true
  deleteAfterDelivery := false
  tags := []

/-- What the unique index on names holds apart. -/
def Topic.key (topic : Topic) : String × String × String :=
  (topic.accountId, topic.nameSpace, topic.name)

def Topic.status (topic : Topic) : String := if topic.delivering then "RUNNING" else "STOPPED"

def defaultRetentionPeriod (env : Env) : Int :=
  if env.configuredRetentionPeriod = kRetentionForever then kRetentionForever
  else if 0 < env.configuredRetentionPeriod then env.configuredRetentionPeriod
  else kDefaultRetentionPeriod

def effectiveRetentionPeriod (env : Env) (topic : Topic) : Int :=
  if topic.retentionPeriod = kRetentionForever then kRetentionForever
  else if 0 < topic.retentionPeriod then topic.retentionPeriod
  else defaultRetentionPeriod env

/-! ### Messages -/

/-- `kStatusPublished` and `kStatusHeld`. -/
inductive MessageStatus where
  | published
  | held
  deriving DecidableEq

structure Message where
  ern : String
  topicErn : String
  body : String
  size : Int
  messageId : String
  attributes : Attributes
  systemAttributes : Attributes
  contentType : String
  status : MessageStatus
  priority : String
  expiresAt : Option Time
  created : Time

structure MessageDocument where
  ern : String
  topicErn : String
  body : String
  size : Int
  messageId : String
  attributes : AttributeDocuments
  systemAttributes : AttributeDocuments
  contentType : String
  status : MessageStatus
  priority : String
  expiresAt : Option Time
  created : Time
  deriving DecidableEq

/-- `ToDocument`, with the creation stamp its caller adds. -/
def Message.toDocument (env : Env) (created : Time) (msg : Message) : MessageDocument where
  ern := msg.ern
  topicErn := msg.topicErn
  body := msg.body
  size := msg.size
  messageId := msg.messageId
  attributes := attributesToDocument env msg.attributes
  systemAttributes := attributesToDocument env msg.systemAttributes
  contentType := msg.contentType
  status := msg.status
  priority := msg.priority
  expiresAt := msg.expiresAt
  created := created

def Message.fromDocument (env : Env) (doc : MessageDocument) : Message where
  ern := doc.ern
  topicErn := doc.topicErn
  body := doc.body
  size := doc.size
  messageId := doc.messageId
  attributes := attributesFromDocument env doc.attributes
  systemAttributes := attributesFromDocument env doc.systemAttributes
  contentType := doc.contentType
  status := doc.status
  priority := doc.priority
  expiresAt := doc.expiresAt
  created := doc.created

/-! ### Subscriptions and publications -/

structure Subscription where
  ern : String
  sourceErn : String
  type : String
  targetErn : String

/-- What `EventBus::Publish` is called with. -/
structure Publication where
  eventType : String
  payload : Json
  sourceModule : String
  delivery : Bus.Delivery

end Euclid.Ens
