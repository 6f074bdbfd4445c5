/-
This file translates what EKM does with a key that exists: the handlers that delete, revoke,
describe and tag it, the sweep that purges it, and what these ask of the key collection.

The collection holds the key or holds it no more. A handler reads the whole key and writes the whole
of it back. A date is stored in milliseconds, and only if it is set. Every request is a moment of
its own.
-/

import Mathlib
import Euclid.Bytes
import Euclid.Eag.Server
import Euclid.Interleaving

namespace Euclid.Ekm

open Program
open Eag (Response)

/-! ### Keys -/

inductive KeyStatus where
  | available
  | revoked
  | pendingDeletion
  | unknown
  deriving DecidableEq

/-- What a key and its document both have. -/
structure Attributes where
  region : String
  accountId : String
  nameSpace : String
  ern : String
  name : String
  description : String
  algorithm : String
  length : Int
  keyMaterial : String
  status : KeyStatus
  tags : String → Option String

/-- `Key`. The deletion date is in ticks of the system clock, and the epoch when there is none. -/
structure Key where
  attributes : Attributes
  deletionDate : Int

/-- The document of a key. The deletion date is in milliseconds. -/
structure Row where
  attributes : Attributes
  deletionDate : Option Int

def milliseconds (ticks : Int) : Int := ticks.tdiv 1000000

def Key.toDocument (key : Key) : Row where
  attributes := key.attributes
  deletionDate := if key.deletionDate ≠ 0 then some (milliseconds key.deletionDate) else none

/-- `fromDocument`. -/
def Row.toKey (row : Row) : Key where
  attributes := row.attributes
  deletionDate := row.deletionDate.getD 0 * 1000000

/-- The `$set` of `upsertKey`: what the document does not have stays. -/
def Key.writtenOver (key : Key) (stored : Option Row) : Row where
  attributes := key.attributes
  deletionDate := key.toDocument.deletionDate <|> stored.bind (·.deletionDate)

def Key.withStatus (key : Key) (status : KeyStatus) : Key :=
  { key with attributes := { key.attributes with status } }

def Key.withDescription (key : Key) (description : String) : Key :=
  { key with attributes := { key.attributes with description } }

def Key.withTag (key : Key) (name : String) (value : Option String) : Key :=
  { key with
    attributes := { key.attributes with
      tags := Function.update key.attributes.tags name value } }

/-! ### The collection -/

/-- What is asked of the key collection, and of the clock. -/
inductive Req where
  | find
  | upsert (key : Key)
  | readClock
  | purge (now : Int)

def Req.Answer : Req → Type
  | .find => Option Key
  | .upsert _ => Key
  | .readClock => Int
  | .purge _ => ℕ

/-- The key, and how many requests have been made. -/
structure World where
  row : Option Row
  moment : ℕ

/-- The deletion date of a document has come. -/
def Row.IsDue (row : Row) (now : Int) : Prop :=
  ∃ date, row.deletionDate = some date ∧ date ≤ milliseconds now

instance (row : Row) (now : Int) : Decidable (row.IsDue now) :=
  match date : row.deletionDate with
  | none => .isFalse fun ⟨_, same, _⟩ => absurd (date.symm.trans same) (by simp)
  | some other =>
    if due : other ≤ milliseconds now then .isTrue ⟨other, date, due⟩
    else .isFalse fun ⟨_, same, less⟩ => by
      obtain rfl := Option.some.inj (date.symm.trans same)
      exact due less

/-- What a request leaves of the key. -/
def Req.effect : Req → Option Row → Option Row
  | .upsert key, stored => some (key.writtenOver stored)
  | .purge now, stored => stored.filter fun row => ¬row.IsDue now
  | _, stored => stored

/-- A clock that does not go back, from the epoch on. -/
structure Env where
  clock : ℕ → Int
  steady : Monotone clock
  epoch : 0 ≤ clock 0

def Env.answer (env : Env) (world : World) : (req : Req) → req.Answer
  | .find => world.row.map Row.toKey
  | .upsert key => (key.writtenOver world.row).toKey
  | .readClock => env.clock world.moment
  | .purge now => (world.row.toList.filter fun row => row.IsDue now).length

def machine (env : Env) {Thread : Type} (_ : Thread) : Machine Req Req.Answer World :=
  fun req world =>
    (env.answer world req, ⟨req.effect world.row, world.moment + 1⟩)

/-! ### Handlers -/

/-- What a handler does. None raises a fault. -/
abbrev Op (Result : Type) := Program Req Req.Answer Empty Result

def findKey : Op (Option Key) := issue Req.find

def upsertKey (key : Key) : Op Key := issue (Req.upsert key)

def readSystemClock : Op Int := issue Req.readClock

/-- The end of a window of so many days: days to hours, hours to ticks, and ticks added, each in 64
bits. -/
def deletionDateAfter (now pendingWindowInDays : Int) : Int :=
  int64 (now + int64 (int64 (24 * pendingWindowInDays) * 3600000000000))

def handleDeleteKey (keyId : String) (pendingWindowInDays : Int) : Op (Response (Option Key)) := do
  if keyId = "" then return .refused .badRequest "Missing keyId"
  if pendingWindowInDays < 1 then
    return .refused .badRequest "pendingWindowInDays must be >= 1"
  match ← findKey with
  | none => return .refused .notFound s!"Key not found, id: {keyId}"
  | some key =>
    let now ← readSystemClock
    let pending := { key with deletionDate := deletionDateAfter now pendingWindowInDays }
    let saved ← upsertKey (pending.withStatus .pendingDeletion)
    return .success (some saved)

def handleRevokeKey (ern : String) : Op (Response (Option Key)) := do
  if ern = "" then return .refused .badRequest "Missing ERN"
  match ← findKey with
  | none => return .refused .notFound s!"Key not found, ern: {ern}"
  | some key =>
    if key.attributes.status = .pendingDeletion then
      return .refused .badRequest
        s!"Ern '{ern}' is already scheduled for deletion; encryption is already blocked"
    let saved ← upsertKey (key.withStatus .revoked)
    return .success (some saved)

def handleSetKeyDescription (ern description : String) : Op (Response (Option Key)) := do
  if ern = "" then return .refused .badRequest "Missing ERN"
  match ← findKey with
  | none => return .refused .notFound s!"Key not found, ern: {ern}"
  | some key =>
    let saved ← upsertKey (key.withDescription description)
    return .success (some saved)

/-- What `handleAddKeyTag` and `handleDeleteKeyTag` do: a tag is set, or erased. -/
def handleKeyTag (ern name : String) (value : Option String) : Op (Response (Option Key)) := do
  match ← findKey with
  | none => return .refused .notFound s!"Key not found, ern: {ern}"
  | some key =>
    let _ ← upsertKey (key.withTag name value)
    return .success none

def handleAddKeyTag (ern key value : String) : Op (Response (Option Key)) :=
  handleKeyTag ern key (some value)

def handleDeleteKeyTag (ern key : String) : Op (Response (Option Key)) :=
  handleKeyTag ern key none

def purgeKeysPendingDeletion : Op (Response (Option Key)) := do
  let now ← readSystemClock
  let _ ← issue (Req.purge now)
  return .success none

/-- A request about the key, or a turn of the sweep. -/
inductive Call where
  | deleteKey (keyId : String) (pendingWindowInDays : Int)
  | revokeKey (ern : String)
  | setKeyDescription (ern description : String)
  | addKeyTag (ern key value : String)
  | deleteKeyTag (ern key : String)
  | purge

def Call.program : Call → Op (Response (Option Key))
  | .deleteKey keyId pendingWindowInDays => handleDeleteKey keyId pendingWindowInDays
  | .revokeKey ern => handleRevokeKey ern
  | .setKeyDescription ern description => handleSetKeyDescription ern description
  | .addKeyTag ern key value => handleAddKeyTag ern key value
  | .deleteKeyTag ern key => handleDeleteKeyTag ern key
  | .purge => purgeKeysPendingDeletion

end Euclid.Ekm
