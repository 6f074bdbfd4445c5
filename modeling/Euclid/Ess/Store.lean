/-
This file translates what ESS and EKM ask of the collections of secrets and of keys, one statement
at a time.

Requests of several instances share the collections, and a statement is what they can get in between
of. A document is written as a whole under its account, namespace and name, unless another one has
its ERN. A statement may fail, before or after it was carried out; a read that fails is reported as
if nothing was there. A text is the bytes of it where it is encrypted, and base 64 where it is
stored.
-/

import Euclid.Catalog
import Euclid.Core.HttpRequest
import Euclid.Core.ObjectCipher
import Euclid.Eam.Store
import Euclid.Ekm.Server

namespace Euclid.Ess

open Program
open Core (Gcm Text base64Encode base64Decode aesGcmDecrypt)
open Eam.Store (Fate StoreError orNone)
open Ekm (Key Row)

/-! ### Documents -/

/-- What a secret or a key is stored under. -/
structure ResourceId where
  accountId : String
  nameSpace : String
  name : String
  deriving DecidableEq

/-- `Secret`. The value is encrypted. -/
structure Secret where
  region : String
  accountId : String
  nameSpace : String
  ern : String
  name : String
  description : String
  value : Text
  encryptionKeyErn : String
  version : Int
  tags : String → Option String

def Secret.id (secret : Secret) : ResourceId := ⟨secret.accountId, secret.nameSpace, secret.name⟩

/-- What a key is stored under. -/
def idOfKey (attributes : Ekm.Attributes) : ResourceId :=
  ⟨attributes.accountId, attributes.nameSpace, attributes.name⟩

/-- `Base64Decode` of the key material. -/
def materialOf (attributes : Ekm.Attributes) : Bytes :=
  base64Decode attributes.keyMaterial.toList

abbrev Keys : Type :=
  Catalog (fun row : Row => idOfKey row.attributes) (fun row : Row => row.attributes.ern)

abbrev Secrets : Type := Catalog Secret.id Secret.ern

/-! ### Statements -/

inductive Statement where
  | findKeyByName (id : ResourceId)
  | findKeyByErn (ern : String)
  | upsertKey (key : Key)
  | findSecretByName (id : ResourceId)
  | upsertSecret (secret : Secret)
  | deleteSecret (id : ResourceId)

def Statement.Answer : Statement → Type
  | .findKeyByName _ => Except StoreError (Option Key)
  | .findKeyByErn _ => Except StoreError (Option Key)
  | .upsertKey _ => Except StoreError Key
  | .findSecretByName _ => Except StoreError (Option Secret)
  | .upsertSecret _ => Except StoreError Secret
  | .deleteSecret _ => Except StoreError Unit

/-- The collections, and how many statements there were. -/
structure World where
  keys : Keys
  secrets : Secrets
  moment : ℕ

/-- What is configured, AES-GCM, and which statements fail. -/
structure Env where
  region : String
  gcm : Gcm
  lawful : gcm.Lawful
  fate : ℕ → Fate

/-- The row that a key leaves in place of the one of its name. -/
def World.rowOf (world : World) (key : Key) : Row :=
  key.writtenOver (world.keys.find? (idOfKey key.attributes))

def Statement.perform (world : World) : (stmt : Statement) → stmt.Answer × World
  | .findKeyByName id => (.ok ((world.keys.find? id).map Row.toKey), world)
  | .findKeyByErn ern => (.ok ((world.keys.findLabel? ern).map Row.toKey), world)
  | .upsertKey key =>
    if free : ¬world.keys.IsTaken (world.rowOf key) then
      (.ok (world.rowOf key).toKey, { world with keys := world.keys.put (world.rowOf key) free })
    else (.error .duplicateKey, world)
  | .findSecretByName id => (.ok (world.secrets.find? id), world)
  | .upsertSecret secret =>
    if free : ¬world.secrets.IsTaken secret then
      (.ok secret, { world with secrets := world.secrets.put secret free })
    else (.error .duplicateKey, world)
  | .deleteSecret id => (.ok (), { world with secrets := world.secrets.remove id })

def Statement.failure : (stmt : Statement) → stmt.Answer
  | .findKeyByName _ => .error .failed
  | .findKeyByErn _ => .error .failed
  | .upsertKey _ => .error .failed
  | .findSecretByName _ => .error .failed
  | .upsertSecret _ => .error .failed
  | .deleteSecret _ => .error .failed

def World.next (world : World) : World := { world with moment := world.moment + 1 }

def machine (env : Env) {Thread : Type} (_ : Thread) : Machine Statement Statement.Answer World :=
  fun stmt world =>
    match env.fate world.moment with
    | .carriedOut => ((stmt.perform world).1, (stmt.perform world).2.next)
    | .failed => (stmt.failure, world.next)
    | .unanswered => (stmt.failure, (stmt.perform world).2.next)

/-- The events of a run of requests. -/
abbrev Past (Thread : Type) : Type := History Thread Statement Statement.Answer World

abbrev Happening (Thread : Type) : Type := Event Thread Statement Statement.Answer World

/-! ### The repositories -/

/-- What is asked of the repositories. A write may raise a fault. -/
abbrev Op (Result : Type) := Program Statement Statement.Answer StoreError Result

def findKeyByName (id : ResourceId) : Op (Option Key) := do
  return orNone (← issue (Statement.findKeyByName id))

def findKeyByErn (ern : String) : Op (Option Key) := do
  return orNone (← issue (Statement.findKeyByErn ern))

def upsertKey (key : Key) : Op Key := do
  ofExcept (← issue (Statement.upsertKey key))

def findSecretByName (id : ResourceId) : Op (Option Secret) := do
  return orNone (← issue (Statement.findSecretByName id))

/-- `secretExists`. A read that fails says no. -/
def secretExists (id : ResourceId) : Op Bool := do
  return (← findSecretByName id).isSome

def upsertSecret (secret : Secret) : Op Secret := do
  ofExcept (← issue (Statement.upsertSecret secret))

/-- `deleteSecret`. Whether it fails is only logged. -/
def deleteSecret (id : ResourceId) : Op Unit := do
  let _ ← issue (Statement.deleteSecret id)
  return ()

/-! ### What a secret stands for -/

/-- What a secret decrypts to under the material of a key. -/
def decrypt (env : Env) (material : Bytes) (secret : Secret) : Except String Bytes :=
  aesGcmDecrypt env.gcm material (base64Decode secret.value) []

/-- A stored secret decrypts to a value, under the material of the key that it names. -/
def World.Opens (env : Env) (world : World) (secret : Secret) (value : Bytes) : Prop :=
  ∃ row ∈ world.keys.findLabel? secret.encryptionKeyErn,
    decrypt env (materialOf row.attributes) secret = .ok value

instance (env : Env) (world : World) (secret : Secret) (value : Bytes) :
    Decidable (world.Opens env secret value) :=
  match found : world.keys.findLabel? secret.encryptionKeyErn with
  | none => .isFalse fun ⟨row, mem, _⟩ => absurd (found.symm.trans mem) (by simp)
  | some row =>
    decidable_of_iff (decrypt env (materialOf row.attributes) secret = .ok value)
      ⟨fun opens => ⟨row, found, opens⟩, fun ⟨_, mem, opens⟩ =>
        Option.some.inj (found.symm.trans mem) ▸ opens⟩

end Euclid.Ess
