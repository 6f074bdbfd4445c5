/-
This file translates what the user repository asks of its collections, one statement at a time.

Requests of several instances share the collections, and a statement is what they can get in between
of. A document is written as a whole. A statement may fail, before or after it was carried out, and
the repository reports a read that fails as if nothing was there. Times are in ticks of the clock,
whose text orders as they do.
-/

import Mathlib
import Euclid.Eam.Directory
import Euclid.Interleaving

namespace Euclid.Eam.Store

open Program Collection

/-! ### Documents -/

structure AccessKey where
  accessKeyId : String
  secretAccessKey : String
  active : Bool
  created : Int
  deriving DecidableEq

structure Session where
  createdAt : Int
  expiresAt : Int
  deriving DecidableEq

structure SeenAssertion where
  assertionId : String
  expiresAt : Int
  deriving DecidableEq

structure UserDocument extends User where
  password : String
  accessKeys : List AccessKey
  sessions : List Session
  seenAssertions : List SeenAssertion
  deriving DecidableEq

/-! ### Statements -/

inductive UserLookup where
  | userId (userId : String)
  | email (email : String)
  | ern (ern : String)
  | federatedSubject (provider subject : String)

inductive GroupLookup where
  | name (name : String)
  | ern (ern : String)

def UserLookup.selects : UserLookup → UserDocument → Bool
  | .userId wanted, user => user.userId = wanted
  | .email wanted, user => user.email = wanted
  | .ern wanted, user => user.ern = wanted
  | .federatedSubject provider subject, user =>
    user.federatedProvider = provider ∧ user.federatedSubject = subject

def GroupLookup.selects : GroupLookup → UserGroup → Bool
  | .name wanted, group => group.name = wanted
  | .ern wanted, group => group.ern = wanted

/-- What is asked of the collections. `consult` reads the clock, or a random number: all that is
made of these depends on the moment. -/
inductive Statement where
  | findUser (lookup : UserLookup)
  | countUsers
  | upsertUser (user : UserDocument)
  | deleteUser (userId : String)
  | findGroup (lookup : GroupLookup)
  | upsertGroup (group : UserGroup)
  | consult

open Statement

/-- Why a statement is not carried out, or not said to be. -/
inductive StoreError where
  | failed
  | duplicateKey

def Statement.Answer : Statement → Type
  | .findUser _ => Except StoreError (Option UserDocument)
  | .countUsers => Except StoreError ℕ
  | .upsertUser _ => Except StoreError UserDocument
  | .deleteUser _ => Except StoreError Unit
  | .findGroup _ => Except StoreError (Option UserGroup)
  | .upsertGroup _ => Except StoreError UserGroup
  | .consult => ℕ

/-- The collections, and how many statements there were. -/
structure World where
  users : List UserDocument
  groups : List UserGroup
  moment : ℕ

/-- What becomes of a statement: it is carried out, it fails, or it is carried out and said to have
failed. -/
inductive Fate where
  | carriedOut
  | failed
  | unanswered
  deriving DecidableEq

/-- What is not in the collections: what is configured for federated logins, the clock, what is made
at random, how passwords are hashed, and which statements fail. -/
structure Env extends Eam.Env where
  oidc : ProvisioningPolicy
  saml : ProvisioningPolicy
  clockSkew : Int
  clock : ℕ → Int
  steady : Monotone clock
  accessKey : ℕ → AccessKey
  hash : ℕ → String → String
  verify : String → String → Bool
  fate : ℕ → Fate

namespace World

def findUser (world : World) (lookup : UserLookup) : Option UserDocument :=
  world.users.find? lookup.selects

def findGroup (world : World) (lookup : GroupLookup) : Option UserGroup :=
  world.groups.find? lookup.selects

/-- Another user has the address, or one of the access keys. -/
def isTaken (world : World) (user : UserDocument) : Bool :=
  world.users.any fun other => other.userId ≠ user.userId ∧
    (other.email = user.email ∨
      ∃ key ∈ user.accessKeys, ∃ theirs ∈ other.accessKeys, theirs.accessKeyId = key.accessKeyId)

/-- A user replaces the one of the same id, or is new. -/
def putUser (env : Env) (world : World) (user : UserDocument) : UserDocument × World :=
  match world.findUser (.userId user.userId) with
  | some old =>
    let saved := { user with oid := old.oid }
    (saved, { world with
      users := updateFirst (UserLookup.userId user.userId).selects (fun _ => saved) world.users })
  | none =>
    let saved := { user with oid := env.oid world.moment }
    (saved, { world with users := world.users ++ [saved] })

/-- A group replaces the one of the same name, or is new. -/
def putGroup (env : Env) (world : World) (group : UserGroup) : UserGroup × World :=
  match world.findGroup (.name group.name) with
  | some old =>
    let saved := { group with oid := old.oid }
    (saved, { world with
      groups := updateFirst (GroupLookup.name group.name).selects (fun _ => saved) world.groups })
  | none =>
    let saved := { group with oid := env.oid world.moment }
    (saved, { world with groups := world.groups ++ [saved] })

end World

def Statement.perform (env : Env) (world : World) : (stmt : Statement) → stmt.Answer × World
  | .findUser lookup => (.ok (world.findUser lookup), world)
  | .countUsers => (.ok world.users.length, world)
  | .upsertUser user =>
    if world.isTaken user then (.error .duplicateKey, world)
    else (.ok (world.putUser env user).1, (world.putUser env user).2)
  | .deleteUser userId =>
    (.ok (), { world with users := world.users.filter fun user => user.userId ≠ userId })
  | .findGroup lookup => (.ok (world.findGroup lookup), world)
  | .upsertGroup group => (.ok (world.putGroup env group).1, (world.putGroup env group).2)
  | .consult => (world.moment, world)

/-- What a statement that fails is answered. A clock does not fail. -/
def Statement.failure (world : World) : (stmt : Statement) → stmt.Answer
  | .findUser _ => .error .failed
  | .countUsers => .error .failed
  | .upsertUser _ => .error .failed
  | .deleteUser _ => .error .failed
  | .findGroup _ => .error .failed
  | .upsertGroup _ => .error .failed
  | .consult => world.moment

def World.next (world : World) : World := { world with moment := world.moment + 1 }

def machine (env : Env) {Thread : Type} (_ : Thread) : Machine Statement Statement.Answer World :=
  fun stmt world =>
    match env.fate world.moment with
    | .carriedOut =>
      ((stmt.perform env world).1, (stmt.perform env world).2.next)
    | .failed => (stmt.failure world, world.next)
    | .unanswered => (stmt.failure world, (stmt.perform env world).2.next)

/-- The events of a run of requests. -/
abbrev Past (Thread : Type) : Type := History Thread Statement Statement.Answer World

abbrev Happening (Thread : Type) : Type := Event Thread Statement Statement.Answer World

def writesUser {Thread : Type} : Happening Thread → Bool
  | ⟨_, .upsertUser _, _, _, _⟩ => true
  | _ => false

def writesGroup {Thread : Type} : Happening Thread → Bool
  | ⟨_, .upsertGroup _, _, _, _⟩ => true
  | _ => false

/-! ### The repository -/

/-- What is asked of the repository. A write may raise a fault. -/
abbrev Op (Result : Type) := Program Statement Statement.Answer StoreError Result

/-- A read that fails finds nothing. -/
def orNone {Value : Type} : Except StoreError (Option Value) → Option Value
  | .ok found => found
  | .error _ => none

def findUserByUserId (userId : String) : Op (Option UserDocument) := do
  return orNone (← issue (findUser (.userId userId)))

def findUserByEmail (email : String) : Op (Option UserDocument) := do
  return orNone (← issue (findUser (.email email)))

def findUserByErn (ern : String) : Op (Option UserDocument) := do
  return orNone (← issue (findUser (.ern ern)))

/-- `findUserByFederatedSubject`. Who has not come from a provider is not looked up. -/
def findUserByFederatedSubject (provider subject : String) : Op (Option UserDocument) :=
  if provider = "" ∨ subject = "" then .done none
  else do return orNone (← issue (findUser (.federatedSubject provider subject)))

/-- `userExists`. A read that fails says no. -/
def userExists (userId : String) : Op Bool := do
  return (← findUserByUserId userId).isSome

/-- A count that fails is less than none. -/
def countOf : Except StoreError ℕ → Int
  | .ok count => count
  | .error _ => -1

def countUsers : Op Int := do
  return countOf (← issue Statement.countUsers)

def upsertUser (user : UserDocument) : Op UserDocument := do
  ofExcept (← issue (Statement.upsertUser user))

/-- `deleteUser`. Whether it fails is only logged. -/
def deleteUser (userId : String) : Op Unit := do
  let _ ← issue (Statement.deleteUser userId)
  return ()

def findUserGroupByName (name : String) : Op (Option UserGroup) := do
  return orNone (← issue (findGroup (.name name)))

def findUserGroupByErn (ern : String) : Op (Option UserGroup) := do
  return orNone (← issue (findGroup (.ern ern)))

def upsertUserGroup (group : UserGroup) : Op UserGroup := do
  ofExcept (← issue (upsertGroup group))

def isEamAdmin (userId : String) : Op Bool := do
  let group ← findUserGroupByName administratorGroup
  return group.any fun group => userId ∈ group.userIds

def readClock (env : Env) : Op Int := do
  return env.clock (← issue consult)

/-! ### An installation -/

theorem seconds_steady : Monotone fun moment : ℕ => (1000000000 * moment : Int) :=
  fun _ _ less => Int.mul_le_mul_of_nonneg_left (Int.ofNat_le.mpr less) (by decide)

/-- An installation that creates users and links them, where a statement takes a second, and none
fails. -/
def Env.plain : Env where
  region := "eu"
  oid moment := String.ofList (List.replicate moment 'i')
  oid_injective := by
    intro first second same
    have lengths := congrArg String.length same
    simpa using lengths
  oidc := ⟨true, true, "acme"⟩
  saml := ⟨true, true, "acme"⟩
  clockSkew := 60000000000
  clock moment := 1000000000 * moment
  steady := seconds_steady
  accessKey moment := ⟨String.ofList (List.replicate moment 'k'), "secret", true, moment⟩
  hash _ password := "#" ++ password
  verify password hash := hash = "#" ++ password
  fate _ := .carriedOut

end Euclid.Eam.Store
