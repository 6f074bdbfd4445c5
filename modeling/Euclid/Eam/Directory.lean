/-
This file translates the requests that create, rename and remove users and user groups, and that
grant and revoke roles.

Rights hang off resource names in one collection and off user ids in lists of another. The requests
come one at a time and no statement fails, but the unique index on the address of a user may refuse
what is stored. A document keeps the identity that the store gave it when it was inserted.
-/

import Euclid.Collection
import Euclid.Eam.Authorization

namespace Euclid.Eam

open Collection

/-! ### Documents -/

/-- `User`, as far as these requests read it. -/
structure User where
  oid : String
  userId : String
  ern : String
  email : String
  accountId : String
  region : String
  loginEnabled : Bool
  federatedProvider : String
  federatedSubject : String
  deriving DecidableEq

structure UserGroup where
  oid : String
  name : String
  ern : String
  accountId : String
  region : String
  description : String
  userIds : List String
  deriving DecidableEq

/-- The collections, and how many documents were ever inserted. -/
structure State where
  users : List User
  groups : List UserGroup
  grants : List Grant
  inserted : ℕ
  deriving DecidableEq

def State.empty : State := ⟨[], [], [], 0⟩

/-- The configured region, and the identities that the store gives documents. -/
structure Env where
  region : String
  oid : ℕ → String
  oid_injective : Function.Injective oid

/-- `createErn`, for a resource of an account. -/
def createErn (env : Env) (service accountId resourceId : String) : String :=
  "ern:" ++ service ++ ":" ++ env.region ++ ":" ++ accountId ++ ":" ++ resourceId

def createEamUserErn (env : Env) (accountId name : String) : String :=
  createErn env "eam" accountId ("user:" ++ name)

def createEamUserGroupErn (env : Env) (accountId name : String) : String :=
  createErn env "eam" accountId ("userGroup:" ++ name)

def administratorGroup : String := "administrator"

def accountAdministrator : String := "account-administrator"

/-- `kSystemPrincipal`: the subject whose requests the gate lets through. -/
def systemPrincipal : String := "system"

/-! ### Statements -/

namespace State

def findUserByUserId (state : State) (userId : String) : Option User :=
  state.users.find? fun user => user.userId = userId

def findUserByErn (state : State) (ern : String) : Option User :=
  state.users.find? fun user => user.ern = ern

def findUserByFederatedSubject (state : State) (provider subject : String) : Option User :=
  if provider = "" ∨ subject = "" then none
  else state.users.find? fun user =>
    user.federatedProvider = provider ∧ user.federatedSubject = subject

def findUserGroupByName (state : State) (name : String) : Option UserGroup :=
  state.groups.find? fun group => group.name = name

def findUserGroupByErn (state : State) (ern : String) : Option UserGroup :=
  state.groups.find? fun group => group.ern = ern

def isErn (text : String) : Bool := "ern:".toList.isPrefixOf text.toList

section

variable (state : State)

/-- `findUserGroup`: by its resource name or its name. -/
def findUserGroup (nameOrErn : String) : Option UserGroup :=
  if isErn nameOrErn then state.findUserGroupByErn nameOrErn
    else state.findUserGroupByName nameOrErn

/-- `findUser`: by its resource name or its id. -/
def findUser (userIdOrErn : String) : Option User :=
  if isErn userIdOrErn then state.findUserByErn userIdOrErn else state.findUserByUserId userIdOrErn

def isEamAdmin (userId : String) : Bool :=
  (state.findUserGroupByName administratorGroup).any fun group => userId ∈ group.userIds

def principalsOf (user : User) : List String :=
  user.ern :: (state.groups.filter fun group => user.userId ∈ group.userIds).map (·.ern)

def grantsOf (user : User) : List Grant :=
  findGrantsByPrincipals (state.principalsOf user) state.grants

def isAccountAdmin (user : User) (accountId : String) : Bool :=
  state.isEamAdmin user.userId || (state.grantsOf user).any fun grant =>
      grant.role = accountAdministrator ∧ grant.accountId = accountId

def emailTaken (user : User) : Bool :=
  state.users.any fun other => other.userId ≠ user.userId ∧ other.email = user.email

end

/-- `upsertUser`: nothing where the unique index on the address refuses it. -/
def upsertUser (env : Env) (state : State) (user : User) : Option (User × State) :=
  if state.emailTaken user then none
  else
    match state.findUserByUserId user.userId with
    | some old =>
      let saved := { user with oid := old.oid }
      some (saved, { state with
        users :=
          updateFirst (fun stored => stored.userId = user.userId) (fun _ => saved) state.users })
    | none =>
      let saved := { user with oid := env.oid state.inserted }
      some (saved, { state with
        users := state.users ++ [saved]
        inserted := state.inserted + 1 })

def upsertUserGroup (env : Env) (state : State) (group : UserGroup) : UserGroup × State :=
  match state.findUserGroupByName group.name with
  | some old =>
    let saved := { group with oid := old.oid }
    (saved, { state with
      groups :=
        updateFirst (fun stored => stored.name = group.name) (fun _ => saved) state.groups })
  | none =>
    let saved := { group with oid := env.oid state.inserted }
    (saved, { state with
      groups := state.groups ++ [saved]
      inserted := state.inserted + 1 })

def addGrant (env : Env) (state : State) (grant : Grant) : Grant × State :=
  let saved := { grant with oid := env.oid state.inserted }
  (saved, { state with
    grants := state.grants ++ [saved]
    inserted := state.inserted + 1 })

def renamed (userId ern : String) (user : User) : User := { user with userId := userId, ern := ern }

/-- A grant of a principal whose resource name has changed. -/
def moved (oldErn newErn : String) (grant : Grant) : Grant :=
  if grant.principal = oldErn then { grant with principal := newErn } else grant

/-- A group whose first entry of an id is another. -/
def rewritten (userId newUserId : String) (group : UserGroup) : UserGroup :=
  { group with userIds := updateFirst (fun mem => mem = userId) (fun _ => newUserId) group.userIds }

/-- `renameUser`, of a user who is there, to an id that nobody has. -/
def renameUser (env : Env) (state : State) (existing : User) (newUserId : String) : User × State :=
  let newErn := createEamUserErn env existing.accountId newUserId
  (renamed newUserId newErn existing, { state with
    users := updateFirst (fun stored => stored.userId = existing.userId) (renamed newUserId newErn)
      state.users
    grants := state.grants.map (moved existing.ern newErn)
    groups := state.groups.map (rewritten existing.userId newUserId) })

end State

/-! ### Requests -/

structure RegisterRequest where
  userId : String
  password : String
  email : String
  accountId : String
  region : String
  isAdmin : Bool

/-- `FederatedIdentity`, as far as it is read to find its user. -/
structure FederatedIdentity where
  provider : String
  subject : String
  userId : String
  email : String

structure ProvisioningPolicy where
  jitProvisioning : Bool
  linkExistingUsers : Bool
  accountId : String

structure GrantRoleRequest where
  role : String
  principal : String
  accountId : String
  namespaces : List String
  resources : List String

/-- What is asked. A rename is refused for what applications run as, and a grant for a role that is
neither stored nor built in: both are read from other collections. -/
inductive Req where
  | register (request : RegisterRequest)
  | federatedLogin (identity : FederatedIdentity) (policy : ProvisioningPolicy)
  | changeUserId (userId newUserId : String) (applications : List (String × String))
  | deleteUser (userId : String)
  | createUserGroup (name description : String)
  | deleteUserGroup (name : String)
  | userGroupAddUser (userGroup user : String)
  | userGroupRemoveUser (userGroup user : String)
  | grantRole (request : GrantRoleRequest) (roleExists : String → String → Bool)
  | revokeRole (grantId : String)

/-- A request with its verified subject, if any, and the time. -/
structure Asked where
  subject : Option String
  now : Int
  request : Req

inductive Status where
  | badRequest
  | unauthorized
  | forbidden
  | notFound
  | conflict
  | internalServerError

abbrev Refusal := Status × String

/-- What a request that is carried out is answered. -/
inductive Answer where
  | user (user : User)
  | group (group : UserGroup)
  | grant (grant : Grant)
  | done

def refuseIf (condition : Prop) [Decidable condition] (status : Status) (msg : String) :
    Except Refusal Unit :=
  if condition then .error (status, msg) else .ok ()

def orRefuse {Value : Type} (value : Option Value) (status : Status) (msg : String) :
    Except Refusal Value :=
  match value with
  | some value => .ok value
  | none => .error (status, msg)

/-- `authenticate`, and an administrator. -/
def administrator (state : State) (subject : Option String) : Except Refusal User := do
  let user ← orRefuse (subject.bind state.findUserByUserId) .unauthorized
    "Missing or invalid bearer token"
  refuseIf (¬state.isEamAdmin user.userId) .forbidden "Administrator privileges required"
  pure user

/-- What the store raises when a unique index refuses a document. -/
def duplicateKey : Refusal := (.internalServerError, "E11000 duplicate key error")

/-! ### Creating users -/

/-- Nobody has to be asked as long as there is nobody. -/
def mayRegister (state : State) (subject : Option String) : Except Refusal Unit :=
  if state.users.isEmpty then .ok () else (administrator state subject).map fun _ => ()

/-- What `handleRegister` stores, or why it does not. -/
def registering (env : Env) (state : State) (subject : Option String)
    (request : RegisterRequest) : Except Refusal User := do
  mayRegister state subject
  refuseIf (request.userId = "" ∨ request.password = "") .badRequest
    "userId and password are required"
  refuseIf ((state.findUserByUserId request.userId).isSome) .conflict "User already exists"
  pure
    { oid := ""
      userId := request.userId
      ern := createEamUserErn env request.accountId request.userId
      email := request.email
      accountId := request.accountId
      region := request.region
      loginEnabled := true
      federatedProvider := ""
      federatedSubject := "" }

/-- The administrator group that is created on first use. -/
def newAdministrators (env : Env) (saved : User) : UserGroup where
  oid := ""
  name := administratorGroup
  ern := createEamUserGroupErn env saved.accountId administratorGroup
  accountId := saved.accountId
  region := saved.region
  description := "Euclid administrators group"
  userIds := []

def UserGroup.including (group : UserGroup) (userId : String) : UserGroup :=
  if userId ∈ group.userIds then group else { group with userIds := group.userIds ++ [userId] }

/-- The administrator group, with a new member. -/
def administratorsWith (env : Env) (state : State) (saved : User) : UserGroup :=
  ((state.findUserGroupByName administratorGroup).getD
    (newAdministrators env saved)).including saved.userId

/-- The first user is an administrator, and whoever an administrator asks for. -/
def grantsAdmin (state : State) (request : RegisterRequest) : Bool :=
  state.users.isEmpty || request.isAdmin

def handleRegister (env : Env) (state : State) (subject : Option String)
    (request : RegisterRequest) : Except Refusal (Answer × State) := do
  let user ← registering env state subject request
  match state.upsertUser env user with
  | none => .error duplicateKey
  | some (saved, after) =>
    if grantsAdmin state request then
      pure (.user saved, (after.upsertUserGroup env (administratorsWith env after saved)).2)
    else pure (.user saved, after)

/-- The user that a federated identity is created as. -/
def provisioned (env : Env) (identity : FederatedIdentity)
    (policy : ProvisioningPolicy) : User where
  oid := ""
  userId := identity.userId
  ern := createEamUserErn env policy.accountId identity.userId
  email := identity.email
  accountId := policy.accountId
  region := env.region
  loginEnabled := false
  federatedProvider := identity.provider
  federatedSubject := identity.subject

/-- A user with another address, where one is given. -/
def User.reachedAt (user : User) (email : String) : User :=
  if email = "" then user else { user with email := email }

/-- What `resolveFederatedUser` stores, if anything, and the user it finds. -/
inductive Resolved where
  | known (user : User)
  | stored (user : User)

section

variable (env : Env) (state : State) (identity : FederatedIdentity) (policy : ProvisioningPolicy)

/-- `resolveFederatedUser`, up to what it stores. -/
def resolving : Except Refusal Resolved :=
  match state.findUserByFederatedSubject identity.provider identity.subject with
  | some existing =>
    if identity.email ≠ "" ∧ existing.email ≠ identity.email then
      .ok (.stored (existing.reachedAt identity.email))
    else .ok (.known existing)
  | none =>
    match state.findUserByUserId identity.userId with
    | some sameName =>
      if policy.linkExistingUsers then
        .ok (.stored (({ sameName with
          federatedProvider := identity.provider
          federatedSubject := identity.subject } : User).reachedAt identity.email))
      else .error (.forbidden, "A euclid user '" ++ identity.userId ++
        "' already exists and is not linked to this identity provider")
    | none =>
      if policy.jitProvisioning then .ok (.stored (provisioned env identity policy))
      else .error (.forbidden, "No euclid user for this identity, and jit-provisioning is off")

/-- `resolveFederatedUser`. What is stored of a session changes nothing of what is read here. -/
def resolveFederatedUser : Except Refusal (Answer × State) := do
  match ← resolving env state identity policy with
  | .known user => pure (.user user, state)
  | .stored user =>
    match state.upsertUser env user with
    | none => .error duplicateKey
    | some (saved, after) => pure (.user saved, after)

end

/-! ### Renaming and removing users -/

/-- The user that `handleChangeUserId` renames, or why it does not. -/
def renamable (state : State) (subject : Option String) (userId newUserId : String)
    (applications : List (String × String)) : Except Refusal User := do
  let _ ← administrator state subject
  refuseIf (userId = "") .badRequest "userId is required"
  refuseIf (newUserId = "") .badRequest "newUserId is required"
  refuseIf (userId = newUserId) .badRequest ("newUserId is the id the user already has: " ++ userId)
  let existing ← orRefuse (state.findUserByUserId userId) .notFound
    ("User not found, userId: " ++ userId)
  refuseIf ((state.findUserByUserId newUserId).isSome) .conflict
    ("User already exists, userId: " ++ newUserId)
  match applications.find? fun application => application.2 = userId with
  | some application =>
    .error (.conflict, "User '" ++ userId ++ "' is the identity application '" ++
      application.1 ++
        "' runs as. Point it at another user with 'eap update-application --user' " ++
      "first, or the application would keep running and be refused everything it calls.")
  | none => pure existing

def handleChangeUserId (env : Env) (state : State) (subject : Option String)
    (userId newUserId : String) (applications : List (String × String)) :
    Except Refusal (Answer × State) := do
  let existing ← renamable state subject userId newUserId applications
  let (saved, after) := state.renameUser env existing newUserId
  pure (.user saved, after)

def handleDeleteUser (state : State) (subject : Option String) (userId : String) :
    Except Refusal (Answer × State) := do
  let _ ← administrator state subject
  refuseIf (userId = "") .badRequest "userId is required"
  refuseIf ((state.findUserByUserId userId).isNone) .notFound "User not found"
  pure (.done, { state with users := state.users.filter fun user => user.userId ≠ userId })

/-! ### Groups -/

section

variable (env : Env) (state : State) (subject : Option String) (name description : String)

/-- What `handleCreateUserGroup` stores, or why it does not. -/
def grouping : Except Refusal UserGroup := do
  let user ← administrator state subject
  refuseIf (name = "") .badRequest "name is required"
  refuseIf ((state.findUserGroupByName name).isSome) .conflict "User group already exists"
  pure
    { oid := ""
      name := name
      ern := createEamUserGroupErn env user.accountId name
      accountId := user.accountId
      region := user.region
      description := description
      userIds := [] }

def handleCreateUserGroup : Except Refusal (Answer × State) := do
  let group ← grouping env state subject name description
  let (saved, after) := state.upsertUserGroup env group
  pure (.group saved, after)

end

def handleDeleteUserGroup (state : State) (subject : Option String) (name : String) :
    Except Refusal (Answer × State) := do
  let _ ← administrator state subject
  refuseIf (name = "") .badRequest "name is required"
  refuseIf ((state.findUserGroupByName name).isNone) .conflict "User group does not exist"
  pure (.done, { state with groups := state.groups.filter fun group => group.name ≠ name })

/-- The group and the user that a membership is about, or why there is none. -/
def membership (state : State) (subject : Option String) (userGroup user : String) :
    Except Refusal (UserGroup × User) := do
  let _ ← administrator state subject
  refuseIf (userGroup = "") .badRequest "user group name or ERN is required"
  refuseIf (user = "") .badRequest "user id or ERN is required"
  let group ← orRefuse (state.findUserGroup userGroup) .notFound
    ("No user group '" ++ userGroup ++ "'")
  let mem ← orRefuse (state.findUser user) .notFound ("No user '" ++ user ++ "'")
  pure (group, mem)

section

variable (env : Env) (state : State) (subject : Option String) (userGroup user : String)

def handleUserGroupAddUser : Except Refusal (Answer × State) := do
  let (group, mem) ← membership state subject userGroup user
  refuseIf (mem.userId ∈ group.userIds) .conflict "User already member of user group"
  pure (.done, (state.upsertUserGroup env
    { group with userIds := group.userIds ++ [mem.userId] }).2)

def handleUserGroupRemoveUser : Except Refusal (Answer × State) := do
  let (group, mem) ← membership state subject userGroup user
  pure (.done, (state.upsertUserGroup env
    { group with userIds := group.userIds.filter fun other => other ≠ mem.userId }).2)

end

/-! ### Grants -/

/-- The account that a grant is for: the caller's own unless another is named. -/
def grantAccount (request : GrantRoleRequest) (user : User) : String :=
  if request.accountId = "" then user.accountId else request.accountId

/-- What `handleGrantRole` stores, or why it does not. -/
def granting (state : State) (subject : Option String) (now : Int) (request : GrantRoleRequest)
    (roleExists : String → String → Bool) : Except Refusal Grant := do
  let user ← administrator state subject
  refuseIf (request.role = "" ∨ request.principal = "") .badRequest
    "role and principal are required"
  refuseIf (request.namespaces = []) .badRequest
    "namespaces is required; use [\"*\"] for every namespace of the account"
  let accountId := grantAccount request user
  refuseIf (accountId ≠ user.accountId ∧ ¬state.isAccountAdmin user accountId) .forbidden
    ("Not an administrator of account " ++ accountId)
  refuseIf (¬roleExists accountId request.role) .notFound ("Role not found, name: " ++ request.role)
  refuseIf ((state.findUserByErn request.principal).isNone ∧
      (state.findUserGroupByErn request.principal).isNone) .notFound
    ("No user or user group with ERN " ++ request.principal)
  pure
    { oid := ""
      role := request.role
      principal := request.principal
      accountId := accountId
      namespaces := request.namespaces
      resources := request.resources
      granted := now
      grantedBy := user.userId }

def handleGrantRole (env : Env) (state : State) (subject : Option String) (now : Int)
    (request : GrantRoleRequest) (roleExists : String → String → Bool) :
    Except Refusal (Answer × State) := do
  let grant ← granting state subject now request roleExists
  let (saved, after) := state.addGrant env grant
  pure (.grant saved, after)

def handleRevokeRole (state : State) (subject : Option String) (grantId : String) :
    Except Refusal (Answer × State) := do
  let _ ← administrator state subject
  refuseIf (grantId = "") .badRequest "grantId is required - see list-grants"
  pure (.done, { state with grants := state.grants.filter fun grant => grant.oid ≠ grantId })

/-! ### Runs -/

/-- One request: what it is answered, and the collections afterwards. -/
def handle (env : Env) (state : State) (asked : Asked) : Except Refusal (Answer × State) :=
  match asked.request with
  | .register request => handleRegister env state asked.subject request
  | .federatedLogin identity policy => resolveFederatedUser env state identity policy
  | .changeUserId userId newUserId applications =>
    handleChangeUserId env state asked.subject userId newUserId applications
  | .deleteUser userId => handleDeleteUser state asked.subject userId
  | .createUserGroup name description =>
    handleCreateUserGroup env state asked.subject name description
  | .deleteUserGroup name => handleDeleteUserGroup state asked.subject name
  | .userGroupAddUser userGroup user =>
    handleUserGroupAddUser env state asked.subject userGroup user
  | .userGroupRemoveUser userGroup user =>
    handleUserGroupRemoveUser env state asked.subject userGroup user
  | .grantRole request roleExists =>
    handleGrantRole env state asked.subject asked.now request roleExists
  | .revokeRole grantId => handleRevokeRole state asked.subject grantId

end Euclid.Eam
