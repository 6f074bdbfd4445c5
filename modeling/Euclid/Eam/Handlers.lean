/-
This file translates the handlers of `EamServer` that log users in, change them, put them into
groups and create them, as programs over the collections.

A handler reads a whole document and writes the whole of it back. Who makes a request is what its
token or signature says, if anything, and a federated identity is what its provider says.
-/

import Euclid.Eam.Store

namespace Euclid.Eam.Store

open Program

/-! ### Answers -/

/-- What a handler that carries a request out answers. -/
inductive Outcome where
  | session (userId accessKeyId : String)
  | accessKey (accessKeyId : String)
  | done

abbrev Response := Except Refusal Outcome

def missingToken : Refusal := (.unauthorized, "Missing or invalid bearer token")

def authenticate : Option String → Op (Option UserDocument)
  | none => .done none
  | some subject => findUserByUserId subject

/-- `authenticate`, and an administrator. -/
def administrator (subject : Option String) : Op (Except Refusal UserDocument) := do
  match ← authenticate subject with
  | none => return .error missingToken
  | some user =>
    match ← isEamAdmin user.userId with
    | true => return .ok user
    | false => return .error (.forbidden, "Administrator privileges required")

/-! ### Sessions -/

def kSessionTtl : Int := 3600000000000

def UserDocument.withKey (user : UserDocument) (key : AccessKey) : UserDocument :=
  { user with accessKeys := user.accessKeys ++ [key] }

/-- A user with one more session, and none that has expired. -/
def UserDocument.withSession (user : UserDocument) (now : Int) (session : Session) : UserDocument :=
  { user with sessions := user.sessions.filter (fun old => ¬old.expiresAt < now) ++ [session] }

/-- The active access key of a user, and the user with a new one where there is none. -/
def activeKey (env : Env) (user : UserDocument) : Op (AccessKey × UserDocument) :=
  match user.accessKeys.find? (·.active) with
  | some key => .done (key, user)
  | none => do
    let key := env.accessKey (← issue Statement.consult)
    return (key, user.withKey key)

def issueSession (env : Env) (user : UserDocument) : Op Response := do
  let (key, updated) ← activeKey env user
  let now ← readClock env
  let later ← readClock env
  let _ ← upsertUser (updated.withSession now ⟨now, later + kSessionTtl⟩)
  return .ok (.session user.userId key.accessKeyId)

def invalidCredentials : Refusal := (.unauthorized, "Invalid credentials")

def handleLogin (env : Env) (userId email password : String) : Op Response := do
  match ← (if userId ≠ "" then findUserByUserId userId else findUserByEmail email) with
  | none => return .error invalidCredentials
  | some user =>
    if env.verify password user.password ∧ user.loginEnabled then
      issueSession env user
    else return .error invalidCredentials

def handleRefreshSession (env : Env) (subject : Option String) : Op Response := do
  match ← authenticate subject with
  | none => return .error missingToken
  | some user => issueSession env user

/-! ### Federated logins -/

/-- A user of another address, where one is given. -/
def UserDocument.reachedAt (user : UserDocument) (email : String) : UserDocument :=
  { user with toUser := user.toUser.reachedAt email }

/-- A user who comes from a provider from now on. -/
def UserDocument.linked (user : UserDocument) (provider subject : String) : UserDocument :=
  { user with
    federatedProvider := provider
    federatedSubject := subject }

section

variable (env : Env) (identity : FederatedIdentity)

/-- The user that a federated identity is created as. -/
def provisionedAs (policy : ProvisioningPolicy) : UserDocument :=
  { provisioned env.toEnv identity policy with
    password := ""
    accessKeys := []
    sessions := []
    seenAssertions := [] }

def resolveFederatedUser (policy : ProvisioningPolicy) : Op (Except Refusal UserDocument) := do
  match ← findUserByFederatedSubject identity.provider identity.subject with
  | some existing =>
    if identity.email ≠ "" ∧ existing.email ≠ identity.email then
      let _ ← upsertUser (existing.reachedAt identity.email)
      return .ok (existing.reachedAt identity.email)
    else return .ok existing
  | none =>
    match ← findUserByUserId identity.userId with
    | some sameName =>
      if policy.linkExistingUsers then
        let linked := (sameName.linked identity.provider identity.subject).reachedAt identity.email
        let _ ← upsertUser linked
        return .ok linked
      else return .error (.forbidden, "A euclid user '" ++ identity.userId ++
        "' already exists and is not linked to this identity provider")
    | none =>
      if policy.jitProvisioning then
        return .ok (← upsertUser (provisionedAs env identity policy))
      else
        return .error (.forbidden, "No euclid user for this identity, and jit-provisioning is off")

/-- `handleOidcLogin`, of an identity that the provider has vouched for. -/
def handleOidcLogin : Op Response := do
  match ← resolveFederatedUser env identity env.oidc with
  | .error refusal => return .error refusal
  | .ok user => issueSession env user

end

/-- What a response says, as far as its signature verifies: an assertion, when it is valid, and what
is wrong with it apart from that. -/
structure Assertion where
  id : String
  identity : FederatedIdentity
  notBefore : Option Int
  notOnOrAfter : Option Int
  confirmations : List (Option Int)
  otherwise : Option String

/-- A limit has passed, as far as the clocks are trusted. -/
def HasPassed (skew now : Int) (limit : Option Int) : Prop := ∃ end' ∈ limit, end' ≤ now - skew

instance (skew now : Int) (limit : Option Int) : Decidable (HasPassed skew now limit) := by
  unfold HasPassed
  infer_instance

/-- What `SamlResponseVerifier::Verify` finds wrong with an assertion. -/
def Assertion.problem (assertion : Assertion) (skew now : Int) : Option String :=
  if ∃ start ∈ assertion.notBefore, now + skew < start then some "The assertion is not valid yet"
  else if HasPassed skew now assertion.notOnOrAfter then some "The assertion has expired"
  else if ∃ limit ∈ assertion.confirmations, HasPassed skew now limit then
    some "The assertion's subject confirmation has expired"
  else assertion.otherwise

/-- `assertionExpiresAt`, of an assertion that was verified at some time. -/
def Assertion.expiresAt (assertion : Assertion) (verified : Int) : Int :=
  assertion.notOnOrAfter.getD (verified + 600000000000)

def UserDocument.hasSeen (user : UserDocument) (assertionId : String) : Bool :=
  user.seenAssertions.any fun seen => seen.assertionId = assertionId

/-- A user who has used an assertion, and of those before remembers what has not expired. -/
def UserDocument.remembering (user : UserDocument) (now : Int) (seen : SeenAssertion) :
    UserDocument :=
  { user with
    seenAssertions := user.seenAssertions.filter (fun old => ¬old.expiresAt < now) ++ [seen] }

/-- `acceptAssertionOnce`, of an assertion that was verified at some time. -/
def acceptAssertionOnce (env : Env) (user : UserDocument) (assertion : Assertion)
    (verified : Int) : Op (Option UserDocument) :=
  if assertion.id = "" then .done (some user)
  else do
    let now ← readClock env
    if user.hasSeen assertion.id then return none
    else return some (user.remembering now ⟨assertion.id, assertion.expiresAt verified⟩)

/-- `handleSamlAcs`, of a response that its provider has signed. -/
def handleSamlAcs (env : Env) (assertion : Assertion) : Op Response := do
  let verified ← readClock env
  match assertion.problem env.clockSkew verified with
  | some problem => return .error (.unauthorized, "SAML login failed: " ++ problem)
  | none =>
    match ← resolveFederatedUser env assertion.identity env.saml with
    | .error refusal => return .error refusal
    | .ok user =>
      match ← acceptAssertionOnce env user assertion verified with
      | none =>
        return .error (.unauthorized, "SAML login failed: this assertion has already been used")
      | some accepted =>
        let _ ← upsertUser accepted
        issueSession env accepted

/-! ### Changes -/

def UserDocument.withPassword (user : UserDocument) (password : String) : UserDocument :=
  { user with password }

/-- Whose password is changed: their own, or another user's by an administrator. -/
def passwordOwner (subject : Option String) (userId : String) :
    Op (Except Refusal (UserDocument × Bool)) := do
  match ← authenticate subject with
  | none => return .error missingToken
  | some caller =>
    if userId = "" ∨ userId = caller.userId then return .ok (caller, true)
    else
      match ← isEamAdmin caller.userId with
      | false =>
        return .error
          (.forbidden, "Administrator privileges required to change another user's password")
      | true =>
        match ← findUserByUserId userId with
        | none => return .error (.notFound, "User not found, userId: " ++ userId)
        | some user => return .ok (user, false)

def handleChangePassword (env : Env) (subject : Option String)
    (userId oldPassword newPassword : String) : Op Response :=
  if newPassword = "" then do
    match ← authenticate subject with
    | none => return .error missingToken
    | some _ => return .error (.badRequest, "newPassword is required")
  else do
    match ← passwordOwner subject userId with
    | .error refusal => return .error refusal
    | .ok (user, own) =>
      if ¬user.loginEnabled then
        return .error (.conflict, "User does not log in with a password, userId: " ++ user.userId)
      else if own ∧ ¬env.verify oldPassword user.password then
        return .error (.forbidden, "The old password is not correct")
      else
        let salt ← issue Statement.consult
        let _ ← upsertUser (user.withPassword (env.hash salt newPassword))
        return .ok .done

/-- What is plainly an address: a name, one at sign, and a domain with a dot that does not end
it. -/
def isEmailAddress (email : String) : Bool :=
  let name := email.toList.takeWhile (· ≠ '@')
  let domain := (email.toList.dropWhile (· ≠ '@')).drop 1
  name ≠ [] ∧ domain ≠ [] ∧ '@' ∉ domain ∧ '.' ∈ domain ∧ email.toList.getLast? ≠ some '.' ∧
    email.toList.all fun character => character ∉ [' ', '\t', '\r', '\n']

def UserDocument.withEmail (user : UserDocument) (email : String) : UserDocument :=
  { user with email }

/-- The user whose address is changed, or why it is not. -/
def emailOwner (subject : Option String) (userId email : String) :
    Op (Except Refusal UserDocument) := do
  match ← administrator subject with
  | .error refusal => return .error refusal
  | .ok _ =>
    if userId = "" then return .error (.badRequest, "userId is required")
    else if email = "" then return .error (.badRequest, "email is required")
    else if ¬isEmailAddress email then
      return .error (.badRequest, "Not an email address: " ++ email)
    else
      match ← findUserByUserId userId with
      | none => return .error (.notFound, "User not found, userId: " ++ userId)
      | some user =>
        if user.email = email then
          return .error (.badRequest, "That is the address the user already has: " ++ email)
        else
          match ← findUserByEmail email with
          | some holder =>
            return .error (.conflict, "Email address already in use by user: " ++ holder.userId)
          | none => return .ok user

def handleChangeEmail (subject : Option String) (userId email : String) : Op Response := do
  match ← emailOwner subject userId email with
  | .error refusal => return .error refusal
  | .ok user =>
    (upsertUser (user.withEmail email) >>= fun _ => .done (.ok .done)).catching fun _ =>
      .done (.error (.conflict,
        "Email address could not be changed, it may have just been taken: " ++ email))

def handleCreateAccessKey (env : Env) (subject : Option String) : Op Response := do
  match ← authenticate subject with
  | none => return .error missingToken
  | some user =>
    let key := env.accessKey (← issue Statement.consult)
    let _ ← upsertUser (user.withKey key)
    return .ok (.accessKey key.accessKeyId)

def UserDocument.withoutKey (user : UserDocument) (accessKeyId : String) : UserDocument :=
  { user with accessKeys := user.accessKeys.filter fun key => key.accessKeyId ≠ accessKeyId }

def handleDeleteAccessKey (subject : Option String) (accessKeyId : String) : Op Response := do
  match ← authenticate subject with
  | none => return .error missingToken
  | some user =>
    if accessKeyId = "" then return .error (.badRequest, "accessKeyId is required")
    else if ∀ key ∈ user.accessKeys, key.accessKeyId ≠ accessKeyId then
      return .error (.notFound, "Access key not found")
    else
      let _ ← upsertUser (user.withoutKey accessKeyId)
      return .ok .done

def handleDeleteUser (subject : Option String) (userId : String) : Op Response := do
  match ← administrator subject with
  | .error refusal => return .error refusal
  | .ok _ =>
    if userId = "" then return .error (.badRequest, "userId is required")
    else
      match ← userExists userId with
      | false => return .error (.notFound, "User not found")
      | true =>
        deleteUser userId
        return .ok .done

/-! ### Groups -/

/-- `findUserGroup`: by its resource name or its name. -/
def findUserGroup (nameOrErn : String) : Op (Option UserGroup) :=
  if State.isErn nameOrErn then findUserGroupByErn nameOrErn else findUserGroupByName nameOrErn

/-- `findUser`: by its resource name or its id. -/
def findUser (userIdOrErn : String) : Op (Option UserDocument) :=
  if State.isErn userIdOrErn then findUserByErn userIdOrErn else findUserByUserId userIdOrErn

/-- The group and the user that a membership is about, or why there is none. -/
def membership (subject : Option String) (userGroup user : String) :
    Op (Except Refusal (UserGroup × UserDocument)) := do
  match ← administrator subject with
  | .error refusal => return .error refusal
  | .ok _ =>
    if userGroup = "" then return .error (.badRequest, "user group name or ERN is required")
    else if user = "" then return .error (.badRequest, "user id or ERN is required")
    else
      match ← findUserGroup userGroup with
      | none => return .error (.notFound, "No user group '" ++ userGroup ++ "'")
      | some group =>
        match ← findUser user with
        | none => return .error (.notFound, "No user '" ++ user ++ "'")
        | some mem => return .ok (group, mem)

def withMember (group : UserGroup) (userId : String) : UserGroup :=
  { group with userIds := group.userIds ++ [userId] }

def withoutMember (group : UserGroup) (userId : String) : UserGroup :=
  { group with userIds := group.userIds.filter fun mem => mem ≠ userId }

def handleUserGroupAddUser (subject : Option String) (userGroup user : String) : Op Response := do
  match ← membership subject userGroup user with
  | .error refusal => return .error refusal
  | .ok (group, mem) =>
    if mem.userId ∈ group.userIds then
      return .error (.conflict, "User already member of user group")
    else
      let _ ← upsertUserGroup (withMember group mem.userId)
      return .ok .done

def handleUserGroupRemoveUser (subject : Option String) (userGroup user : String) :
    Op Response := do
  match ← membership subject userGroup user with
  | .error refusal => return .error refusal
  | .ok (group, mem) =>
    let _ ← upsertUserGroup (withoutMember group mem.userId)
    return .ok .done

/-! ### Registration -/

/-- The user that a registration creates. -/
def registeredAs (env : Env) (salt : ℕ) (req : RegisterRequest) : UserDocument where
  oid := ""
  userId := req.userId
  ern := createEamUserErn env.toEnv req.accountId req.userId
  email := req.email
  accountId := req.accountId
  region := req.region
  loginEnabled := true
  federatedProvider := ""
  federatedSubject := ""
  password := env.hash salt req.password
  accessKeys := []
  sessions := []
  seenAssertions := []

/-- Whether a registration comes in without a credential, or why it does not come in. -/
def admitted (subject : Option String) : Op (Except Refusal Bool) := do
  let count ← countUsers
  if count ≤ 0 then return .ok true
  else
    match ← administrator subject with
    | .error refusal => return .error refusal
    | .ok _ => return .ok false

def joinAdministrators (env : Env) (saved : UserDocument) : Op Unit := do
  let group ← findUserGroupByName administratorGroup
  let _ ← upsertUserGroup ((group.getD
    (newAdministrators env.toEnv saved.toUser)).including saved.userId)
  return ()

/-- What a registration that is let in does. -/
def createUser (env : Env) (bootstrap : Bool) (req : RegisterRequest) : Op Response :=
  if req.userId = "" ∨ req.password = "" then
    .done (.error (.badRequest, "userId and password are required"))
  else do
    match ← userExists req.userId with
    | true => return .error (.conflict, "User already exists")
    | false =>
      let salt ← issue Statement.consult
      let saved ← upsertUser (registeredAs env salt req)
      if bootstrap ∨ req.isAdmin then
        joinAdministrators env saved
        return .ok .done
      else return .ok .done

def handleRegister (env : Env) (subject : Option String) (req : RegisterRequest) : Op Response := do
  match ← admitted subject with
  | .error refusal => return .error refusal
  | .ok bootstrap => createUser env bootstrap req

/-! ### One request at a time -/

/-- The users and groups of a directory are those of the collections. -/
structure World.Shows (world : World) (state : State) : Prop where
  users : state.users = world.users.map UserDocument.toUser
  groups : state.groups = world.groups

section Alone

variable {env : Env} {Thread : Type} {tid : Thread} {world : World} {state : State}
  {subject : Option String}

/-- The statement is carried out. -/
abbrev Calm (env : Env) (_ : Statement) (world : World) : Prop :=
  env.fate world.moment = .carriedOut

theorem ensures_perform {stmt : Statement}
    {post : Except StoreError stmt.Answer → World → Prop}
    (performs : post (.ok (stmt.perform env world).1) (stmt.perform env world).2.next) :
    (issue stmt : Op stmt.Answer).Ensures (machine env tid) (Calm env) world post := by
  rw [ensures_issue]
  intro calm
  unfold machine
  rw [calm]
  exact performs

theorem find?_toUser (shows : world.Shows state) {wanted : User → Bool} {lookup : UserLookup}
    (same : ∀ user : UserDocument, wanted user.toUser = lookup.selects user) :
    (world.findUser lookup).map UserDocument.toUser = state.users.find? wanted := by
  rw [shows.users, List.find?_map]
  exact congrArg (Option.map _)
    (congrArg (world.users.find? ·) (funext fun user => (same user).symm))

variable (shows : world.Shows state)

include shows

theorem findUserByUserId_alone (userId : String) :
    (findUserByUserId userId).Ensures (machine env tid) (Calm env) world fun outcome after =>
      ∃ found, outcome = .ok found ∧
        found.map UserDocument.toUser = state.findUserByUserId userId ∧ after.Shows state := by
  unfold findUserByUserId
  rw [ensures_bind]
  refine ensures_perform ?_
  exact ⟨_, rfl, find?_toUser shows fun _ => rfl, shows.users, shows.groups⟩

theorem findUser_alone (userIdOrErn : String) :
    (findUser userIdOrErn).Ensures (machine env tid) (Calm env) world fun outcome after =>
      ∃ found, outcome = .ok found ∧
        found.map UserDocument.toUser = state.findUser userIdOrErn ∧ after.Shows state := by
  unfold findUser State.findUser
  split
  · unfold findUserByErn
    rw [ensures_bind]
    refine ensures_perform ?_
    exact ⟨_, rfl, find?_toUser shows fun _ => rfl, shows.users, shows.groups⟩
  · exact findUserByUserId_alone shows userIdOrErn

theorem findUserGroup_alone (nameOrErn : String) :
    (findUserGroup nameOrErn).Ensures (machine env tid) (Calm env) world fun outcome after =>
      outcome = .ok (state.findUserGroup nameOrErn) ∧ after.Shows state := by
  unfold findUserGroup State.findUserGroup
  split
  · unfold findUserGroupByErn State.findUserGroupByErn
    rw [ensures_bind, shows.groups]
    exact ensures_perform ⟨rfl, shows.users, shows.groups⟩
  · unfold findUserGroupByName State.findUserGroupByName
    rw [ensures_bind, shows.groups]
    exact ensures_perform ⟨rfl, shows.users, shows.groups⟩

theorem isEamAdmin_alone (userId : String) :
    (isEamAdmin userId).Ensures (machine env tid) (Calm env) world fun outcome after =>
      outcome = .ok (state.isEamAdmin userId) ∧ after.Shows state := by
  unfold isEamAdmin findUserGroupByName State.isEamAdmin State.findUserGroupByName
  rw [ensures_bind, ensures_bind, shows.groups]
  exact ensures_perform ⟨rfl, shows.users, shows.groups⟩

theorem administrator_alone :
    (administrator subject).Ensures (machine env tid) (Calm env) world fun outcome after =>
      ∃ answer, outcome = .ok answer ∧
        answer.map UserDocument.toUser = Eam.administrator state subject ∧ after.Shows state := by
  cases subject with
  | none => exact ⟨_, rfl, rfl, shows⟩
  | some subject =>
    unfold administrator authenticate Eam.administrator
    rw [ensures_bind]
    refine (findUserByUserId_alone shows subject).mono fun outcome after found => ?_
    obtain ⟨found, rfl, same, shows⟩ := found
    rw [Option.bind_some, ← same]
    cases found with
    | none => exact ⟨_, rfl, rfl, shows⟩
    | some user =>
      dsimp only
      rw [ensures_bind]
      refine (isEamAdmin_alone shows user.userId).mono fun outcome after asked => ?_
      obtain ⟨rfl, shows⟩ := asked
      cases decided : state.isEamAdmin user.userId with
      | true | false =>
        refine ⟨_, rfl, ?_, shows⟩
        show _ = refuseIf (¬state.isEamAdmin user.userId) .forbidden
          "Administrator privileges required" >>= fun _ => .ok user.toUser
        rw [decided]
        rfl

omit shows in
theorem findUserGroup_named {nameOrErn : String} {group : UserGroup}
    (found : state.findUserGroup nameOrErn = some group) :
    (state.findUserGroupByName group.name).isSome := by
  have stored : group ∈ state.groups := by
    unfold State.findUserGroup at found
    split at found <;> exact List.mem_of_find?_eq_some found
  exact List.find?_isSome.mpr ⟨group, stored, decide_eq_true rfl⟩

theorem membership_alone (userGroup user : String) :
    (membership subject userGroup user).Ensures (machine env tid) (Calm env) world
      fun outcome after => ∃ answer, outcome = .ok answer ∧
        answer.map (fun found => (found.1, found.2.toUser)) =
          Eam.membership state subject userGroup user ∧
        (∀ found, answer = .ok found → (state.findUserGroupByName found.1.name).isSome) ∧
        after.Shows state := by
  unfold membership Eam.membership
  rw [ensures_bind]
  refine (administrator_alone shows).mono fun outcome after asked => ?_
  obtain ⟨answer, rfl, same, shows⟩ := asked
  rw [← same]
  cases answer with
  | error refusal => exact ⟨_, rfl, rfl, by rintro _ ⟨⟩, shows⟩
  | ok caller =>
    dsimp only
    by_cases unnamed : userGroup = ""
    · rw [if_pos unnamed]
      refine ⟨_, rfl, ?_, by rintro _ ⟨⟩, shows⟩
      rw [refuseIf, if_pos unnamed]
      rfl
    by_cases nobody : user = ""
    · rw [if_neg unnamed, if_pos nobody]
      refine ⟨_, rfl, ?_, by rintro _ ⟨⟩, shows⟩
      rw [refuseIf, refuseIf, if_neg unnamed, if_pos nobody]
      rfl
    rw [if_neg unnamed, if_neg nobody, refuseIf, refuseIf, if_neg unnamed, if_neg nobody,
      ensures_bind]
    refine (findUserGroup_alone shows userGroup).mono fun outcome after found => ?_
    obtain ⟨rfl, shows⟩ := found
    cases named : state.findUserGroup userGroup with
    | none => exact ⟨_, rfl, rfl, by rintro _ ⟨⟩, shows⟩
    | some group =>
      dsimp only
      rw [ensures_bind]
      refine (findUser_alone shows user).mono fun outcome after found => ?_
      obtain ⟨found, rfl, same, shows⟩ := found
      rw [← same]
      cases found with
      | none => exact ⟨_, rfl, rfl, by rintro _ ⟨⟩, shows⟩
      | some mem =>
        refine ⟨_, rfl, rfl, ?_, shows⟩
        rintro _ ⟨⟩
        exact findUserGroup_named named

/-- What a handler answers and leaves is what the request does to the directory. -/
def Matches (asked : Except Refusal (Answer × State)) (state : State)
    (outcome : Except StoreError Response) (after : World) : Prop :=
  match asked with
  | .error refusal => outcome = .ok (.error refusal) ∧ after.Shows state
  | .ok (_, next) => outcome = .ok (.ok .done) ∧ after.Shows next

theorem handleDeleteUser_alone (userId : String) :
    (handleDeleteUser subject userId).Ensures (machine env tid) (Calm env) world
      (Matches (Eam.handleDeleteUser state subject userId) state) := by
  unfold handleDeleteUser Eam.handleDeleteUser
  rw [ensures_bind]
  refine (administrator_alone shows).mono fun outcome after asked => ?_
  obtain ⟨answer, rfl, same, shows⟩ := asked
  rw [← same]
  cases answer with
  | error refusal => exact ⟨rfl, shows⟩
  | ok caller =>
    dsimp only
    by_cases unnamed : userId = ""
    · rw [if_pos unnamed, refuseIf, if_pos unnamed]
      exact ⟨rfl, shows⟩
    rw [if_neg unnamed, refuseIf, if_neg unnamed, ensures_bind]
    unfold userExists
    rw [ensures_bind]
    refine (findUserByUserId_alone shows userId).mono fun outcome after found => ?_
    obtain ⟨found, rfl, same, shows⟩ := found
    rw [← same]
    cases found with
    | none => exact ⟨rfl, shows⟩
    | some user =>
      show ((deleteUser userId >>= _ : Op Response)).Ensures _ _ _ _
      rw [ensures_bind]
      unfold deleteUser
      rw [ensures_bind]
      refine ensures_perform ⟨rfl, ?_, shows.groups⟩
      show state.users.filter _ = (after.users.filter _).map _
      rw [shows.users, List.filter_map]
      rfl

/-- A group that was found is written over the one of its name. -/
theorem upsertUserGroup_alone (group : UserGroup)
    (named : (state.findUserGroupByName group.name).isSome) :
    (upsertUserGroup group).Ensures (machine env tid) (Calm env) world fun outcome after =>
      (∃ saved, outcome = .ok saved) ∧ after.Shows (state.upsertUserGroup env.toEnv group).2 := by
  obtain ⟨old, found⟩ := Option.isSome_iff_exists.mp named
  unfold upsertUserGroup State.upsertUserGroup
  rw [ensures_bind, found]
  refine ensures_perform ?_
  have stored : world.findGroup (.name group.name) = some old := by
    rw [← found, State.findUserGroupByName, shows.groups]
    rfl
  have put : world.putGroup env group = ({ group with oid := old.oid }, { world with
      groups := Collection.updateFirst (GroupLookup.name group.name).selects
        (fun _ => { group with oid := old.oid }) world.groups }) := by
    unfold World.putGroup
    rw [stored]
  refine ⟨⟨_, rfl⟩, ?_⟩
  dsimp only [Statement.perform]
  rw [put]
  refine ⟨shows.users, ?_⟩
  dsimp only
  rw [shows.groups]
  rfl

theorem handleUserGroupAddUser_alone (userGroup user : String) :
    (handleUserGroupAddUser subject userGroup user).Ensures (machine env tid) (Calm env) world
      (Matches (Eam.handleUserGroupAddUser env.toEnv state subject userGroup user) state) := by
  unfold handleUserGroupAddUser Eam.handleUserGroupAddUser
  rw [ensures_bind]
  refine (membership_alone shows userGroup user).mono fun outcome after asked => ?_
  obtain ⟨answer, rfl, same, named, shows⟩ := asked
  rw [← same]
  cases answer with
  | error refusal => exact ⟨rfl, shows⟩
  | ok found =>
    show Program.Ensures _ _ (if found.2.userId ∈ found.1.userIds then _ else _) _
      (Matches (refuseIf (found.2.userId ∈ found.1.userIds) .conflict _ >>= _) _)
    by_cases already : found.2.userId ∈ found.1.userIds
    · rw [if_pos already, refuseIf, if_pos already]
      exact ⟨rfl, shows⟩
    · rw [if_neg already, refuseIf, if_neg already, ensures_bind]
      refine (upsertUserGroup_alone shows (withMember found.1 found.2.userId)
        (named found rfl)).mono fun outcome after stored => ?_
      obtain ⟨⟨saved, rfl⟩, shows⟩ := stored
      exact ⟨rfl, shows⟩

theorem handleUserGroupRemoveUser_alone (userGroup user : String) :
    (handleUserGroupRemoveUser subject userGroup user).Ensures (machine env tid) (Calm env) world
      (Matches (Eam.handleUserGroupRemoveUser env.toEnv state subject userGroup user) state) := by
  unfold handleUserGroupRemoveUser Eam.handleUserGroupRemoveUser
  rw [ensures_bind]
  refine (membership_alone shows userGroup user).mono fun outcome after asked => ?_
  obtain ⟨answer, rfl, same, named, shows⟩ := asked
  rw [← same]
  cases answer with
  | error refusal => exact ⟨rfl, shows⟩
  | ok found =>
    show Program.Ensures _ _ (upsertUserGroup (withoutMember found.1 found.2.userId) >>= _) _ _
    rw [ensures_bind]
    refine (upsertUserGroup_alone shows (withoutMember found.1 found.2.userId)
      (named found rfl)).mono fun outcome after stored => ?_
    obtain ⟨⟨saved, rfl⟩, shows⟩ := stored
    exact ⟨rfl, shows⟩

end Alone

/-! ### Requests -/

/-- A login, or a change of a user or a group. -/
inductive Call where
  | login (userId email password : String)
  | refreshSession (subject : Option String)
  | oidcLogin (identity : FederatedIdentity)
  | samlAcs (assertion : Assertion)
  | changePassword (subject : Option String) (userId oldPassword newPassword : String)
  | changeEmail (subject : Option String) (userId email : String)
  | createAccessKey (subject : Option String)
  | deleteAccessKey (subject : Option String) (accessKeyId : String)
  | deleteUser (subject : Option String) (userId : String)
  | userGroupAddUser (subject : Option String) (userGroup user : String)
  | userGroupRemoveUser (subject : Option String) (userGroup user : String)

def Call.program (env : Env) : Call → Op Response
  | .login userId email password => handleLogin env userId email password
  | .refreshSession subject => handleRefreshSession env subject
  | .oidcLogin identity => handleOidcLogin env identity
  | .samlAcs assertion => handleSamlAcs env assertion
  | .changePassword subject userId oldPassword newPassword =>
    handleChangePassword env subject userId oldPassword newPassword
  | .changeEmail subject userId email => handleChangeEmail subject userId email
  | .createAccessKey subject => handleCreateAccessKey env subject
  | .deleteAccessKey subject accessKeyId => handleDeleteAccessKey subject accessKeyId
  | .deleteUser subject userId => handleDeleteUser subject userId
  | .userGroupAddUser subject userGroup user => handleUserGroupAddUser subject userGroup user
  | .userGroupRemoveUser subject userGroup user => handleUserGroupRemoveUser subject userGroup user

/-- Every thread makes its request, one statement after the other as the schedule lets it. -/
def interleave {Thread : Type} [DecidableEq Thread] (env : Env) (world : World)
    (calls : Thread → Call) (schedule : List Thread) :
    Pool Thread Statement Statement.Answer StoreError Response World :=
  (Pool.start world fun tid => (calls tid).program env).run (machine env) schedule

end Euclid.Eam.Store
