/-
This file proves when no change to a user or a group is undone.

A ledger records what the requests that were carried out have made of each user and each group, one
after the other: a password, an address, access keys, members, a deletion. A request writes back the
whole of the document that it has read, with its own change. Where every write finds what its
request has read, apart from what the request changes anyway, an induction on the history shows that
the collections hold what the ledger says.
-/

import Mathlib.Data.Finset.Insert
import Mathlib.Data.Finset.Erase
import Euclid.Eam.Handlers

namespace Euclid.Eam.Store

namespace Updates

open Program Discipline List Function

variable {Thread : Type}

/-! ### What is recorded -/

structure Credentials where
  password : String
  email : String
  accessKeys : List AccessKey
  deriving DecidableEq

def credentials (user : UserDocument) : Credentials :=
  ⟨user.password, user.email, user.accessKeys⟩

/-- What the requests have made of each user and of the members of each group. -/
@[ext]
structure Ledger where
  users : String → Option Credentials
  groups : String → Option (Finset String)

def members (group : UserGroup) : Finset String := group.userIds.toFinset

/-- What the collections hold. -/
def ledgerOf (world : World) : Ledger where
  users userId := (world.findUser (.userId userId)).map credentials
  groups name := (world.findGroup (.name name)).map members

/-! ### What a request changes -/

def changesPassword : Call → Bool
  | .changePassword .. => true
  | _ => false

/-- The access keys that the request deletes. -/
def deletedKey : Call → Option String
  | .deleteAccessKey _ accessKeyId => some accessKeyId
  | _ => none

/-- The request changes the members of a group. -/
def changesMembers : Call → Bool
  | .userGroupAddUser .. => true
  | .userGroupRemoveUser .. => true
  | _ => false

def withoutKeys (deleted : Option String) (keys : List AccessKey) : List AccessKey :=
  match deleted with
  | some accessKeyId => keys.filter fun key => key.accessKeyId ≠ accessKeyId
  | none => keys

/-- What a request that has read a user and written it makes of the credentials. -/
def edited (call : Call) (read written stored : Credentials) : Credentials where
  password := if changesPassword call then written.password else stored.password
  email := if written.email ≠ read.email then written.email else stored.email
  accessKeys := withoutKeys (deletedKey call) stored.accessKeys ++
    written.accessKeys.drop (withoutKeys (deletedKey call) read.accessKeys).length

/-- What a request makes of the members of its group. -/
def regrouped (call : Call) (userId : String) (stored : Finset String) : Finset String :=
  match call with
  | .userGroupAddUser .. => insert userId stored
  | _ => stored.erase userId

/-- A request, and what it has read last, or written. -/
structure Copies where
  call : Call
  user : Option UserDocument
  group : Option UserGroup

section

variable (copies : Copies)

def Copies.seeing (found : Option UserDocument) : Copies :=
  { copies with user := found <|> copies.user }

def Copies.seeingGroup (found : Option UserGroup) : Copies :=
  { copies with group := found <|> copies.group }

def Copies.after : (stmt : Statement) → stmt.Answer → Copies
  | .findUser _, answer => copies.seeing (orNone answer)
  | .upsertUser user, _ => copies.seeing (some user)
  | .findGroup _, answer => copies.seeingGroup (orNone answer)
  | _, _ => copies

/-- What is recorded of a statement: a user is edited if it was read, and created otherwise. -/
def record (ledger : Ledger) : (stmt : Statement) → stmt.Answer → Ledger
  | .upsertUser written, .ok _ =>
    { ledger with
      users := Function.update ledger.users written.userId
        (match copies.user with
        | some read => (ledger.users written.userId).map
            (edited copies.call (credentials read) (credentials written))
        | none => some ((ledger.users written.userId).getD (credentials written))) }
  | .deleteUser userId, .ok _ => { ledger with users := Function.update ledger.users userId none }
  | .upsertGroup written, .ok _ =>
    { ledger with
      groups := Function.update ledger.groups written.name
        ((ledger.groups written.name).map
          (regrouped copies.call ((copies.user.map (·.userId)).getD ""))) }
  | _, _ => ledger

/-- What a request may write: the document that it has read, with its own change. -/
def Copies.MayWrite : Statement → Prop
  | .upsertUser written => ∀ read ∈ copies.user, written.userId = read.userId ∧
      (¬changesPassword copies.call → written.password = read.password) ∧
        withoutKeys (deletedKey copies.call) read.accessKeys <+: written.accessKeys
  | .upsertGroup written => changesMembers copies.call ∧ ∃ read ∈ copies.group,
      ∃ mem ∈ copies.user, written.name = read.name ∧
        members written = regrouped copies.call mem.userId (members read)
  | _ => True

end

/-- The discipline of changes. A session is the request of a thread and what it has read last. -/
def editing : Discipline Statement Statement.Answer Copies where
  allows := Copies.MayWrite
  expects := fun _ stmt answer =>
    match stmt, answer with
    | .upsertUser user, .ok saved => saved.userId = user.userId ∧
        credentials saved = credentials user
    | _, _ => True
  after := Copies.after

section Property

variable [DecidableEq Thread] (calls : Thread → Call)

/-- What the request of a thread has read last, after what has happened. -/
def copiesOf (past : Past Thread) (tid : Thread) : Copies :=
  editing.sessions (fun tid => ⟨calls tid, none, none⟩) past tid

/-- What the requests have made of what was there. -/
def recorded (start : Ledger) : Past Thread → Ledger
  | [] => start
  | event :: earlier =>
    record (copiesOf calls earlier event.thread) (recorded start earlier) event.request event.answer

/-- A user that is written is the one that was read, apart from what the request changes. -/
def UserIsCurrent (call : Call) (read written stored : Credentials) : Prop :=
  (¬changesPassword call → stored.password = read.password) ∧
    (written.email = read.email → stored.email = read.email) ∧
    withoutKeys (deletedKey call) stored.accessKeys = withoutKeys (deletedKey call) read.accessKeys

instance (call : Call) (read written stored : Credentials) :
    Decidable (UserIsCurrent call read written stored) := by
  unfold UserIsCurrent
  infer_instance

/-- A write finds what its request has read: the user, or that there is none, and the group apart
from the member in question. -/
def IsCurrent (earlier : Past Thread) (event : Happening Thread) : Prop :=
  match event.request with
  | .upsertUser written => ¬event.before.isTaken written →
    match (copiesOf calls earlier event.thread).user with
    | some read => ∃ stored ∈ event.before.findUser (.userId written.userId),
        UserIsCurrent (calls event.thread) (credentials read) (credentials written)
          (credentials stored)
    | none => event.before.findUser (.userId written.userId) = none
  | .upsertGroup written => ∃ stored ∈ event.before.findGroup (.name written.name),
      ∀ read ∈ (copiesOf calls earlier event.thread).group,
        ∀ mem ∈ (copiesOf calls earlier event.thread).user,
          (members stored).erase mem.userId = (members read).erase mem.userId
  | _ => True

instance (earlier : Past Thread) (event : Happening Thread) :
    Decidable (IsCurrent calls earlier event) := by
  unfold IsCurrent
  split
  · split <;> infer_instance
  · infer_instance
  · infer_instance

end Property

/-! ### What a request does -/

section Follows

variable {env : Env} {copies : Copies}

/-- Where an answer is given, this holds of it. -/
def Granted {Result : Type} (holds : Result → Prop) : Except Refusal Result → Prop
  | .ok result => holds result
  | .error _ => True

theorem lookup_follows {lookup : UserLookup} :
    (do return orNone (← issue (Statement.findUser lookup)) :
      Op (Option UserDocument)).Follows editing copies
        (Succeeding fun found reached => reached = copies.seeing found) :=
  ⟨trivial, fun _ _ => rfl⟩

theorem groupLookup_follows {lookup : GroupLookup} :
    (do return orNone (← issue (Statement.findGroup lookup)) :
      Op (Option UserGroup)).Follows editing copies
        (Succeeding fun found reached => reached = copies.seeingGroup found) :=
  ⟨trivial, fun _ _ => rfl⟩

theorem follows_then {First Second : Type} {first : Op First}
    {second : First → Op Second} {leads : First → Copies → Prop}
    (before : first.Follows editing copies (Succeeding leads))
    (after : ∀ result reached, leads result reached →
      (second result).Follows editing reached fun _ _ => True) :
    (first >>= second).Follows editing copies fun _ _ => True :=
  before.andThen after fun _ _ => trivial

theorem succeeds_then {First Second : Type} {first : Op First}
    {second : First → Op Second} {leads : First → Copies → Prop} {ends : Second → Copies → Prop}
    (before : first.Follows editing copies (Succeeding leads))
    (after : ∀ result reached, leads result reached →
      (second result).Follows editing reached (Succeeding ends)) :
    (first >>= second).Follows editing copies (Succeeding ends) :=
  before.andThen after fun _ _ => trivial

theorem authenticate_follows {subject : Option String} :
    (authenticate subject).Follows editing copies
      (Succeeding fun found reached => reached = copies.seeing found) := by
  cases subject with
  | none => rfl
  | some subject => exact lookup_follows

theorem isEamAdmin_follows {userId : String} :
    (isEamAdmin userId).Follows editing copies
      (Succeeding fun _ reached => ∃ group, reached = copies.seeingGroup group) :=
  ⟨trivial, fun _ _ => ⟨_, rfl⟩⟩

theorem administrator_follows (subject : Option String) :
    (administrator subject).Follows editing copies
      (Succeeding fun _ reached => reached.call = copies.call) := by
  refine succeeds_then authenticate_follows ?_
  rintro user _ rfl
  cases user with
  | none => rfl
  | some user =>
    refine succeeds_then isEamAdmin_follows ?_
    rintro isAdmin _ ⟨group, rfl⟩
    cases isAdmin <;> rfl

/-- The request holds a user, as far as credentials go. -/
def Copies.Holds (copies : Copies) (user : UserDocument) : Prop :=
  ∃ read ∈ copies.user, user.userId = read.userId ∧ credentials user = credentials read

variable {user : UserDocument}

theorem seeing_holds : (copies.seeing (some user)).Holds user :=
  ⟨user, rfl, rfl, rfl⟩

variable {user : UserDocument} {written : UserDocument}

theorem upsertUser_follows (holds : copies.Holds user) (id : written.userId = user.userId)
    (password : ¬changesPassword copies.call → written.password = user.password)
    (keys : withoutKeys (deletedKey copies.call) user.accessKeys <+: written.accessKeys) :
    (upsertUser written).Follows editing copies
      (Succeeding fun _ reached => reached = copies.seeing (some written)) := by
  obtain ⟨read, held, sameId, same⟩ := holds
  have samePassword : user.password = read.password := congrArg Credentials.password same
  have sameKeys : user.accessKeys = read.accessKeys := congrArg Credentials.accessKeys same
  refine ⟨fun other mem => ?_, fun answer _ => ?_⟩
  · obtain rfl := Option.some.inj (held.symm.trans mem)
    rw [← sameId, ← samePassword, ← sameKeys]
    exact ⟨id, password, keys⟩
  · cases answer with
    | error fault => trivial
    | ok saved => rfl

theorem activeKey_follows :
    (activeKey env user).Follows editing copies (Succeeding fun pair reached => reached = copies ∧
      (pair.2 = user ∨ ∃ key, pair.2 = user.withKey key)) := by
  unfold activeKey
  split
  · exact ⟨rfl, .inl rfl⟩
  · exact ⟨trivial, fun answer _ => ⟨rfl, .inr ⟨_, rfl⟩⟩⟩

theorem readClock_follows :
    (readClock env).Follows editing copies (Succeeding fun _ reached => reached = copies) :=
  ⟨trivial, fun _ _ => rfl⟩

theorem issueSession_follows (holds : copies.Holds user) (keeps : deletedKey copies.call = none) :
    (issueSession env user).Follows editing copies fun _ _ => True := by
  refine follows_then activeKey_follows ?_
  rintro ⟨key, updated⟩ _ ⟨rfl, either⟩
  refine follows_then readClock_follows ?_
  rintro now _ rfl
  refine follows_then readClock_follows ?_
  rintro later _ rfl
  refine follows_then (upsertUser_follows holds ?_ ?_ ?_) fun _ _ _ => trivial
  · rcases either with rfl | ⟨_, rfl⟩ <;> rfl
  · rcases either with rfl | ⟨_, rfl⟩ <;> exact fun _ => rfl
  · rw [keeps]
    rcases either with rfl | ⟨_, rfl⟩
    · exact prefix_rfl
    · exact prefix_append _ _

theorem handleLogin_follows {userId email password : String} :
    (handleLogin env userId email password).Follows editing
      ⟨.login userId email password, none, none⟩ fun _ _ => True := by
  have found_follows :
    (if userId ≠ "" then findUserByUserId userId else findUserByEmail email).Follows
      editing ⟨.login userId email password, none, none⟩ (Succeeding fun found reached =>
        reached = Copies.seeing ⟨.login userId email password, none, none⟩ found) := by
    split <;> exact lookup_follows
  refine follows_then found_follows ?_
  rintro found _ rfl
  cases found with
  | none => trivial
  | some user =>
    dsimp only
    split
    · exact issueSession_follows seeing_holds rfl
    · trivial

theorem handleRefreshSession_follows {subject : Option String} :
    (handleRefreshSession env subject).Follows editing
      ⟨.refreshSession subject, none, none⟩ fun _ _ => True := by
  refine follows_then authenticate_follows ?_
  rintro found _ rfl
  cases found with
  | none => trivial
  | some user => exact issueSession_follows seeing_holds rfl

theorem findUserByFederatedSubject_follows (provider subject : String) :
    (findUserByFederatedSubject provider subject).Follows editing copies
      (Succeeding fun found reached => reached = copies.seeing found) := by
  unfold findUserByFederatedSubject
  split
  · rfl
  · exact lookup_follows

/-- The user a federated login ends with is the one that is held. -/
def Resolved (copies : Copies) (result : Except Refusal UserDocument) (reached : Copies) : Prop :=
  Granted (fun user => reached.Holds user ∧ reached.call = copies.call) result

theorem written_follows (holds : copies.Holds user)
    (id : written.userId = user.userId) (password : written.password = user.password)
    (keys : written.accessKeys = user.accessKeys) (keeps : deletedKey copies.call = none) :
    (do
      let _ ← upsertUser written
      return .ok written : Op (Except Refusal UserDocument)).Follows editing copies
        (Succeeding (Resolved copies)) := by
  have prefixed : withoutKeys (deletedKey copies.call) user.accessKeys <+: written.accessKeys := by
    rw [keeps, keys]
    exact prefix_rfl
  refine succeeds_then (upsertUser_follows holds id (fun _ => password) prefixed) ?_
  rintro saved _ rfl
  exact ⟨seeing_holds, rfl⟩

theorem reachedAt_userId {email : String} : (user.reachedAt email).userId = user.userId := by
  unfold UserDocument.reachedAt User.reachedAt
  split <;> rfl

theorem resolveFederatedUser_follows (identity : FederatedIdentity) (policy : ProvisioningPolicy)
    (fresh : copies.user = none) (keeps : deletedKey copies.call = none) :
    (resolveFederatedUser env identity policy).Follows editing copies
      (Succeeding (Resolved copies)) := by
  refine succeeds_then (findUserByFederatedSubject_follows _ _) ?_
  rintro existing _ rfl
  cases existing with
  | some existing =>
    dsimp only
    split
    · exact written_follows seeing_holds reachedAt_userId rfl rfl keeps
    · exact ⟨seeing_holds, rfl⟩
  | none =>
    refine succeeds_then lookup_follows ?_
    rintro sameName _ rfl
    cases sameName with
    | some sameName =>
      dsimp only
      split
      · exact written_follows seeing_holds reachedAt_userId rfl rfl keeps
      · trivial
    | none =>
      dsimp only
      split
      · refine ⟨fun read mem => ?_, fun answer expected => ?_⟩
        · exact absurd (fresh.symm.trans mem) (by simp)
        · cases answer with
          | error fault => trivial
          | ok saved => exact ⟨⟨_, rfl, expected.1, expected.2⟩, rfl⟩
      · trivial

theorem handleOidcLogin_follows {identity : FederatedIdentity} :
    (handleOidcLogin env identity).Follows editing ⟨.oidcLogin identity, none, none⟩
      fun _ _ => True := by
  refine follows_then (resolveFederatedUser_follows identity _ rfl rfl) ?_
  intro result reached ends
  cases result with
  | error refusal => trivial
  | ok user => exact issueSession_follows ends.1 (by rw [ends.2]; rfl)

theorem acceptAssertionOnce_follows {assertion : Assertion} {verified : Int} :
    (acceptAssertionOnce env user assertion verified).Follows editing copies
      (Succeeding fun result reached => reached = copies ∧
        ∀ accepted ∈ result, accepted.userId = user.userId ∧
          credentials accepted = credentials user) := by
  unfold acceptAssertionOnce
  split
  · refine ⟨rfl, ?_⟩
    rintro _ ⟨⟩
    exact ⟨rfl, rfl⟩
  · refine ⟨trivial, fun moment _ => ?_⟩
    split
    · exact ⟨rfl, nofun⟩
    · refine ⟨rfl, ?_⟩
      rintro _ ⟨⟩
      exact ⟨rfl, rfl⟩

theorem handleSamlAcs_follows (assertion : Assertion) :
    (handleSamlAcs env assertion).Follows editing ⟨.samlAcs assertion, none, none⟩
      fun _ _ => True := by
  refine follows_then readClock_follows ?_
  rintro verified _ rfl
  cases assertion.problem env.clockSkew verified with
  | some problem => trivial
  | none =>
    refine follows_then (resolveFederatedUser_follows _ _ rfl rfl) ?_
    intro result reached ends
    cases result with
    | error refusal => trivial
    | ok user =>
      obtain ⟨holds, call⟩ := ends
      have keeps : deletedKey reached.call = none := by
        rw [call]
        rfl
      refine follows_then acceptAssertionOnce_follows ?_
      rintro result _ ⟨rfl, same⟩
      cases result with
      | none => trivial
      | some accepted =>
        obtain ⟨id, same⟩ := same accepted rfl
        have keys : accepted.accessKeys = user.accessKeys := congrArg Credentials.accessKeys same
        refine follows_then (upsertUser_follows holds id
          (fun _ => congrArg Credentials.password same) ?_) ?_
        · rw [keeps, keys]
          exact prefix_rfl
        · rintro saved _ rfl
          exact issueSession_follows seeing_holds keeps

theorem change_follows {Result : Type} {result : Result}
    (holds : copies.Holds user) (id : written.userId = user.userId)
    (password : ¬changesPassword copies.call → written.password = user.password)
    (keys : withoutKeys (deletedKey copies.call) user.accessKeys <+: written.accessKeys) :
    (do
      let _ ← upsertUser written
      return result : Op Result).Follows editing copies fun _ _ => True :=
  follows_then (upsertUser_follows holds id password keys) fun _ _ _ => trivial

section

variable (subject : Option String)

include subject

variable {userId : String}

theorem passwordOwner_follows :
    (passwordOwner subject userId).Follows editing copies (Succeeding fun result reached =>
      reached.call = copies.call ∧ Granted (fun pair => reached.Holds pair.1) result) := by
  refine succeeds_then authenticate_follows ?_
  rintro caller _ rfl
  cases caller with
  | none => exact ⟨rfl, trivial⟩
  | some caller =>
    dsimp only
    split
    · exact ⟨rfl, seeing_holds⟩
    · refine succeeds_then isEamAdmin_follows ?_
      rintro isAdmin _ ⟨group, rfl⟩
      cases isAdmin with
      | false => exact ⟨rfl, trivial⟩
      | true =>
        refine succeeds_then lookup_follows ?_
        rintro user _ rfl
        cases user with
        | none => exact ⟨rfl, trivial⟩
        | some user => exact ⟨rfl, seeing_holds⟩

theorem handleChangePassword_follows {oldPassword newPassword : String} :
    (handleChangePassword env subject userId oldPassword newPassword).Follows editing
      ⟨.changePassword subject userId oldPassword newPassword, none, none⟩ fun _ _ => True := by
  unfold handleChangePassword
  split
  · refine follows_then authenticate_follows fun found _ _ => ?_
    cases found <;> trivial
  · refine follows_then (passwordOwner_follows subject) ?_
    rintro result reached ⟨call, owner⟩
    cases result with
    | error refusal => trivial
    | ok pair =>
      obtain ⟨user, own⟩ := pair
      dsimp only
      split
      · trivial
      split
      · trivial
      · refine ⟨trivial, fun salt _ => ?_⟩
        have stays : editing.after reached .consult salt = reached := rfl
        rw [stays]
        refine change_follows owner rfl (fun other => ?_) ?_
        · rw [call] at other
          exact absurd rfl other
        · rw [call]
          exact prefix_rfl

theorem emailOwner_follows {email : String} :
    (emailOwner subject userId email).Follows editing copies (Succeeding fun result reached =>
      reached.call = copies.call ∧ Granted (fun user => reached.Holds user) result) := by
  refine succeeds_then (administrator_follows subject) fun result reached call => ?_
  cases result with
  | error refusal => exact ⟨call, trivial⟩
  | ok caller =>
    dsimp only
    split
    · exact ⟨call, trivial⟩
    split
    · exact ⟨call, trivial⟩
    split
    · exact ⟨call, trivial⟩
    refine succeeds_then lookup_follows ?_
    rintro user _ rfl
    cases user with
    | none => exact ⟨call, trivial⟩
    | some user =>
      dsimp only
      split
      · exact ⟨call, trivial⟩
      refine succeeds_then lookup_follows ?_
      rintro holder _ rfl
      cases holder with
      | some holder => exact ⟨call, trivial⟩
      | none => exact ⟨call, seeing_holds⟩

theorem handleChangeEmail_follows {email : String} :
    (handleChangeEmail subject userId email).Follows editing
      ⟨.changeEmail subject userId email, none, none⟩ fun _ _ => True := by
  refine follows_then (emailOwner_follows subject) ?_
  rintro result reached ⟨call, owner⟩
  cases result with
  | error refusal => trivial
  | ok user =>
    have keys : withoutKeys (deletedKey reached.call) user.accessKeys <+: user.accessKeys := by
      rw [call]
      exact prefix_rfl
    have changed : (upsertUser (user.withEmail email) >>= fun _ => .done (.ok .done) :
        Op Response).Follows editing reached fun _ _ => True :=
      change_follows owner rfl (fun _ => rfl) keys
    exact follows_catching.mpr (changed.mono fun outcome _ _ => by cases outcome <;> trivial)

theorem handleCreateAccessKey_follows :
    (handleCreateAccessKey env subject).Follows editing
      ⟨.createAccessKey subject, none, none⟩ fun _ _ => True := by
  refine follows_then authenticate_follows ?_
  rintro found _ rfl
  cases found with
  | none => trivial
  | some user =>
    exact ⟨trivial, fun moment _ => change_follows seeing_holds rfl (fun _ => rfl)
      (prefix_append _ _)⟩

theorem handleDeleteAccessKey_follows {accessKeyId : String} :
    (handleDeleteAccessKey subject accessKeyId).Follows editing
      ⟨.deleteAccessKey subject accessKeyId, none, none⟩ fun _ _ => True := by
  refine follows_then authenticate_follows ?_
  rintro found _ rfl
  cases found with
  | none => trivial
  | some user =>
    dsimp only
    split
    · trivial
    split
    · trivial
    · exact change_follows seeing_holds rfl (fun _ => rfl) prefix_rfl

theorem handleDeleteUser_follows :
    (handleDeleteUser subject userId).Follows editing ⟨.deleteUser subject userId, none, none⟩
      fun _ _ => True := by
  refine follows_then (administrator_follows subject) fun result reached _ => ?_
  cases result with
  | error refusal => trivial
  | ok caller =>
    dsimp only
    split
    · trivial
    · refine ⟨trivial, fun answer _ => ?_⟩
      cases answer with
      | error fault => trivial
      | ok found =>
        cases found with
        | none => trivial
        | some user => exact ⟨trivial, fun _ _ => trivial⟩

/-- The group and the user that a membership is about are the ones that are held. -/
theorem membership_follows {userGroup user : String} :
    (membership subject userGroup user).Follows editing copies (Succeeding fun result reached =>
      reached.call = copies.call ∧
        Granted (fun pair => reached.group = some pair.1 ∧ reached.user = some pair.2) result) := by
  have group_follows : ∀ reached, (findUserGroup userGroup).Follows editing reached
      (Succeeding fun found after => after = reached.seeingGroup found) := by
    intro reached
    unfold findUserGroup
    split <;> exact groupLookup_follows
  have user_follows : ∀ reached, (findUser user).Follows editing reached
      (Succeeding fun found after => after = reached.seeing found) := by
    intro reached
    unfold findUser
    split <;> exact lookup_follows
  refine succeeds_then (administrator_follows subject) fun result reached call => ?_
  cases result with
  | error refusal => exact ⟨call, trivial⟩
  | ok caller =>
    dsimp only
    split
    · exact ⟨call, trivial⟩
    split
    · exact ⟨call, trivial⟩
    refine succeeds_then (group_follows _) ?_
    rintro group _ rfl
    cases group with
    | none => exact ⟨call, trivial⟩
    | some group =>
      refine succeeds_then (user_follows _) ?_
      rintro mem _ rfl
      cases mem with
      | none => exact ⟨call, trivial⟩
      | some mem => exact ⟨call, rfl, rfl⟩

end

theorem members_withMember (group : UserGroup) (userId : String) :
    members (withMember group userId) = insert userId (members group) := by
  ext mem
  simp [members, withMember]

theorem members_withoutMember {group : UserGroup} {userId : String} :
    members (withoutMember group userId) = (members group).erase userId := by
  ext mem
  simp [members, withoutMember, and_comm]

theorem handleUserGroupAddUser_follows {subject : Option String} {userGroup user : String} :
    (handleUserGroupAddUser subject userGroup user).Follows editing
      ⟨.userGroupAddUser subject userGroup user, none, none⟩ fun _ _ => True := by
  refine follows_then (membership_follows subject) ?_
  rintro result reached ⟨call, held⟩
  cases result with
  | error refusal => trivial
  | ok pair =>
    obtain ⟨group, mem⟩ := held
    dsimp only
    split
    · trivial
    · refine ⟨⟨by rw [call]; rfl, _, group, _, mem, rfl, ?_⟩, fun answer _ => ?_⟩
      · rw [call]
        exact members_withMember _ _
      · cases answer <;> trivial

theorem handleUserGroupRemoveUser_follows {subject : Option String} {userGroup user : String} :
    (handleUserGroupRemoveUser subject userGroup user).Follows editing
      ⟨.userGroupRemoveUser subject userGroup user, none, none⟩ fun _ _ => True := by
  refine follows_then (membership_follows subject) ?_
  rintro result reached ⟨call, held⟩
  cases result with
  | error refusal => trivial
  | ok pair =>
    obtain ⟨group, mem⟩ := held
    refine ⟨⟨by rw [call]; rfl, _, group, _, mem, rfl, ?_⟩, fun answer _ => ?_⟩
    · rw [call]
      exact members_withoutMember
    · cases answer <;> trivial

theorem call_follows (env : Env) (call : Call) :
    (call.program env).Follows editing ⟨call, none, none⟩ fun _ _ => True := by
  cases call with
  | login userId email password => exact handleLogin_follows
  | refreshSession subject => exact handleRefreshSession_follows
  | oidcLogin identity => exact handleOidcLogin_follows
  | samlAcs assertion => exact handleSamlAcs_follows assertion
  | changePassword subject userId oldPassword newPassword =>
    exact handleChangePassword_follows subject
  | changeEmail subject userId email => exact handleChangeEmail_follows subject
  | createAccessKey subject => exact handleCreateAccessKey_follows subject
  | deleteAccessKey subject accessKeyId => exact handleDeleteAccessKey_follows subject
  | deleteUser subject userId => exact handleDeleteUser_follows subject
  | userGroupAddUser subject userGroup user =>
    exact handleUserGroupAddUser_follows
  | userGroupRemoveUser subject userGroup user =>
    exact handleUserGroupRemoveUser_follows

end Follows

/-! ### What the store does -/

section Machine

variable {env : Env} {world : World}

theorem putUser_saved (user : UserDocument) : (world.putUser env user).1.userId = user.userId ∧
      credentials (world.putUser env user).1 = credentials user := by
  unfold World.putUser
  split <;> exact ⟨rfl, rfl⟩

theorem findUser_putUser (user : UserDocument) (userId : String) :
    (world.putUser env user).2.findUser (.userId userId) =
      if userId = user.userId then some (world.putUser env user).1
      else world.findUser (.userId userId) := by
  unfold World.putUser
  cases found : world.findUser (.userId user.userId) with
  | some old =>
    refine (Collection.find?_updateFirst_keyed (fun user : UserDocument => user.userId)
      (fun _ _ => by rfl) userId).trans ?_
    by_cases same : user.userId = userId
    · rw [if_pos same, if_pos same.symm, ← same]
      exact congrArg (Option.map _) found
    · rw [if_neg same, if_neg (Ne.symm same)]
      rfl
  | none =>
    refine (Collection.find?_append_keyed (fun user : UserDocument => user.userId) found (by rfl)
      userId).trans ?_
    exact if_congr eq_comm rfl rfl

theorem putGroup_saved {group : UserGroup} :
    members (world.putGroup env group).1 = members group := by
  unfold World.putGroup
  split <;> rfl

theorem findGroup_putGroup (group : UserGroup) (name : String) :
    (world.putGroup env group).2.findGroup (.name name) =
      if name = group.name then some (world.putGroup env group).1
      else world.findGroup (.name name) := by
  unfold World.putGroup
  cases found : world.findGroup (.name group.name) with
  | some old =>
    refine (Collection.find?_updateFirst_keyed (fun group : UserGroup => group.name)
      (fun _ _ => by rfl) name).trans ?_
    by_cases same : group.name = name
    · rw [if_pos same, if_pos same.symm, ← same]
      exact congrArg (Option.map _) found
    · rw [if_neg same, if_neg (Ne.symm same)]
      rfl
  | none =>
    refine (Collection.find?_append_keyed (fun group : UserGroup => group.name) found
      (by rfl) name).trans ?_
    exact if_congr eq_comm rfl rfl

theorem ledgerOf_putUser (user : UserDocument) : ledgerOf (world.putUser env user).2 =
      { ledgerOf world with
        users := update (ledgerOf world).users user.userId (some (credentials user)) } := by
  have groups : (world.putUser env user).2.groups = world.groups := by
    unfold World.putUser
    split <;> rfl
  have users : (ledgerOf (world.putUser env user).2).users =
      update (ledgerOf world).users user.userId (some (credentials user)) := by
    funext userId
    show ((world.putUser env user).2.findUser (.userId userId)).map credentials = _
    rw [findUser_putUser, Function.update_apply]
    split
    · exact congrArg some (putUser_saved user).2
    · rfl
  have same : (ledgerOf (world.putUser env user).2).groups = (ledgerOf world).groups := by
    funext name
    show ((world.putUser env user).2.findGroup (.name name)).map members = _
    rw [World.findGroup, groups]
    rfl
  exact Ledger.ext users same

theorem ledgerOf_putGroup (group : UserGroup) : ledgerOf (world.putGroup env group).2 =
      { ledgerOf world with
        groups := update (ledgerOf world).groups group.name (some (members group)) } := by
  have users : (world.putGroup env group).2.users = world.users := by
    unfold World.putGroup
    split <;> rfl
  have groups : (ledgerOf (world.putGroup env group).2).groups =
      update (ledgerOf world).groups group.name (some (members group)) := by
    funext name
    show ((world.putGroup env group).2.findGroup (.name name)).map members = _
    rw [findGroup_putGroup, Function.update_apply]
    split
    · exact congrArg some putGroup_saved
    · rfl
  have same : (ledgerOf (world.putGroup env group).2).users = (ledgerOf world).users := by
    funext userId
    show ((world.putGroup env group).2.findUser (.userId userId)).map credentials = _
    rw [World.findUser, users]
    rfl
  exact Ledger.ext same groups

theorem ledgerOf_deleteUser (userId : String) :
    ledgerOf { world with users := world.users.filter fun user => user.userId ≠ userId } =
      { ledgerOf world with users := update (ledgerOf world).users userId none } := by
  have users : (ledgerOf { world with
      users := world.users.filter fun user => user.userId ≠ userId }).users =
        update (ledgerOf world).users userId none := by
    funext other
    show ((world.users.filter fun user => user.userId ≠ userId).find? _).map credentials = _
    rw [Function.update_apply, List.find?_filter]
    split
    · rename_i same
      rw [List.find?_eq_none.mpr]
      · rfl
      · intro user _ both
        obtain ⟨kept, selected⟩ := of_decide_eq_true both
        exact of_decide_eq_true kept ((of_decide_eq_true selected).trans same)
    · rename_i different
      refine congrArg (Option.map credentials) (congrArg (world.users.find? ·) ?_)
      funext user
      by_cases selected : user.userId = other
      · simp [UserLookup.selects, selected, different]
      · simp [UserLookup.selects, selected]
  exact Ledger.ext users rfl

end Machine

/-! ### Runs -/

section Runs

variable [DecidableEq Thread] {env : Env} {calls : Thread → Call}

omit [DecidableEq Thread] in
theorem machine_expects (session : Copies) (tid : Thread) (stmt : Statement) (world : World) :
    editing.expects session stmt (machine env tid stmt world).1 := by
  cases stmt with
  | upsertUser user =>
    show match Statement.upsertUser user, (machine env tid (.upsertUser user) world).1 with
      | .upsertUser user, .ok saved => saved.userId = user.userId ∧
          credentials saved = credentials user
      | _, _ => True
    cases answer : (machine env tid (.upsertUser user) world).1 with
    | error fault => exact trivial
    | ok saved =>
      unfold machine at answer
      cases fate : env.fate world.moment with
      | carriedOut =>
        rw [fate] at answer
        dsimp only [Statement.perform] at answer
        split at answer
        · nomatch answer
        · obtain rfl := Except.ok.inj answer
          exact putUser_saved user
      | failed =>
        rw [fate] at answer
        exact absurd answer (by simp [Statement.failure])
      | unanswered =>
        rw [fate] at answer
        exact absurd answer (by simp [Statement.failure])
  | _ => exact trivial

theorem edited_of_current {call : Call} {read written stored : Credentials}
    (current : UserIsCurrent call read written stored)
    (password : ¬changesPassword call → written.password = read.password)
    (keys : withoutKeys (deletedKey call) read.accessKeys <+: written.accessKeys) :
    edited call read written stored = written := by
  obtain ⟨samePassword, sameEmail, sameKeys⟩ := current
  obtain ⟨added, appended⟩ := keys
  obtain ⟨writtenPassword, writtenEmail, writtenKeys⟩ := written
  dsimp only at password sameEmail appended
  unfold edited
  congr 1
  · split
    · rfl
    · rename_i keeps
      rw [samePassword keeps, password keeps]
  · dsimp only
    split
    · rfl
    · rename_i same
      have unchanged : writtenEmail = read.email := not_not.mp same
      rw [sameEmail unchanged, unchanged]
  · dsimp only
    rw [← appended, sameKeys, drop_left]

theorem regrouped_of_erase {call : Call} {userId : String} {stored read : Finset String}
    (same : stored.erase userId = read.erase userId) :
    regrouped call userId stored = regrouped call userId read := by
  have others : ∀ other, other ≠ userId → (other ∈ stored ↔ other ∈ read) := by
    intro other different
    have both := congrArg (other ∈ ·) same
    simpa [different] using both
  ext other
  by_cases same : other = userId
  · cases call <;> simp [regrouped, same]
  · cases call <;> simp [regrouped, same, others other same]

variable {past : Past Thread} {stmt : Statement}

/-- A write that finds what its request has read does to the collections what is recorded of it. -/
theorem ledgerOf_perform {world after : World} {tid : Thread}
    {answer : stmt.Answer} (named : (copiesOf calls past tid).call = calls tid)
    (allowed : (copiesOf calls past tid).MayWrite stmt)
    (current : IsCurrent calls past ⟨tid, stmt, answer, world, after⟩) :
    ledgerOf (stmt.perform env world).2 =
      record (copiesOf calls past tid) (ledgerOf world) stmt (stmt.perform env world).1 := by
  cases stmt with
  | findUser lookup => rfl
  | countUsers => rfl
  | findGroup lookup => rfl
  | consult => rfl
  | deleteUser userId => exact ledgerOf_deleteUser userId
  | upsertUser written =>
    dsimp only [Statement.perform]
    split
    · rfl
    · rename_i free
      have there := current free
      rw [ledgerOf_putUser]
      refine congrArg (fun made => { ledgerOf world with
        users := update (ledgerOf world).users written.userId made }) ?_
      cases read : (copiesOf calls past tid).user with
      | none =>
        rw [read] at there
        show _ = some (((world.findUser (.userId written.userId)).map credentials).getD _)
        rw [there]
        rfl
      | some copy =>
        rw [read] at there
        obtain ⟨stored, found, same⟩ := there
        obtain ⟨_, password, keys⟩ := allowed copy read
        show _ = ((world.findUser (.userId written.userId)).map credentials).map _
        rw [show world.findUser (.userId written.userId) = some stored from found]
        refine congrArg some (edited_of_current ?_ ?_ ?_).symm
        · rw [named]
          exact same
        · exact password
        · exact keys
  | upsertGroup written =>
    obtain ⟨changes, read, group, mem, user, name, made⟩ := allowed
    obtain ⟨stored, found, same⟩ := current
    dsimp only [Statement.perform, record]
    rw [ledgerOf_putGroup]
    refine congrArg (fun made => { ledgerOf world with
      groups := update (ledgerOf world).groups written.name made }) ?_
    show _ = ((world.findGroup (.name written.name)).map members).map _
    rw [show world.findGroup (.name written.name) = some stored from found,
      show (copiesOf calls past tid).user = some mem from user, made]
    exact congrArg some (regrouped_of_erase (same read group mem user)).symm

theorem ledgerOf_step {world : World} {tid : Thread} (answers : env.fate world.moment ≠ .unanswered)
    (named : (copiesOf calls past tid).call = calls tid)
    (allowed : (copiesOf calls past tid).MayWrite stmt) (current : IsCurrent calls past
      (Event.made (machine env) tid stmt world)) :
    ledgerOf (machine env tid stmt world).2 =
      record (copiesOf calls past tid) (ledgerOf world) stmt (machine env tid stmt world).1 := by
  have carried : ledgerOf (stmt.perform env world).2 = record _ _ _ _ :=
    ledgerOf_perform named allowed current
  unfold machine
  cases fate : env.fate world.moment with
  | carriedOut => exact carried
  | failed => cases stmt <;> rfl
  | unanswered => exact absurd fate answers

theorem copiesOf_call (past : Past Thread) (tid : Thread) :
    (copiesOf calls past tid).call = calls tid := by
  induction past with
  | nil => rfl
  | cons event earlier ih =>
    unfold copiesOf at ih ⊢
    rw [sessions_cons]
    split
    · rename_i same
      subst same
      obtain ⟨_, stmt, answer, _, _⟩ := event
      cases stmt <;> exact ih
    · exact ih

theorem ledgerOf_governed {origin world : World} (answers : ∀ moment, env.fate moment ≠ .unanswered)
    (governed : editing.Governs (machine env) (fun tid => ⟨calls tid, none, none⟩)
      origin past world) (current : History.Meets (IsCurrent calls) past) :
    ledgerOf world = recorded calls (ledgerOf origin) past := by
  induction governed with
  | start => rfl
  | step governed tid stmt allowed ih =>
    rw [ledgerOf_step (answers _) (copiesOf_call _ tid) allowed current.1, ih current.2]
    rfl

/-- However logins and changes are interleaved: if every write of a user that no unique index
refuses finds what its request has read of that user, apart from what the request changes, and every
write of a group finds the members that its request has read, apart from the one in question, then
the users and groups are at every moment what the changes that were carried out have made of
them. -/
theorem changes_kept (env : Env) (world : World) (calls : Thread → Call)
    (schedule : List Thread) (answers : ∀ moment, env.fate moment ≠ .unanswered)
    (current : History.Meets (IsCurrent calls) (interleave env world calls schedule).history) :
    ledgerOf (interleave env world calls schedule).world =
      recorded calls (ledgerOf world) (interleave env world calls schedule).history := by
  obtain ⟨governed, _⟩ := governs_run editing (machine env)
    (fun tid => ⟨calls tid, none, none⟩) _ world _
    (fun tid => call_follows env (calls tid))
    (fun _ _ _ _ _ _ => machine_expects _ _ _ _) schedule
  exact ledgerOf_governed answers governed current

end Runs

/-! ### A login and a new password -/

def bob : UserDocument where
  oid := "1"
  userId := "bob"
  ern := "ern:eam:eu:acme:user:bob"
  email := "bob@acme.example"
  accountId := "acme"
  region := "eu"
  loginEnabled := true
  federatedProvider := ""
  federatedSubject := ""
  password := "#old"
  accessKeys := [⟨"k", "secret", true, 0⟩]
  sessions := []
  seenAssertions := []

/-- He logs in, and changes his password. -/
def loginAndChange : ℕ → Call
  | 0 => .login "bob" "" "old"
  | _ => .changePassword (some "bob") "" "old" "new"

/-- One after the other, the new password is the one that is stored. -/
theorem login_then_change : ledgerOf (interleave Env.plain ⟨[bob], [], 0⟩ loginAndChange
      [0, 0, 0, 0, 1, 1, 1]).world =
      recorded loginAndChange (ledgerOf ⟨[bob], [], 0⟩)
        (interleave Env.plain ⟨[bob], [], 0⟩ loginAndChange [0, 0, 0, 0, 1, 1, 1]).history :=
  changes_kept Env.plain ⟨[bob], [], 0⟩ loginAndChange [0, 0, 0, 0, 1, 1, 1]
    (fun _ same => Fate.noConfusion same) (by decide)

/-- The password is changed after the login has read the user and before it writes him back, and the
old password is stored again. -/
theorem old_password_back : ¬ledgerOf (interleave Env.plain ⟨[bob], [], 0⟩ loginAndChange
      [0, 1, 1, 1, 0, 0, 0]).world =
      recorded loginAndChange (ledgerOf ⟨[bob], [], 0⟩)
        (interleave Env.plain ⟨[bob], [], 0⟩ loginAndChange [0, 1, 1, 1, 0, 0, 0]).history := by
  intro same
  have users := congrFun (congrArg Ledger.users same) "bob"
  exact absurd users (by decide +kernel)

end Updates

end Euclid.Eam.Store
