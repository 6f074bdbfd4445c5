/-
This file proves when the rights of a user are those that were given to it, and that a new user
inherits rights otherwise.

The ledger remembers what was given by the identities of documents, which are never used again. The
collections know principals by resource names and members by user ids, which are. As long as every
name under which a user or a group comes up is clear of what an earlier one left behind, both say
the same.
-/

import Euclid.Program
import Euclid.Eam.Directory

namespace Euclid.Eam

open Collection List Except

/-! ### What was given -/

/-- What was given and not taken away: grants to users and groups, and memberships. Users and groups
are known by their identities. -/
structure Ledger where
  given : List (Grant × String)
  joined : List (String × String)
  deriving DecidableEq

def Ledger.empty : Ledger := ⟨[], []⟩

/-- A grant without the resource name of its holder, which a rename changes. -/
def Grant.unnamed (grant : Grant) : Grant := { grant with principal := "" }

/-- Who a resource name is the name of. -/
def State.holder (state : State) (ern : String) : Option String :=
  match state.findUserByErn ern with
  | some user => some user.oid
  | none => (state.findUserGroupByErn ern).map (·.oid)

namespace Ledger

section

variable (ledger : Ledger)

def join (group user : String) : Ledger :=
  { ledger with joined := (group, user) :: ledger.joined }

def leave (group user : String) : Ledger :=
  { ledger with joined := ledger.joined.filter fun pair => pair ≠ (group, user) }

def give (grant : Grant) (holder : String) : Ledger :=
  { ledger with given := (grant, holder) :: ledger.given }

def revoke (grantId : String) : Ledger :=
  { ledger with given := ledger.given.filter fun entry => entry.1.oid ≠ grantId }

/-- What a request that was carried out gives or takes away. -/
def record (before after : State) (req : Req) (answer : Answer) : Ledger :=
  match req, answer with
  | .register req, .user saved =>
    match after.findUserGroupByName administratorGroup with
    | some group => if grantsAdmin before req then ledger.join group.oid saved.oid else ledger
    | none => ledger
  | .userGroupAddUser userGroup user, _ =>
    match before.findUserGroup userGroup, before.findUser user with
    | some group, some user => ledger.join group.oid user.oid
    | _, _ => ledger
  | .userGroupRemoveUser userGroup user, _ =>
    match before.findUserGroup userGroup, before.findUser user with
    | some group, some user => ledger.leave group.oid user.oid
    | _, _ => ledger
  | .grantRole req _, .grant saved =>
    match before.holder req.principal with
    | some holder => ledger.give saved.unnamed holder
    | none => ledger
  | .revokeRole grantId, _ => ledger.revoke grantId
  | _, _ => ledger

/-- A grant was given to a user, or to a group that it was added to and that is there. -/
def Holds (state : State) (user : User) (grant : Grant) : Prop :=
  (grant, user.oid) ∈ ledger.given ∨
    ∃ group ∈ state.groups, (group.oid, user.oid) ∈ ledger.joined ∧
      (grant, group.oid) ∈ ledger.given

/-- A user was added to the administrator group that is there. -/
def Administers (state : State) (user : User) : Prop :=
  ∃ group ∈ state.groups, group.name = administratorGroup ∧ (group.oid, user.oid) ∈ ledger.joined

def Names (oid : String) : Prop :=
  (∃ grant, (grant, oid) ∈ ledger.given) ∨ (∃ user, (oid, user) ∈ ledger.joined) ∨
    ∃ group, (group, oid) ∈ ledger.joined

end

end Ledger

/-! ### What a name has to be clear of -/

/-- Nobody has a resource name, and no grant is of it. -/
structure State.Unclaimed (state : State) (ern : String) : Prop where
  users : ∀ user ∈ state.users, user.ern ≠ ern
  groups : ∀ group ∈ state.groups, group.ern ≠ ern
  grants : ∀ grant ∈ state.grants, grant.principal ≠ ern

/-- A user id and its resource name are clear: the gate does not take the id for the system, no
group lists it, and the resource name is unclaimed. -/
structure State.Untouched (state : State) (userId ern : String) : Prop where
  mortal : userId ≠ systemPrincipal
  groups : ∀ group ∈ state.groups, userId ∉ group.userIds
  unclaimed : state.Unclaimed ern

/-- A request that is about to bring up a user or a group does so under a name that is clear. -/
def Clear (env : Env) (state : State) (asked : Asked) : Prop :=
  match asked.request with
  | .register req =>
    ∀ user, registering env state asked.subject req = .ok user →
      state.emailTaken user = false →
        state.Untouched user.userId user.ern ∧
          (grantsAdmin state req → state.findUserGroupByName administratorGroup = none →
            state.Unclaimed (createEamUserGroupErn env user.accountId administratorGroup))
  | .federatedLogin identity policy =>
    ∀ user, resolving env state identity policy = .ok (.stored user) →
      state.emailTaken user = false → state.findUserByUserId user.userId = none →
        state.Untouched user.userId user.ern
  | .changeUserId userId newUserId applications =>
    ∀ existing, renamable state asked.subject userId newUserId applications = .ok existing →
      state.Untouched newUserId (createEamUserErn env existing.accountId newUserId)
  | .createUserGroup name description =>
    ∀ group, grouping env state asked.subject name description = .ok group →
      state.Unclaimed group.ern
  | _ => True

/-! ### Runs -/

/-- One request, and what the ledger records of it. -/
def step (env : Env) (reached : State × Ledger) (asked : Asked) : State × Ledger :=
  match handle env reached.1 asked with
  | .ok (answer, after) => (after, reached.2.record reached.1 after asked.request answer)
  | .error _ => reached

/-- The requests of a run, one after the other. -/
def run (env : Env) (requests : List Asked) : State × Ledger :=
  requests.foldl (step env) (.empty, .empty)

/-- Every request of a run brings up users and groups under names that are clear. -/
def ClearRun (env : Env) : State × Ledger → List Asked → Prop
  | _, [] => True
  | reached, asked :: rest =>
    Clear env reached.1 asked ∧ ClearRun env (step env reached asked) rest

/-! ### Collections and ledger -/

/-- A document with this identity has been inserted. -/
def Known (env : Env) (state : State) (oid : String) : Prop :=
  ∃ moment < state.inserted, env.oid moment = oid

/-- The collections say of every user and every group that is there what the ledger says. -/
structure Agrees (env : Env) (state : State) (ledger : Ledger) : Prop where
  userIds : (state.users.map (·.userId)).Nodup
  names : (state.groups.map (·.name)).Nodup
  users : ∀ user ∈ state.users, ∀ other ∈ state.users,
    user.ern = other.ern ∨ user.oid = other.oid → user.userId = other.userId
  groups : ∀ group ∈ state.groups, ∀ other ∈ state.groups,
    group.ern = other.ern ∨ group.oid = other.oid → group.name = other.name
  apart : ∀ user ∈ state.users, ∀ group ∈ state.groups, user.ern ≠ group.ern ∧ user.oid ≠ group.oid
  members : ∀ group ∈ state.groups, ∀ user ∈ state.users,
    user.userId ∈ group.userIds ↔ (group.oid, user.oid) ∈ ledger.joined
  heldByUsers : ∀ grant ∈ state.grants, ∀ user ∈ state.users,
    grant.principal = user.ern ↔ (grant.unnamed, user.oid) ∈ ledger.given
  heldByGroups : ∀ grant ∈ state.grants, ∀ group ∈ state.groups,
    grant.principal = group.ern ↔ (grant.unnamed, group.oid) ∈ ledger.given
  stored : ∀ entry ∈ ledger.given, ∃ grant ∈ state.grants, grant.unnamed = entry.1
  mortal : ∀ user ∈ state.users, user.userId ≠ systemPrincipal
  knownUsers : ∀ user ∈ state.users, Known env state user.oid
  knownGroups : ∀ group ∈ state.groups, Known env state group.oid
  knownGrants : ∀ grant ∈ state.grants, Known env state grant.oid
  knownGiven : ∀ entry ∈ ledger.given, Known env state entry.2
  knownJoined : ∀ pair ∈ ledger.joined, Known env state pair.1 ∧ Known env state pair.2

section Agreement

variable {env : Env} {state : State} {ledger : Ledger}

theorem Agrees.empty : Agrees env .empty .empty where
  userIds := .nil
  names := .nil
  users := nofun
  groups := nofun
  apart := nofun
  members := nofun
  heldByUsers := nofun
  heldByGroups := nofun
  stored := nofun
  mortal := nofun
  knownUsers := nofun
  knownGroups := nofun
  knownGrants := nofun
  knownGiven := nofun
  knownJoined := nofun

theorem not_known_next : ¬Known env state (env.oid state.inserted) := by
  rintro ⟨moment, earlier, same⟩
  exact absurd (env.oid_injective same) (Nat.ne_of_lt earlier)

variable {user : User} (agrees : Agrees env state ledger)

include agrees in
theorem Agrees.user_eq {other : User}
    (mem : user ∈ state.users) (also : other ∈ state.users) (same : user.userId = other.userId) :
    user = other :=
  inj_on_of_nodup_map agrees.userIds mem also same

variable {group : UserGroup}

include agrees in
theorem Agrees.group_eq {other : UserGroup}
    (mem : group ∈ state.groups) (also : other ∈ state.groups) (same : group.name = other.name) :
    group = other :=
  inj_on_of_nodup_map agrees.names mem also same

/-! ### What each statement keeps -/

theorem mem_updateFirst_key {Document Key : Type} [DecidableEq Key] {key : Document →
    Key} {value : Key}
    {change : Document → Document} {docs : List Document} {doc : Document}
    (unique : (docs.map key).Nodup)
    (mem : doc ∈ updateFirst (fun stored => key stored = value) change docs) :
    (doc ∈ docs ∧ key doc ≠ value) ∨ ∃ old ∈ docs, key old = value ∧ doc = change old := by
  rw [updateFirst_eq_updateAll
    (pairwise_of_key unique fun _ selected => of_decide_eq_true selected),
    mem_updateAll] at mem
  obtain ⟨old, there, rfl⟩ := mem
  by_cases selected : key old = value
  · exact .inr ⟨old, there, selected, if_pos (decide_eq_true selected)⟩
  · rw [if_neg (by simpa using selected)]
    exact .inl ⟨there, selected⟩

section Rows

variable {Row : Type} {name ern oid : Row → String} {rows : List Row} {row : Row}

theorem mem_append_one {other : Row} (mem : other ∈ rows ++ [row]) : other ∈ rows ∨ other = row :=
  (mem_append.mp mem).imp_right mem_singleton.mp

theorem nodup_append_one (unique : (rows.map name).Nodup)
    (apart : ∀ other ∈ rows, name other ≠ name row) :
    ((rows ++ [row]).map name).Nodup := by
  rw [map_append, nodup_append']
  refine ⟨unique, nodup_singleton _, fun taken mem same => ?_⟩
  obtain ⟨other, there, rfl⟩ := mem_map.mp mem
  exact apart other there (mem_singleton.mp same)

/-- Rows of one resource name or of one identity have one name. -/
def Identified (name ern oid : Row → String) (rows : List Row) : Prop :=
  ∀ first ∈ rows, ∀ second ∈ rows, ern first = ern second ∨ oid first = oid second →
    name first = name second

theorem Identified.append_one (identified : Identified name ern oid rows)
    (newErn : ∀ other ∈ rows, ern other ≠ ern row) (newOid : ∀ other ∈ rows, oid other ≠ oid row) :
    Identified name ern oid (rows ++ [row]) := by
  intro first mem second also either
  rcases mem_append_one mem with old | rfl <;> rcases mem_append_one also with old' | rfl
  · exact identified first old second old' either
  · exact either.elim (fun same => absurd same (newErn first old)) fun same =>
      absurd same (newOid first old)
  · exact either.elim (fun same => absurd same.symm (newErn second old'))
      fun same => absurd same.symm (newOid second old')
  · rfl

theorem Identified.of_rows (identified : Identified name ern oid rows) {later : List Row}
    (before : ∀ row ∈ later, ∃ old ∈ rows, name old = name row ∧ ern old = ern row ∧
      oid old = oid row) :
    Identified name ern oid later := by
  intro first mem second also either
  obtain ⟨old, there, named, sameErn, sameOid⟩ := before first mem
  obtain ⟨old', there', named', sameErn', sameOid'⟩ := before second also
  rw [← named, ← named']
  refine identified old there old' there' ?_
  rwa [sameErn, sameErn', sameOid, sameOid']

end Rows

include agrees in
/-- Users may be left out, and rewritten but for their ids, names and identities. -/
theorem Agrees.of_users {users : List User}
    (userIds : (users.map (·.userId)).Nodup) (rows : ∀ user ∈ users, ∃ old ∈ state.users,
      old.userId = user.userId ∧ old.ern = user.ern ∧ old.oid = user.oid) :
    Agrees env { state with users := users } ledger := by
  refine { agrees with
    userIds := userIds
    users := Identified.of_rows agrees.users rows
    apart := ?_
    members := ?_
    heldByUsers := ?_
    mortal := ?_
    knownUsers := ?_ }
  · intro user mem group there
    obtain ⟨old, inOld, _, ern, oid⟩ := rows user mem
    rw [← ern, ← oid]
    exact agrees.apart old inOld group there
  · intro group there user mem
    obtain ⟨old, inOld, userId, _, oid⟩ := rows user mem
    rw [← userId, ← oid]
    exact agrees.members group there old inOld
  · intro grant there user mem
    obtain ⟨old, inOld, _, ern, oid⟩ := rows user mem
    rw [← ern, ← oid]
    exact agrees.heldByUsers grant there old inOld
  · intro user mem
    obtain ⟨old, inOld, userId, _⟩ := rows user mem
    exact userId ▸ agrees.mortal old inOld
  · intro user mem
    obtain ⟨old, inOld, _, _, oid⟩ := rows user mem
    exact oid ▸ agrees.knownUsers old inOld

variable {after : State}

include agrees in
theorem Agrees.next : Agrees env { state with inserted := state.inserted + 1 } ledger := by
  have known : ∀ {oid}, Known env state oid →
    Known env { state with inserted := state.inserted + 1 } oid :=
    fun ⟨moment, earlier, same⟩ => ⟨moment, Nat.lt_succ_of_lt earlier, same⟩
  exact { agrees with
    knownUsers := fun user mem => known (agrees.knownUsers user mem)
    knownGroups := fun group mem => known (agrees.knownGroups group mem)
    knownGrants := fun grant mem => known (agrees.knownGrants grant mem)
    knownGiven := fun entry mem => known (agrees.knownGiven entry mem)
    knownJoined := fun pair mem => (agrees.knownJoined pair mem).imp known known }

theorem known_newest : Known env { state with inserted := state.inserted + 1 }
    (env.oid state.inserted) :=
  ⟨state.inserted, Nat.lt_succ_self _, rfl⟩

section

variable (agrees : Agrees env state ledger)

include agrees

theorem Agrees.insertUser (missing : state.findUserByUserId user.userId = none)
    (untouched : state.Untouched user.userId user.ern) (fresh : user.oid = env.oid state.inserted) :
    Agrees env
      { state with users := state.users ++ [user], inserted := state.inserted + 1 } ledger := by
  have apart : ∀ other ∈ state.users, other.userId ≠ user.userId := by
    simpa [State.findUserByUserId] using missing
  have unknown : ¬Known env state user.oid := fresh ▸ not_known_next
  refine { agrees.next with
    userIds := nodup_append_one agrees.userIds apart
    users := Identified.append_one agrees.users untouched.unclaimed.users fun other mem same =>
      unknown (same ▸ agrees.knownUsers other mem)
    apart := ?_
    members := ?_
    heldByUsers := ?_
    mortal := ?_
    knownUsers := ?_ }
  · intro other mem group there
    rcases mem_append_one mem with old | rfl
    · exact agrees.apart other old group there
    · exact ⟨(untouched.unclaimed.groups group there).symm,
        fun same => unknown (same ▸ agrees.knownGroups group there)⟩
  · intro group there other mem
    rcases mem_append_one mem with old | rfl
    · exact agrees.members group there other old
    · exact iff_of_false (untouched.groups group there) fun joined =>
        unknown (agrees.knownJoined _ joined).2
  · intro grant there other mem
    rcases mem_append_one mem with old | rfl
    · exact agrees.heldByUsers grant there other old
    · exact iff_of_false (untouched.unclaimed.grants grant there) fun given =>
        unknown (agrees.knownGiven _ given)
  · intro other mem
    rcases mem_append_one mem with old | rfl
    · exact agrees.mortal other old
    · exact untouched.mortal
  · intro other mem
    rcases mem_append_one mem with old | rfl
    · exact agrees.next.knownUsers other old
    · exact fresh ▸ known_newest

theorem Agrees.upsertUser {saved : User} (stored : state.upsertUser env user = some (saved, after))
    (row : ∀ old, state.findUserByUserId user.userId = some old → old.ern = user.ern)
    (untouched : state.findUserByUserId user.userId = none → state.Untouched user.userId user.ern) :
    Agrees env after ledger := by
  unfold State.upsertUser at stored
  split at stored
  · nomatch stored
  split at stored
  · rename_i old found
    obtain ⟨-, rfl⟩ := Prod.mk.inj (Option.some.inj stored)
    have there := mem_of_find?_eq_some found
    have named : old.userId = user.userId := by simpa using List.find?_some found
    refine agrees.of_users ?_ fun other mem => ?_
    · rw [map_updateFirst fun doc _ selected => (of_decide_eq_true selected).symm]
      exact agrees.userIds
    · rcases mem_updateFirst_key agrees.userIds mem with ⟨kept, _⟩ | ⟨_, _, _, rfl⟩
      · exact ⟨other, kept, rfl, rfl, rfl⟩
      · exact ⟨old, there, named, row old found, rfl⟩
  · rename_i missing
    obtain ⟨-, rfl⟩ := Prod.mk.inj (Option.some.inj stored)
    exact agrees.insertUser missing (untouched missing) rfl

variable {changed : Ledger}

theorem Agrees.updateGroup (saved : UserGroup) {old : UserGroup} (there : old ∈ state.groups)
    (row : saved.name = old.name ∧ saved.ern = old.ern ∧ saved.oid = old.oid)
    (given : changed.given = ledger.given)
    (members : ∀ user ∈ state.users,
      user.userId ∈ saved.userIds ↔ (saved.oid, user.oid) ∈ changed.joined)
    (others : ∀ pair, pair.1 ≠ saved.oid → (pair ∈ changed.joined ↔ pair ∈ ledger.joined))
    (known : ∀ pair ∈ changed.joined, pair ∈ ledger.joined ∨
      pair.1 = saved.oid ∧ ∃ user ∈ state.users, user.oid = pair.2) :
    Agrees env
      { state with
        groups :=
          updateFirst (fun stored => stored.name = saved.name) (fun _ => saved) state.groups }
      changed := by
  obtain ⟨named, ern, oid⟩ := row
  have rows : ∀ group ∈ updateFirst (fun stored => stored.name = saved.name) (fun _ => saved)
      state.groups, group = saved ∨ group ∈ state.groups ∧ group.name ≠ saved.name := by
    intro group mem
    rcases mem_updateFirst_key agrees.names mem with kept | ⟨_, _, _, rfl⟩
    · exact .inr kept
    · exact .inl rfl
  have before : ∀ group ∈ updateFirst (fun stored => stored.name = saved.name) (fun _ => saved)
      state.groups, ∃ older ∈ state.groups,
        older.name = group.name ∧ older.ern = group.ern ∧ older.oid = group.oid := by
    intro group mem
    rcases rows group mem with rfl | ⟨kept, _⟩
    · exact ⟨old, there, named.symm, ern.symm, oid.symm⟩
    · exact ⟨group, kept, rfl, rfl, rfl⟩
  refine { agrees with
    names := ?_
    groups := Identified.of_rows agrees.groups before
    apart := ?_
    members := ?_
    heldByUsers := given ▸ agrees.heldByUsers
    heldByGroups := ?_
    stored := given ▸ agrees.stored
    knownGroups := ?_
    knownGiven := given ▸ agrees.knownGiven
    knownJoined := ?_ }
  · rw [map_updateFirst fun doc _ selected => (of_decide_eq_true selected).symm]
    exact agrees.names
  · intro user mem group also
    obtain ⟨older, inOlder, _, ern, oid⟩ := before group also
    rw [← ern, ← oid]
    exact agrees.apart user mem older inOlder
  · intro group also user mem
    rcases rows group also with rfl | ⟨kept, different⟩
    · exact members user mem
    · have apart : group.oid ≠ saved.oid := fun same =>
        different ((agrees.groups group kept old there (.inr (same.trans oid))).trans named.symm)
      exact (agrees.members group kept user mem).trans (others (group.oid, user.oid) apart).symm
  · intro grant mem group also
    obtain ⟨older, inOlder, _, ern, oid⟩ := before group also
    rw [given, ← ern, ← oid]
    exact agrees.heldByGroups grant mem older inOlder
  · intro group also
    obtain ⟨older, inOlder, _, _, oid⟩ := before group also
    exact oid ▸ agrees.knownGroups older inOlder
  · intro pair mem
    rcases known pair mem with kept | ⟨first, user, also, second⟩
    · exact agrees.knownJoined pair kept
    · exact ⟨first ▸ oid ▸ agrees.knownGroups old there, second ▸ agrees.knownUsers user also⟩

theorem Agrees.insertGroup (group : UserGroup)
    (missing : state.findUserGroupByName group.name = none)
    (unclaimed : state.Unclaimed group.ern) (fresh : group.oid = env.oid state.inserted)
    (given : changed.given = ledger.given) (members : ∀ user ∈ state.users,
      user.userId ∈ group.userIds ↔ (group.oid, user.oid) ∈ changed.joined)
    (others : ∀ pair, pair.1 ≠ group.oid → (pair ∈ changed.joined ↔ pair ∈ ledger.joined))
    (joins : ∀ pair ∈ changed.joined, pair ∈ ledger.joined ∨
      pair.1 = group.oid ∧ ∃ user ∈ state.users, user.oid = pair.2) :
    Agrees env
      { state with groups := state.groups ++ [group], inserted := state.inserted + 1 } changed := by
  have apart : ∀ other ∈ state.groups, other.name ≠ group.name := by
    simpa [State.findUserGroupByName] using missing
  have unknown : ¬Known env state group.oid := fresh ▸ not_known_next
  have newOid : ∀ other ∈ state.groups, other.oid ≠ group.oid := fun other mem same =>
    unknown (same ▸ agrees.knownGroups other mem)
  refine { agrees.next with
    names := nodup_append_one agrees.names apart
    groups := Identified.append_one agrees.groups unclaimed.groups newOid
    apart := ?_
    members := ?_
    heldByUsers := given ▸ agrees.heldByUsers
    heldByGroups := ?_
    stored := given ▸ agrees.stored
    knownGroups := ?_
    knownGiven := given ▸ agrees.next.knownGiven
    knownJoined := ?_ }
  · intro user mem other also
    rcases mem_append_one also with old | rfl
    · exact agrees.apart user mem other old
    · exact ⟨unclaimed.users user mem, fun same => unknown (same ▸ agrees.knownUsers user mem)⟩
  · intro other also user mem
    rcases mem_append_one also with old | rfl
    · exact (agrees.members other old user mem).trans
        (others (other.oid, user.oid) (newOid other old)).symm
    · exact members user mem
  · intro grant mem other also
    rw [given]
    rcases mem_append_one also with old | rfl
    · exact agrees.heldByGroups grant mem other old
    · exact iff_of_false (unclaimed.grants grant mem) fun held => unknown (agrees.knownGiven _ held)
  · intro other also
    rcases mem_append_one also with old | rfl
    · exact agrees.next.knownGroups other old
    · exact fresh ▸ known_newest
  · intro pair mem
    rcases joins pair mem with kept | ⟨first, user, also, second⟩
    · exact agrees.next.knownJoined pair kept
    · exact ⟨first ▸ fresh ▸ known_newest, second ▸ agrees.next.knownUsers user also⟩

theorem Agrees.upsertGroup
    (row : ∀ old, state.findUserGroupByName group.name = some old → group.ern = old.ern)
    (unclaimed : state.findUserGroupByName group.name = none → state.Unclaimed group.ern)
    (given : changed.given = ledger.given)
    (members : ∀ user ∈ state.users, user.userId ∈ group.userIds ↔
      ((state.upsertUserGroup env group).1.oid, user.oid) ∈ changed.joined)
    (others : ∀ pair, pair.1 ≠ (state.upsertUserGroup env group).1.oid →
      (pair ∈ changed.joined ↔ pair ∈ ledger.joined))
    (joins : ∀ pair ∈ changed.joined, pair ∈ ledger.joined ∨
      pair.1 = (state.upsertUserGroup env group).1.oid ∧ ∃ user ∈ state.users, user.oid = pair.2) :
    Agrees env (state.upsertUserGroup env group).2 changed := by
  unfold State.upsertUserGroup at members others joins ⊢
  split at members
  · rename_i old found
    rw [found] at others joins
    have named : old.name = group.name := by simpa using List.find?_some found
    exact agrees.updateGroup { group with oid := old.oid } (mem_of_find?_eq_some found)
      ⟨named.symm, row old found, rfl⟩ given members others joins
  · rename_i missing
    rw [missing] at others joins
    exact agrees.insertGroup { group with oid := env.oid state.inserted } missing
      (unclaimed missing) rfl given members others joins

theorem Agrees.filterGroups (keeps : UserGroup → Bool) :
    Agrees env { state with groups := state.groups.filter keeps } ledger := by
  have there : ∀ group ∈ state.groups.filter keeps, group ∈ state.groups :=
    fun group mem => mem_of_mem_filter mem
  exact { agrees with
    names := agrees.names.sublist (filter_sublist.map _)
    groups :=
      fun group mem other also => agrees.groups group (there group mem) other (there other also)
    apart := fun user mem group also => agrees.apart user mem group (there group also)
    members := fun group mem => agrees.members group (there group mem)
    heldByGroups :=
      fun grant mem group also => agrees.heldByGroups grant mem group (there group also)
    knownGroups := fun group mem => agrees.knownGroups group (there group mem) }

theorem Agrees.addGrant (grant : Grant) {holder : String}
    (held : state.holder grant.principal = some holder) :
    Agrees env (state.addGrant env grant).2
      (ledger.give (state.addGrant env grant).1.unnamed holder) := by
  have unknown : ¬Known env state (env.oid state.inserted) := not_known_next
  -- the holder is the user of the resource name, or else its group
  have owner : (∃ user ∈ state.users, user.ern = grant.principal ∧ user.oid = holder) ∨
      ∃ group ∈ state.groups, group.ern = grant.principal ∧ group.oid = holder := by
    unfold State.holder at held
    split at held
    · rename_i user found
      exact .inl ⟨user, mem_of_find?_eq_some found, by simpa using List.find?_some found,
        Option.some.inj held⟩
    · obtain ⟨group, found, same⟩ := Option.map_eq_some_iff.mp held
      exact .inr ⟨group, mem_of_find?_eq_some found, by simpa using List.find?_some found, same⟩
  -- older grants are not the new one
  have older : ∀ other ∈ state.grants, ∀ oid,
      (other.unnamed, oid) ∈ (ledger.give (state.addGrant env grant).1.unnamed holder).given ↔
        (other.unnamed, oid) ∈ ledger.given := by
    intro other mem oid
    refine mem_cons.trans (or_iff_right fun same => ?_)
    have oids : other.oid = env.oid state.inserted := congrArg Grant.oid (Prod.mk.inj same).1
    exact unknown (oids ▸ agrees.knownGrants other mem)
  have newest : ∀ oid, ((state.addGrant env grant).1.unnamed, oid) ∈
          (ledger.give (state.addGrant env grant).1.unnamed holder).given ↔ oid = holder := by
    intro oid
    refine mem_cons.trans ⟨fun either => ?_, fun same => .inl (congrArg _ same)⟩
    rcases either with same | before
    · exact (Prod.mk.inj same).2
    · obtain ⟨other, mem, same⟩ := agrees.stored _ before
      have oids : other.oid = env.oid state.inserted := congrArg Grant.oid same
      exact absurd (oids ▸ agrees.knownGrants other mem) unknown
  refine { agrees.next with
    heldByUsers := ?_
    heldByGroups := ?_
    stored := ?_
    knownGrants := ?_
    knownGiven := ?_ }
  · intro other mem user also
    rcases mem_append_one mem with old | rfl
    · exact (agrees.heldByUsers other old user also).trans (older other old user.oid).symm
    · refine Iff.trans ?_ (newest user.oid).symm
      show grant.principal = user.ern ↔ user.oid = holder
      rcases owner with ⟨owner, there, named, rfl⟩ | ⟨owner, there, named, rfl⟩
      · rw [← named]
        constructor
        · intro same
          rw [agrees.user_eq also there (agrees.users user also owner there (.inl same.symm))]
        · intro same
          rw [agrees.user_eq also there (agrees.users user also owner there (.inr same))]
      · rw [← named]
        exact iff_of_false (agrees.apart user also owner there).1.symm
          (agrees.apart user also owner there).2
  · intro other mem group also
    rcases mem_append_one mem with old | rfl
    · exact (agrees.heldByGroups other old group also).trans (older other old group.oid).symm
    · refine Iff.trans ?_ (newest group.oid).symm
      show grant.principal = group.ern ↔ group.oid = holder
      rcases owner with ⟨owner, there, named, rfl⟩ | ⟨owner, there, named, rfl⟩
      · rw [← named]
        exact iff_of_false (agrees.apart owner there group also).1
          (agrees.apart owner there group also).2.symm
      · rw [← named]
        constructor
        · intro same
          rw [agrees.group_eq also there (agrees.groups group also owner there (.inl same.symm))]
        · intro same
          rw [agrees.group_eq also there (agrees.groups group also owner there (.inr same))]
  · intro entry mem
    rcases mem_cons.mp mem with rfl | before
    · exact ⟨_, mem_append_right _ (.head _), rfl⟩
    · obtain ⟨other, there, same⟩ := agrees.stored entry before
      exact ⟨other, mem_append_left _ there, same⟩
  · intro other mem
    rcases mem_append_one mem with old | rfl
    · exact agrees.next.knownGrants other old
    · exact known_newest
  · intro entry mem
    rcases mem_cons.mp mem with rfl | before
    · rcases owner with ⟨owner, there, _, rfl⟩ | ⟨owner, there, _, rfl⟩
      · exact agrees.next.knownUsers owner there
      · exact agrees.next.knownGroups owner there
    · exact agrees.next.knownGiven entry before

theorem Agrees.revoke (grantId : String) :
    Agrees env { state with grants := state.grants.filter fun grant => grant.oid ≠ grantId }
      (ledger.revoke grantId) := by
  have kept : ∀ grant ∈ state.grants.filter (fun grant => grant.oid ≠ grantId),
      grant ∈ state.grants ∧ ∀ oid,
        (grant.unnamed, oid) ∈ (ledger.revoke grantId).given ↔
          (grant.unnamed, oid) ∈ ledger.given := by
    intro grant mem
    obtain ⟨there, other⟩ := mem_filter.mp mem
    exact ⟨there, fun oid => mem_filter.trans (and_iff_left other)⟩
  refine { agrees with
    heldByUsers := ?_
    heldByGroups := ?_
    stored := ?_
    knownGrants := fun grant mem => agrees.knownGrants grant (kept grant mem).1
    knownGiven := fun entry mem => agrees.knownGiven entry (mem_of_mem_filter mem) }
  · intro grant mem user also
    obtain ⟨there, same⟩ := kept grant mem
    exact (agrees.heldByUsers grant there user also).trans (same user.oid).symm
  · intro grant mem group also
    obtain ⟨there, same⟩ := kept grant mem
    exact (agrees.heldByGroups grant there group also).trans (same group.oid).symm
  · intro entry mem
    obtain ⟨before, other⟩ := mem_filter.mp mem
    obtain ⟨grant, there, same⟩ := agrees.stored entry before
    refine ⟨grant, mem_filter.mpr ⟨there, ?_⟩, same⟩
    rw [← same] at other
    exact other

/-! ### Renaming -/

end

variable {entries : List String}

theorem mem_rewrite_self {first second : String} (absent : second ∉ entries) :
    second ∈ updateFirst (fun entry => entry = first) (fun _ => second) entries ↔
      first ∈ entries := by
  constructor
  · intro mem
    rcases mem_updateFirst mem with before | ⟨old, there, selected, _⟩
    · exact absurd before absent
    · rwa [← of_decide_eq_true selected]
  · intro mem
    cases found : entries.find? fun entry => entry = first with
    | none => exact absurd (decide_eq_true rfl) (List.find?_eq_none.mp found first mem)
    | some old => exact mem_updateFirst_self _ found

theorem mem_rewrite_of_ne {first second other : String} (kept : other ≠ first)
    (apart : other ≠ second) :
    other ∈ updateFirst (fun entry => entry = first) (fun _ => second) entries ↔
      other ∈ entries := by
  constructor
  · intro mem
    rcases mem_updateFirst mem with before | ⟨_, _, _, same⟩
    · exact before
    · exact absurd same apart
  · intro mem
    rcases mem_updateFirst_of_mem (fun entry => entry = first) (fun _ => second) mem with
      after | ⟨selected, _⟩
    · exact after
    · exact absurd (of_decide_eq_true selected) kept

variable {grant : Grant}

theorem moved_principal_self {oldErn newErn : String} (free : grant.principal ≠ newErn) :
    (State.moved oldErn newErn grant).principal = newErn ↔ grant.principal = oldErn := by
  unfold State.moved
  split
  · rename_i own
    exact iff_of_true rfl own
  · rename_i other
    exact iff_of_false free other

theorem moved_principal_of_ne {oldErn newErn ern : String} (kept : ern ≠ oldErn)
    (apart : ern ≠ newErn) :
    (State.moved oldErn newErn grant).principal = ern ↔ grant.principal = ern := by
  unfold State.moved
  split
  · rename_i own
    exact iff_of_false (Ne.symm apart) (own ▸ Ne.symm kept)
  · exact Iff.rfl

@[simp] theorem moved_unnamed (oldErn newErn : String) (grant : Grant) :
    (State.moved oldErn newErn grant).unnamed = grant.unnamed := by
  unfold State.moved
  split <;> rfl

@[simp] theorem moved_oid (oldErn newErn : String) (grant : Grant) :
    (State.moved oldErn newErn grant).oid = grant.oid := by
  unfold State.moved
  split <;> rfl

variable {existing : User}

/-- A user id that nobody has leaves the user ids distinct. -/
theorem nodup_renamed {users : List User} {newUserId newErn : String}
    (unique : (users.map User.userId).Nodup) (there : existing ∈ users)
    (absent : ∀ user ∈ users, user.userId ≠ newUserId) :
    ((updateFirst (fun stored => stored.userId = existing.userId)
      (State.renamed newUserId newErn) users).map User.userId).Nodup := by
  cases found : users.find? fun stored => stored.userId = existing.userId with
  | none => exact absurd (decide_eq_true rfl) (List.find?_eq_none.mp found existing there)
  | some old =>
    obtain ⟨before, after, split, updated⟩ :=
      updateFirst_split (State.renamed newUserId newErn) found
    rw [split, map_append, map_cons, nodup_middle, ← map_append] at unique
    rw [updated, map_append, map_cons, nodup_middle, ← map_append]
    refine nodup_cons.mpr ⟨fun mem => ?_, (nodup_cons.mp unique).2⟩
    obtain ⟨user, inRest, same⟩ := mem_map.mp mem
    refine absent user ?_ same
    rw [split]
    rcases mem_append.mp inRest with inBefore | inAfter
    · exact mem_append_left _ inBefore
    · exact mem_append_right _ (.tail _ inAfter)

include agrees in
/-- The users after a renaming are the renamed one, and those who stay as they are. -/
theorem Agrees.mem_renamed {newUserId newErn : String} (there : existing ∈ state.users)
    (mem : user ∈ updateFirst (fun stored => stored.userId = existing.userId)
      (State.renamed newUserId newErn) state.users) :
    user = State.renamed newUserId newErn existing ∨
      user ∈ state.users ∧ user.userId ≠ existing.userId ∧ user.ern ≠ existing.ern := by
  rcases mem_updateFirst_key agrees.userIds mem with ⟨kept, other⟩ | ⟨old, inOld, same, rfl⟩
  · exact .inr ⟨kept, other, fun same => other (agrees.users user kept existing there (.inl same))⟩
  · rw [agrees.user_eq inOld there same]
    exact .inl rfl

include agrees in
/-- An ERN that nobody has still tells the users apart. -/
theorem Agrees.renamed_apart {newUserId newErn : String} (there : existing ∈ state.users)
    (unclaimed : ∀ user ∈ state.users, user.ern ≠ newErn) {first second : User}
    (mem : first ∈ updateFirst (fun stored => stored.userId = existing.userId)
      (State.renamed newUserId newErn) state.users)
    (also : second ∈ updateFirst (fun stored => stored.userId = existing.userId)
      (State.renamed newUserId newErn) state.users)
    (either : first.ern = second.ern ∨ first.oid = second.oid) : first.userId = second.userId := by
  rcases agrees.mem_renamed there mem with rfl | ⟨kept, other, _⟩ <;>
    rcases agrees.mem_renamed there also with rfl | ⟨kept', other', _⟩
  · rfl
  · rcases either with ern | oid
    · exact absurd ern.symm (unclaimed second kept')
    · exact absurd (agrees.users existing there second kept' (.inr oid)).symm other'
  · rcases either with ern | oid
    · exact absurd ern (unclaimed first kept)
    · exact absurd (agrees.users first kept existing there (.inr oid)) other
  · exact agrees.users first kept second kept' either

include agrees in
theorem Agrees.renameUser
    {newUserId : String} (there : existing ∈ state.users) (untouched : state.Untouched newUserId
      (createEamUserErn env existing.accountId newUserId))
    (free : state.findUserByUserId newUserId = none) :
    Agrees env (state.renameUser env existing newUserId).2 ledger := by
  have absent : ∀ user ∈ state.users, user.userId ≠ newUserId := by
    simpa [State.findUserByUserId] using free
  have unclaimed := untouched.unclaimed
  unfold State.renameUser
  generalize createEamUserErn env existing.accountId newUserId = newErn at *
  dsimp only
  have rows (user : User) (mem : user ∈ updateFirst
      (fun stored => stored.userId = existing.userId) (State.renamed newUserId newErn)
        state.users) := agrees.mem_renamed there mem
  refine ⟨?_, ?_, ?_, ?_, ?_, ?_, ?_, ?_, ?_, ?_, ?_, ?_, ?_, agrees.knownGiven, agrees.knownJoined⟩
  · exact nodup_renamed agrees.userIds there absent
  · rw [map_map]
    exact agrees.names
  · exact fun first mem second also either =>
      agrees.renamed_apart there unclaimed.users mem also either
  · intro group mem other also either
    obtain ⟨first, inFirst, rfl⟩ := mem_map.mp mem
    obtain ⟨second, inSecond, rfl⟩ := mem_map.mp also
    exact agrees.groups first inFirst second inSecond either
  · intro user mem group also
    obtain ⟨older, inOlder, rfl⟩ := mem_map.mp also
    rcases rows user mem with rfl | ⟨kept, _, _⟩
    · exact ⟨(unclaimed.groups older inOlder).symm, (agrees.apart existing there older inOlder).2⟩
    · exact agrees.apart user kept older inOlder
  · intro group mem user also
    obtain ⟨older, inOlder, rfl⟩ := mem_map.mp mem
    rcases rows user also with rfl | ⟨kept, other, _⟩
    · exact (mem_rewrite_self (untouched.groups older inOlder)).trans
        (agrees.members older inOlder existing there)
    · exact (mem_rewrite_of_ne other (absent user kept)).trans
        (agrees.members older inOlder user kept)
  · intro grant mem user also
    obtain ⟨older, inOlder, rfl⟩ := mem_map.mp mem
    rw [moved_unnamed]
    rcases rows user also with rfl | ⟨kept, _, other⟩
    · exact (moved_principal_self (unclaimed.grants older inOlder)).trans
        (agrees.heldByUsers older inOlder existing there)
    · exact (moved_principal_of_ne other (unclaimed.users user kept)).trans
        (agrees.heldByUsers older inOlder user kept)
  · intro grant mem group also
    obtain ⟨older, inOlder, rfl⟩ := mem_map.mp mem
    obtain ⟨before, inBefore, rfl⟩ := mem_map.mp also
    rw [moved_unnamed]
    exact (moved_principal_of_ne (agrees.apart existing there before inBefore).1.symm
      (unclaimed.groups before inBefore)).trans (agrees.heldByGroups older inOlder before inBefore)
  · intro entry mem
    obtain ⟨grant, inGrants, same⟩ := agrees.stored entry mem
    exact ⟨_, mem_map_of_mem inGrants, by rw [moved_unnamed, same]⟩
  · intro user mem
    rcases rows user mem with rfl | ⟨kept, _, _⟩
    · exact untouched.mortal
    · exact agrees.mortal user kept
  · intro user mem
    rcases rows user mem with rfl | ⟨kept, _, _⟩
    · exact agrees.knownUsers existing there
    · exact agrees.knownUsers user kept
  · intro group mem
    obtain ⟨older, inOlder, rfl⟩ := mem_map.mp mem
    exact agrees.knownGroups older inOlder
  · intro grant mem
    obtain ⟨older, inOlder, rfl⟩ := mem_map.mp mem
    rw [moved_oid]
    exact agrees.knownGrants older inOlder

/-! ### What each request keeps -/

variable {status : Status}

theorem refuseIf_ok {condition : Prop} [Decidable condition] {msg : String}
    {result : Unit} (passed : refuseIf condition status msg = .ok result) : ¬condition := by
  intro holds
  rw [refuseIf, if_pos holds] at passed
  cases passed

theorem orRefuse_ok {Value : Type} {value : Option Value} {msg : String}
    {result : Value} (passed : orRefuse value status msg = .ok result) : value = some result := by
  cases value with
  | none => cases passed
  | some value => exact congrArg some (ok.inj passed)

variable {spelling : String}

theorem findUser_mem (found : state.findUser spelling = some user) : user ∈ state.users := by
  unfold State.findUser at found
  split at found <;> exact mem_of_find?_eq_some found

theorem findUserGroup_mem
    (found : state.findUserGroup spelling = some group) : group ∈ state.groups := by
  unfold State.findUserGroup at found
  split at found <;> exact mem_of_find?_eq_some found

include agrees in
theorem Agrees.findUserGroupByName
    (there : group ∈ state.groups) : state.findUserGroupByName group.name = some group := by
  unfold State.findUserGroupByName
  cases found : state.groups.find? fun other => other.name = group.name with
  | none => exact absurd (decide_eq_true rfl) (List.find?_eq_none.mp found group there)
  | some other =>
    have named : other.name = group.name := by simpa using List.find?_some found
    rw [agrees.group_eq there (mem_of_find?_eq_some found) named.symm]

variable {subject : Option String}

theorem membership_ok {userGroup user : String}
    {mem : User} (passed : membership state subject userGroup user = .ok (group, mem)) :
    state.findUserGroup userGroup = some group ∧ state.findUser user = some mem := by
  obtain ⟨_, _, passed⟩ := bind_ok passed
  obtain ⟨_, _, passed⟩ := bind_ok passed
  obtain ⟨_, _, passed⟩ := bind_ok passed
  obtain ⟨found, first, passed⟩ := bind_ok passed
  obtain ⟨foundUser, second, passed⟩ := bind_ok passed
  obtain ⟨rfl, rfl⟩ := Prod.mk.inj (ok.inj passed)
  exact ⟨orRefuse_ok first, orRefuse_ok second⟩

include agrees in
theorem Agrees.addMember (there : group ∈ state.groups) (also : user ∈ state.users) :
    Agrees env
      (state.upsertUserGroup env { group with userIds := group.userIds ++ [user.userId] }).2
      (ledger.join group.oid user.oid) := by
  have found := agrees.findUserGroupByName there
  have saved : (state.upsertUserGroup env
      { group with userIds := group.userIds ++ [user.userId] }).1.oid = group.oid := by
    rw [State.upsertUserGroup, found]
  refine agrees.upsertGroup ?_ ?_ rfl ?_ ?_ ?_
  · intro old same
    rw [Option.some.inj (found.symm.trans same)]
  · exact fun missing => absurd (found.symm.trans missing) (by simp)
  · intro other mem
    rw [saved]
    refine mem_append.trans (Iff.trans ?_ mem_cons.symm)
    rw [mem_singleton, or_comm]
    refine or_congr ⟨fun same => ?_, fun same => ?_⟩ (agrees.members group there other mem)
    · rw [agrees.user_eq mem also same]
    · exact agrees.users other mem user also (.inr (Prod.mk.inj same).2)
  · intro pair different
    rw [saved] at different
    exact mem_cons.trans (or_iff_right fun same => different (congrArg Prod.fst same))
  · intro pair mem
    rw [saved]
    rcases mem_cons.mp mem with rfl | before
    · exact .inr ⟨rfl, user, also, rfl⟩
    · exact .inl before

include agrees in
theorem Agrees.removeMember (there : group ∈ state.groups) (also : user ∈ state.users) :
    Agrees env
      (state.upsertUserGroup env
        { group with userIds := group.userIds.filter fun other => other ≠ user.userId }).2
      (ledger.leave group.oid user.oid) := by
  have found := agrees.findUserGroupByName there
  have saved : (state.upsertUserGroup env
      { group with userIds := group.userIds.filter fun other => other ≠ user.userId }).1.oid =
        group.oid := by
    rw [State.upsertUserGroup, found]
  refine agrees.upsertGroup ?_ ?_ rfl ?_ ?_ ?_
  · intro old same
    rw [Option.some.inj (found.symm.trans same)]
  · exact fun missing => absurd (found.symm.trans missing) (by simp)
  · intro other mem
    rw [saved]
    refine mem_filter.trans (Iff.trans ?_ mem_filter.symm)
    refine and_congr (agrees.members group there other mem) ?_
    rw [decide_eq_true_eq, decide_eq_true_eq]
    refine not_congr ⟨fun same => ?_, fun same => ?_⟩
    · rw [agrees.user_eq mem also same]
    · exact agrees.users other mem user also (.inr (Prod.mk.inj same).2)
  · intro pair different
    rw [saved] at different
    refine mem_filter.trans (and_iff_left ?_)
    exact decide_eq_true fun same => different (congrArg Prod.fst same)
  · exact fun pair mem => .inl (mem_of_mem_filter mem)

theorem userErn_ne_groupErn {env : Env} {accountId name other : String} :
    createEamUserErn env accountId name ≠ createEamUserGroupErn env accountId other := by
  intro same
  have texts := congrArg String.toList same
  simp [createEamUserErn, createEamUserGroupErn, createErn] at texts

theorem upsertUser_ok {saved : User} (stored : state.upsertUser env user = some (saved, after)) :
    state.emailTaken user = false ∧ saved ∈ after.users ∧ after.groups = state.groups ∧
      after.grants = state.grants ∧ saved.userId = user.userId ∧ saved.ern = user.ern ∧
      saved.accountId = user.accountId ∧
      ∀ other ∈ after.users, other = saved ∨ other ∈ state.users := by
  unfold State.upsertUser at stored
  split at stored
  · nomatch stored
  rename_i free
  have notTaken := eq_false_of_ne_true free
  split at stored
  · rename_i old found
    obtain ⟨rfl, rfl⟩ := Prod.mk.inj (Option.some.inj stored)
    refine ⟨notTaken, mem_updateFirst_self _ found, rfl, rfl, rfl, rfl, rfl, fun other mem => ?_⟩
    rcases mem_updateFirst mem with before | ⟨_, _, _, same⟩
    · exact .inr before
    · exact .inl same
  · obtain ⟨rfl, rfl⟩ := Prod.mk.inj (Option.some.inj stored)
    refine ⟨notTaken, mem_append_right _ (.head _), rfl, rfl, rfl, rfl, rfl,
      fun other mem => ?_⟩
    rcases mem_append.mp mem with before | new
    · exact .inr before
    · exact .inl (mem_singleton.mp new)

theorem upsertUserGroup_mem {group : UserGroup} :
    (state.upsertUserGroup env group).1 ∈ (state.upsertUserGroup env group).2.groups ∧
      (state.upsertUserGroup env group).1.name = group.name := by
  unfold State.upsertUserGroup
  split
  · rename_i old found
    exact ⟨mem_updateFirst_self _ found, rfl⟩
  · exact ⟨mem_append_right _ (.head _), rfl⟩

variable {req : RegisterRequest}

theorem registering_ok (passed : registering env state subject req = .ok user) :
    state.findUserByUserId user.userId = none ∧ user.userId = req.userId ∧
      user.accountId = req.accountId ∧
      user.ern = createEamUserErn env user.accountId user.userId := by
  obtain ⟨_, _, passed⟩ := bind_ok passed
  obtain ⟨_, _, passed⟩ := bind_ok passed
  obtain ⟨_, free, passed⟩ := bind_ok passed
  obtain rfl := ok.inj passed
  exact ⟨Option.not_isSome_iff_eq_none.mp (refuseIf_ok free), rfl, rfl, rfl⟩

theorem administratorsWith_name (env : Env) (state : State) (saved : User) :
    (administratorsWith env state saved).name = administratorGroup := by
  have kept : ∀ (group : UserGroup), (group.including saved.userId).name = group.name := by
    intro group
    unfold UserGroup.including
    split <;> rfl
  unfold administratorsWith
  rw [kept]
  cases found : state.findUserGroupByName administratorGroup with
  | none => rfl
  | some group => simpa using List.find?_some found

include agrees in
theorem Agrees.addAdministrator {saved : User}
    (there : saved ∈ state.users) (unlisted : ∀ group ∈ state.groups, saved.userId ∉ group.userIds)
    (unclaimed : state.findUserGroupByName administratorGroup = none →
      state.Unclaimed (createEamUserGroupErn env saved.accountId administratorGroup)) :
    Agrees env (state.upsertUserGroup env (administratorsWith env state saved)).2
      (ledger.join (state.upsertUserGroup env (administratorsWith env state saved)).1.oid
        saved.oid) := by
  unfold administratorsWith
  cases found : state.findUserGroupByName administratorGroup with
  | some group =>
    have inGroups := mem_of_find?_eq_some found
    rw [Option.getD_some, UserGroup.including, if_neg (unlisted group inGroups)]
    have same : (state.upsertUserGroup env
        { group with userIds := group.userIds ++ [saved.userId] }).1.oid = group.oid := by
      rw [State.upsertUserGroup, agrees.findUserGroupByName inGroups]
    rw [same]
    exact agrees.addMember inGroups there
  | none =>
    have absent : saved.userId ∉ (newAdministrators env saved).userIds := not_mem_nil
    rw [Option.getD_none, UserGroup.including, if_neg absent]
    have missing : state.findUserGroupByName (newAdministrators env saved).name = none := found
    simp only [State.upsertUserGroup, missing]
    have unknown : ¬Known env state (env.oid state.inserted) := not_known_next
    refine agrees.insertGroup _ missing (unclaimed found) rfl rfl ?_ ?_ ?_
    · intro user mem
      refine Iff.trans ?_ mem_cons.symm
      rw [or_iff_left fun before => unknown (agrees.knownJoined _ before).1]
      show user.userId ∈ [saved.userId] ↔ _
      rw [mem_singleton]
      refine ⟨fun same => ?_, fun same => ?_⟩
      · rw [agrees.user_eq mem there same]
      · exact agrees.users user mem saved there (.inr (Prod.mk.inj same).2)
    · intro pair different
      exact mem_cons.trans (or_iff_right fun same => different (congrArg Prod.fst same))
    · intro pair mem
      rcases mem_cons.mp mem with rfl | before
      · exact .inr ⟨rfl, saved, there, rfl⟩
      · exact .inl before

variable {now : Int} {answer : Answer}

include agrees in
theorem Agrees.register (clear : Clear env state ⟨subject, now, .register req⟩)
    (handled : handleRegister env state subject req = .ok (answer, after)) :
    Agrees env after (ledger.record state after (.register req) answer) := by
  obtain ⟨user, passed, handled⟩ := bind_ok handled
  obtain ⟨missing, _, _, named⟩ := registering_ok passed
  cases stored : state.upsertUser env user with
  | none =>
    rw [stored] at handled
    cases handled
  | some both =>
    obtain ⟨saved, middle⟩ := both
    obtain ⟨free, there, groups, grants, userId, ern, accountId, rows⟩ := upsertUser_ok stored
    obtain ⟨untouched, unclaimed⟩ := clear user passed free
    have between := agrees.upsertUser stored
      (fun old found => absurd (missing.symm.trans found) (by simp)) (fun _ => untouched)
    simp only [stored] at handled
    by_cases admin : grantsAdmin state req = true
    · rw [if_pos admin] at handled
      obtain ⟨rfl, rfl⟩ := Prod.mk.inj (ok.inj handled)
      have unlisted : ∀ group ∈ middle.groups, saved.userId ∉ group.userIds := by
        rw [groups, userId]
        exact untouched.groups
      have next := between.addAdministrator there unlisted fun none => by
        rw [State.findUserGroupByName, groups] at none
        have before := unclaimed admin none
        rw [accountId]
        refine ⟨fun other mem => ?_, groups ▸ before.groups, grants ▸ before.grants⟩
        rcases rows other mem with rfl | old
        · rw [ern, named]
          exact userErn_ne_groupErn
        · exact before.users other old
      obtain ⟨mem, name⟩ := upsertUserGroup_mem
      have found := next.findUserGroupByName mem
      have called := administratorsWith_name env middle saved
      rw [name, called] at found
      simp only [Ledger.record, found, admin, if_true]
      exact next
    · rw [if_neg admin] at handled
      obtain ⟨rfl, rfl⟩ := Prod.mk.inj (ok.inj handled)
      have nothing : ledger.record state middle (.register req) (.user saved) = ledger := by
        unfold Ledger.record
        dsimp only
        split
        · exact if_neg admin
        · rfl
      rw [nothing]
      exact between

variable {identity : FederatedIdentity} {policy : ProvisioningPolicy}

/-- What a federated login stores is of a user who is there, or of an id that nobody has. -/
theorem resolving_stored (resolved : resolving env state identity policy = .ok (.stored user)) :
    (∃ old ∈ state.users, old.userId = user.userId ∧ old.ern = user.ern) ∨
      state.findUserByUserId user.userId = none := by
  unfold resolving at resolved
  have kept : ∀ (old : User) email, (old.reachedAt email).userId = old.userId ∧
      (old.reachedAt email).ern = old.ern := by
    intro old email
    unfold User.reachedAt
    split <;> exact ⟨rfl, rfl⟩
  split at resolved
  · rename_i existing found
    unfold State.findUserByFederatedSubject at found
    split at found
    · nomatch found
    have there := mem_of_find?_eq_some found
    split at resolved
    · obtain rfl := Resolved.stored.inj (ok.inj resolved)
      exact .inl ⟨existing, there, (kept _ _).1.symm, (kept _ _).2.symm⟩
    · exact absurd (ok.inj resolved) (by simp)
  · split at resolved
    · rename_i sameName found
      have there := mem_of_find?_eq_some found
      split at resolved
      · obtain rfl := Resolved.stored.inj (ok.inj resolved)
        exact .inl ⟨sameName, there, by rw [(kept _ _).1], by rw [(kept _ _).2]⟩
      · cases resolved
    · rename_i missing
      split at resolved
      · obtain rfl := Resolved.stored.inj (ok.inj resolved)
        exact .inr missing
      · cases resolved

include agrees in
theorem Agrees.federatedLogin
    (clear : Clear env state ⟨subject, now, .federatedLogin identity policy⟩)
    (handled : resolveFederatedUser env state identity policy = .ok (answer, after)) :
    Agrees env after ledger := by
  obtain ⟨resolved, passed, handled⟩ := bind_ok handled
  cases resolved with
  | known user =>
    obtain ⟨-, rfl⟩ := Prod.mk.inj (ok.inj handled)
    exact agrees
  | stored user =>
    cases stored : state.upsertUser env user with
    | none =>
      simp only [stored] at handled
      cases handled
    | some both =>
      simp only [stored] at handled
      obtain ⟨-, rfl⟩ := Prod.mk.inj (ok.inj handled)
      have free := (upsertUser_ok stored).1
      refine agrees.upsertUser stored (fun old found => ?_) (clear user passed free)
      rcases resolving_stored passed with ⟨existing, there, userId, ern⟩ | missing
      · have named : old.userId = user.userId := by simpa using List.find?_some found
        rw [← ern, agrees.user_eq (mem_of_find?_eq_some found) there (named.trans userId.symm)]
      · exact absurd (missing.symm.trans found) (by simp)

theorem renamable_ok {userId newUserId : String} {applications : List (String × String)}
    (passed : renamable state subject userId newUserId applications = .ok existing) :
    existing ∈ state.users ∧ state.findUserByUserId newUserId = none := by
  obtain ⟨_, _, passed⟩ := bind_ok passed
  obtain ⟨_, _, passed⟩ := bind_ok passed
  obtain ⟨_, _, passed⟩ := bind_ok passed
  obtain ⟨_, _, passed⟩ := bind_ok passed
  obtain ⟨user, found, passed⟩ := bind_ok passed
  obtain ⟨_, free, passed⟩ := bind_ok passed
  split at passed
  · cases passed
  · obtain rfl := ok.inj passed
    exact ⟨mem_of_find?_eq_some (orRefuse_ok found),
      Option.not_isSome_iff_eq_none.mp (refuseIf_ok free)⟩

theorem grouping_ok {name description : String}
    (passed : grouping env state subject name description = .ok group) :
    group.userIds = [] ∧ state.findUserGroupByName group.name = none := by
  obtain ⟨_, _, passed⟩ := bind_ok passed
  obtain ⟨_, _, passed⟩ := bind_ok passed
  obtain ⟨_, free, passed⟩ := bind_ok passed
  obtain rfl := ok.inj passed
  exact ⟨rfl, Option.not_isSome_iff_eq_none.mp (refuseIf_ok free)⟩

theorem granting_ok {req : GrantRoleRequest} {roleExists : String → String → Bool}
    (passed : granting state subject now req roleExists = .ok grant) :
    grant.principal = req.principal ∧ ∃ holder, state.holder req.principal = some holder := by
  obtain ⟨_, _, passed⟩ := bind_ok passed
  obtain ⟨_, _, passed⟩ := bind_ok passed
  obtain ⟨_, _, passed⟩ := bind_ok passed
  obtain ⟨_, _, passed⟩ := bind_ok passed
  obtain ⟨_, _, passed⟩ := bind_ok passed
  obtain ⟨_, somebody, passed⟩ := bind_ok passed
  obtain rfl := ok.inj passed
  refine ⟨rfl, ?_⟩
  unfold State.holder
  split
  · exact ⟨_, rfl⟩
  · rename_i noUser
    cases found : state.findUserGroupByErn req.principal with
    | some group => exact ⟨group.oid, rfl⟩
    | none => exact absurd ⟨by rw [noUser]; rfl, by rw [found]; rfl⟩ (refuseIf_ok somebody)

section

variable (agrees : Agrees env state ledger)

include agrees

/-- Every request that is carried out keeps the collections in step with the ledger. -/
theorem Agrees.handle {asked : Asked} {answer : Answer}
    (clear : Clear env state asked) (handled : handle env state asked = .ok (answer, after)) :
    Agrees env after (ledger.record state after asked.request answer) := by
  obtain ⟨subject, now, req⟩ := asked
  cases req with
  | register req => exact agrees.register clear handled
  | federatedLogin identity policy => exact agrees.federatedLogin clear handled
  | changeUserId userId newUserId applications =>
    obtain ⟨existing, passed, done⟩ := bind_ok handled
    obtain ⟨-, rfl⟩ := Prod.mk.inj (ok.inj done)
    obtain ⟨there, free⟩ := renamable_ok passed
    exact agrees.renameUser there (clear existing passed) free
  | deleteUser userId =>
    obtain ⟨_, _, handled⟩ := bind_ok handled
    obtain ⟨_, _, handled⟩ := bind_ok handled
    obtain ⟨_, _, done⟩ := bind_ok handled
    obtain ⟨-, rfl⟩ := Prod.mk.inj (ok.inj done)
    refine agrees.of_users (agrees.userIds.sublist (filter_sublist.map _)) fun user mem => ?_
    exact ⟨user, mem_of_mem_filter mem, rfl, rfl, rfl⟩
  | createUserGroup name description =>
    obtain ⟨group, passed, done⟩ := bind_ok handled
    obtain ⟨-, rfl⟩ := Prod.mk.inj (ok.inj done)
    obtain ⟨nobody, free⟩ := grouping_ok passed
    have unknown : ¬Known env state (env.oid state.inserted) := not_known_next
    have fresh : (state.upsertUserGroup env group).1.oid = env.oid state.inserted := by
      rw [State.upsertUserGroup, free]
    refine agrees.upsertGroup (fun old found => absurd (free.symm.trans found) (by simp))
      (fun _ => clear group passed) rfl ?_ (fun _ _ => Iff.rfl) fun pair mem => .inl mem
    intro user mem
    rw [nobody, fresh]
    exact iff_of_false not_mem_nil fun joined => unknown (agrees.knownJoined _ joined).1
  | deleteUserGroup name =>
    obtain ⟨_, _, handled⟩ := bind_ok handled
    obtain ⟨_, _, handled⟩ := bind_ok handled
    obtain ⟨_, _, done⟩ := bind_ok handled
    obtain ⟨-, rfl⟩ := Prod.mk.inj (ok.inj done)
    exact agrees.filterGroups _
  | userGroupAddUser userGroup user =>
    obtain ⟨⟨group, mem⟩, passed, handled⟩ := bind_ok handled
    obtain ⟨_, _, done⟩ := bind_ok handled
    obtain ⟨-, rfl⟩ := Prod.mk.inj (ok.inj done)
    obtain ⟨found, foundUser⟩ := membership_ok passed
    simp only [Ledger.record, found, foundUser]
    exact agrees.addMember (findUserGroup_mem found) (findUser_mem foundUser)
  | userGroupRemoveUser userGroup user =>
    obtain ⟨⟨group, mem⟩, passed, done⟩ := bind_ok handled
    obtain ⟨-, rfl⟩ := Prod.mk.inj (ok.inj done)
    obtain ⟨found, foundUser⟩ := membership_ok passed
    simp only [Ledger.record, found, foundUser]
    exact agrees.removeMember (findUserGroup_mem found) (findUser_mem foundUser)
  | grantRole req roleExists =>
    obtain ⟨grant, passed, done⟩ := bind_ok handled
    obtain ⟨rfl, rfl⟩ := Prod.mk.inj (ok.inj done)
    obtain ⟨principal, holder, held⟩ := granting_ok passed
    simp only [Ledger.record, held]
    exact agrees.addGrant grant (principal ▸ held)
  | revokeRole grantId =>
    obtain ⟨_, _, handled⟩ := bind_ok handled
    obtain ⟨_, _, done⟩ := bind_ok handled
    obtain ⟨-, rfl⟩ := Prod.mk.inj (ok.inj done)
    exact agrees.revoke grantId

/-! ### Rights -/

theorem Agrees.grantsOf (there : user ∈ state.users) (grant : Grant) :
    (∃ held ∈ state.grantsOf user, held.unnamed = grant) ↔ ledger.Holds state user grant := by
  have listed : ∀ held, held ∈ state.grantsOf user ↔ held ∈ state.grants ∧
      (held.principal = user.ern ∨
        ∃ group ∈ state.groups, user.userId ∈ group.userIds ∧ held.principal = group.ern) := by
    intro held
    unfold State.grantsOf findGrantsByPrincipals State.principalsOf
    simp only [isEmpty_cons, Bool.false_eq_true, if_false, mem_filter, mem_cons,
      mem_map, decide_eq_true_eq]
    refine and_congr_right fun _ => or_congr_right ?_
    constructor
    · rintro ⟨group, ⟨mem, lists⟩, same⟩
      exact ⟨group, mem, lists, same.symm⟩
    · rintro ⟨group, mem, lists, same⟩
      exact ⟨group, ⟨mem, lists⟩, same.symm⟩
  constructor
  · rintro ⟨held, mem, rfl⟩
    obtain ⟨stored, own | ⟨group, inGroups, lists, same⟩⟩ := (listed held).mp mem
    · exact .inl ((agrees.heldByUsers held stored user there).mp own)
    · exact .inr ⟨group, inGroups, (agrees.members group inGroups user there).mp lists,
        (agrees.heldByGroups held stored group inGroups).mp same⟩
  · rintro (given | ⟨group, inGroups, joined, given⟩)
    · obtain ⟨held, stored, rfl⟩ := agrees.stored _ given
      exact ⟨held, (listed held).mpr ⟨stored,
        .inl ((agrees.heldByUsers held stored user there).mpr given)⟩, rfl⟩
    · obtain ⟨held, stored, rfl⟩ := agrees.stored _ given
      exact ⟨held, (listed held).mpr ⟨stored, .inr ⟨group, inGroups,
        (agrees.members group inGroups user there).mpr joined,
        (agrees.heldByGroups held stored group inGroups).mpr given⟩⟩, rfl⟩

theorem Agrees.isEamAdmin (there : user ∈ state.users) :
    state.isEamAdmin user.userId ↔ ledger.Administers state user := by
  unfold State.isEamAdmin Ledger.Administers
  constructor
  · intro lists
    obtain ⟨group, found, listed⟩ := (Option.any_eq_true _ _).mp lists
    have inGroups := mem_of_find?_eq_some found
    exact ⟨group, inGroups, by simpa using List.find?_some found,
      (agrees.members group inGroups user there).mp (of_decide_eq_true listed)⟩
  · rintro ⟨group, inGroups, named, joined⟩
    rw [← named, agrees.findUserGroupByName inGroups]
    exact decide_eq_true ((agrees.members group inGroups user there).mpr joined)

theorem Agrees.unnamed {moment : ℕ}
    (later : state.inserted ≤ moment) : ¬ledger.Names (env.oid moment) := by
  have unknown : ¬Known env state (env.oid moment) := by
    rintro ⟨earlier, before, same⟩
    exact absurd (env.oid_injective same) (Nat.ne_of_lt (before.trans_le later))
  rintro (⟨grant, given⟩ | ⟨user, joined⟩ | ⟨group, joined⟩)
  · exact unknown (agrees.knownGiven _ given)
  · exact unknown (agrees.knownJoined _ joined).1
  · exact unknown (agrees.knownJoined _ joined).2

theorem Agrees.run {requests : List Asked} (clear : ClearRun env (state, ledger) requests) :
    Agrees env (requests.foldl (step env) (state, ledger)).1
      (requests.foldl (step env) (state, ledger)).2 := by
  induction requests generalizing state ledger with
  | nil => exact agrees
  | cons asked rest ih =>
    obtain ⟨now, later⟩ := clear
    rw [foldl_cons]
    unfold step at later ⊢
    cases handled : Eam.handle env state asked with
    | error refusal =>
      rw [handled] at later
      exact ih agrees later
    | ok both =>
      rw [handled] at later
      exact ih (agrees.handle now handled) later

end

end Agreement

/-- Whoever is there, in the collections and the ledger that a run reaches. -/
def RightsAreOwn (reached : State × Ledger) : Prop :=
  ∀ user ∈ reached.1.users,
    (∀ grant, (∃ held ∈ reached.1.grantsOf user, held.unnamed = grant) ↔
      reached.2.Holds reached.1 user grant) ∧
    (reached.1.isEamAdmin user.userId ↔ reached.2.Administers reached.1 user) ∧
    user.userId ≠ systemPrincipal

/-- As long as users and groups come up under names that are clear, the rights of a user are those
that were given to it or to its groups and not taken away since, and nobody who is yet to come has
any. -/
theorem nobody_inherits (env : Env) (requests : List Asked)
    (clear : ClearRun env (.empty, .empty) requests) :
    RightsAreOwn (run env requests) ∧
      ∀ moment, (run env requests).1.inserted ≤ moment →
        ¬(run env requests).2.Names (env.oid moment) := by
  have agrees := Agrees.empty.run clear
  exact ⟨fun user there =>
    ⟨agrees.grantsOf there, agrees.isEamAdmin there, agrees.mortal user there⟩,
    fun moment later => agrees.unnamed later⟩

/-! ### A name that is used again -/

/-- An installation whose documents are numbered in strokes. -/
def Env.counting : Env where
  region := "eu"
  oid moment := String.ofList (List.replicate (moment + 1) 'i')
  oid_injective := by
    intro first second same
    have lengths := congrArg String.length same
    simpa using lengths

/-- Somebody is registered by the administrator, if there is one. -/
def registers (userId : String) : Asked where
  subject := some "root"
  now := 0
  request := .register ⟨userId, "secret", userId ++ "@acme.example", "acme", "eu", false⟩

/-- The administrator makes a user a reader. -/
def makesReader : Asked where
  subject := some "root"
  now := 0
  request := .grantRole ⟨"reader", "ern:eam:eu:acme:user:ann", "", ["*"], []⟩ fun _ _ => true

def deletes : Asked where
  subject := some "root"
  now := 0
  request := .deleteUser "ann"

/-- The grant of the first bearer of a name is found among those of the second, who was given
none. -/
theorem second_bearer_inherits : ¬RightsAreOwn (run .counting
      [registers "root", registers "ann", makesReader, deletes, registers "ann"]) := by
  have reached : run .counting
      [registers "root", registers "ann", makesReader, deletes, registers "ann"] =
      (⟨[⟨"i", "root", "ern:eam:eu:acme:user:root", "root@acme.example", "acme",
        "eu", true, "", ""⟩,
          ⟨"iiiii", "ann", "ern:eam:eu:acme:user:ann", "ann@acme.example", "acme", "eu",
            true, "", ""⟩],
        [⟨"ii", "administrator", "ern:eam:eu:acme:userGroup:administrator", "acme", "eu",
          "Euclid administrators group", ["root"]⟩],
        [⟨"iiii", "reader", "ern:eam:eu:acme:user:ann", "acme", ["*"], [], 0, "root"⟩], 5⟩,
        ⟨[(⟨"iiii", "reader", "", "acme", ["*"], [], 0, "root"⟩, "iii")], [("ii", "i")]⟩) := by
    decide
  intro own
  rcases ((own _ (.tail _ (.head _))).1 ⟨"iiii", "reader", "", "acme", ["*"], [], 0, "root"⟩).mp
      ⟨⟨"iiii", "reader", "ern:eam:eu:acme:user:ann", "acme", ["*"], [], 0, "root"⟩, by decide,
        rfl⟩ with given | ⟨group, mem, joined, given⟩
  · exact absurd given (by decide)
  · obtain rfl := mem_singleton.mp mem
    exact absurd given (by decide)

/-- The first bearer of the name has the grant as its own. -/
theorem first_bearer_owns :
    RightsAreOwn (run .counting [registers "root", registers "ann", makesReader]) := by
  have first : step .counting (.empty, .empty) (registers "root") =
      (⟨[⟨"i", "root", "ern:eam:eu:acme:user:root", "root@acme.example", "acme", "eu",
        true, "", ""⟩],
        [⟨"ii", "administrator", "ern:eam:eu:acme:userGroup:administrator", "acme", "eu",
          "Euclid administrators group", ["root"]⟩], [], 2⟩, ⟨[], [("ii", "i")]⟩) := by
    decide
  have unclaimed : ∀ ern, State.empty.Unclaimed ern := fun ern =>
    ⟨nofun, nofun,
      nofun⟩
  refine (nobody_inherits .counting [registers "root", registers "ann", makesReader]
    ⟨?_, ?_, trivial, trivial⟩).1
  · intro user passed _
    obtain ⟨_, userId, _⟩ := registering_ok passed
    exact ⟨⟨by rw [userId]; decide, nofun, unclaimed _⟩, fun _ _ => unclaimed _⟩
  · rw [first]
    intro user passed _
    obtain ⟨_, userId, accountId, named⟩ := registering_ok passed
    rw [named, userId, accountId]
    exact ⟨⟨by decide, by decide, by decide, by decide,
      nofun⟩, fun _ none => absurd none (by decide)⟩

end Euclid.Eam
