/-
This file proves when only the first user comes in without a credential.

Whether anybody has to be asked is decided by a count, and whether a user is new by a lookup, both
before the write, and both say that nothing is there when they fail. The events of a run show what a
request was told, and what has happened since. Where what it was told was true, and still is when it
writes, a request without a credential writes into an empty store, and nobody is written over.
-/

import Euclid.Eam.Handlers
import Mathlib.Data.List.Infix

namespace Euclid.Eam.Store

open Program Discipline List Option Event History

variable {Thread : Type}

/-! ### What a request was told -/

def saysNobody : Happening Thread → Bool
  | ⟨_, .countUsers, answer, _, _⟩ => countOf answer ≤ 0
  | _ => false

/-- The lookup said that there is no such user. -/
def saysUnknown : Happening Thread → Bool
  | ⟨_, .findUser _, answer, _, _⟩ => (orNone answer).isNone
  | _ => false

/-- The latest event of a thread that passes a check, and what has happened since. -/
def lastOf [DecidableEq Thread] (tid : Thread) (check : Happening Thread → Bool) :
    Past Thread → Option (Happening Thread × Past Thread)
  | [] => none
  | event :: earlier =>
    if event.thread = tid ∧ check event then some (event, [])
    else (lastOf tid check earlier).map fun last => (last.1, event :: last.2)

/-- A registration, and who its credential says it is from. -/
abbrev Registration : Type := Option String × RegisterRequest

/-- A thread has shown that its subject is a user, and an administrator. -/
def Authorized (calls : Thread → Registration) (past : Past Thread) (tid : Thread) : Prop :=
  ∃ subject user group before after before' after', (calls tid).1 = some subject ∧
    user.userId ∈ group.userIds ∧
    mk tid (.findUser (.userId subject)) (.ok (some user)) before after ∈ past ∧
    mk tid (.findGroup (.name administratorGroup)) (.ok (some group)) before' after' ∈ past

section Property

variable [DecidableEq Thread] (calls : Thread → Registration)

/-- Who writes a user without a credential writes into an empty store, whoever writes the
administrators has written a user, a user that is created without a credential is the first, and no
user is written over. -/
structure AdmitsFirstOnly (past : Past Thread) : Prop where
  users : Meets (fun earlier event => writesUser event →
    Authorized calls earlier event.thread ∨ event.before.users = []) past
  groups : Meets (fun earlier event => writesGroup event →
    ∃ write ∈ earlier, write.thread = event.thread ∧ writesUser write) past
  once : Meets (fun earlier event => event.after.users ≠ event.before.users →
    ¬Authorized calls earlier event.thread → ∀ other ∈ earlier, other.after.users = []) past
  kept : ∀ event ∈ past, event.before.users <+: event.after.users

/-- What a request was told is true, and still is when it writes: if it was told that there is
nobody, nobody was there and nobody was written since; and if it was told that its user is new,
there was none of the id and none was written since. -/
def StillTrue (earlier : Past Thread) (event : Happening Thread) : Prop :=
  writesUser event →
    (∀ told ∈ lastOf event.thread saysNobody earlier, told.1.before.users = [] ∧
      ∀ other ∈ told.2, other.after.users = other.before.users) ∧
    ∀ told ∈ lastOf event.thread saysUnknown earlier,
      told.1.before.findUser (.userId (calls event.thread).2.userId) = none ∧
        ∀ other ∈ told.2, other.after.findUser (.userId (calls event.thread).2.userId) =
          other.before.findUser (.userId (calls event.thread).2.userId)

instance (earlier : Past Thread) (event : Happening Thread) :
    Decidable (StillTrue calls earlier event) := by
  unfold StillTrue
  infer_instance

end Property

variable {world : World}

section Last

variable [DecidableEq Thread] {tid : Thread} {check : Happening Thread → Bool}
  {past since : Past Thread} {event last : Happening Thread}

theorem lastOf_self (own : event.thread = tid) (checked : check event) :
    lastOf tid check (event :: past) = some (event, []) :=
  if_pos ⟨own, checked⟩

theorem lastOf_later (found : lastOf tid check past = some (last, since))
    (other : ¬(event.thread = tid ∧ check event)) :
    lastOf tid check (event :: past) = some (last, event :: since) := by
  rw [lastOf, if_neg other, found]
  rfl

theorem eq_of_unchanged {Value : Type} {machine : Thread → Machine Statement Statement.Answer World}
    {origin : World} (field : World → Value) (records : Records machine origin past world)
    (found : lastOf tid check past = some (last, since))
    (same : field last.after = field last.before)
    (unchanged : ∀ other ∈ since, field other.after = field other.before) :
    field world = field last.before := by
  induction past generalizing world since with
  | nil => exact absurd found (by simp [lastOf])
  | cons newest earlier ih =>
    obtain ⟨rfl, _, records⟩ := records
    rw [lastOf] at found
    split at found
    · obtain ⟨rfl, rfl⟩ := Prod.mk.inj (some.inj found)
      exact same
    · obtain ⟨⟨last', since'⟩, inner, made⟩ := map_eq_some_iff.mp found
      obtain ⟨rfl, rfl⟩ := Prod.mk.inj made
      rw [unchanged _ (.head _)]
      exact ih records inner fun other mem =>
        unchanged other (.tail _ mem)

end Last

/-! ### What a statement does to the users -/

/-- The statement neither writes nor deletes a user. -/
def Statement.KeepsUsers : Statement → Prop
  | .upsertUser _ => False
  | .deleteUser _ => False
  | _ => True

theorem Statement.keepsUsers_or (stmt : Statement) :
    stmt.KeepsUsers ∨ (∃ user, stmt = .upsertUser user) ∨ ∃ userId, stmt = .deleteUser userId := by
  cases stmt with
  | upsertUser user => exact .inr (.inl ⟨user, rfl⟩)
  | deleteUser userId => exact .inr (.inr ⟨userId, rfl⟩)
  | _ => exact .inl trivial

variable {tid : Thread} {env : Env}

theorem machine_users {stmt : Statement} (silent : stmt.KeepsUsers) :
    (machine env tid stmt world).2.users = world.users := by
  unfold machine
  cases env.fate world.moment <;> cases stmt <;> first | rfl | exact silent.elim | skip
  all_goals
    show (world.putGroup env _).2.users = world.users
    unfold World.putGroup
    split <;> rfl

theorem machine_users_of_unknown {user : UserDocument}
    (unknown : world.findUser (.userId user.userId) = none) :
    world.users <+: (machine env tid (.upsertUser user) world).2.users := by
  have performed : world.users <+:
      ((Statement.upsertUser user).perform env world).2.users := by
    show _ <+: (if world.isTaken user then (_, world) else _).2.users
    split
    · exact prefix_rfl
    · show _ <+: (world.putUser env user).2.users
      unfold World.putUser
      rw [unknown]
      exact prefix_append _ _
  unfold machine
  cases env.fate world.moment
  · exact performed
  · exact prefix_rfl
  · exact performed

/-! ### What a registration may do -/

inductive Phase where
  | fresh
  | counted
  | known (user : UserDocument)
  | admitted
  | new
  | saved

/-- A registration makes the requests of its program. -/
def allowsCall (call : Registration) : Phase → Statement → Prop
  | .fresh, .countUsers => True
  | .counted, .findUser lookup => ∃ subject, call.1 = some subject ∧ lookup = .userId subject
  | .known _, .findGroup lookup => lookup = .name administratorGroup
  | .admitted, .findUser lookup => lookup = .userId call.2.userId
  | .new, .consult => True
  | .new, .upsertUser user => user.userId = call.2.userId
  | .saved, .findGroup _ => True
  | .saved, .upsertGroup _ => True
  | _, _ => False

def afterLookup : Phase → Option UserDocument → Phase
  | .counted, some user => .known user
  | .admitted, none => .new
  | phase, _ => phase

def afterCall : Phase → (stmt : Statement) → stmt.Answer → Phase
  | _, .countUsers, answer => if countOf answer ≤ 0 then .admitted else .counted
  | phase, .findUser _, answer => afterLookup phase (orNone answer)
  | .known user, .findGroup _, answer =>
    if (orNone answer).any (fun group => user.userId ∈ group.userIds) then .admitted
    else .known user
  | _, .upsertUser _, _ => .saved
  | phase, _, _ => phase

/-- The discipline of registrations. A session is the registration of a thread and how far it is. -/
def registering : Discipline Statement Statement.Answer (Registration × Phase) where
  allows := fun session stmt => allowsCall session.1 session.2 stmt
  expects := fun _ _ _ => True
  after := fun session stmt answer => (session.1, afterCall session.2 stmt answer)

variable {call : Registration}

theorem joinAdministrators_follows {saved : UserDocument} :
    (joinAdministrators env saved).Follows registering (call, .saved) fun _ _ => True := by
  refine ⟨trivial, fun answer _ => ?_⟩
  have phase : registering.after (call, .saved) (.findGroup (.name administratorGroup)) answer =
      (call, .saved) := rfl
  rw [phase]
  refine ⟨trivial, fun answer _ => ?_⟩
  cases answer <;> exact trivial

theorem createUser_follows {bootstrap : Bool} :
    (createUser env bootstrap call.2).Follows registering (call, .admitted) fun _ _ => True := by
  unfold createUser
  split
  · trivial
  refine ⟨rfl, fun answer _ => ?_⟩
  -- What follows an answer depends only on whether a user was found.
  have written : ((do
      let salt ← issue Statement.consult
      let saved ← upsertUser (registeredAs env salt call.2)
      if bootstrap ∨ call.2.isAdmin then
        joinAdministrators env saved
        return .ok .done
      else return .ok .done : Op Response)).Follows registering (call, .new) fun _ _ => True := by
    refine ⟨trivial, fun salt _ => ⟨rfl, fun answer _ => ?_⟩⟩
    cases answer with
    | error fault => trivial
    | ok saved =>
      show (if bootstrap ∨ call.2.isAdmin then _ else _ : Op Response).Follows _ _ _
      split
      · exact follows_bind.mpr (joinAdministrators_follows.mono fun outcome _ _ =>
          by cases outcome <;> trivial)
      · trivial
  cases answer with
  | error fault => exact written
  | ok found =>
    cases found with
    | none => exact written
    | some user => trivial

theorem administrator_follows (call : Registration) :
    (administrator call.1).Follows registering (call, .counted) fun outcome reached =>
      ∀ user, outcome = .ok (.ok user) → reached = (call, .admitted) := by
  obtain ⟨subject, req⟩ := call
  cases subject with
  | none => exact fun _ same => absurd same (by simp [missingToken])
  | some subject =>
    refine ⟨⟨subject, rfl, rfl⟩, fun answer _ => ?_⟩
    cases answer with
    | error fault => rintro _ ⟨⟩
    | ok found =>
      cases found with
      | none => rintro _ ⟨⟩
      | some user =>
        refine ⟨rfl, fun answer _ => ?_⟩
        have phase : registering.after (registering.after ((some subject, req), .counted)
            (.findUser (.userId subject)) (.ok (some user)))
              (.findGroup (.name administratorGroup)) answer = ((some subject, req),
            if (orNone answer).any (fun group => user.userId ∈ group.userIds)
              then .admitted else .known user) := rfl
        rw [phase]
        dsimp only [bind_done, pure_eq]
        cases (orNone answer).any fun group => user.userId ∈ group.userIds with
        | true => exact fun _ _ => rfl
        | false => rintro _ ⟨⟩

theorem handleRegister_follows :
    (handleRegister env call.1 call.2).Follows registering (call, .fresh) fun _ _ => True := by
  have admits : (admitted call.1).Follows registering (call, .fresh) fun outcome reached =>
      ∀ bootstrap, outcome = .ok (.ok bootstrap) → reached = (call, .admitted) := by
    refine ⟨trivial, fun count _ => ?_⟩
    show (if countOf count ≤ 0 then _ else _ : Op (Except Refusal Bool)).Follows _
      (call, if countOf count ≤ 0 then Phase.admitted else Phase.counted) _
    split
    · exact fun _ _ => rfl
    · refine follows_bind.mpr ((administrator_follows call).mono fun outcome reached known => ?_)
      cases outcome with
      | error fault => exact nofun
      | ok result =>
        cases result with
        | error refusal => exact nofun
        | ok user => exact fun _ _ => known user rfl
  refine follows_bind.mpr (admits.mono ?_)
  rintro outcome reached admitted
  cases outcome with
  | error fault => trivial
  | ok result =>
    cases result with
    | error refusal => trivial
    | ok bootstrap =>
      rw [admitted bootstrap rfl]
      exact createUser_follows

/-! ### What holds after every event -/

theorem eq_of_orNone {Value : Type} {answer : Except StoreError (Option Value)} {value : Value}
    (told : orNone answer = some value) : answer = .ok (some value) := by
  cases answer with
  | error fault => exact absurd told (by simp [orNone])
  | ok found => rw [show found = some value from told]

section Runs

variable [DecidableEq Thread] {env : Env} {calls : Thread → Registration}

/-- A thread was told something, by an event that left the users. -/
def Told (past : Past Thread) (tid : Thread) (check : Happening Thread → Bool) : Prop :=
  ∃ told since, lastOf tid check past = some (told, since) ∧ told.after.users = told.before.users

/-- What a registration knows agrees with what has happened. -/
def Agrees (calls : Thread → Registration) (past : Past Thread) (tid : Thread) : Phase → Prop
  | .fresh => True
  | .counted => True
  | .known user => ∃ subject before after, (calls tid).1 = some subject ∧
      mk tid (.findUser (.userId subject)) (.ok (some user)) before after ∈ past
  | .admitted => Authorized calls past tid ∨ Told past tid saysNobody
  | .new => (Authorized calls past tid ∨ Told past tid saysNobody) ∧ Told past tid saysUnknown
  | .saved => ∃ write ∈ past, write.thread = tid ∧ writesUser write

variable {past : Past Thread} {event : Happening Thread}

omit [DecidableEq Thread] in
theorem Authorized.later
    (authorized : Authorized calls past tid) : Authorized calls (event :: past) tid := by
  obtain ⟨subject, user, group, _, _, _, _, named, mem, found, asked⟩ := authorized
  exact ⟨subject, user, group, _, _, _, _, named, mem, .tail _ found,
    .tail _ asked⟩

theorem Told.later {check : Happening Thread → Bool} (told : Told past tid check)
    (other : ¬(event.thread = tid ∧ check event)) : Told (event :: past) tid check := by
  obtain ⟨last, since, found, same⟩ := told
  exact ⟨last, event :: since, lastOf_later found other, same⟩

theorem Agrees.later {phase : Phase} (agrees : Agrees calls past tid phase)
    (nobody : ¬(event.thread = tid ∧ saysNobody event))
    (unknown : ¬(event.thread = tid ∧ saysUnknown event)) :
    Agrees calls (event :: past) tid phase := by
  cases phase with
  | fresh => exact trivial
  | counted => exact trivial
  | known user =>
    obtain ⟨subject, before, after, named, mem⟩ := agrees
    exact ⟨subject, before, after, named, .tail _ mem⟩
  | admitted => exact agrees.imp Authorized.later fun told => told.later nobody
  | new =>
    exact ⟨agrees.1.imp Authorized.later fun told => told.later nobody, agrees.2.later unknown⟩
  | saved =>
    exact exists_mem_cons_of_exists agrees

/-- Users are only ever added, every event so far keeps to the property, and every registration
agrees with what has happened. -/
structure Sound (calls : Thread → Registration) (past : Past Thread) (world : World)
    (sessions : Thread → Registration × Phase) : Prop where
  admits : AdmitsFirstOnly calls past
  grown : ∀ event ∈ past, event.after.users <+: world.users
  agrees : ∀ tid, Agrees calls past tid (sessions tid).2
  named : ∀ tid, (sessions tid).1 = calls tid

section Step

variable {past : Past Thread} {origin world : World} {sessions : Thread → Registration × Phase}
  {tid : Thread} {stmt : Statement}

omit [DecidableEq Thread] in
theorem made_mem {answer : stmt.Answer} (answered : (machine env tid stmt world).1 = answer) :
    mk tid stmt answer world (machine env tid stmt world).2 ∈
      made (machine env) tid stmt world :: past := by
  rw [← answered]
  exact .head _

section

variable (sound : Sound calls past world sessions)

include sound

variable (allowed : allowsCall (sessions tid).1 (sessions tid).2 stmt)

include allowed in
theorem Sound.own_step :
    Agrees calls (made (machine env) tid stmt world :: past) tid
      (afterCall (sessions tid).2 stmt (machine env tid stmt world).1) := by
  have agrees := sound.agrees tid
  have named := sound.named tid
  generalize sessions tid = session at allowed agrees named ⊢
  obtain ⟨call, phase⟩ := session
  obtain rfl : call = calls tid := named
  cases phase with
  | fresh =>
    cases stmt <;> try exact allowed.elim
    show Agrees _ _ _ (if countOf (machine env tid .countUsers world).1 ≤ 0 then
      Phase.admitted else Phase.counted)
    split
    · rename_i nobody
      exact .inr ⟨_, [], lastOf_self rfl (decide_eq_true nobody), machine_users trivial⟩
    · exact trivial
  | counted =>
    cases stmt <;> try exact allowed.elim
    obtain ⟨subject, is, rfl⟩ := allowed
    show Agrees _ _ _ (afterLookup .counted
      (orNone (machine env tid (.findUser (.userId subject)) world).1))
    cases told : orNone (machine env tid (.findUser (.userId subject)) world).1 with
    | none => exact trivial
    | some user =>
      exact ⟨subject, world, _, is, made_mem (eq_of_orNone told)⟩
  | known user =>
    cases stmt <;> try exact allowed.elim
    obtain rfl := allowed
    obtain ⟨subject, before, after, is, found⟩ := agrees
    show Agrees _ _ _ (if (orNone (machine env tid
      (.findGroup (.name administratorGroup)) world).1).any
        (fun group => user.userId ∈ group.userIds) then Phase.admitted else Phase.known user)
    split
    · rename_i mem
      obtain ⟨group, told, isMember⟩ := (any_eq_true _ _).mp mem
      exact .inl ⟨subject, user, group, before, after, world, _, is, of_decide_eq_true isMember,
        .tail _ found, made_mem (eq_of_orNone told)⟩
    · exact ⟨subject, before, after, is, .tail _ found⟩
  | admitted =>
    cases stmt with
    | findUser lookup =>
      show Agrees _ _ _ (afterLookup .admitted
        (orNone (machine env tid (.findUser lookup) world).1))
      have before : Authorized calls (made (machine env) tid (.findUser lookup)
          world :: past) tid ∨ Told (made (machine env) tid (.findUser lookup)
          world :: past) tid saysNobody :=
        agrees.imp Authorized.later fun told => told.later fun both => Bool.false_ne_true both.2
      cases told : orNone (machine env tid (.findUser lookup) world).1 with
      | none =>
        exact ⟨before, _, [], lastOf_self rfl (isNone_iff_eq_none.mpr told),
          machine_users trivial⟩
      | some user => exact before
    | _ => exact allowed.elim
  | new =>
    cases stmt <;> try exact allowed.elim
    · exact ⟨_, .head _, rfl, rfl⟩
    · exact Agrees.later agrees (fun both => Bool.false_ne_true both.2)
        fun both => Bool.false_ne_true both.2
  | saved =>
    obtain ⟨write, mem, own, writes⟩ := agrees
    have kept : Agrees calls (made (machine env) tid stmt world :: past)
        tid .saved := ⟨write, .tail _ mem, own, writes⟩
    cases stmt <;> first | exact allowed.elim | exact kept

include allowed in
theorem Sound.writing (writes : writesUser (made (machine env) tid stmt world)) :
    (Authorized calls past tid ∨ Told past tid saysNobody) ∧ Told past tid saysUnknown ∧
      ∃ user, stmt = .upsertUser user ∧ user.userId = (calls tid).2.userId := by
  have agrees := sound.agrees tid
  rw [sound.named tid] at allowed
  cases stmt with
  | upsertUser user =>
    generalize (sessions tid).2 = phase at agrees allowed
    cases phase with
    | new => exact ⟨agrees.1, agrees.2, user, rfl, allowed⟩
    | _ => exact allowed.elim
  | _ => nomatch writes

variable (records : Records (machine env) origin past world)

include records

theorem Sound.users_step (allowed : allowsCall (sessions tid).1 (sessions tid).2 stmt)
    (still : StillTrue calls past (made (machine env) tid stmt world))
    (writes : writesUser (made (machine env) tid stmt world)) :
    Authorized calls past tid ∨ world.users = [] := by
  refine (sound.writing allowed writes).1.imp_right ?_
  rintro ⟨told, since, found, same⟩
  obtain ⟨nobody, unchanged⟩ := (still writes).1 _ found
  exact (eq_of_unchanged World.users records found same unchanged).trans nobody

theorem Sound.kept_step (allowed : allowsCall (sessions tid).1 (sessions tid).2 stmt)
    (still : StillTrue calls past (made (machine env) tid stmt world)) :
    world.users <+: (machine env tid stmt world).2.users := by
  rcases stmt.keepsUsers_or with silent | ⟨user, rfl⟩ | ⟨userId, rfl⟩
  · rw [machine_users silent]
  · have writes : writesUser (made (machine env) tid (.upsertUser user) world) := rfl
    obtain ⟨_, ⟨told, since, found, same⟩, _, ⟨⟩, id⟩ := sound.writing allowed writes
    obtain ⟨unknown, unchanged⟩ := (still rfl).2 _ found
    refine machine_users_of_unknown ?_
    have looked : told.after.findUser (.userId (calls tid).2.userId) =
        told.before.findUser (.userId (calls tid).2.userId) := by
      unfold World.findUser
      rw [same]
    rw [id]
    exact (eq_of_unchanged (fun world => world.findUser (.userId (calls tid).2.userId)) records
      found looked unchanged).trans unknown
  · cases phase : (sessions tid).2 <;> rw [phase] at allowed <;> exact allowed.elim

theorem Sound.once_step (allowed : allowsCall (sessions tid).1 (sessions tid).2 stmt)
    (still : StillTrue calls past (made (machine env) tid stmt world))
    (creates : (machine env tid stmt world).2.users ≠ world.users)
    (unauthorized : ¬Authorized calls past tid) : ∀ other ∈ past, other.after.users = [] := by
  have writes : writesUser (made (machine env) tid stmt world) := by
    rcases stmt.keepsUsers_or with silent | ⟨user, rfl⟩ | ⟨userId, rfl⟩
    · exact absurd (machine_users silent) creates
    · rfl
    · cases phase : (sessions tid).2 <;> rw [phase] at allowed <;> exact allowed.elim
  have empty := (sound.users_step records allowed still writes).resolve_left unauthorized
  intro other mem
  exact prefix_nil.mp (empty ▸ sound.grown other mem)

omit records

include allowed in
theorem Sound.groups_step (writes : writesGroup (made (machine env) tid stmt world)) :
    ∃ write ∈ past, write.thread = tid ∧ writesUser write := by
  have agrees := sound.agrees tid
  cases stmt with
  | upsertGroup group =>
    generalize (sessions tid).2 = phase at agrees allowed
    cases phase with
    | saved => exact agrees
    | _ => exact allowed.elim
  | _ => nomatch writes

end

end Step

theorem sound_of_governed {origin : World}
    (governed : registering.Governs (machine env) (fun tid => (calls tid, .fresh))
      origin past world) (still : Meets (StillTrue calls) past) :
    Sound calls past world (registering.sessions (fun tid => (calls tid, .fresh)) past) := by
  induction governed with
  | start =>
    refine ⟨⟨trivial, trivial, trivial, nofun⟩,
      nofun, fun _ => trivial, fun _ => rfl⟩
  | @step past world governed tid stmt allowed ih =>
    have sound := ih still.2
    have records := governed.records
    have kept := sound.kept_step records allowed still.1
    refine ⟨⟨⟨sound.users_step records allowed still.1, sound.admits.users⟩,
      ⟨sound.groups_step allowed, sound.admits.groups⟩,
      ⟨sound.once_step records allowed still.1, sound.admits.once⟩,
      forall_mem_cons.mpr ⟨kept, sound.admits.kept⟩⟩, ?_, fun other => ?_, fun other => ?_⟩
    · refine forall_mem_cons.mpr ⟨prefix_rfl, fun event mem => ?_⟩
      exact (sound.grown event mem).trans kept
    · rw [sessions_cons]
      split
      · rename_i same
        rw [same]
        exact sound.own_step allowed
      · rename_i different
        have apart : ∀ check : Happening Thread → Bool,
            ¬((made (machine env) tid stmt world).thread = other ∧
              check (made (machine env) tid stmt world)) :=
          fun _ both => different both.1.symm
        exact (sound.agrees other).later (apart _) (apart _)
    · rw [sessions_cons]
      split
      · exact sound.named other
      · exact sound.named other

end Runs

/-! ### Runs -/

/-- Every thread makes its registration, one request after the other as the schedule lets it. -/
def registerAll [DecidableEq Thread] (env : Env) (world : World)
    (calls : Thread → Registration) (schedule : List Thread) :
    Pool Thread Statement Statement.Answer StoreError Response World :=
  (Pool.start world fun tid =>
    handleRegister env (calls tid).1 (calls tid).2).run (machine env) schedule

/-- However registrations are interleaved, and whichever of their statements fail: if what each was
told is true and still is when it writes a user, then whoever writes a user has shown the credential
of an administrator, or writes the first; and no user is written over. -/
theorem registers_first_only [DecidableEq Thread] (env : Env) (world : World)
    (calls : Thread → Registration) (schedule : List Thread)
    (still : Meets (StillTrue calls) (registerAll env world calls schedule).history) :
    AdmitsFirstOnly calls (registerAll env world calls schedule).history := by
  obtain ⟨governed, _⟩ := governs_run registering (machine env)
    (fun tid => (calls tid, .fresh)) _ world _
    (fun tid => handleRegister_follows)
    (fun _ _ _ _ _ _ => trivial) schedule
  exact (sound_of_governed governed still).admits

/-- Two people register at a new installation. -/
def twoRegister : ℕ → Registration
  | 0 => (none, ⟨"ann", "secret", "ann@acme.example", "acme", "eu", false⟩)
  | _ => (none, ⟨"bob", "secret", "bob@acme.example", "acme", "eu", false⟩)

/-- One after the other, only the first comes in. -/
theorem one_after_the_other :
    AdmitsFirstOnly twoRegister (registerAll Env.plain ⟨[], [], 0⟩ twoRegister
      [0, 0, 0, 0, 0, 0, 1, 1]).history :=
  registers_first_only Env.plain ⟨[], [], 0⟩ twoRegister [0, 0, 0, 0, 0, 0, 1, 1]
    (by decide)

/-- Both are counted before either is written, and the second writes into a store that has a
user. -/
theorem both_counted_nobody :
    ¬AdmitsFirstOnly twoRegister (registerAll Env.plain ⟨[], [], 0⟩ twoRegister
      [0, 1, 0, 0, 0, 1, 1, 1]).history := by
  intro admits
  rcases admits.users.1 (by decide) with authorized | empty
  · obtain ⟨subject, _, _, _, _, _, _, named, _⟩ := authorized
    exact absurd named (some_ne_none subject).symm
  · exact absurd empty (by decide)

end Euclid.Eam.Store
