/-
This file proves when an assertion logs in once.

A user remembers the assertions that were used, and a request that carries one checks the memory and
writes the whole user back. While the request is under way others may use the assertion too, and
others may write back a memory without it, or delete the user, or prune it while the assertion is
still good. Where an acceptance still holds when it is written, and an assertion is only forgotten
when it has expired and nobody carries it on, the memory is there for as long as it is needed.
-/

import Mathlib.Data.Fintype.Basic
import Euclid.Eam.Handlers

namespace Euclid.Eam.Store

namespace Replay

open Program Discipline Option

variable {Thread : Type}

/-! ### How far a request is -/

/-- How far a request that carries an assertion is. -/
inductive Phase where
  | fresh
  | verified
  | resolved (user : UserDocument)
  | checked
  | accepted
  | past
  deriving DecidableEq

/-- The request has verified its assertion, and may still accept it. -/
def Phase.isUnderWay : Phase → Bool
  | .verified => true
  | .resolved _ => true
  | .checked => true
  | _ => false

def carried : Call → Option Assertion
  | .samlAcs assertion => some assertion
  | _ => none

section Steps

variable (env : Env) (assertion : Assertion)

def afterClock : Phase → ℕ → Phase
  | .fresh, moment =>
    if assertion.problem env.clockSkew (env.clock moment) = none then .verified
    else .past
  | .resolved user, _ => if user.hasSeen assertion.id then .past else .checked
  | phase, _ => phase

def afterLookup : UserLookup → Option UserDocument → Phase
  | .federatedSubject .., some user => .resolved user
  | .userId _, some _ => if env.saml.linkExistingUsers then .verified else .past
  | .userId _, none => if env.saml.jitProvisioning then .verified else .past
  | _, _ => .verified

def afterWrite (user : UserDocument) : Phase → Bool → Phase
  | .verified, true => .resolved user
  | .resolved _, true => .resolved user
  | .checked, true => .accepted
  | .accepted, _ => .accepted
  | _, _ => .past

/-- A statement was carried out, and said so. -/
def succeeded {Value : Type} : Except StoreError Value → Bool
  | .ok _ => true
  | .error _ => false

def afterAnswer : Phase → (stmt : Statement) → stmt.Answer → Phase
  | phase, .consult, moment => afterClock env assertion phase moment
  | .verified, .findUser lookup, answer => afterLookup env lookup (orNone answer)
  | phase, .upsertUser user, answer => afterWrite user phase (succeeded answer)
  | phase, _, _ => phase

end Steps

/-- The discipline of requests: what is written of an acceptance remembers the assertion. A session
is the request of a thread and how far it is. -/
def accepting (env : Env) : Discipline Statement Statement.Answer (Call × Phase) where
  allows := fun session stmt => ∀ assertion ∈ carried session.1, assertion.id ≠ "" →
    ∀ user, session.2 = .checked → stmt = .upsertUser user → user.hasSeen assertion.id
  expects := fun _ stmt answer =>
    match stmt, answer with
    | .upsertUser user, .ok saved => saved.seenAssertions = user.seenAssertions
    | _, _ => True
  after := fun session stmt answer => (session.1,
    match carried session.1 with
    | some assertion => afterAnswer env assertion session.2 stmt answer
    | none => session.2)

section Property

variable [DecidableEq Thread] (env : Env) (calls : Thread → Call)

/-- How far the request of a thread is, after what has happened. -/
def progress (past : Past Thread) (tid : Thread) : Phase :=
  ((accepting env).sessions (fun tid => (calls tid, .fresh)) past tid).2

def Remembers (world : World) (assertionId : String) : Prop :=
  ∃ user ∈ world.users, user.hasSeen assertionId

instance (world : World) (assertionId : String) : Decidable (Remembers world assertionId) := by
  unfold Remembers
  infer_instance

def Expired (assertion : Assertion) (now : Int) : Prop :=
  HasPassed env.clockSkew now assertion.notOnOrAfter ∨
    ∃ limit ∈ assertion.confirmations, HasPassed env.clockSkew now limit

instance (assertion : Assertion) (now : Int) : Decidable (Expired env assertion now) := by
  unfold Expired
  infer_instance

/-- Who writes that an assertion is accepted finds nobody who remembers it; and when an assertion is
forgotten, it has expired, and no request that carries it is under way. -/
def KeepsMemory (earlier : Past Thread) (event : Happening Thread) : Prop :=
  ∀ tid, ∀ assertion ∈ carried (calls tid),
    (event.thread = tid → writesUser event →
      progress env calls earlier tid = .checked → ¬Remembers event.before assertion.id) ∧
    (Remembers event.before assertion.id → ¬Remembers event.after assertion.id →
      Expired env assertion (env.clock event.before.moment) ∧
        ¬(progress env calls earlier tid).isUnderWay)

instance [Fintype Thread] (earlier : Past Thread) (event : Happening Thread) :
    Decidable (KeepsMemory env calls earlier event) := by
  unfold KeepsMemory
  infer_instance

end Property

/-! ### What a request does -/

variable {phase : Phase}

section Follows

variable {env : Env} {assertion : Assertion}

theorem follows_freely {Result : Type} {program : Op Result} {session : Call × Phase}
    (free : ∀ assertion ∈ carried session.1, assertion.id = "") :
    program.Follows (accepting env) session fun _ reached => reached.1 = session.1 := by
  induction program generalizing session with
  | done result => rfl
  | raise fault => rfl
  | ask stmt next ih =>
    exact ⟨fun assertion carried named => absurd (free assertion carried) named,
      fun answer _ => ih answer free⟩

/-- A session that is issued follows an acceptance. -/
def endsAccepted (outcome : Except StoreError Response) (reached : Call × Phase) : Prop :=
  ∀ userId accessKeyId, outcome = .ok (.ok (.session userId accessKeyId)) → reached.2 = .accepted

theorem accepted_stays {Result : Type} {program : Op Result} :
    program.Follows (accepting env) (.samlAcs assertion, .accepted)
      fun _ reached => reached = (.samlAcs assertion, .accepted) := by
  induction program with
  | done result => rfl
  | raise fault => rfl
  | ask stmt next ih =>
    refine ⟨nofun, fun answer _ => ?_⟩
    have stays : (accepting env).after (.samlAcs assertion, .accepted) stmt answer =
        (.samlAcs assertion, .accepted) := by
      cases stmt <;> rfl
    rw [stays]
    exact ih answer

theorem upsertUser_follows (user : UserDocument)
    (resolving : phase = .verified ∨ ∃ before, phase = .resolved before) :
    (upsertUser user).Follows (accepting env) (.samlAcs assertion, phase)
      fun outcome reached => ∀ saved, outcome = .ok saved →
        saved.seenAssertions = user.seenAssertions ∧
          reached = (.samlAcs assertion, .resolved user) := by
  refine ⟨fun _ _ _ _ checked => ?_, fun answer expected => ?_⟩
  · rcases resolving with rfl | ⟨before, rfl⟩ <;> exact absurd checked (by simp)
  · cases answer with
    | error fault => exact nofun
    | ok saved =>
      rintro _ ⟨⟩
      refine ⟨expected, ?_⟩
      rcases resolving with rfl | ⟨before, rfl⟩ <;> rfl

/-- A user that is resolved remembers what the request has seen of them. -/
def endsResolved (assertion : Assertion) (outcome : Except StoreError (Except Refusal UserDocument))
    (reached : Call × Phase) : Prop :=
  ∀ user, outcome = .ok (.ok user) → ∃ seen : UserDocument,
    reached = (.samlAcs assertion, .resolved seen) ∧ seen.seenAssertions = user.seenAssertions

theorem findUserByFederatedSubject_follows (provider subject : String) :
    (findUserByFederatedSubject provider subject).Follows (accepting env)
      (.samlAcs assertion, .verified) fun outcome reached => ∀ found, outcome = .ok found →
        reached = (.samlAcs assertion, (found.map Phase.resolved).getD .verified) := by
  unfold findUserByFederatedSubject
  split
  · rintro _ ⟨⟩
    rfl
  · refine ⟨nofun, fun answer _ => ?_⟩
    rintro found ⟨⟩
    show (_, afterLookup env (.federatedSubject provider subject) (orNone answer)) = _
    cases orNone answer <;> rfl

theorem findUserByUserId_follows {userId : String} :
    (findUserByUserId userId).Follows (accepting env) (.samlAcs assertion, .verified)
      fun outcome reached => ∀ found, outcome = .ok found →
        reached = (.samlAcs assertion, afterLookup env (.userId userId) found) := by
  refine ⟨nofun, fun answer _ => ?_⟩
  rintro found ⟨⟩
  rfl

theorem written_follows (user : UserDocument)
    (resolving : phase = .verified ∨ ∃ before, phase = .resolved before) :
    (do
      let _ ← upsertUser user
      return .ok user : Op (Except Refusal UserDocument)).Follows (accepting env)
        (.samlAcs assertion, phase) (endsResolved assertion) := by
  refine follows_bind.mpr ((upsertUser_follows user resolving).mono fun outcome reached ends => ?_)
  cases outcome with
  | error fault => exact nofun
  | ok saved =>
    rintro _ ⟨⟩
    exact ⟨user, (ends saved rfl).2, rfl⟩

theorem resolveFederatedUser_follows :
    (resolveFederatedUser env assertion.identity env.saml).Follows
      (accepting env) (.samlAcs assertion, .verified) (endsResolved assertion) := by
  refine follows_bind.mpr ((findUserByFederatedSubject_follows _ _).mono
    fun outcome reached found => ?_)
  cases outcome with
  | error fault => exact nofun
  | ok existing =>
    rw [found existing rfl]
    cases existing with
    | some existing =>
      dsimp only [Option.map, Option.getD]
      split
      · exact written_follows _ (.inr ⟨existing, rfl⟩)
      · rintro _ ⟨⟩
        exact ⟨existing, rfl, rfl⟩
    | none =>
      refine follows_bind.mpr (findUserByUserId_follows.mono fun outcome reached named => ?_)
      cases outcome with
      | error fault => exact nofun
      | ok sameName =>
        rw [named sameName rfl]
        cases sameName with
        | some sameName =>
          dsimp only [afterLookup]
          split
          · exact written_follows _ (.inl rfl)
          · exact nofun
        | none =>
          dsimp only [afterLookup]
          split
          · refine follows_bind.mpr ((upsertUser_follows _ (.inl rfl)).mono
              fun outcome reached ends => ?_)
            cases outcome with
            | error fault => exact nofun
            | ok saved =>
              rintro _ ⟨⟩
              obtain ⟨seen, reached⟩ := ends saved rfl
              exact ⟨_, reached, seen.symm⟩
          · exact nofun

theorem issueSession_follows (user : UserDocument) :
    (issueSession env user).Follows (accepting env) (.samlAcs assertion, .accepted) endsAccepted :=
  accepted_stays.mono fun _ _ reached _ _ _ => by rw [reached]

theorem hasSeen_remembering {user : UserDocument} {now : Int} {seen : SeenAssertion} :
    (user.remembering now seen).hasSeen seen.assertionId := by
  refine List.any_eq_true.mpr ⟨seen, List.mem_append_right _ (.head _), ?_⟩
  exact decide_eq_true rfl

theorem acceptance_follows (named : assertion.id ≠ "") {user seen : UserDocument} {verified : Int}
    (memory : seen.seenAssertions = user.seenAssertions) :
    (do
      match ← acceptAssertionOnce env user assertion verified with
      | none =>
        return .error (.unauthorized, "SAML login failed: this assertion has already been used")
      | some accepted =>
        let _ ← upsertUser accepted
        issueSession env accepted : Op Response).Follows (accepting env)
          (.samlAcs assertion, .resolved seen) endsAccepted := by
  have same : seen.hasSeen assertion.id = user.hasSeen assertion.id := by
    unfold UserDocument.hasSeen
    rw [memory]
  unfold acceptAssertionOnce
  rw [if_neg named]
  refine ⟨nofun, fun moment _ => ?_⟩
  show Follows _ _ (Call.samlAcs assertion,
    if seen.hasSeen assertion.id then Phase.past else Phase.checked) _
  rw [same]
  cases used : user.hasSeen assertion.id with
  | true =>
    exact nofun
  | false =>
    refine ⟨?_, fun answer _ => ?_⟩
    · rintro _ ⟨⟩ _ _ _ ⟨⟩
      exact hasSeen_remembering
    · cases answer with
      | error fault => exact nofun
      | ok saved => exact issueSession_follows _

theorem handleSamlAcs_follows (named : assertion.id ≠ "") :
    (handleSamlAcs env assertion).Follows (accepting env)
      (.samlAcs assertion, .fresh) endsAccepted := by
  refine ⟨by rintro _ _ _ _ ⟨⟩, fun moment _ => ?_⟩
  have phase : (accepting env).after (.samlAcs assertion, .fresh) .consult moment =
      (.samlAcs assertion, if assertion.problem env.clockSkew (env.clock moment) = none
        then .verified else .past) := rfl
  rw [phase]
  dsimp only [bind_done, pure_eq]
  cases assertion.problem env.clockSkew (env.clock moment) with
  | some problem => rintro _ _ ⟨⟩
  | none =>
    rw [if_pos rfl]
    refine follows_bind.mpr (resolveFederatedUser_follows.mono fun outcome reached resolved => ?_)
    cases outcome with
    | error fault => rintro _ _ ⟨⟩
    | ok result =>
      cases result with
      | error refusal => rintro _ _ ⟨⟩
      | ok user =>
        obtain ⟨seen, rfl, memory⟩ := resolved user rfl
        exact acceptance_follows named memory

end Follows

/-! ### What the store does -/

variable {assertion : Assertion} {tid : Thread} {world : World}

section Machine

variable {env : Env} {tid : Thread} {world : World} {user saved : UserDocument}

theorem putUser_saved (env : Env) (world : World) (user : UserDocument) :
    (world.putUser env user).1.seenAssertions = user.seenAssertions ∧
      (world.putUser env user).1 ∈ (world.putUser env user).2.users := by
  unfold World.putUser
  cases found : world.findUser (.userId user.userId) with
  | none => exact ⟨rfl, List.mem_append_right _ (.head _)⟩
  | some old => exact ⟨rfl, Collection.mem_updateFirst_self _ found⟩

theorem machine_upsertUser (answered : (machine env tid (.upsertUser user) world).1 = .ok saved) :
    saved.seenAssertions = user.seenAssertions ∧
      saved ∈ (machine env tid (.upsertUser user) world).2.users := by
  unfold machine at *
  cases fate : env.fate world.moment with
  | carriedOut =>
    rw [fate] at answered
    dsimp only [Statement.perform] at answered ⊢
    split at answered
    · nomatch answered
    · rename_i free
      rw [if_neg free]
      obtain rfl := Except.ok.inj answered
      exact putUser_saved env world user
  | failed =>
    rw [fate] at answered
    exact absurd answered (by simp [Statement.failure])
  | unanswered =>
    rw [fate] at answered
    exact absurd answered (by simp [Statement.failure])

theorem machine_consult : (machine env tid .consult world).1 = world.moment := by
  unfold machine
  cases env.fate world.moment <;> rfl

theorem machine_moment (stmt : Statement) :
    (machine env tid stmt world).2.moment = world.moment + 1 := by
  have performed : (stmt.perform env world).2.moment = world.moment := by
    cases stmt with
    | upsertUser user =>
      show (if world.isTaken user then (_, world) else _).2.moment = _
      split
      · rfl
      · show (world.putUser env user).2.moment = _
        unfold World.putUser
        split <;> rfl
    | upsertGroup group =>
      show (world.putGroup env group).2.moment = _
      unfold World.putGroup
      split <;> rfl
    | _ => rfl
  unfold machine
  cases env.fate world.moment
  · exact congrArg (· + 1) performed
  · rfl
  · exact congrArg (· + 1) performed

theorem Expired.mono {now later : Int}
    (expired : Expired env assertion now) (before : now ≤ later) : Expired env assertion later := by
  have passed : ∀ limit, HasPassed env.clockSkew now limit →
      HasPassed env.clockSkew later limit := by
    rintro limit ⟨ending, is, passed⟩
    exact ⟨ending, is, passed.trans (Int.sub_le_sub_right before _)⟩
  refine expired.imp (passed _) ?_
  rintro ⟨limit, mem, has⟩
  exact ⟨limit, mem, passed limit has⟩

theorem Expired.problem_ne_none {now : Int} (expired : Expired env assertion now) :
    assertion.problem env.clockSkew now ≠ none := by
  unfold Assertion.problem
  split
  · exact some_ne_none _
  split
  · exact some_ne_none _
  · rename_i lives
    rw [if_pos (expired.resolve_left lives)]
    exact some_ne_none _

variable {stmt : Statement}

theorem underWay_of_after (underWay : (afterAnswer env assertion phase stmt
      (machine env tid stmt world).1).isUnderWay) :
    phase.isUnderWay ∨ assertion.problem env.clockSkew (env.clock world.moment) = none := by
  cases phase with
  | verified => exact .inl rfl
  | resolved user => exact .inl rfl
  | checked => exact .inl rfl
  | fresh =>
    cases stmt with
    | consult =>
      refine .inr ?_
      replace underWay : (afterClock env assertion .fresh
        (machine env tid .consult world).1).isUnderWay := underWay
      rw [machine_consult, afterClock] at underWay
      split at underWay
      · assumption
      · nomatch underWay
    | _ => nomatch underWay
  | accepted => cases stmt <;> nomatch underWay
  | past => cases stmt <;> nomatch underWay

theorem eq_of_afterClock {moment : ℕ}
    (accepts : afterClock env assertion phase moment = .accepted) : phase = .accepted := by
  cases phase with
  | fresh =>
    rw [afterClock] at accepts
    split at accepts <;> exact absurd accepts (by simp)
  | resolved user =>
    rw [afterClock] at accepts
    split at accepts <;> exact absurd accepts (by simp)
  | _ => exact accepts

theorem accepted_of_after (accepts : afterAnswer env assertion phase stmt
      (machine env tid stmt world).1 = .accepted) :
    phase = .accepted ∨ phase = .checked ∧ ∃ user saved, stmt = .upsertUser user ∧
      (machine env tid (.upsertUser user) world).1 = .ok saved := by
  cases stmt with
  | consult =>
    exact .inl (eq_of_afterClock accepts)
  | findUser lookup =>
    cases phase with
    | verified =>
      replace accepts : afterLookup env lookup (orNone
        (machine env tid (.findUser lookup) world).1) = .accepted := accepts
      unfold afterLookup at accepts
      split at accepts
      · nomatch accepts
      · split at accepts <;> exact absurd accepts (by simp)
      · split at accepts <;> exact absurd accepts (by simp)
      · nomatch accepts
    | _ => exact .inl accepts
  | upsertUser user =>
    replace accepts : afterWrite user phase
      (succeeded (machine env tid (.upsertUser user) world).1) = .accepted := accepts
    cases answer : (machine env tid (.upsertUser user) world).1 with
    | error fault =>
      rw [answer] at accepts
      cases phase with
      | accepted => exact .inl rfl
      | _ => exact absurd accepts (by simp [afterWrite, succeeded])
    | ok saved =>
      rw [answer] at accepts
      cases phase with
      | accepted => exact .inl rfl
      | checked => exact .inr ⟨rfl, user, saved, rfl, answer⟩
      | _ => exact absurd accepts (by simp [afterWrite, succeeded])
  | _ => exact .inl accepts

end Machine

/-! ### What holds after every event -/

section Runs

variable [DecidableEq Thread] {env : Env} {calls : Thread → Call}

/-- The provider gives every assertion a name of its own. -/
def Distinct (calls : Thread → Call) : Prop :=
  ∀ first second, ∀ assertion ∈ carried (calls first), ∀ other ∈ carried (calls second),
    assertion.id = other.id → assertion = other

/-- An assertion has expired, and nobody who carries it is under way. -/
def Lapsed (env : Env) (calls : Thread → Call) (past : Past Thread) (world : World)
    (assertion : Assertion) : Prop :=
  Expired env assertion (env.clock world.moment) ∧
    ∀ tid, assertion ∈ carried (calls tid) → ¬(progress env calls past tid).isUnderWay

/-- An assertion that was accepted is remembered for as long as it is needed, and was accepted
once. -/
structure Sound (env : Env) (calls : Thread → Call) (past : Past Thread)
    (world : World) : Prop where
  remembered : ∀ tid, ∀ assertion ∈ carried (calls tid), assertion.id ≠ "" →
    progress env calls past tid = .accepted →
      Remembers world assertion.id ∨ Lapsed env calls past world assertion
  once : ∀ first second assertion, assertion ∈ carried (calls first) →
    assertion ∈ carried (calls second) → assertion.id ≠ "" →
      progress env calls past first = .accepted →
        progress env calls past second = .accepted → first = second

theorem session_call (past : Past Thread) (tid : Thread) :
    ((accepting env).sessions (fun tid => (calls tid, Phase.fresh)) past tid).1 = calls tid := by
  induction past with
  | nil => rfl
  | cons event earlier ih =>
    rw [sessions_cons]
    split
    · exact ih
    · exact ih

variable {past : Past Thread}

theorem progress_cons {event : Happening Thread} (carries : assertion ∈ carried (calls tid)) :
    progress env calls (event :: past) tid =
      if tid = event.thread then
        afterAnswer env assertion (progress env calls past tid) event.request event.answer
      else progress env calls past tid := by
  unfold progress
  rw [sessions_cons]
  split
  · show (match carried ((accepting env).sessions _ past tid).1 with
      | some assertion => _
      | none => _ : Phase) = _
    rw [session_call, show carried (calls tid) = some assertion from carries]
  · rfl

section Step

variable {past : Past Thread} {world : World} {tid : Thread} {stmt : Statement}

theorem Lapsed.later (lapsed : Lapsed env calls past world assertion) :
    Lapsed env calls (Event.made (machine env) tid stmt world :: past)
      (machine env tid stmt world).2 assertion := by
  obtain ⟨expired, nobody⟩ := lapsed
  refine ⟨expired.mono ?_, fun other carries underWay => ?_⟩
  · rw [machine_moment]
    exact env.steady (Nat.le_succ _)
  · rw [progress_cons carries] at underWay
    split at underWay
    · rcases underWay_of_after underWay with before | verified
      · exact nobody other carries before
      · exact expired.problem_ne_none verified
    · exact nobody other carries underWay

variable (sound : Sound env calls past world)
  (keeps : KeepsMemory env calls past (Event.made (machine env) tid stmt world))

include keeps in
include sound in
theorem Sound.remembered_later {first : Thread}
    (carries : assertion ∈ carried (calls first)) (named : assertion.id ≠ "")
    (accepted : progress env calls past first = .accepted) :
    Remembers (machine env tid stmt world).2 assertion.id ∨
      Lapsed env calls (Event.made (machine env) tid stmt world :: past)
        (machine env tid stmt world).2 assertion := by
  rcases sound.remembered first assertion carries named accepted with remembers | lapsed
  · by_cases still : Remembers (machine env tid stmt world).2 assertion.id
    · exact .inl still
    · refine .inr (Lapsed.later ⟨((keeps first assertion carries).2 remembers still).1,
        fun other carries' => ?_⟩)
      exact ((keeps other assertion carries').2 remembers still).2
  · exact .inr lapsed.later

variable (allowed : (accepting env).allows
  ((accepting env).sessions (fun tid => (calls tid, Phase.fresh)) past tid) stmt)

include allowed keeps sound

theorem Sound.accepting_step (carries : assertion ∈ carried (calls tid)) (named : assertion.id ≠ "")
    (checked : progress env calls past tid = .checked) {user saved : UserDocument}
    (writes : stmt = .upsertUser user)
    (answered : (machine env tid (.upsertUser user) world).1 = .ok saved) :
    Remembers (machine env tid stmt world).2 assertion.id ∧
      ∀ other, assertion ∈ carried (calls other) → progress env calls past other ≠ .accepted := by
  subst writes
  refine ⟨?_, fun other carries' accepted => ?_⟩
  · obtain ⟨memory, there⟩ := machine_upsertUser answered
    have seen : user.hasSeen assertion.id :=
      allowed assertion (by rw [session_call]; exact carries) named user checked rfl
    refine ⟨saved, there, ?_⟩
    unfold UserDocument.hasSeen at seen ⊢
    rw [memory]
    exact seen
  · rcases sound.remembered other assertion carries' named accepted with remembers | lapsed
    · exact (keeps tid assertion carries).1 rfl rfl checked remembers
    · exact lapsed.2 tid carries (by rw [checked]; rfl)

theorem Sound.step :
    Sound env calls (Event.made (machine env) tid stmt world :: past)
      (machine env tid stmt world).2 := by
  -- Who has accepted after the event had so before, or is the thread of the event and accepts now.
  have either : ∀ other assertion, assertion ∈ carried (calls other) → assertion.id ≠ "" →
      progress env calls (Event.made (machine env) tid stmt world :: past) other = .accepted →
      progress env calls past other = .accepted ∨ other = tid ∧
        Remembers (machine env tid stmt world).2 assertion.id ∧
          ∀ third, assertion ∈ carried (calls third) →
            progress env calls past third ≠ .accepted := by
    intro other assertion carries named accepted
    rw [progress_cons carries] at accepted
    split at accepted
    · rename_i same
      obtain rfl : other = tid := same
      rcases accepted_of_after accepted with before | ⟨checked, user, saved, writes, answered⟩
      · exact .inl before
      · exact .inr ⟨rfl, sound.accepting_step keeps allowed carries named checked writes answered⟩
    · exact .inl accepted
  refine ⟨fun other assertion carries named accepted => ?_,
    fun first second assertion carries carries' named accepted accepted' => ?_⟩
  · rcases either other assertion carries named accepted with before | ⟨_, remembers, _⟩
    · exact sound.remembered_later keeps carries named before
    · exact .inl remembers
  · rcases either first assertion carries named accepted with before | ⟨rfl, _, alone⟩
    · rcases either second assertion carries' named accepted' with also | ⟨rfl, _, alone⟩
      · exact sound.once first second assertion carries carries' named before also
      · exact absurd before (alone first carries)
    · rcases either second assertion carries' named accepted' with also | ⟨rfl, _, _⟩
      · exact absurd also (alone second carries')
      · rfl

end Step

theorem sound_of_governed {origin : World}
    (governed : (accepting env).Governs (machine env)
      (fun tid => (calls tid, Phase.fresh)) origin past world)
    (keeps : History.Meets (KeepsMemory env calls) past) : Sound env calls past world := by
  induction governed with
  | start =>
    exact ⟨fun _ _ _ _ accepted => absurd accepted (by simp [progress, sessions]),
      fun _ _ _ _ _ _ accepted => absurd accepted (by simp [progress, sessions])⟩
  | step governed tid stmt allowed ih =>
    exact (ih keeps.2).step keeps.1 allowed

/-! ### Runs -/

def isSession : Response → Bool
  | .ok (.session _ _) => true
  | _ => false

def Issued (pool : Pool Thread Statement Statement.Answer StoreError Response World)
    (tid : Thread) : Prop :=
  (pool.programs tid).returns isSession

theorem call_follows (env : Env) (call : Call) :
    (call.program env).Follows (accepting env) (call, Phase.fresh)
      fun outcome reached => (∃ assertion ∈ carried call, assertion.id ≠ "") →
        endsAccepted outcome reached := by
  by_cases free : ∀ assertion ∈ carried call, assertion.id = ""
  · refine (follows_freely free).mono fun _ _ _ carries => ?_
    obtain ⟨assertion, mem, named⟩ := carries
    exact absurd (free assertion mem) named
  · cases call with
    | samlAcs assertion =>
      have named : assertion.id ≠ "" := fun unnamed => free (by rintro _ ⟨⟩; exact unnamed)
      exact (handleSamlAcs_follows named).mono fun _ _ ends _ => ends
    | _ => exact absurd (fun _ mem => absurd mem (by simp [carried])) free

omit [DecidableEq Thread] in
theorem machine_expects (env : Env) (tid : Thread) (session : Call × Phase)
    (stmt : Statement) (world : World) :
    (accepting env).expects session stmt (machine env tid stmt world).1 := by
  cases stmt with
  | upsertUser user =>
    show match Statement.upsertUser user, (machine env tid (.upsertUser user) world).1 with
      | .upsertUser user, .ok saved => saved.seenAssertions = user.seenAssertions
      | _, _ => True
    cases answer : (machine env tid (.upsertUser user) world).1 with
    | ok saved => exact (machine_upsertUser answer).1
    | error fault => exact trivial
  | _ => exact trivial

theorem accepted_of_issued {schedule : List Thread}
    (carries : assertion ∈ carried (calls tid)) (named : assertion.id ≠ "")
    (issued : Issued (interleave env world calls schedule) tid) :
    progress env calls (interleave env world calls schedule).history tid = .accepted := by
  obtain ⟨_, following⟩ := governs_run (accepting env) (machine env)
    (fun tid => (calls tid, Phase.fresh)) _ world _
    (fun tid => call_follows env (calls tid))
    (fun _ _ _ _ _ _ => machine_expects env _ _ _ _) schedule
  obtain ⟨response, done, session⟩ := returns_iff.mp issued
  have ends := following tid
  rw [show ((Pool.start world _).run _ schedule).programs tid = _ from done] at ends
  unfold isSession at session
  split at session
  · exact ends ⟨assertion, carries, named⟩ _ _ rfl
  · nomatch session

/-- However logins and changes are interleaved, and whichever statements fail: if every acceptance
still holds when it is written, and an assertion is forgotten only when it has expired and nobody
who carries it is under way, then at most one session is issued for an assertion. -/
theorem logs_in_once (env : Env) (world : World) (calls : Thread → Call)
    (schedule : List Thread) (distinct : Distinct calls)
    (keeps : History.Meets (KeepsMemory env calls) (interleave env world calls schedule).history) :
    ∀ first second, ∀ assertion ∈ carried (calls first), ∀ other ∈ carried (calls second),
      assertion.id = other.id → assertion.id ≠ "" →
        Issued (interleave env world calls schedule) first →
          Issued (interleave env world calls schedule) second → first = second := by
  intro first second assertion carries other carries' same named issued issued'
  obtain rfl := distinct first second assertion carries other carries' same
  obtain ⟨governed, _⟩ := governs_run (accepting env) (machine env)
    (fun tid => (calls tid, Phase.fresh)) _ world _
    (fun tid => call_follows env (calls tid))
    (fun _ _ _ _ _ _ => machine_expects env _ _ _ _) schedule
  exact (sound_of_governed governed keeps).once first second assertion carries carries' named
    (accepted_of_issued carries named issued) (accepted_of_issued carries' named issued')

end Runs

/-! ### One assertion, twice -/

/-- A user who comes from the provider. -/
def ann : UserDocument where
  oid := "1"
  userId := "ann"
  ern := "ern:eam:eu:acme:user:ann"
  email := "ann@acme.example"
  accountId := "acme"
  region := "eu"
  loginEnabled := false
  federatedProvider := "saml"
  federatedSubject := "ann"
  password := ""
  accessKeys := []
  sessions := []
  seenAssertions := []

/-- What the provider says of her, for a minute. -/
def annsAssertion : Assertion where
  id := "a1"
  identity := ⟨"saml", "ann", "ann", "ann@acme.example"⟩
  notBefore := none
  notOnOrAfter := some 60000000000
  confirmations := [none]
  otherwise := none

/-- The assertion is presented twice, and the second time it is refused. -/
theorem replay_refused :
    ¬(Issued (interleave Env.plain ⟨[ann], [], 0⟩ (fun _ : Fin 2 => .samlAcs annsAssertion)
        [0, 0, 0, 0, 0, 0, 0, 0, 1, 1, 1]) 1 ∧
      Issued (interleave Env.plain ⟨[ann], [], 0⟩ (fun _ : Fin 2 => .samlAcs annsAssertion)
        [0, 0, 0, 0, 0, 0, 0, 0, 1, 1, 1]) 0) := by
  rintro ⟨again, once⟩
  have same := logs_in_once Env.plain ⟨[ann], [], 0⟩
    (fun _ : Fin 2 => .samlAcs annsAssertion) [0, 0, 0, 0, 0, 0, 0, 0, 1, 1, 1]
    (fun _ _ _ first _ second _ => by rw [← some.inj first, ← some.inj second])
    (by decide) 1 0 annsAssertion rfl annsAssertion rfl rfl (by decide) again once
  exact absurd same (by decide)

/-- Two requests check the memory before either writes that the assertion was used, and both are
answered with a session. -/
theorem both_checked : ¬∀ first second : Fin 2, ∀ assertion ∈ carried (Call.samlAcs annsAssertion),
      ∀ other ∈ carried (Call.samlAcs annsAssertion), assertion.id = other.id → assertion.id ≠ "" →
        Issued (interleave Env.plain ⟨[ann], [], 0⟩
          (fun _ : Fin 2 => .samlAcs annsAssertion)
            [0, 1, 0, 1, 0, 1, 0, 1, 0, 1, 0, 1, 0, 1, 0, 1])
          first →
        Issued (interleave Env.plain ⟨[ann], [], 0⟩
          (fun _ : Fin 2 => .samlAcs annsAssertion)
            [0, 1, 0, 1, 0, 1, 0, 1, 0, 1, 0, 1, 0, 1, 0, 1])
          second → first = second := by
  intro once
  have issued : ∀ tid : Fin 2, Issued (interleave Env.plain ⟨[ann], [], 0⟩
      (fun _ : Fin 2 => .samlAcs annsAssertion) [0, 1, 0, 1, 0, 1, 0, 1, 0, 1, 0, 1, 0, 1, 0, 1])
      tid := by
    unfold Issued
    decide
  exact absurd (once 0 1 annsAssertion rfl annsAssertion rfl rfl (by decide) (issued 0) (issued 1))
    (by decide)

end Replay

end Euclid.Eam.Store
