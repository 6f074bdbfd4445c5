/-
This file translates the claim of a periodic job, and proves how far apart two claims are and when
one is granted.

The first call of a process makes sure of the unique index, whether or not it succeeds. A call then
reads the clock, tries to move the job's due time, and if that changed nothing seeds the job. The
store keeps whole milliseconds, so what it compares are cut readings. Where the index is, a job is
kept once. A due time never moves back, and whoever is granted a claim has found it not after its
own reading: that is the invariant.
-/

import Mathlib
import Euclid.Bytes
import Euclid.Collection
import Euclid.Interleaving
import Euclid.Bus.Statement

namespace Euclid.Database

open Program Discipline Option Function Collection
open Bus (StoreError Outage underOutage)

namespace PeriodicClaim

/-! ### The store -/

/-- A job of the collection: when it runs next, and when it was claimed last, if ever. -/
structure Job where
  name : String
  nextRunAt : Int
  claimedAt : Option Int
  deriving DecidableEq

/-- `duration_cast` of nanoseconds to milliseconds. -/
def milliseconds (time : Int) : Int := time.tdiv 1000000

/-- Seconds as the clock counts. -/
def nanoseconds (interval : Int) : Int := interval * 1000000000

/-- A reading of the clock and an interval later. The clock is a signed 64-bit number. -/
def plusInterval (reading interval : Int) : Int :=
  int64 (reading + int64 (nanoseconds interval))

/-- What a call asks of the clock and the store. The upsert that seeds a job first looks for it, and
then inserts it if it is missing. -/
inductive Req where
  | ensureUnique (proc : ℕ)
  | now
  | claim (name : String) (due next : Int)
  | find (name : String)
  | insert (name : String) (due : Int)

def Req.Answer : Req → Type
  | .ensureUnique _ => Unit
  | .now => Int
  | .claim _ _ _ => Except StoreError Bool
  | .find _ => Except StoreError Bool
  | .insert _ _ => Except StoreError Unit

/-- The jobs, whether their names are indexed as unique, which processes have asked for the index,
and how many requests have been made. -/
structure World where
  jobs : List Job
  indexed : Bool
  ensured : List ℕ
  moment : ℕ

/-- The first document of a job. -/
def World.job (world : World) (name : String) : Option Job :=
  world.jobs.find? fun job => job.name = name

/-- A shared clock that does not go back, and which statements fail. -/
structure Env where
  clock : ℕ → Int
  steady : Monotone clock
  outage : ℕ → Option Outage

/-- The creation of the index, which the store refuses while a job is kept twice. -/
def createIndex (jobs : List Job) (indexed : Bool) : Except StoreError Unit × Bool :=
  if (jobs.map Job.name).Nodup then (.ok (), true) else (.error .duplicateKey, indexed)

def Job.isDue (name : String) (due : Int) (job : Job) : Bool :=
  decide (job.name = name ∧ job.nextRunAt ≤ due)

/-- The conditional update: whether it changed the job, and the jobs after it. -/
def claimJob (name : String) (due next : Int) (jobs : List Job) : Bool × List Job :=
  let claim := fun job : Job => { job with nextRunAt := next, claimedAt := some due }
  ((jobs.find? (Job.isDue name due)).any fun job => claim job ≠ job,
    updateFirst (Job.isDue name due) claim jobs)

/-- The insertion of a job, which the unique index refuses if there is one. -/
def insertJob (name : String) (due : Int) (indexed : Bool) (jobs : List Job) :
    Except StoreError Unit × List Job :=
  if indexed ∧ jobs.any fun job => job.name = name then (.error .duplicateKey, jobs)
  else (.ok (), jobs ++ [⟨name, due, none⟩])

/-- One request. Every request is a moment of its own. -/
def machine (env : Env) : Machine Req Req.Answer World
  | .ensureUnique proc, world =>
    if proc ∈ world.ensured then ((), { world with moment := world.moment + 1 })
    else
      let outcome := underOutage (env.outage world.moment) world.indexed
        (createIndex world.jobs world.indexed)
      ((), ⟨world.jobs, outcome.2, proc :: world.ensured, world.moment + 1⟩)
  | .now, world => (env.clock world.moment, { world with moment := world.moment + 1 })
  | .claim name due next, world =>
    let applied := claimJob name due next world.jobs
    let outcome := underOutage (env.outage world.moment) world.jobs (.ok applied.1, applied.2)
    (outcome.1, { world with jobs := outcome.2, moment := world.moment + 1 })
  | .find name, world =>
    let outcome := underOutage (env.outage world.moment) world.jobs
      (.ok (world.job name).isSome, world.jobs)
    (outcome.1, { world with jobs := outcome.2, moment := world.moment + 1 })
  | .insert name due, world =>
    let outcome := underOutage (env.outage world.moment) world.jobs
      (insertJob name due world.indexed world.jobs)
    (outcome.1, { world with jobs := outcome.2, moment := world.moment + 1 })

/-! ### The call -/

abbrev Op (Result : Type) : Type := Program Req Req.Answer StoreError Result

/-- A failure of it is logged only. -/
def ensureUnique (proc : ℕ) : Op Unit := Program.issue (Req.ensureUnique proc)

def now : Op Int := Program.issue Req.now

/-- The `update_one` of the claim: whether it modified something. -/
def tryClaim (name : String) (due next : Int) : Op Bool := do
  let answer : Except StoreError Bool ← Program.issue (Req.claim name due next)
  ofExcept answer

/-- The `update_one` with `$setOnInsert`. -/
def seed (name : String) (due : Int) : Op Unit := do
  let found : Except StoreError Bool ← Program.issue (Req.find name)
  if ← ofExcept found then pure ()
  else
    let inserted : Except StoreError Unit ← Program.issue (Req.insert name due)
    ofExcept inserted

/-- What `ClaimPeriodicRun` tries. -/
def attempt (proc : ℕ) (name : String) (interval : Int) : Op Bool := do
  ensureUnique proc
  let reading ← now
  if ← tryClaim name (milliseconds reading) (milliseconds (plusInterval reading interval)) then
    pure true
  else
    seed name (milliseconds reading)
    pure false

def claimPeriodicRun (proc : ℕ) (name : String) (interval : Int) : Op Bool :=
  (attempt proc name interval).catching fun _ => pure false

/-! ### What a call may ask -/

/-- A call: the process it is made in, the job and its interval in seconds. -/
structure Call where
  proc : ℕ
  name : String
  interval : Int

inductive Phase where
  | fresh
  | ready
  | timed (reading : Int)
  | won (reading : Int)
  | seeding (reading : Int)
  | lost

/-- The reading of a call that has read the clock and is not lost. -/
def Phase.reading : Phase → Option Int
  | .timed reading => some reading
  | .won reading => some reading
  | .seeding reading => some reading
  | _ => none

/-- The due time that a reading gives the job of a call. -/
def Call.next (call : Call) (reading : Int) : Int :=
  milliseconds (plusInterval reading call.interval)

/-- A call asks for its job, at the times of its own reading. -/
def allowsCall (call : Call) : Phase → Req → Prop
  | .fresh, .ensureUnique _ => True
  | .ready, .now => True
  | .timed reading, .claim name due next =>
    name = call.name ∧ due = milliseconds reading ∧ next = call.next reading
  | .seeding _, .find _ => True
  | .seeding reading, .insert name due => name = call.name ∧ due = milliseconds reading
  | _, _ => False

/-- What the answer to a claim leads to. -/
def afterClaim (reading : Int) : Except StoreError Bool → Phase
  | .ok true => .won reading
  | .ok false => .seeding reading
  | .error _ => .lost

theorem afterClaim_won {read reading : Int} {answer : Except StoreError Bool}
    (won : afterClaim read answer = .won reading) : answer = .ok true ∧ read = reading := by
  unfold afterClaim at won
  split at won
  · exact ⟨rfl, Phase.won.inj won⟩
  · nomatch won
  · nomatch won

def afterCall : Phase → (req : Req) → req.Answer → Phase
  | .fresh, .ensureUnique _, _ => .ready
  | .ready, .now, reading => .timed reading
  | .timed reading, .claim _ _ _, answer => afterClaim reading answer
  | .seeding reading, .find _, _ => .seeding reading
  | _, _, _ => .lost

/-- The discipline of calls. A session is a call and how far it is. -/
def claiming : Discipline Req Req.Answer (Call × Phase) where
  allows := fun session req => allowsCall session.1 session.2 req
  expects := fun _ _ _ => True
  after := fun session req answer => (session.1, afterCall session.2 req answer)

/-- A call that has been told to go ahead has won. -/
def endsAs : Except StoreError Bool → Call × Phase → Prop
  | .ok true, session => ∃ reading, session.2 = .won reading
  | _, _ => True

theorem claimPeriodicRun_follows {call : Call} :
    (claimPeriodicRun call.proc call.name call.interval).Follows claiming (call, .fresh)
      endsAs := by
  unfold claimPeriodicRun attempt
  rw [follows_catching]
  refine ⟨trivial, fun _ _ => ⟨trivial, fun reading _ => ⟨⟨rfl, rfl, rfl⟩, fun answer _ => ?_⟩⟩⟩
  cases answer with
  | error error => exact trivial
  | ok modified =>
    cases modified with
    | true => exact ⟨reading, rfl⟩
    | false =>
      refine ⟨trivial, fun found _ => ?_⟩
      cases found with
      | error error => exact trivial
      | ok known =>
        cases known with
        | true => exact trivial
        | false =>
          refine ⟨⟨rfl, rfl⟩, fun inserted _ => ?_⟩
          cases inserted <;> exact trivial

/-! ### What a request does to the jobs -/

theorem milliseconds_mono {first second : Int} (le : first ≤ second) :
    milliseconds first ≤ milliseconds second :=
  Int.tdiv_le_tdiv (by decide) le

/-- A reading and the interval of a call are a time that the clock can have. -/
def Call.Fits (call : Call) (reading : Int) : Prop :=
  -2 ^ 63 ≤ reading + nanoseconds call.interval ∧ reading + nanoseconds call.interval < 2 ^ 63

theorem plusInterval_eq {call : Call} {reading : Int} (fits : call.Fits reading) :
    plusInterval reading call.interval = reading + nanoseconds call.interval := by
  obtain ⟨least, most⟩ := fits
  unfold plusInterval int64
  rw [Int.add_bmod_bmod]
  exact Int.bmod_eq_of_le_mul_two (by norm_num; omega) (by norm_num; omega)

theorem Call.le_next {call : Call} {reading : Int} (fits : call.Fits reading)
    (regular : 0 ≤ call.interval) : milliseconds reading ≤ call.next reading := by
  rw [Call.next, plusInterval_eq fits]
  refine milliseconds_mono ?_
  unfold nanoseconds
  omega

theorem Call.next_le {call : Call} {reading : Int} (fits : call.Fits reading)
    (back : call.interval < 0) : call.next reading ≤ milliseconds reading := by
  rw [Call.next, plusInterval_eq fits]
  refine milliseconds_mono ?_
  unfold nanoseconds
  omega

section Jobs

variable {jobs : List Job} {name : String} {due next : Int}

theorem find?_claimJob (distinct : (jobs.map Job.name).Nodup) :
    claimJob name due next jobs = (false, jobs) ∨
      ∃ job, jobs.find? (fun other => other.name = name) = some job ∧ job.nextRunAt ≤ due ∧
        (fun key => (claimJob name due next jobs).2.find? fun other => other.name = key) =
          update (fun key => jobs.find? fun other => other.name = key) name
            (some ⟨name, next, some due⟩) := by
  cases found : jobs.find? (Job.isDue name due) with
  | none =>
    left
    unfold claimJob
    dsimp only
    rw [updateFirst_of_none found, found]
    rfl
  | some job =>
    have selected := List.find?_some found
    obtain ⟨rfl, isDue⟩ := of_decide_eq_true selected
    obtain ⟨before, after, rfl, updated⟩ := updateFirst_split
      (fun job : Job => { job with nextRunAt := next, claimedAt := some due }) found
    -- the names differ, so this one is not found earlier
    have earlier : before.find? (fun other => other.name = job.name) = none := by
      refine List.find?_eq_none.mpr fun other mem same => ?_
      rw [List.map_append, List.map_cons] at distinct
      exact List.disjoint_of_nodup_append distinct (List.mem_map_of_mem mem)
        (of_decide_eq_true same ▸ .head _)
    refine .inr ⟨job, by simp [earlier], isDue, ?_⟩
    funext key
    show (updateFirst _ _ _).find? _ = _
    rw [updated]
    by_cases same : key = job.name
    · subst same
      simp [earlier]
    · simp [Ne.symm same, update_of_ne same]

theorem find?_insertJob {indexed : Bool} : (insertJob name due indexed jobs).2 = jobs ∨
    ((fun key => (insertJob name due indexed jobs).2.find? fun other => other.name = key) =
        (fun key => jobs.find? fun other => other.name = key) ∨
      jobs.find? (fun other => other.name = name) = none ∧
        (fun key => (insertJob name due indexed jobs).2.find? fun other => other.name = key) =
          update (fun key => jobs.find? fun other => other.name = key) name
            (some ⟨name, due, none⟩)) := by
  unfold insertJob
  split
  · exact .inl rfl
  · right
    cases found : jobs.find? (fun other => other.name = name) with
    | none =>
      refine .inr ⟨rfl, ?_⟩
      funext key
      by_cases same : key = name
      · subst same
        simp [found]
      · simp [Ne.symm same, update_of_ne same]
    | some job =>
      left
      funext key
      by_cases same : key = name
      · subst same
        simp [found]
      · simp [Ne.symm same]

theorem nodup_insertJob (distinct : (jobs.map Job.name).Nodup) :
    ((insertJob name due true jobs).2.map Job.name).Nodup := by
  unfold insertJob
  split
  · exact distinct
  · rename_i missing
    rw [List.map_append]
    refine distinct.append (List.nodup_singleton name) (List.disjoint_singleton.mpr fun mem => ?_)
    obtain ⟨job, inside, same⟩ := List.mem_map.mp mem
    exact missing ⟨rfl, List.any_eq_true.mpr ⟨job, inside, decide_eq_true same⟩⟩

end Jobs

section Machine

variable (env : Env) (world : World)

theorem machine_moment (req : Req) : (machine env req world).2.moment = world.moment + 1 := by
  cases req with
  | ensureUnique proc =>
    simp only [machine]
    split <;> rfl
  | _ => rfl

theorem ensureUnique_jobs (proc : ℕ) :
    (machine env (.ensureUnique proc) world).2.jobs = world.jobs := by
  simp only [machine]
  split <;> rfl

end Machine

/-- A claim moves the due time of a job that is due, and an insertion makes a job that is missing.
Otherwise the jobs are found as they are. -/
theorem step_job (env : Env) (req : Req) (world : World)
    (distinct : (world.jobs.map Job.name).Nodup) :
    (machine env req world).2.job = world.job ∨
      (∃ name due next job, req = .claim name due next ∧ world.job name = some job ∧
        job.nextRunAt ≤ due ∧
        (machine env req world).2.job = update world.job name (some ⟨name, next, some due⟩)) ∨
      ∃ name due, req = .insert name due ∧ world.job name = none ∧
        (machine env req world).2.job = update world.job name (some ⟨name, due, none⟩) := by
  have looked : ∀ {jobs : List Job}, (machine env req world).2.jobs = jobs →
      (machine env req world).2.job = fun key => jobs.find? fun job => job.name = key :=
    fun same => same ▸ rfl
  cases req with
  | ensureUnique proc => exact .inl (looked (ensureUnique_jobs env world proc))
  | now => exact .inl rfl
  | find name =>
    rcases Bus.underOutage_snd (env.outage world.moment) world.jobs
      (.ok (world.job name).isSome, world.jobs) with same | same <;> exact .inl (looked same)
  | claim name due next =>
    rcases Bus.underOutage_snd (env.outage world.moment) world.jobs
      ((.ok (claimJob name due next world.jobs).1 : Except StoreError Bool),
        (claimJob name due next world.jobs).2) with does | same
    · rcases find?_claimJob distinct with same | ⟨job, found, isDue, moved⟩
      · exact .inl (looked (does.trans (congrArg Prod.snd same)))
      · exact .inr (.inl ⟨name, due, next, job, rfl, found, isDue, (looked does).trans moved⟩)
    · exact .inl (looked same)
  | insert name due =>
    rcases Bus.underOutage_snd (env.outage world.moment) world.jobs
      (insertJob name due world.indexed world.jobs) with does | same
    · rcases find?_insertJob with same | same | ⟨missing, made⟩
      · exact .inl (looked (does.trans same))
      · exact .inl ((looked does).trans same)
      · exact .inr (.inr ⟨name, due, rfl, missing, (looked does).trans made⟩)
    · exact .inl (looked same)

variable {env : Env} {world : World} {name : String}

theorem claim_won {due next : Int} (distinct : (world.jobs.map Job.name).Nodup)
    (won : (machine env (.claim name due next) world).1 = .ok true) :
    ∃ job, world.job name = some job ∧ job.nextRunAt ≤ due ∧
      (machine env (.claim name due next) world).2.job =
        update world.job name (some ⟨name, next, some due⟩) := by
  have told : (underOutage (env.outage world.moment) world.jobs
      ((.ok (claimJob name due next world.jobs).1 : Except StoreError Bool),
        (claimJob name due next world.jobs).2)).1 = .ok true := won
  have answered := Bus.underOutage_of_ok told
  have carried : (claimJob name due next world.jobs).1 = true := by
    rw [answered] at told
    exact Except.ok.inj told
  have jobs : (machine env (.claim name due next) world).2.jobs =
      (claimJob name due next world.jobs).2 := congrArg Prod.snd answered
  have same : (machine env (.claim name due next) world).2.job = fun key =>
      (claimJob name due next world.jobs).2.find? fun job => job.name = key := jobs ▸ rfl
  rcases find?_claimJob distinct with still | moved
  · rw [still] at carried
    cases carried
  · exact same ▸ moved

/-! ### How far apart claims are -/

variable {req : Req} {session : Call × Phase}

section Apart

variable {Thread : Type}

/-- The events of a run of calls. -/
abbrev Past (Thread : Type) : Type := History Thread Req Req.Answer World

def World.NotBefore (world : World) (name : String) (time : Int) : Prop :=
  ∃ job, world.job name = some job ∧ time ≤ job.nextRunAt

/-- Every call that has won has moved the due time an interval past its reading, and any two of a
job are an interval apart. -/
structure Apart (name : String) (world : World) (sessions : Thread → Call × Phase) : Prop where
  moved : ∀ tid reading, (sessions tid).1.name = name →
    (sessions tid).2 = .won reading → world.NotBefore name ((sessions tid).1.next reading)
  apart : ∀ first second one two, first ≠ second → (sessions first).1.name = name →
    (sessions second).1.name = name → (sessions first).2 = .won one →
    (sessions second).2 = .won two →
      (sessions first).1.next one ≤ milliseconds two ∨
        (sessions second).1.next two ≤ milliseconds one

theorem World.NotBefore.step {time : Int} (notBefore : world.NotBefore name time)
    (distinct : (world.jobs.map Job.name).Nodup)
    (regular : ∀ reading, session.2.reading = some reading → session.1.name = name →
      milliseconds reading ≤ session.1.next reading)
    (allowed : claiming.allows session req) : (machine env req world).2.NotBefore name time := by
  obtain ⟨job, found, later⟩ := notBefore
  rcases step_job env req world distinct with same |
    ⟨name', due, next, job', rfl, found', isDue, moved⟩ | ⟨name', due, rfl, missing, made⟩
  · exact ⟨job, by rw [same, found], later⟩
  · obtain ⟨call, phase⟩ := session
    cases phase <;> try exact allowed.elim
    obtain ⟨rfl, rfl, rfl⟩ := allowed
    by_cases own : call.name = name
    · subst own
      obtain rfl := some.inj (found.symm.trans found')
      refine ⟨_, by rw [moved, update_self], ?_⟩
      exact (later.trans isDue).trans (regular _ rfl rfl)
    · exact ⟨job, by rw [moved, update_of_ne (Ne.symm own), found], later⟩
  · have other : name ≠ name' := fun same => by simp [same, missing] at found
    exact ⟨job, by rw [made, update_of_ne other, found], later⟩

theorem won_of_after {reading : Int} (distinct : (world.jobs.map Job.name).Nodup)
    (allowed : claiming.allows session req)
    (won : (claiming.after session req (machine env req world).1).2 = .won reading) :
    ∃ job, world.job session.1.name = some job ∧ job.nextRunAt ≤ milliseconds reading ∧
      (machine env req world).2.NotBefore session.1.name (session.1.next reading) := by
  obtain ⟨call, phase⟩ := session
  cases phase <;> cases req <;> try exact allowed.elim
  · exact absurd won (by simp [claiming, afterCall])
  · exact absurd won (by simp [claiming, afterCall])
  · obtain ⟨rfl, rfl, rfl⟩ := allowed
    rename_i read
    have told : afterClaim read
        (machine env (.claim call.name (milliseconds read) (call.next read)) world).1 =
          .won reading := won
    obtain ⟨yes, rfl⟩ := afterClaim_won told
    obtain ⟨job, found, isDue, moved⟩ := claim_won distinct yes
    exact ⟨job, found, isDue, _, by rw [moved, update_self], le_rfl⟩
  · exact absurd won (by simp [claiming, afterCall])
  · exact absurd won (by simp [claiming, afterCall])

theorem Apart.step [DecidableEq Thread]
    {sessions : Thread → Call × Phase} (apart : Apart name world sessions)
    (distinct : (world.jobs.map Job.name).Nodup)
    (regular : ∀ tid reading, (sessions tid).2.reading = some reading →
      (sessions tid).1.name = name → milliseconds reading ≤ (sessions tid).1.next reading)
    {tid : Thread} (allowed : claiming.allows (sessions tid) req) :
    Apart name (machine env req world).2
      (update sessions tid (claiming.after (sessions tid) req (machine env req world).1)) := by
  have kept : ∀ {time}, world.NotBefore name time →
      (machine env req world).2.NotBefore name time :=
    fun notBefore => notBefore.step distinct (regular tid) allowed
  -- whoever has won before has moved the due time past its interval, and this claim found it due
  have wins : ∀ other one two, (sessions other).1.name = name → (sessions tid).1.name = name →
      (sessions other).2 = .won one →
      (claiming.after (sessions tid) req (machine env req world).1).2 = .won two →
      (sessions other).1.next one ≤ milliseconds two := by
    intro other one two named own earlier won
    obtain ⟨job, found, isDue, _⟩ := won_of_after distinct allowed won
    obtain ⟨job', found', later⟩ := apart.moved other one named earlier
    rw [own] at found
    obtain rfl := some.inj (found.symm.trans found')
    exact later.trans isDue
  constructor
  · intro other reading named won
    by_cases same : other = tid
    · subst same
      rw [update_self] at named won ⊢
      obtain ⟨_, _, _, moved⟩ := won_of_after distinct allowed won
      exact named ▸ moved
    · rw [update_of_ne same] at named won ⊢
      exact kept (apart.moved other reading named won)
  · intro first second one two different named also earlier later
    by_cases isFirst : first = tid
    · subst isFirst
      rw [update_of_ne different.symm] at also later ⊢
      rw [update_self] at named earlier ⊢
      exact .inr (wins second two one also named later earlier)
    · rw [update_of_ne isFirst] at named earlier ⊢
      by_cases isSecond : second = tid
      · subst isSecond
        rw [update_self] at also later ⊢
        exact .inl (wins first one two named also earlier later)
      · rw [update_of_ne isSecond] at also later ⊢
        exact apart.apart first second one two different named also earlier later

end Apart

/-! ### Where a due time comes from -/

section Origin

variable {Thread : Type}

def HasRead (env : Env) (past : Past Thread) (tid : Thread) (reading : Int) : Prop :=
  ∃ event ∈ past, event.thread = tid ∧ event.request = .now ∧
    env.clock event.before.moment = reading

/-- A thread's claim has changed the jobs. -/
def Carried (past : Past Thread) (tid : Thread) : Prop :=
  ∃ event ∈ past, event.thread = tid ∧
    (∃ name due next, event.request = .claim name due next) ∧ event.after.jobs ≠ event.before.jobs

/-- A due time is some reading of the clock, or the one that a carried out claim of the job
gives. -/
def Given (env : Env) (calls : Thread → Call) (past : Past Thread) (name : String)
    (time : Int) : Prop :=
  (∃ tid reading, HasRead env past tid reading ∧ time = milliseconds reading) ∨
    ∃ tid reading, (calls tid).name = name ∧ HasRead env past tid reading ∧
      Carried past tid ∧ time = (calls tid).next reading

/-- The sessions are of the calls, their readings were read, and every due time was given. -/
structure Known (env : Env) (calls : Thread → Call) (past : Past Thread)
    (world : World) (sessions : Thread → Call × Phase) : Prop where
  own : ∀ tid, (sessions tid).1 = calls tid
  moments : ∀ event ∈ past, event.before.moment ≤ world.moment
  readings : ∀ tid reading, (sessions tid).2.reading = some reading → HasRead env past tid reading
  given : ∀ name job, world.job name = some job → Given env calls past name job.nextRunAt

variable {env : Env} {calls : Thread → Call} {past : Past Thread}
  {event : Event Thread Req Req.Answer World} {tid : Thread} {reading : Int}

theorem HasRead.later (read : HasRead env past tid reading) :
    HasRead env (event :: past) tid reading :=
  List.exists_mem_cons_of_exists read

theorem Carried.later (carried : Carried past tid) : Carried (event :: past) tid :=
  List.exists_mem_cons_of_exists carried

theorem Given.later {time : Int} (given : Given env calls past name time) :
    Given env calls (event :: past) name time := by
  rcases given with ⟨tid, reading, read, same⟩ | ⟨tid, reading, named, read, carried, same⟩
  · exact .inl ⟨tid, reading, read.later, same⟩
  · exact .inr ⟨tid, reading, named, read.later, carried.later, same⟩

theorem reading_of_after (has : (claiming.after session req (machine env req world).1).2.reading =
      some reading) :
    session.2.reading = some reading ∨ req = .now ∧ env.clock world.moment = reading := by
  obtain ⟨call, phase⟩ := session
  cases phase with
  | ready =>
    cases req with
    | now => exact .inr ⟨rfl, some.inj has⟩
    | _ => exact absurd has (by simp [claiming, afterCall, Phase.reading])
  | timed read =>
    cases req with
    | claim name due next =>
      left
      have told : (afterClaim read
        (machine env (.claim name due next) world).1).reading = some reading := has
      unfold afterClaim at told
      split at told
      · exact told
      · exact told
      · exact absurd told (by simp [Phase.reading])
    | _ => exact absurd has (by simp [claiming, afterCall, Phase.reading])
  | seeding read =>
    cases req with
    | find name => exact .inl has
    | _ => exact absurd has (by simp [claiming, afterCall, Phase.reading])
  | _ => cases req <;> exact absurd has (by simp [claiming, afterCall, Phase.reading])

theorem Known.step [DecidableEq Thread] {sessions : Thread → Call × Phase}
    (known : Known env calls past world sessions) (distinct : (world.jobs.map Job.name).Nodup)
    (allowed : claiming.allows (sessions tid) req) :
    Known env calls (.made (fun _ => machine env) tid req world :: past) (machine env req world).2
      (update sessions tid (claiming.after (sessions tid) req (machine env req world).1)) := by
  constructor
  · intro other
    by_cases same : other = tid
    · subst same
      rw [update_self]
      exact known.own other
    · rw [update_of_ne same]
      exact known.own other
  · rw [machine_moment]
    refine List.forall_mem_cons.mpr ⟨Nat.le_succ _, fun event mem => ?_⟩
    exact (known.moments event mem).trans (Nat.le_succ _)
  · intro other reading has
    by_cases same : other = tid
    · subst same
      rw [update_self] at has
      rcases reading_of_after has with earlier | ⟨rfl, rfl⟩
      · exact (known.readings other reading earlier).later
      · exact ⟨_, .head _, rfl, rfl, rfl⟩
    · rw [update_of_ne same] at has
      exact (known.readings other reading has).later
  · intro name job found
    have own := known.own tid
    have readings := known.readings tid
    rcases step_job env req world distinct with same |
      ⟨name', due, next, job', rfl, found', isDue, moved⟩ | ⟨name', due, rfl, missing, made⟩
    · exact (known.given name job (same ▸ found)).later
    · generalize sessions tid = session at allowed own readings
      obtain ⟨call, phase⟩ := session
      cases phase <;> try exact allowed.elim
      rename_i reading
      obtain ⟨rfl, rfl, rfl⟩ := allowed
      obtain rfl := own
      by_cases same : (calls tid).name = name
      · subst same
        rw [moved, update_self] at found
        obtain rfl := some.inj found
        by_cases changed : (machine env (.claim (calls tid).name (milliseconds reading)
            ((calls tid).next reading)) world).2.jobs = world.jobs
        · have still : world.job = (machine env (.claim (calls tid).name (milliseconds reading)
              ((calls tid).next reading)) world).2.job := by
            unfold World.job
            rw [changed]
          exact (known.given _ _ ((congrFun (still.trans moved) _).trans (update_self ..))).later
        · exact .inr ⟨tid, reading, rfl, (readings reading rfl).later,
            ⟨_, .head _, rfl, ⟨_, _, _, rfl⟩, changed⟩, rfl⟩
      · rw [moved, update_of_ne (Ne.symm same)] at found
        exact (known.given name job found).later
    · generalize sessions tid = session at allowed own readings
      obtain ⟨call, phase⟩ := session
      cases phase <;> try exact allowed.elim
      rename_i reading
      obtain ⟨rfl, rfl⟩ := allowed
      by_cases same : name = call.name
      · subst same
        rw [made, update_self] at found
        obtain rfl := some.inj found
        exact .inl ⟨tid, reading, (readings reading rfl).later, rfl⟩
      · rw [made, update_of_ne same] at found
        exact (known.given name job found).later

end Origin

/-! ### One document for a job -/

section Held

variable {Thread : Type}

def asksForIndex : Req → Bool
  | .ensureUnique _ => true
  | _ => false

/-- The collection is indexed for whoever has asked for the index, and keeps a job once. -/
structure Held (world : World) (sessions : Thread → Call × Phase) : Prop where
  indexed : ∀ tid, (sessions tid).2 ≠ .fresh → world.indexed = true
  distinct : (world.jobs.map Job.name).Nodup

/-- Whenever a process has made sure of the index, it is there. -/
def MakesIndex (past : Past Thread) : Prop :=
  ∀ event ∈ past, asksForIndex event.request → event.after.indexed = true

theorem Held.step [DecidableEq Thread] {sessions : Thread → Call × Phase} {tid : Thread}
    (held : Held world sessions) (allowed : claiming.allows (sessions tid) req)
    (makes : asksForIndex req → (machine env req world).2.indexed = true) :
    Held (machine env req world).2
      (update sessions tid (claiming.after (sessions tid) req (machine env req world).1)) := by
  by_cases fresh : (sessions tid).2 = .fresh
  · have ensures : ∃ proc, req = .ensureUnique proc := by
      cases req with
      | ensureUnique proc => exact ⟨proc, rfl⟩
      | _ => exact absurd allowed (by simp [claiming, allowsCall, fresh])
    obtain ⟨proc, rfl⟩ := ensures
    refine ⟨fun _ _ => makes rfl, ?_⟩
    rw [ensureUnique_jobs]
    exact held.distinct
  · have indexed := held.indexed tid fresh
    have still : (machine env req world).2.indexed = true := by
      cases req with
      | ensureUnique proc => exact makes rfl
      | _ => exact indexed
    refine ⟨fun _ _ => still, ?_⟩
    cases req with
    | ensureUnique proc =>
      rw [ensureUnique_jobs]
      exact held.distinct
    | now => exact held.distinct
    | find name =>
      rcases Bus.underOutage_snd (env.outage world.moment) world.jobs
        (.ok (world.job name).isSome, world.jobs) with same | same <;>
      exact (congrArg (fun jobs => (jobs.map Job.name).Nodup) same).mpr held.distinct
    | claim name due next =>
      rcases Bus.underOutage_snd (env.outage world.moment) world.jobs
        ((.ok (claimJob name due next world.jobs).1 : Except StoreError Bool),
          (claimJob name due next world.jobs).2) with does | same
      · refine (congrArg (fun jobs => (jobs.map Job.name).Nodup) does).mpr ?_
        exact nodup_updateFirst held.distinct fun _ _ _ => rfl
      · exact (congrArg (fun jobs => (jobs.map Job.name).Nodup) same).mpr held.distinct
    | insert name due =>
      rcases Bus.underOutage_snd (env.outage world.moment) world.jobs
        (insertJob name due world.indexed world.jobs) with does | same
      · refine (congrArg (fun jobs => (jobs.map Job.name).Nodup) does).mpr ?_
        rw [indexed]
        exact nodup_insertJob held.distinct
      · exact (congrArg (fun jobs => (jobs.map Job.name).Nodup) same).mpr held.distinct

end Held

/-! ### Runs -/

section Runs

variable {Thread : Type} [DecidableEq Thread]

def World.empty : World := ⟨[], false, [], 0⟩

/-- Every thread makes its call, one request after the other as the schedule lets it. -/
def interleave (env : Env) (calls : Thread → Call) (schedule : List Thread) :
    Pool Thread Req Req.Answer StoreError Bool World :=
  (Pool.start .empty fun tid =>
    claimPeriodicRun (calls tid).proc (calls tid).name (calls tid).interval).run
      (fun _ => machine env) schedule

variable {env : Env} {calls : Thread → Call} {past : Past Thread} {world : World}

theorem held_of_governed (makes : MakesIndex past)
    (governed : claiming.Governs (fun _ => machine env) (fun tid => (calls tid, .fresh))
      .empty past world) :
    Held world (claiming.sessions (fun tid => (calls tid, .fresh)) past) := by
  induction governed with
  | start => exact ⟨fun _ past => absurd rfl past, List.nodup_nil⟩
  | step governed tid req allowed ih =>
    exact (ih fun event mem => makes event (.tail _ mem)).step allowed
      fun asks => makes _ (.head _) asks

theorem known_of_governed (makes : MakesIndex past)
    (governed : claiming.Governs (fun _ => machine env) (fun tid => (calls tid, .fresh))
      .empty past world) :
    Known env calls past world (claiming.sessions (fun tid => (calls tid, .fresh)) past) := by
  induction governed with
  | start =>
    exact ⟨fun _ => rfl, nofun,
      fun _ _ has => absurd has (by simp [sessions, Phase.reading]),
      fun _ _ found => absurd found (by simp [World.empty, World.job])⟩
  | step governed tid req allowed ih =>
    have before : MakesIndex _ := fun event mem => makes event (.tail _ mem)
    exact (ih before).step (held_of_governed before governed).distinct allowed

theorem apart_of_governed (makes : MakesIndex past)
    (regular : ∀ tid reading, (calls tid).name = name → HasRead env past tid reading →
      milliseconds reading ≤ (calls tid).next reading)
    (governed : claiming.Governs (fun _ => machine env) (fun tid => (calls tid, .fresh))
      .empty past world) :
    Apart name world (claiming.sessions (fun tid => (calls tid, .fresh)) past) := by
  induction governed with
  | start =>
    exact ⟨fun _ _ _ won => absurd won (by simp [sessions]),
      fun _ _ _ _ _ _ _ won => absurd won (by simp [sessions])⟩
  | step governed tid req allowed ih =>
    have before : MakesIndex _ := fun event mem => makes event (.tail _ mem)
    have known := known_of_governed before governed
    refine (ih before fun other reading named read => regular other reading named read.later).step
      (held_of_governed before governed).distinct (fun other reading has named => ?_) allowed
    rw [known.own] at named ⊢
    exact regular other reading named (known.readings other reading has).later

/-- A job that is due is claimed by whoever asks alone, for some time. -/
theorem claimed_alone {call : Call} {job : Job} (distinct : (world.jobs.map Job.name).Nodup)
    (found : world.job call.name = some job)
    (isDue : job.nextRunAt ≤ milliseconds (env.clock (world.moment + 1)))
    (lasts : 0 < call.interval) (fits : call.Fits (env.clock (world.moment + 1)))
    (calm : env.outage (world.moment + 2) = none) :
    ((claimPeriodicRun call.proc call.name call.interval).run (machine env) world).1 =
      .ok true := by
  have selected := List.find?_some found
  have named : job.name = call.name := of_decide_eq_true selected
  have picked : world.jobs.find? (Job.isDue call.name
      (milliseconds (env.clock (world.moment + 1)))) = some job := by
    cases first : world.jobs.find? (Job.isDue call.name
        (milliseconds (env.clock (world.moment + 1)))) with
    | none =>
      have none := List.find?_eq_none.mp first job (List.mem_of_find?_eq_some found)
      exact absurd (decide_eq_true ⟨named, isDue⟩) none
    | some other =>
      have chosen := List.find?_some first
      have same := (of_decide_eq_true chosen).1
      rw [List.inj_on_of_nodup_map distinct (List.mem_of_find?_eq_some first)
        (List.mem_of_find?_eq_some found) (same.trans named.symm)]
  have modifies : (claimJob call.name (milliseconds (env.clock (world.moment + 1)))
      (call.next (env.clock (world.moment + 1))) world.jobs).1 = true := by
    have later : milliseconds (env.clock (world.moment + 1)) <
        call.next (env.clock (world.moment + 1)) := by
      rw [Call.next, plusInterval_eq fits]
      unfold milliseconds nanoseconds
      rw [Int.tdiv_eq_ediv, Int.tdiv_eq_ediv]
      have sign : Int.sign 1000000 = 1 := rfl
      split <;> split <;> omega
    unfold claimJob
    rw [picked]
    refine decide_eq_true fun same => ?_
    have moved := congrArg Job.nextRunAt same
    exact absurd isDue (not_le.mpr (moved ▸ later))
  have ensures : (claimPeriodicRun call.proc call.name call.interval).Ensures (machine env)
      (fun _ _ => True) world fun outcome _ => outcome = .ok true := by
    unfold claimPeriodicRun attempt
    rw [ensures_catching, ensures_bind]
    intro _
    refine ensures_bind.mpr fun _ => ?_
    have told : (machine env (.claim call.name
        (milliseconds (env.clock (machine env (.ensureUnique call.proc) world).2.moment))
        (call.next (env.clock (machine env (.ensureUnique call.proc) world).2.moment)))
          (machine env .now (machine env (.ensureUnique call.proc) world).2).2).1 = .ok true := by
      have moment : (machine env .now (machine env (.ensureUnique call.proc) world).2).2.moment =
          world.moment + 2 := by rw [machine_moment, machine_moment]
      rw [machine_moment]
      have jobs : (machine env .now (machine env (.ensureUnique call.proc) world).2).2.jobs =
          world.jobs := ensureUnique_jobs env world call.proc
      simp only [machine] at moment jobs ⊢
      rw [moment, jobs, calm, underOutage, modifies]
    have claims : (tryClaim call.name
        (milliseconds (env.clock (machine env (.ensureUnique call.proc) world).2.moment))
        (call.next (env.clock (machine env (.ensureUnique call.proc) world).2.moment))).Ensures
          (machine env) (fun _ _ => True)
          (machine env .now (machine env (.ensureUnique call.proc) world).2).2
          fun outcome _ => outcome = .ok true := by
      intro _
      exact ensures_ofExcept.mpr told
    refine ensures_bind.mpr (claims.mono fun outcome after same => ?_)
    subst same
    rfl
  exact ensures.run_of_true

/-- A run in which every call of a job adds its interval within the range of the clock. -/
def KeepsRange (env : Env) (calls : Thread → Call) (past : Past Thread) (name : String) : Prop :=
  ∀ tid reading, (calls tid).name = name → HasRead env past tid reading →
    (calls tid).Fits reading

/-- Two calls of a job with one interval that are told to go ahead read the clock an interval apart,
in the whole milliseconds that the store keeps. And once the job is there, and whatever claims of it
have been carried out were made with readings at least their intervals ago, a call that runs alone
and waits for a positive interval goes ahead. -/
theorem claims_keep_interval (env : Env) (calls : Thread → Call) (schedule : List Thread)
    (makes : MakesIndex (interleave env calls schedule).history) :
    (∀ first second, first ≠ second → (calls first).name = (calls second).name →
      (calls first).interval = (calls second).interval →
      KeepsRange env calls (interleave env calls schedule).history (calls first).name →
      (∀ tid, (calls tid).name = (calls first).name →
        0 ≤ (calls tid).interval ∨ (calls tid).interval = (calls first).interval) →
      (interleave env calls schedule).programs first = .done true →
      (interleave env calls schedule).programs second = .done true →
      ∃ one two, HasRead env (interleave env calls schedule).history first one ∧
        HasRead env (interleave env calls schedule).history second two ∧
        ((calls first).next one ≤ milliseconds two ∨ (calls second).next two ≤ milliseconds one)) ∧
      ∀ call : Call, ((interleave env calls schedule).world.job call.name).isSome →
        0 < call.interval →
        call.Fits (env.clock ((interleave env calls schedule).world.moment + 1)) →
        KeepsRange env calls (interleave env calls schedule).history call.name →
        (∀ tid reading, (calls tid).name = call.name →
          HasRead env (interleave env calls schedule).history tid reading →
          Carried (interleave env calls schedule).history tid →
          reading + nanoseconds (calls tid).interval ≤
            env.clock ((interleave env calls schedule).world.moment + 1)) →
        env.outage ((interleave env calls schedule).world.moment + 2) = none →
        ((claimPeriodicRun call.proc call.name call.interval).run (machine env)
          (interleave env calls schedule).world).1 = .ok true := by
  obtain ⟨governed, following⟩ := governs_run claiming (fun _ => machine env)
    (fun tid => (calls tid, .fresh)) (fun _ => endsAs) .empty _
    (fun tid => claimPeriodicRun_follows) (fun _ _ _ _ _ _ => trivial) schedule
  have known := known_of_governed makes governed
  constructor
  · intro first second different named same range regular wins alsoWins
    have won := following first
    have alsoWon := following second
    rw [show ((Pool.start _ _).run _ schedule).programs first = _ from wins] at won
    rw [show ((Pool.start _ _).run _ schedule).programs second = _ from alsoWins] at alsoWon
    obtain ⟨one, won⟩ : ∃ one, _ = Phase.won one := won
    obtain ⟨two, alsoWon⟩ : ∃ two, _ = Phase.won two := alsoWon
    have readOne := known.readings first one (congrArg Phase.reading won)
    have readTwo := known.readings second two (congrArg Phase.reading alsoWon)
    refine ⟨one, two, readOne, readTwo, ?_⟩
    by_cases lasts : 0 ≤ (calls first).interval
    · have apart := (apart_of_governed makes (fun tid reading own read =>
        Call.le_next (range tid reading own read)
          ((regular tid own).elim id fun equal => equal ▸ lasts)) governed).apart
        first second one two different (by rw [known.own]) (by rw [known.own, named]) won alsoWon
      rwa [known.own, known.own] at apart
    · have back : (calls first).interval < 0 := not_le.mp lasts
      rcases le_total one two with less | less
      · exact .inl ((Call.next_le (range first one rfl readOne) back).trans
          (milliseconds_mono less))
      · exact .inr ((Call.next_le (range second two named.symm readTwo) (same ▸ back)).trans
          (milliseconds_mono less))
  · intro call there lasts fits range settled calm
    obtain ⟨job, found⟩ := isSome_iff_exists.mp there
    refine claimed_alone (held_of_governed makes governed).distinct found ?_ lasts fits calm
    rcases known.given call.name job found with ⟨tid, reading, ⟨event, mem, _, _, rfl⟩, given⟩ |
      ⟨tid, reading, own, read, carried, given⟩
    · rw [given]
      exact milliseconds_mono (env.steady ((known.moments event mem).trans (Nat.le_succ _)))
    · rw [given, Call.next, plusInterval_eq (range tid reading own read)]
      exact milliseconds_mono (settled tid reading own read carried)

/-- Three calls of a job that waits for a second: one seeds it, and the other two are told to go
ahead with readings that are less than a second apart. -/
def Env.jittery : Env where
  clock moment := if moment < 5 then 0 else if moment < 8 then 900000 else 1000000000
  steady := by
    intro first second less
    dsimp only
    split <;> split <;> (try split) <;> (try split) <;> omega
  outage _ := none

/-- The job of the three calls, each in a process of its own. -/
def everySecond : ℕ → Call := fun tid => ⟨tid, "recount", 1⟩

/-- The schedule of the three calls. -/
def oneByOne : List ℕ := [0, 0, 0, 0, 0, 1, 1, 1, 2, 2, 2]

/-- The second and the third call are both told to go ahead, within a second. -/
theorem granted_within_interval :
    ((interleave .jittery everySecond oneByOne).programs 1).returns id ∧
      ((interleave .jittery everySecond oneByOne).programs 2).returns id ∧
      ∃ one two,
        HasRead .jittery (interleave .jittery everySecond oneByOne).history 1 one ∧
        HasRead .jittery (interleave .jittery everySecond oneByOne).history 2 two ∧
        one ≤ two ∧ two < one + nanoseconds 1 := by
  refine ⟨by decide, by decide, 900000, 1000000000, ?_, ?_, by decide, by decide⟩
  · exact ⟨_, .tail _ (.tail _ (.tail _ (.tail _ (.head _)))), rfl, rfl, rfl⟩
  · exact ⟨_, .tail _ (.head _), rfl, rfl, rfl⟩

/-- And as the store cuts the readings, they are a second apart. -/
theorem granted_apart : ∃ one two,
      HasRead .jittery (interleave .jittery everySecond oneByOne).history 1 one ∧
        HasRead .jittery (interleave .jittery everySecond oneByOne).history 2 two ∧
        ((everySecond 1).next one ≤ milliseconds two ∨
          (everySecond 2).next two ≤ milliseconds one) := by
  have made : MakesIndex (interleave .jittery everySecond oneByOne).history := by
    unfold MakesIndex
    decide
  refine (claims_keep_interval .jittery everySecond oneByOne made).1 1 2 (by decide) rfl rfl ?_
    (fun _ _ => .inl (show (0 : Int) ≤ 1 by decide)) rfl rfl
  rintro tid reading - ⟨event, -, -, -, rfl⟩
  unfold Call.Fits Env.jittery nanoseconds everySecond
  dsimp only
  split
  · omega
  · split <;> omega

end Runs

end PeriodicClaim

end Euclid.Database
