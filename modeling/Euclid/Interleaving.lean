/-
This file interleaves programs over one shared world.

A pool holds a world, one program per thread, and the history of the requests answered so
far. A schedule is a list of threads; each entry lets its thread issue one request, so a
request is atomic and everything else may happen in between. Quantifying over schedules
is quantifying over every interleaving, and quantifying over the programs the threads
start with covers threads that arrive late or never run.

To reason about all interleavings at once, a `Discipline` says what one thread may ask,
given a private record (its session) of what it has asked and been told, and what it may
expect to be answered. That a program follows a discipline is a fact about its text alone,
for every answer it may expect; what a disciplined history can do to the world, and that
the world answers as expected, are inductions on the history that never look at a program.
-/

import Euclid.Program

namespace Euclid

open List Function

variable {Thread Req Fault Result World Session : Type} {Answer : Req → Type}

/-! ### Events and histories -/

/-- One answered request: who asked, what, the answer, and the world around it. -/
structure Event (Thread Req : Type) (Answer : Req → Type) (World : Type) where
  thread : Thread
  request : Req
  answer : Answer request
  before : World
  after : World

/-- The event of a thread making a request in a world. -/
@[reducible] def Event.made (machine : Thread → Machine Req Answer World) (tid : Thread)
    (req : Req) (world : World) : Event Thread Req Answer World :=
  ⟨tid, req, (machine tid req world).1, world, (machine tid req world).2⟩

/-- The events of a run, the latest first. -/
abbrev History (Thread Req : Type) (Answer : Req → Type) (World : Type) :=
  List (Event Thread Req Answer World)

/-- Every event of a history meets a condition on it and what came before it. -/
def History.Meets (condition : History Thread Req Answer World →
      Event Thread Req Answer World → Prop) : History Thread Req Answer World → Prop
  | [] => True
  | event :: earlier => condition earlier event ∧ History.Meets condition earlier

theorem History.meets_iff_split (condition : History Thread Req Answer World →
      Event Thread Req Answer World → Prop) (hist : History Thread Req Answer World) :
    History.Meets condition hist ↔
      ∀ later event earlier, hist = later ++ event :: earlier → condition earlier event := by
  induction hist with
  | nil =>
    refine ⟨fun _ later event earlier same => ?_, fun _ => trivial⟩
    exact absurd same (by simp)
  | cons head tail ih =>
    constructor
    · rintro ⟨first, rest⟩ later event earlier same
      cases later with
      | nil =>
        obtain ⟨rfl, rfl⟩ := List.cons.inj same
        exact first
      | cons newest later =>
        obtain ⟨rfl, tailSame⟩ := List.cons.inj same
        exact ih.mp rest later event earlier tailSame
    · intro split
      refine ⟨split [] head tail rfl, ih.mpr fun later event earlier same => ?_⟩
      exact split (head :: later) event earlier (by rw [same]; rfl)

instance History.decidableMeets (condition : History Thread Req Answer World →
      Event Thread Req Answer World → Prop)
    [∀ earlier event, Decidable (condition earlier event)] :
    (hist : History Thread Req Answer World) → Decidable (History.Meets condition hist)
  | [] => .isTrue trivial
  | event :: earlier =>
    have := History.decidableMeets condition earlier
    inferInstanceAs (Decidable (condition earlier event ∧ History.Meets condition earlier))

variable {earlier : History Thread Req Answer World} {event : Event Thread Req Answer World}
variable {later : History Thread Req Answer World}

theorem History.Meets.suffix {condition : History Thread Req Answer World →
      Event Thread Req Answer World → Prop}
    (meets : History.Meets condition (later ++ event :: earlier)) :
    History.Meets condition earlier := by
  induction later with
  | nil => exact meets.2
  | cons newest later ih => exact ih meets.2

/-- Every way to cut a history at one of its events: what came later, the event, what came
before. -/
def History.cuts : History Thread Req Answer World →
    List (History Thread Req Answer World × Event Thread Req Answer World ×
      History Thread Req Answer World)
  | [] => []
  | event :: earlier =>
    ([], event, earlier) :: (History.cuts earlier).map fun cut => (event :: cut.1, cut.2)

variable {hist : History Thread Req Answer World}

theorem History.eq_of_mem_cuts (cut : (later, event, earlier) ∈ History.cuts hist) :
    hist = later ++ event :: earlier := by
  induction hist generalizing later with
  | nil => nomatch cut
  | cons newest rest ih =>
    rcases mem_cons.mp cut with same | deeper
    · obtain ⟨rfl, rfl, rfl⟩ := same
      rfl
    · obtain ⟨⟨after, inner⟩, inRest, same⟩ := mem_map.mp deeper
      obtain ⟨rfl, rfl⟩ := Prod.mk.inj same
      rw [ih inRest]
      rfl

theorem History.cut_cases {later' earlier' : History Thread Req Answer World}
    {first second : Event Thread Req Answer World}
    (same : later ++ first :: earlier = later' ++ second :: earlier') :
    (first = second ∧ later = later' ∧ earlier = earlier') ∨
      (∃ middle, later = later' ++ second :: middle ∧ earlier' = middle ++ first :: earlier) ∨
      ∃ middle, later' = later ++ first :: middle ∧ earlier = middle ++ second :: earlier' := by
  rcases append_eq_append_iff.mp same with ⟨middle, outer, inner⟩ | ⟨middle, outer, inner⟩
  · cases middle with
    | nil =>
      obtain ⟨rfl, rfl⟩ := List.cons.inj inner
      exact .inl ⟨rfl, by simpa using outer.symm, rfl⟩
    | cons newest middle =>
      obtain ⟨rfl, rfl⟩ := List.cons.inj inner
      exact .inr (.inr ⟨middle, outer, rfl⟩)
  · cases middle with
    | nil =>
      obtain ⟨rfl, rfl⟩ := List.cons.inj inner
      exact .inl ⟨rfl, by simpa using outer, rfl⟩
    | cons newest middle =>
      obtain ⟨rfl, rfl⟩ := List.cons.inj inner
      exact .inr (.inl ⟨middle, outer, rfl⟩)

theorem History.field_foldr {Record Value : Type} (field : Record → Value)
    (edit : Event Thread Req Answer World → Record → Record)
    (given : Event Thread Req Answer World → Option Value)
    (gives : ∀ event record, field (edit event record) = (given event).getD (field record))
    (hist : History Thread Req Answer World) (record : Record) :
    field (hist.foldr edit record) = (hist.findSome? given).getD (field record) := by
  induction hist with
  | nil => rfl
  | cons event earlier ih =>
    rw [foldr_cons, gives, List.findSome?_cons]
    cases given event with
    | none => exact ih
    | some value => rfl

/-! ### Pools -/

/-- A world, what each thread still has to do, and what has happened. -/
structure Pool (Thread Req : Type) (Answer : Req → Type)
    (Fault Result World : Type) where
  world : World
  programs : Thread → Program Req Answer Fault Result
  history : History Thread Req Answer World

variable {machine : Thread → Machine Req Answer World} {tid : Thread} {kind : Req → Prop}

namespace Pool

variable [DecidableEq Thread]

section

variable (machine : Thread → Machine Req Answer World)
  (pool : Pool Thread Req Answer Fault Result World)

/-- Let one thread issue its next request. A thread that has ended does nothing. -/
def step (tid : Thread) : Pool Thread Req Answer Fault Result World :=
  match pool.programs tid with
  | .ask req next =>
    let answered := machine tid req pool.world
    { world := answered.2
      programs := Function.update pool.programs tid (next answered.1)
      history := ⟨tid, req, answered.1, pool.world, answered.2⟩ :: pool.history }
  | .done _ => pool
  | .raise _ => pool

/-- Let the threads of a schedule issue one request each, in order. -/
def run (schedule : List Thread) : Pool Thread Req Answer Fault Result World :=
  schedule.foldl (step machine) pool

end

/-- The pool before anything has happened. -/
def start (world : World) (programs : Thread → Program Req Answer Fault Result) :
    Pool Thread Req Answer Fault Result World :=
  ⟨world, programs, []⟩

variable {pool : Pool Thread Req Answer Fault Result World}

theorem step_of_ask {req : Req} {next : Answer req → Program Req Answer Fault Result}
    (asks : pool.programs tid = .ask req next) :
    pool.step machine tid =
      { world := (machine tid req pool.world).2
        programs := Function.update pool.programs tid (next (machine tid req pool.world).1)
        history := ⟨tid, req, (machine tid req pool.world).1, pool.world,
          (machine tid req pool.world).2⟩ :: pool.history } := by
  rw [step, asks]

theorem step_of_ended (ended : ∀ req next, pool.programs tid ≠ .ask req next) :
    pool.step machine tid = pool := by
  rw [step]
  cases program : pool.programs tid with
  | done result => rfl
  | raise fault => rfl
  | ask req next => exact absurd program (ended req next)

theorem run_induction {motive : Pool Thread Req Answer Fault Result World → Prop}
    (initial : motive pool)
    (kept : ∀ current tid, motive current → motive (current.step machine tid))
    (schedule : List Thread) : motive (pool.run machine schedule) := by
  induction schedule generalizing pool with
  | nil => exact initial
  | cons tid rest ih =>
    exact ih (kept pool tid initial)

theorem run_keeps (holds : World → Prop) (start : holds pool.world)
    (asks : ∀ tid, (pool.programs tid).Asks kind)
    (kept : ∀ tid req world, kind req → holds world → holds (machine tid req world).2)
    (schedule : List Thread) : holds (pool.run machine schedule).world := by
  refine (run_induction (motive := fun current => holds current.world ∧
    ∀ tid, (current.programs tid).Asks kind) ⟨start, asks⟩ ?_ schedule).1
  rintro current tid ⟨held, asking⟩
  cases program : current.programs tid with
  | done result =>
    rw [step_of_ended (by simp [program])]
    exact ⟨held, asking⟩
  | raise fault =>
    rw [step_of_ended (by simp [program])]
    exact ⟨held, asking⟩
  | ask req next =>
    have asked := asking tid
    rw [program] at asked
    rw [step_of_ask program]
    refine ⟨kept tid req current.world asked.1 held, fun other => ?_⟩
    dsimp only
    by_cases same : other = tid
    · subst same
      rw [update_self]
      exact asked.2 _
    · rw [update_of_ne same]
      exact asking other

end Pool

/-! ### Recorded histories -/

/-- A history that starts in `origin`, whose events are the machine's, each in the world the
one before it left. -/
def History.Records (machine : Thread → Machine Req Answer World) (origin : World) :
    History Thread Req Answer World → World → Prop
  | [], world => world = origin
  | event :: earlier, world =>
    world = event.after ∧
      machine event.thread event.request event.before = (event.answer, event.after) ∧
      History.Records machine origin earlier event.before

variable {origin : World} {world : World}

theorem History.Records.suffix
    (records : History.Records machine origin (later ++ event :: earlier) world) :
    machine event.thread event.request event.before = (event.answer, event.after) ∧
      History.Records machine origin earlier event.before := by
  induction later generalizing world with
  | nil => exact records.2
  | cons newest later ih => exact ih records.2.2

theorem History.Records.machine_eq
    (records : History.Records machine origin hist world) (mem : event ∈ hist) :
    machine event.thread event.request event.before = (event.answer, event.after) := by
  obtain ⟨later, earlier, rfl⟩ := append_of_mem mem
  exact records.suffix.1

theorem History.Records.invariant
    (records : History.Records machine origin hist world) (holds : World → Prop)
    (start : holds origin) (kept : ∀ tid req world, holds world → holds (machine tid req world).2) :
    holds world := by
  induction hist generalizing world with
  | nil =>
    rw [records]
    exact start
  | cons event earlier ih =>
    obtain ⟨rfl, stepped, before⟩ := records
    have after : event.after = (machine event.thread event.request event.before).2 :=
      (congrArg Prod.snd stepped).symm
    rw [after]
    exact kept _ _ _ (ih before)

theorem History.Records.since
    (records : History.Records machine origin (later ++ event :: earlier) world)
    (holds : World → Prop) (start : holds event.after)
    (kept : ∀ tid req world, holds world → holds (machine tid req world).2) : holds world := by
  induction later generalizing world with
  | nil =>
    rw [records.1]
    exact start
  | cons newest later ih =>
    obtain ⟨rfl, stepped, before⟩ := records
    have after : newest.after = (machine newest.thread newest.request newest.before).2 :=
      (congrArg Prod.snd stepped).symm
    rw [after]
    exact kept _ _ _ (ih before)

theorem History.Records.world_eq {other : World}
    (records : History.Records machine origin hist world)
    (also : History.Records machine origin hist other) : world = other := by
  cases hist with
  | nil => exact Eq.trans records also.symm
  | cons event earlier => exact records.1.trans also.1.symm

theorem History.ordered {first second : Event Thread Req Answer World} (left : first ∈ hist)
    (right : second ∈ hist) (different : first ≠ second) :
    ∃ later middle earlier, hist = later ++ first :: (middle ++ second :: earlier) ∨
      hist = later ++ second :: (middle ++ first :: earlier) := by
  obtain ⟨later, earlier, rfl⟩ := append_of_mem left
  rcases mem_append.mp right with inLater | inRest
  · obtain ⟨newest, middle, rfl⟩ := append_of_mem inLater
    exact ⟨newest, middle, earlier, .inr (by simp)⟩
  · rcases mem_cons.mp inRest with same | inEarlier
    · exact absurd same.symm different
    · obtain ⟨middle, oldest, rfl⟩ := append_of_mem inEarlier
      exact ⟨later, middle, oldest, .inl rfl⟩

theorem History.Records.crossing {middle : History Thread Req Answer World} (holds : World → Prop)
    (records : History.Records machine origin (middle ++ event :: earlier) world)
    (notYet : ¬holds event.after) (now : holds world) :
    ∃ turning ∈ middle, ¬holds turning.before ∧ holds turning.after := by
  induction middle generalizing world with
  | nil =>
    rw [records.1] at now
    exact absurd now notYet
  | cons newest middle ih =>
    obtain ⟨rfl, -, before⟩ := records
    by_cases already : holds newest.before
    · exact exists_mem_cons_of_exists (ih before already)
    · exact ⟨newest, .head _, already, now⟩

/-! ### Disciplines -/

/-- What a thread may ask, judged by its session, what it may expect to be answered, and how
its session records an answer. -/
structure Discipline (Req : Type) (Answer : Req → Type) (Session : Type) where
  allows : Session → Req → Prop
  expects : Session → (req : Req) → Answer req → Prop
  after : Session → (req : Req) → Answer req → Session

/-- As long as the answers are as expected, the program only ever asks what the discipline
allows, and ends in a session its outcome agrees with. -/
def Program.Follows (discipline : Discipline Req Answer Session)
    (program : Program Req Answer Fault Result) (session : Session)
    (ends : Except Fault Result → Session → Prop) : Prop :=
  match program with
  | .done result => ends (.ok result) session
  | .raise fault => ends (.error fault) session
  | .ask req next =>
    discipline.allows session req ∧
      ∀ answer, discipline.expects session req answer →
        (next answer).Follows discipline (discipline.after session req answer) ends

namespace Program

variable {discipline : Discipline Req Answer Session} {Fault' Result' : Type}
variable {program : Program Req Answer Fault Result} {session : Session}
  {continuation : Result → Program Req Answer Fault Result'}

theorem follows_bind {ends : Except Fault Result' → Session → Prop} :
    (program >>= continuation).Follows discipline session ends ↔
      program.Follows discipline session fun outcome reached =>
        match outcome with
        | .ok result => (continuation result).Follows discipline reached ends
        | .error fault => ends (.error fault) reached := by
  induction program generalizing session with
  | done result => exact Iff.rfl
  | raise fault => exact Iff.rfl
  | ask req next ih =>
    exact and_congr Iff.rfl (forall_congr' fun answer => imp_congr Iff.rfl (ih answer))

variable {ends : Except Fault Result → Session → Prop}

theorem follows_pure {result : Result} :
    (pure result : Program Req Answer Fault Result).Follows discipline session ends ↔
      ends (.ok result) session := Iff.rfl

theorem follows_catching {handler : Fault → Program Req Answer Fault' Result}
    {ends : Except Fault' Result → Session → Prop} :
    (program.catching handler).Follows discipline session ends ↔
      program.Follows discipline session fun outcome reached =>
        match outcome with
        | .ok result => ends (.ok result) reached
        | .error fault => (handler fault).Follows discipline reached ends := by
  induction program generalizing session with
  | done result => exact Iff.rfl
  | raise fault => exact Iff.rfl
  | ask req next ih =>
    exact and_congr Iff.rfl (forall_congr' fun answer => imp_congr Iff.rfl (ih answer))

theorem Follows.mono {weaker : Except Fault Result → Session → Prop}
    (follows : program.Follows discipline session ends)
    (implied : ∀ outcome reached, ends outcome reached → weaker outcome reached) :
    program.Follows discipline session weaker := by
  induction program generalizing session with
  | done result => exact implied _ _ follows
  | raise fault => exact implied _ _ follows
  | ask req next ih =>
    exact ⟨follows.1, fun answer expected =>
      ih answer (follows.2 answer expected)⟩

theorem Follows.freely (follows : program.Follows discipline session ends)
    (goesOn : ∀ result reached, (continuation result).Follows discipline reached fun _ _ => True) :
    (program >>= continuation).Follows discipline session fun _ _ => True := by
  refine follows_bind.mpr (follows.mono fun outcome reached _ => ?_)
  cases outcome with
  | ok result => exact goesOn result reached
  | error fault => trivial

/-- Where a program ends well, this holds; nothing is said of one that fails. -/
def Succeeding (leads : Result → Session → Prop) : Except Fault Result → Session → Prop
  | .ok result, reached => leads result reached
  | .error _, _ => True

/-- One program after the other, where a fault of the first is the fault of both. -/
theorem Follows.andThen
    {ends : Except Fault Result' → Session → Prop} {leads : Result → Session → Prop}
    (first : program.Follows discipline session (Succeeding leads))
    (second : ∀ result reached, leads result reached →
      (continuation result).Follows discipline reached ends)
    (failing : ∀ fault reached, ends (.error fault) reached) :
    (program >>= continuation).Follows discipline session ends := by
  refine follows_bind.mpr (first.mono fun outcome reached led => ?_)
  cases outcome with
  | error fault => exact failing fault reached
  | ok result => exact second result reached led

theorem follows_issue {req : Req} {ends : Except Fault (Answer req) → Session → Prop} :
    (issue req).Follows discipline session ends ↔
      discipline.allows session req ∧
        ∀ answer, discipline.expects session req answer →
          ends (.ok answer) (discipline.after session req answer) := Iff.rfl

theorem follows_issue_bind {req : Req} {continuation : Answer req →
    Program Req Answer Fault Result} :
    (issue req >>= continuation).Follows discipline session ends ↔
      discipline.allows session req ∧
        ∀ answer, discipline.expects session req answer →
          (continuation answer).Follows discipline (discipline.after session req answer)
            ends := Iff.rfl

theorem follows_ofExcept {outcome : Except Fault Result} :
    (ofExcept outcome : Program Req Answer Fault Result).Follows discipline session ends ↔
      ends outcome session := by
  cases outcome <;> exact Iff.rfl

theorem Asks.follows_keeping (asks : program.Asks kind)
    (holds : Session → Prop) (start : holds session)
    (allowed : ∀ session req, holds session → kind req →
      discipline.allows session req) (kept : ∀ session req answer, holds session → kind req →
      holds (discipline.after session req answer)) :
    program.Follows discipline session fun _ reached => holds reached := by
  induction program generalizing session with
  | done result => exact start
  | raise fault => exact start
  | ask req next ih =>
    refine ⟨allowed session req start asks.1, fun answer _ => ?_⟩
    exact ih answer (asks.2 answer) (kept session req answer start asks.1)

theorem Asks.follows (asks : program.Asks kind)
    (allowed : ∀ req, kind req → discipline.allows session req)
    (silent : ∀ req, kind req → ∀ answer, discipline.after session req answer = session) :
    program.Follows discipline session fun _ reached => reached = session := by
  refine asks.follows_keeping (· = session) rfl ?_ ?_
  · rintro _ req rfl asked
    exact allowed req asked
  · rintro _ req answer rfl asked
    exact silent req asked answer

theorem follows_forEach {Entry : Type} {entries : List Entry}
    {body : Entry → Program Req Answer Fault Unit}
    (holds : List Entry → Session → Prop) (start : holds entries session)
    (turn : ∀ entry rest before, holds (entry :: rest) before →
      (body entry).Follows discipline before fun outcome reached =>
        outcome = .ok () ∧ holds rest reached) :
    (forEach entries body).Follows discipline session fun outcome reached =>
      outcome = .ok () ∧ holds [] reached := by
  induction entries generalizing session with
  | nil => exact ⟨rfl, start⟩
  | cons entry rest ih =>
    unfold forEach
    rw [follows_bind]
    refine (turn entry rest session start).mono fun outcome reached kept => ?_
    obtain ⟨rfl, remains⟩ := kept
    exact ih remains

/-- A loop that collects results follows a discipline when each turn leads from one good session
to the next, and gives its entry a good result. -/
theorem follows_mapEach {Entry : Type} {entries : List Entry}
    {body : Entry → Program Req Answer Fault Result}
    (holds : Session → Prop) (good : Result → Prop) (start : holds session)
    (turn : ∀ entry before, holds before →
      (body entry).Follows discipline before fun outcome reached =>
        (∀ result, outcome = .ok result → good result) ∧ holds reached) :
    (mapEach entries body).Follows discipline session fun outcome reached =>
      (∀ results, outcome = .ok results → ∀ result ∈ results, good result) ∧ holds reached := by
  induction entries generalizing session with
  | nil =>
    refine ⟨fun results same result mem => ?_, start⟩
    rw [← Except.ok.inj same] at mem
    cases mem
  | cons entry rest ih =>
    unfold mapEach
    rw [follows_bind]
    refine (turn entry session start).mono fun outcome reached kept => ?_
    cases outcome with
    | error fault => exact ⟨by rintro _ ⟨⟩, kept.2⟩
    | ok result =>
      dsimp only
      rw [follows_bind]
      refine (ih kept.2).mono fun outcome reached others => ?_
      cases outcome with
      | error fault => exact ⟨by rintro _ ⟨⟩, others.2⟩
      | ok results =>
        refine ⟨fun all same other mem => ?_, others.2⟩
        rw [← Except.ok.inj same] at mem
        rcases mem_cons.mp mem with rfl | inRest
        · exact kept.1 other rfl
        · exact others.1 results rfl other inRest

end Program

namespace Discipline

variable [DecidableEq Thread]

/-- The session of each thread after a history: its own events, folded. -/
def sessions (discipline : Discipline Req Answer Session) (initial : Thread → Session) :
    History Thread Req Answer World → Thread → Session
  | [] => initial
  | event :: earlier =>
    Function.update (discipline.sessions initial earlier) event.thread
      (discipline.after (discipline.sessions initial earlier event.thread) event.request
        event.answer)

section

variable (discipline : Discipline Req Answer Session)

include discipline

variable (initial : Thread → Session)

include initial

theorem sessions_self (event : Event Thread Req Answer World)
    (earlier : History Thread Req Answer World) :
    discipline.sessions initial (event :: earlier) event.thread =
      discipline.after (discipline.sessions initial earlier event.thread) event.request
        event.answer :=
  update_self _ _ _

theorem sessions_of_ne (event : Event Thread Req Answer World)
    (earlier : History Thread Req Answer World) (other : tid ≠ event.thread) :
    discipline.sessions initial (event :: earlier) tid = discipline.sessions initial earlier tid :=
  update_of_ne other _ _

theorem sessions_cons (event : Event Thread Req Answer World)
    (earlier : History Thread Req Answer World) (tid : Thread) :
    discipline.sessions initial (event :: earlier) tid =
      if tid = event.thread then
        discipline.after (discipline.sessions initial earlier tid) event.request event.answer
      else discipline.sessions initial earlier tid := by
  split
  · rename_i own
    rw [own]
    exact sessions_self _ _ _ _
  · rename_i other
    exact sessions_of_ne _ _ _ _ other

theorem sessions_invariant (holds : Session → Prop) (start : ∀ tid, holds (initial tid))
    (kept : ∀ session req answer, holds session → holds (discipline.after session req answer))
    (hist : History Thread Req Answer World) (tid : Thread) :
    holds (discipline.sessions initial hist tid) := by
  induction hist generalizing tid with
  | nil => exact start tid
  | cons event earlier ih =>
    by_cases same : tid = event.thread
    · subst same
      rw [sessions_self]
      exact kept _ _ _ (ih _)
    · rw [sessions_of_ne _ _ _ _ same]
      exact ih tid

theorem sessions_learned (knows : Session → Prop)
    (teaches : Session → (req : Req) → Answer req → Prop)
    (learns : ∀ session req answer, knows (discipline.after session req answer) →
      knows session ∨ teaches session req answer)
    (start : ¬knows (initial tid)) (known : knows (discipline.sessions initial hist tid)) :
    ∃ later event earlier, hist = later ++ event :: earlier ∧ event.thread = tid ∧
      teaches (discipline.sessions initial earlier tid) event.request event.answer := by
  induction hist with
  | nil => exact absurd known start
  | cons newest earlier ih =>
    by_cases before : knows (discipline.sessions initial earlier tid)
    · obtain ⟨later, event, rest, rfl, own, taught⟩ := ih before
      exact ⟨newest :: later, event, rest, rfl, own, taught⟩
    by_cases own : tid = newest.thread
    · subst own
      rw [sessions_self] at known
      exact ⟨[], newest, earlier, rfl, rfl, (learns _ _ _ known).resolve_left before⟩
    · rw [sessions_of_ne _ _ _ _ own] at known
      exact absurd known before

end

/-- A history that starts in `origin`, whose requests are all allowed to the threads that
made them, and whose answers and worlds are the machine's. -/
inductive Governs (discipline : Discipline Req Answer Session)
    (machine : Thread → Machine Req Answer World) (initial : Thread → Session)
    (origin : World) : History Thread Req Answer World → World → Prop where
  | start : Governs discipline machine initial origin [] origin
  | step {earlier : History Thread Req Answer World} {world : World}
      (governed : Governs discipline machine initial origin earlier world)
      (tid : Thread) (req : Req)
      (allowed : discipline.allows (discipline.sessions initial earlier tid) req) :
      Governs discipline machine initial origin
        (Event.made machine tid req world :: earlier) (machine tid req world).2

variable {discipline : Discipline Req Answer Session} {initial : Thread → Session}

theorem Governs.records (governed : discipline.Governs machine initial origin hist world) :
    History.Records machine origin hist world := by
  induction governed with
  | start => rfl
  | step governed tid req allowed ih =>
    exact ⟨rfl, rfl, ih⟩

section

variable (governed : discipline.Governs machine initial origin (later ++ event :: earlier) world)

include governed

theorem Governs.upTo :
    discipline.Governs machine initial origin (event :: earlier) event.after := by
  induction later generalizing world with
  | nil =>
    cases governed with
    | step governed tid req allowed => exact .step governed tid req allowed
  | cons newest later ih =>
    cases governed with
    | step governed tid req allowed => exact ih governed

theorem Governs.before : discipline.Governs machine initial origin earlier event.before := by
  cases governed.upTo with
  | step governed tid req allowed => exact governed

theorem Governs.made :
    discipline.allows (discipline.sessions initial earlier event.thread) event.request ∧
      event = .made machine event.thread event.request event.before := by
  cases governed.upTo with
  | step governed tid req allowed => exact ⟨allowed, rfl⟩

end

theorem Governs.cons_inv
    (governed : discipline.Governs machine initial origin (event :: earlier) world) :
    discipline.Governs machine initial origin earlier event.before ∧
      discipline.allows (discipline.sessions initial earlier event.thread) event.request ∧
      event = .made machine event.thread event.request event.before ∧ world = event.after := by
  cases governed with
  | step governed tid req allowed => exact ⟨governed, allowed, rfl, rfl⟩

theorem Governs.sessions_since
    (governed : discipline.Governs machine initial origin (later ++ event :: earlier) world)
    (holds : Session → Prop) (start : holds (discipline.sessions initial (event :: earlier) tid))
    (kept : ∀ session req answer, holds session → discipline.allows session req →
      holds (discipline.after session req answer)) :
    holds (discipline.sessions initial (later ++ event :: earlier) tid) := by
  induction later generalizing world with
  | nil => exact start
  | cons newest later ih =>
    cases governed with
    | step governed asking req allowed =>
      rw [cons_append, sessions_cons]
      split
      · rename_i own
        exact kept _ _ _ (ih governed) (own ▸ allowed)
      · exact ih governed

/-- Programs that follow a discipline make governed histories, however they are interleaved,
and each is left following it from the session its own events made. The world has to answer
as expected after every governed history. -/
theorem governs_run (discipline : Discipline Req Answer Session)
    (machine : Thread → Machine Req Answer World) (initial : Thread → Session)
    (ends : Thread → Except Fault Result → Session → Prop) (origin : World)
    (programs : Thread → Program Req Answer Fault Result)
    (follow : ∀ tid, (programs tid).Follows discipline (initial tid) (ends tid))
    (answered : ∀ hist world, discipline.Governs machine initial origin hist world →
      ∀ tid req, discipline.allows (discipline.sessions initial hist tid) req →
        discipline.expects (discipline.sessions initial hist tid) req
          (machine tid req world).1) (schedule : List Thread) :
    discipline.Governs machine initial origin
        ((Pool.start origin programs).run machine schedule).history
        ((Pool.start origin programs).run machine schedule).world ∧
      ∀ tid, (((Pool.start origin programs).run machine schedule).programs tid).Follows discipline
          (discipline.sessions initial
            ((Pool.start origin programs).run machine schedule).history tid) (ends tid) := by
  refine Pool.run_induction (motive := fun pool =>
    discipline.Governs machine initial origin pool.history pool.world ∧
      ∀ tid, (pool.programs tid).Follows discipline
        (discipline.sessions initial pool.history tid) (ends tid))
    ⟨.start, follow⟩ ?_ schedule
  rintro pool tid ⟨governed, following⟩
  cases program : pool.programs tid with
  | done result =>
    rw [Pool.step_of_ended (by simp [program])]
    exact ⟨governed, following⟩
  | raise fault =>
    rw [Pool.step_of_ended (by simp [program])]
    exact ⟨governed, following⟩
  | ask req next =>
    rw [Pool.step_of_ask program]
    have asking := following tid
    rw [program] at asking
    refine ⟨.step governed tid req asking.1, fun other => ?_⟩
    dsimp only
    by_cases same : other = tid
    · subst same
      rw [update_self]
      simpa only [sessions, update_self] using
        asking.2 _ (answered _ _ governed other req asking.1)
    · rw [update_of_ne same, sessions_of_ne _ _ _ _ same]
      exact following other

end Discipline

/-- A schedule in which three threads take their turns one after the other. -/
def threeTurns (first second third : ℕ) : List (Fin 3) :=
  replicate first 0 ++ replicate second 1 ++ replicate third 2

/-! ### Runs of events -/

section Runs

variable {State Occurrence : Type} {step : State → Occurrence → State}
variable {first second : State → Occurrence → Prop}

/-- Something holds of every event of a run, in the state that it meets. -/
def Always (step : State → Occurrence → State) (holds : State → Occurrence → Prop) :
    State → List Occurrence → Prop
  | _, [] => True
  | state, event :: rest => holds state event ∧ Always step holds (step state event) rest

theorem always_congr (each : ∀ state event, first state event ↔ second state event) (state : State)
    (events : List Occurrence) :
    Always step first state events ↔ Always step second state events := by
  induction events generalizing state with
  | nil => exact Iff.rfl
  | cons event rest ih => exact and_congr (each state event) (ih (step state event))

theorem Always.invariant {kept : State → Prop}
    (each : ∀ state event, kept state → first state event → kept (step state event))
    {state : State} {events : List Occurrence} (always : Always step first state events)
    (start : kept state) : kept (events.foldl step state) := by
  induction events generalizing state with
  | nil => exact start
  | cons event rest ih => exact ih always.2 (each state event start always.1)

theorem Always.of_invariant {kept : State → Prop}
    (each : ∀ state event, kept state → first state event → kept (step state event))
    (gives : ∀ state event, kept state → first state event → second state event)
    {state : State} {events : List Occurrence} (always : Always step first state events)
    (start : kept state) : Always step second state events := by
  induction events generalizing state with
  | nil => trivial
  | cons event rest ih =>
    exact ⟨gives state event start always.1, ih always.2 (each state event start always.1)⟩

instance decidableAlways (holds : State → Occurrence → Prop)
    [∀ state event, Decidable (holds state event)] :
    (state : State) → (events : List Occurrence) → Decidable (Always step holds state events)
  | _, [] => .isTrue trivial
  | state, event :: rest =>
    have := decidableAlways holds (step state event) rest
    inferInstanceAs (Decidable (holds state event ∧ Always step holds (step state event) rest))

end Runs

end Euclid
