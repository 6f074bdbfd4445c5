/-
This file proves that the cache serves nothing it was told to forget.

A thread of the pool is one call. A value that a call returns was loaded by a call that began to
load it at some event, and what the call may be blamed for is read off the events since: none that
forgets the key lies between that beginning and the first event of the returning call. A store
checks that the generation is the one its lookup found, and every forgetting makes a new one, so
between the beginning of a load and the store of its answer nothing was forgotten; and from then on
the entry is there only until its key is.
-/

import Euclid.Core.TtlCache

namespace Euclid.Core

open Program Discipline List TtlCache

variable {Thread Key Value : Type}

/-- The events of a run of calls. -/
abbrev Past (Thread Key Value : Type) : Type :=
  History Thread (Req Key Value) (Req.Answer Key Value) (World Key Value)

def Req.Forgets : Req Key Value → Prop
  | .erase _ => True
  | .clear => True
  | _ => False

def Req.Invalidates (key : Key) : Req Key Value → Prop
  | .erase other => other = key
  | .clear => True
  | _ => False

variable {key : Key}

theorem Req.Invalidates.forgets {req : Req Key Value}
    (invalidates : req.Invalidates key) : req.Forgets := by
  cases req <;> trivial

/-! ### Where a value comes from -/

/-- A thread's load of a key came to a value. -/
def Answered (since : Past Thread Key Value) (tid : Thread) (key : Key) (value : Option Value) :
    Prop :=
  ∃ before after, Event.mk tid (.endLoad key) (some value) before after ∈ since

/-- A thread began to load a key, in some world. -/
@[reducible] def beginning (tid : Thread) (key : Key) (begun after : World Key Value) :
    Event Thread (Req Key Value) (Req.Answer Key Value) (World Key Value) :=
  ⟨tid, .beginLoad key, (), begun, after⟩

section

variable (env : Env Key Value Thread)

def HasRead (past : Past Thread Key Value) (tid : Thread) (reading : Int) : Prop :=
  ∃ event ∈ past, event.thread = tid ∧ event.request = .now ∧
    env.clock event.before.moment = reading

/-- The call that a thread makes was given a value of the key: some thread began to load it, and it
came to the value. Whatever forgot the key since, the call had started before that. And either the
call loaded the value itself, or what it read from the clock is less than the time to live after the
load began. -/
def Served (lifetime : Int) (past : Past Thread Key Value) (tid : Thread) (key : Key)
    (value : Option Value) : Prop :=
  ∃ since loading begun after earlier,
    past = since ++ beginning loading key begun after :: earlier ∧
      Answered since loading key value ∧
      (∀ later event middle, since = later ++ event :: middle → event.request.Invalidates key →
        ∃ own ∈ middle ++ beginning loading key begun after :: earlier, own.thread = tid) ∧
      (loading = tid ∨ ∃ reading, HasRead env past tid reading ∧
        reading < env.clock begun.moment + lifetime)

/-- An entry's value was loaded, the key was not forgotten since, and the entry lives no longer than
the time to live after the load began. -/
def Kept (lifetime : Int) (past : Past Thread Key Value) (key : Key) (entry : Entry Value) : Prop :=
  ∃ since loading begun after earlier,
    past = since ++ beginning loading key begun after :: earlier ∧
      Answered since loading key entry.value ∧
      (∀ event ∈ since, ¬event.request.Invalidates key) ∧
      entry.expiresAt ≤ env.clock begun.moment + lifetime

/-- A load began under a reading of the clock and a generation, if any, and while that generation is
the current one, nothing was forgotten since. -/
def Under (past : Past Thread Key Value) (generation : ℕ) (tid : Thread) (key : Key)
    (under : Option (Int × ℕ)) (answered : Past Thread Key Value → Prop) : Prop :=
  ∃ since begun after earlier,
    past = since ++ beginning tid key begun after :: earlier ∧ answered since ∧
      ∀ pair ∈ under, pair.1 ≤ env.clock begun.moment ∧ pair.2 ≤ generation ∧
        (generation = pair.2 → ∀ event ∈ since, ¬event.request.Forgets)

end

variable {generation : ℕ} {reading : Int}

section Later

variable {env : Env Key Value Thread} {lifetime : Int}
  {past since : Past Thread Key Value} {tid : Thread} {key : Key} {value : Option Value}
  {event : Event Thread (Req Key Value) (Req.Answer Key Value) (World Key Value)}

theorem Answered.later (answered : Answered since tid key value) :
    Answered (event :: since) tid key value := by
  obtain ⟨before, after, mem⟩ := answered
  exact ⟨before, after, .tail _ mem⟩

theorem HasRead.later (read : HasRead env past tid reading) :
    HasRead env (event :: past) tid reading :=
  exists_mem_cons_of_exists read

variable {entry : Entry Value}

theorem Kept.later (kept : Kept env lifetime past key entry)
    (keeps : ¬event.request.Invalidates key) : Kept env lifetime (event :: past) key entry := by
  obtain ⟨since, loading, begun, after, earlier, rfl, answered, quiet, lives⟩ := kept
  exact ⟨event :: since, loading, begun, after, earlier, rfl, answered.later,
    forall_mem_cons.mpr ⟨keeps, quiet⟩, lives⟩

theorem Served.started (served : Served env lifetime past tid key value) :
    ∃ own ∈ past, own.thread = tid := by
  obtain ⟨since, loading, begun, after, earlier, rfl, _, _, either⟩ := served
  rcases either with rfl | ⟨_, ⟨own, mem, same, _⟩, _⟩
  · exact ⟨_, mem_append_right _ (.head _), rfl⟩
  · exact ⟨own, mem, same⟩

theorem Served.later (served : Served env lifetime past tid key value) :
    Served env lifetime (event :: past) tid key value := by
  have started := served.started
  obtain ⟨since, loading, begun, after, earlier, rfl, answered, before, either⟩ := served
  refine ⟨event :: since, loading, begun, after, earlier, rfl, answered.later, ?_,
    either.imp_right fun ⟨reading, read, less⟩ => ⟨reading, read.later, less⟩⟩
  intro later forgetting middle same invalidates
  cases later with
  | nil =>
    obtain ⟨rfl, rfl⟩ := List.cons.inj same
    exact started
  | cons newest later =>
    exact before later forgetting middle (List.cons.inj same).2 invalidates

variable {under : Option (Int × ℕ)}

theorem Under.later {next : ℕ} {answered answeredNow : Past Thread Key Value → Prop}
    (loading : Under env past generation tid key under answered)
    (kept : ∀ since, answered since → answeredNow (event :: since))
    (counted : next = generation ∧ ¬event.request.Forgets ∨ next = generation + 1) :
    Under env (event :: past) next tid key under answeredNow := by
  obtain ⟨since, begun, after, earlier, rfl, answered, good⟩ := loading
  refine ⟨event :: since, begun, after, earlier, rfl, kept _ answered, fun pair mem => ?_⟩
  obtain ⟨read, known, quiet⟩ := good pair mem
  refine ⟨read, by omega, fun current => ?_⟩
  rcases counted with ⟨rfl, keeps⟩ | fresh
  · exact forall_mem_cons.mpr ⟨keeps, quiet current⟩
  · omega

theorem Kept.served (kept : Kept env lifetime past key entry)
    (read : HasRead env past tid reading) (fresh : reading < entry.expiresAt) :
    Served env lifetime past tid key entry.value := by
  obtain ⟨since, loading, begun, after, earlier, rfl, answered, quiet, lives⟩ := kept
  refine ⟨since, loading, begun, after, earlier, rfl, answered, ?_,
    .inr ⟨reading, read, fresh.trans_le lives⟩⟩
  rintro later forgetting middle rfl invalidates
  exact absurd invalidates (quiet forgetting (mem_append_right _ (.head _)))

theorem Under.served (loaded : Under env past generation tid key under (Answered · tid key value)) :
    Served env lifetime past tid key value := by
  obtain ⟨since, begun, after, earlier, rfl, answered, _⟩ := loaded
  refine ⟨since, tid, begun, after, earlier, rfl, answered, ?_, .inl rfl⟩
  intro later forgetting middle _ _
  exact ⟨_, mem_append_right _ (.head _), rfl⟩

theorem Under.kept (loaded : Under env past generation tid key (some (reading, generation))
      (Answered · tid key value)) : Kept env lifetime past key ⟨value, reading + lifetime⟩ := by
  obtain ⟨since, begun, after, earlier, rfl, answered, good⟩ := loaded
  obtain ⟨read, _, quiet⟩ := good _ rfl
  refine ⟨since, tid, begun, after, earlier, rfl, answered, fun event mem invalidates => ?_,
    Int.add_le_add_right read _⟩
  exact quiet rfl event mem invalidates.forgets

end Later

/-! ### What a call may do -/

inductive Phase (Value : Type) where
  | fresh
  | timed (reading : Int)
  | missed (reading : Int) (generation : ℕ)
  | loading (under : Option (Int × ℕ))
  | loaded (under : Option (Int × ℕ)) (value : Option Value)
  | ended (value : Option (Option Value))

/-- A call makes the requests of its program, about its key, with what it was told. -/
def allowsCall : Call Key → Phase Value → Req Key Value → Prop
  | .get _, .fresh, .now => True
  | .get key, .fresh, .beginLoad other => other = key
  | .get key, .timed reading, .lookUp other again => other = key ∧ again = reading
  | .get key, .missed _ _, .beginLoad other => other = key
  | .get key, .loading _, .endLoad other => other = key
  | .get key, .loaded under value, .store other loaded reading generation =>
    other = key ∧ loaded = value ∧ under = some (reading, generation)
  | .erase _, .fresh, .erase _ => True
  | .clear, .fresh, .clear => True
  | _, _, _ => False

def afterLookUp (reading : Int) : Lookup Value → Phase Value
  | .hit value => .ended (some value)
  | .miss generation => .missed reading generation

def afterLoad (under : Option (Int × ℕ)) : Option (Option Value) → Phase Value
  | some value => .loaded under value
  | none => .ended none

def afterCall : Phase Value → (req : Req Key Value) → req.Answer → Phase Value
  | .fresh, .now, reading => .timed reading
  | .timed reading, .lookUp _ _, found => afterLookUp reading found
  | .fresh, .beginLoad _, _ => .loading none
  | .missed reading generation, .beginLoad _, _ => .loading (some (reading, generation))
  | .loading under, .endLoad _, ending => afterLoad under ending
  | .loaded _ value, .store .., _ => .ended (some value)
  | _, _, _ => .ended none

/-- The discipline of calls. A session is the call of a thread and how far it is. -/
def calling : Discipline (Req Key Value) (Req.Answer Key Value) (Call Key × Phase Value) where
  allows := fun session req => allowsCall session.1 session.2 req
  expects := fun _ _ _ => True
  after := fun session req answer => (session.1, afterCall session.2 req answer)

/-- A get that has ended with a value has told so. -/
def endsAs (key : Key) : Except Fault (Option Value) → Call Key × Phase Value → Prop
  | .ok value, session =>
    session.1 = .get key ∧
      ((∃ under, session.2 = .loaded under value) ∨ session.2 = .ended (some value))
  | .error _, _ => True

theorem get_follows {ttl : Int} :
    (get ttl key : Op Key Value (Option Value)).Follows calling (.get key, .fresh)
      (endsAs key) := by
  unfold get load
  split
  · refine ⟨rfl, fun _ _ => ⟨rfl, fun ending _ => ?_⟩⟩
    cases ending with
    | none => exact trivial
    | some value => exact ⟨rfl, .inl ⟨none, rfl⟩⟩
  · refine ⟨trivial, fun reading _ => ⟨⟨rfl, rfl⟩, fun found _ => ?_⟩⟩
    cases found with
    | hit value => exact ⟨rfl, .inr rfl⟩
    | miss generation =>
      refine ⟨rfl, fun _ _ => ⟨rfl, fun ending _ => ?_⟩⟩
      cases ending with
      | none => exact trivial
      | some value => exact ⟨⟨rfl, rfl, rfl⟩, fun _ _ => ⟨rfl, .inr rfl⟩⟩

theorem call_follows (ttl : Int) (call : Call Key) :
    (call.program ttl : Op Key Value (Option Value)).Follows calling (call, .fresh)
      fun outcome reached => ∀ key, call = .get key → endsAs key outcome reached := by
  cases call with
  | get key =>
    refine get_follows.mono fun outcome reached ends other same => ?_
    obtain rfl := Call.get.inj same
    exact ends
  | erase key => exact ⟨trivial, nofun⟩
  | clear => exact ⟨trivial, nofun⟩

/-- A request may put an entry into the cache. -/
def Req.Adds : Req Key Value → Prop
  | .store .. => True
  | _ => False

theorem call_asks {ttl : Int} {call : Call Key} :
    (call.program ttl : Op Key Value (Option Value)).Asks fun req =>
      req.Adds → 0 < ttl := by
  cases call with
  | get key =>
    show (get ttl key).Asks _
    rw [get]
    split
    · refine ⟨False.elim, fun _ => ⟨False.elim, fun ending => ?_⟩⟩
      cases ending <;> exact trivial
    · rename_i lives
      refine ⟨False.elim, fun reading => ⟨False.elim, fun found => ?_⟩⟩
      cases found with
      | hit value => exact trivial
      | miss generation =>
        refine ⟨False.elim, fun _ => ⟨False.elim, fun ending => ?_⟩⟩
        cases ending with
        | none => exact trivial
        | some value => exact ⟨fun _ => not_le.mp lives, fun _ => trivial⟩
  | erase key => exact ⟨False.elim, fun _ => trivial⟩
  | clear => exact ⟨False.elim, fun _ => trivial⟩

/-! ### What holds after every event -/

/-- What a call knows agrees with what has happened. -/
def Agrees (env : Env Key Value Thread) (lifetime : Int)
    (past : Past Thread Key Value) (generation : ℕ) (tid : Thread) : Call Key × Phase Value → Prop
  | (.get _, .timed reading) => HasRead env past tid reading
  | (.get _, .missed reading under) => HasRead env past tid reading ∧ under ≤ generation
  | (.get key, .loading under) => Under env past generation tid key under fun _ => True
  | (.get key, .loaded under value) =>
    Under env past generation tid key under (Answered · tid key value)
  | (.get key, .ended (some value)) => Served env lifetime past tid key value
  | _ => True

/-- Every entry was loaded and not forgotten since, and every call agrees with what has happened. -/
structure Sound (env : Env Key Value Thread) (lifetime : Int)
    (past : Past Thread Key Value) (world : World Key Value)
    (sessions : Thread → Call Key × Phase Value) : Prop where
  lives : world.cache.lifetime = lifetime
  moments : ∀ event ∈ past, event.before.moment ≤ world.moment
  entries : ∀ pair ∈ world.cache.entries, Kept env lifetime past pair.1 pair.2
  calls : ∀ tid, Agrees env lifetime past world.cache.generation tid (sessions tid)

variable {past : Past Thread Key Value}

theorem Agrees.later {env : Env Key Value Thread} {lifetime : Int}
    {next : ℕ} {tid : Thread}
    {event : Event Thread (Req Key Value) (Req.Answer Key Value) (World Key Value)}
    {session : Call Key × Phase Value} (agrees : Agrees env lifetime past generation tid session)
    (counted : next = generation ∧ ¬event.request.Forgets ∨ next = generation + 1) :
    Agrees env lifetime (event :: past) next tid session := by
  unfold Agrees at agrees ⊢
  split at agrees
  · exact agrees.later
  · exact ⟨agrees.1.later, by omega⟩
  · exact Under.later agrees (fun _ _ => trivial) counted
  · exact Under.later agrees (fun _ answered => answered.later) counted
  · exact agrees.later
  · exact trivial

section Step

variable {env : Env Key Value Thread} {lifetime : Int}
  {past : Past Thread Key Value} {world : World Key Value} {tid : Thread}
  {sessions : Thread → Call Key × Phase Value} {req : Req Key Value}
  (sound : Sound env lifetime past world sessions)

include sound in
theorem Sound.stored {value : Option Value}
    (allowed : calling.allows (sessions tid) (.store key value reading generation)) :
    Under env past world.cache.generation tid key (some (reading, generation))
      (Answered · tid key value) := by
  have agrees := sound.calls tid
  generalize sessions tid = session at allowed agrees
  obtain ⟨call, phase⟩ := session
  cases call <;> cases phase <;> try exact allowed.elim
  obtain ⟨rfl, rfl, rfl⟩ := allowed
  exact agrees

variable [DecidableEq Key]

theorem effect_generation (req : Req Key Value) (cache : TtlCache Key Value) :
    (req.effect cache).generation = cache.generation ∧ ¬req.Forgets ∨
      (req.effect cache).generation = cache.generation + 1 := by
  cases req with
  | erase key => exact .inr rfl
  | clear => exact .inr rfl
  | store key loaded reading generation => exact .inl ⟨store_fields.2.2.2, id⟩
  | _ => exact .inl ⟨rfl, id⟩

theorem effect_lifetime (req : Req Key Value) (cache : TtlCache Key Value) :
    (req.effect cache).lifetime = cache.lifetime := by
  cases req with
  | store key loaded reading generation => exact store_fields.1
  | _ => rfl

include sound in
theorem Sound.entries_step (allowed : calling.allows (sessions tid) req) :
    ∀ pair ∈ (req.effect world.cache).entries,
      Kept env lifetime (.made (machine env) tid req world :: past) pair.1 pair.2 := by
  intro pair mem
  cases req with
  | clear => nomatch mem
  | erase key =>
    obtain ⟨mem, other⟩ := mem_filter.mp mem
    have different : pair.1 ≠ key := by simpa using other
    exact (sound.entries pair mem).later fun same : key = pair.1 => different same.symm
  | store key value reading generation =>
    rcases mem_of_mem_store mem with earlier | ⟨rfl, rfl⟩
    · exact (sound.entries pair earlier).later id
    · rw [sound.lives]
      exact (sound.stored allowed).kept.later id
  | _ => exact (sound.entries pair mem).later id

include sound in
/-- What a call knows after an allowed request agrees with what has happened. -/
theorem Sound.own_step (allowed : calling.allows (sessions tid) req) :
    Agrees env lifetime (.made (machine env) tid req world :: past)
      (req.effect world.cache).generation tid
      (calling.after (sessions tid) req (env.answer tid world req)) := by
  have agrees := sound.calls tid
  generalize sessions tid = session at allowed agrees ⊢
  obtain ⟨call, phase⟩ := session
  cases call with
  | erase key => cases phase <;> cases req <;> exact trivial
  | clear => cases phase <;> cases req <;> exact trivial
  | get key =>
    cases phase with
    | fresh =>
      cases req <;> try exact allowed.elim
      · exact ⟨_, .head _, rfl, rfl, rfl⟩
      · obtain rfl := allowed
        exact ⟨[], world, _, past, rfl, trivial, nofun⟩
    | timed reading =>
      cases req <;> try exact allowed.elim
      obtain ⟨rfl, rfl⟩ := allowed
      show Agrees _ _ _ _ _ (Call.get _, afterLookUp _ (world.cache.lookUp _ _))
      cases found : world.cache.lookUp _ _ with
      | hit value =>
        obtain ⟨entry, mem, rfl, fresh⟩ := lookUp_hit found
        exact ((sound.entries _ mem).served agrees fresh).later
      | miss generation => exact ⟨HasRead.later agrees, (lookUp_miss found).le⟩
    | missed reading generation =>
      cases req <;> try exact allowed.elim
      obtain rfl := allowed
      obtain ⟨⟨event, mem, _, _, rfl⟩, known⟩ := agrees
      refine ⟨[], world, _, past, rfl, trivial, ?_⟩
      rintro pair ⟨⟩
      exact ⟨env.steady (sound.moments event mem), known, fun _ _ mem =>
        absurd mem not_mem_nil⟩
    | loading under =>
      cases req <;> try exact allowed.elim
      obtain rfl := allowed
      show Agrees _ _ _ _ _ (Call.get _, afterLoad _ (env.load tid _ world.moment))
      cases ending : env.load tid _ world.moment with
      | none => exact trivial
      | some value =>
        refine Under.later agrees (fun since _ => ⟨world, ⟨world.cache, world.moment + 1⟩, ?_⟩)
          (.inl ⟨rfl, id⟩)
        refine mem_cons.mpr (.inl ?_)
        rw [Event.made, machine, ← ending]
        rfl
    | loaded under value =>
      cases req <;> try exact allowed.elim
      obtain ⟨rfl, rfl, rfl⟩ := allowed
      exact Served.later agrees.served
    | ended value => cases req <;> exact allowed.elim

end Step

/-! ### Runs -/

section Runs

/-- The cache has its bound and keeps to it. -/
def World.Within (maxEntries : ℕ) (world : World Key Value) : Prop :=
  world.cache.maxEntries = maxEntries ∧ world.cache.entries.length ≤ maxEntries

variable [DecidableEq Thread] [DecidableEq Key] (env : Env Key Value Thread)
  (ttl : Int) (maxEntries : ℕ) (cacheMisses : Bool) (calls : Thread → Call Key)

def World.start : World Key Value := ⟨.empty ttl maxEntries cacheMisses, 0⟩

/-- Every thread makes its call, one request after the other as the schedule lets it. -/
def interleave (schedule : List Thread) :
    Pool Thread (Req Key Value) (Req.Answer Key Value) Fault (Option Value) (World Key Value) :=
  (Pool.start (.start ttl maxEntries cacheMisses) fun tid => (calls tid).program ttl).run
    (machine env) schedule

variable {env ttl maxEntries cacheMisses calls}

theorem sound_of_governed {world : World Key Value}
    (governed : calling.Governs (machine env) (fun tid => (calls tid, .fresh))
      (.start ttl maxEntries cacheMisses) past world) :
    Sound env (ttl * 1000000) past world
      (calling.sessions (fun tid => (calls tid, .fresh)) past) := by
  induction governed with
  | start =>
    refine ⟨rfl, nofun,
      nofun, fun tid => ?_⟩
    rw [sessions]
    cases calls tid <;> exact trivial
  | @step past world governed tid req allowed ih =>
    refine ⟨(effect_lifetime ..).trans ih.lives, ?_, ih.entries_step allowed, fun other => ?_⟩
    · refine forall_mem_cons.mpr ⟨Nat.le_succ _, fun event mem => ?_⟩
      exact (ih.moments event mem).trans (Nat.le_succ _)
    · rw [sessions_cons]
      split
      · rename_i same
        rw [same]
        exact ih.own_step allowed
      · exact (ih.calls other).later (effect_generation ..)

variable {schedule : List Thread}

theorem served_of_done {tid : Thread} {value : Option Value} (asked : calls tid = .get key)
    (returned : (interleave env ttl maxEntries cacheMisses calls schedule).programs tid =
      .done value) :
    Served env (ttl * 1000000)
      (interleave env ttl maxEntries cacheMisses calls schedule).history tid key value := by
  obtain ⟨governed, following⟩ := governs_run calling (machine env)
    (fun tid => (calls tid, .fresh)) _ (.start ttl maxEntries cacheMisses) _
    (fun tid => call_follows ttl (calls tid)) (fun _ _ _ _ _ _ => trivial) schedule
  have ends := following tid
  rw [show ((Pool.start _ _).run _ schedule).programs tid = _ from returned] at ends
  have told : endsAs key (.ok value) _ := ends key asked
  have agrees := (sound_of_governed governed).calls tid
  obtain ⟨same, either⟩ := told
  generalize calling.sessions _ _ tid = session at same either agrees
  obtain ⟨call, phase⟩ := session
  obtain rfl : call = .get key := same
  rcases either with ⟨under, rfl⟩ | rfl
  · exact Under.served agrees
  · exact agrees

theorem within_bound (roomy : ttl ≤ 0 ∨ 0 < maxEntries) :
    (interleave env ttl maxEntries cacheMisses calls schedule).world.cache.entries.length ≤
      maxEntries := by
  have kept : ∀ (tid : Thread) (req : Req Key Value) (world : World Key Value),
      (req.Adds → 0 < ttl) → world.Within maxEntries →
        (machine env tid req world).2.Within maxEntries := by
    rintro tid req world adds ⟨bound, within⟩
    cases req with
    | store key loaded reading generation =>
      have positive : 0 < maxEntries := roomy.resolve_left (not_le.mpr (adds trivial))
      refine ⟨store_fields.2.2.1.trans bound, ?_⟩
      rw [← bound] at positive within ⊢
      exact store_length positive within
    | erase key => exact ⟨bound, (length_filter_le ..).trans within⟩
    | clear => exact ⟨bound, Nat.zero_le _⟩
    | _ => exact ⟨bound, within⟩
  have start : (World.start ttl maxEntries cacheMisses : World Key Value).Within maxEntries :=
    ⟨rfl, Nat.zero_le _⟩
  have asks : ∀ tid, ((calls tid).program ttl : Op Key Value (Option Value)).Asks
      fun req => req.Adds → 0 < ttl := fun tid => call_asks
  exact (Pool.run_keeps (World.Within maxEntries) start asks kept schedule).2

/-- However the calls of a cache are interleaved, a get returns only what was loaded for its key: by
a load that began after everything that had forgotten the key before the get started, and that began
less than the time to live before the get read the clock. And a cache with no time to live, or that
may hold something, never holds more than it may. -/
theorem serves_nothing_forgotten (env : Env Key Value Thread) (ttl : Int)
    (maxEntries : ℕ) (cacheMisses : Bool) (calls : Thread → Call Key) (schedule : List Thread)
    (roomy : ttl ≤ 0 ∨ 0 < maxEntries) :
    (∀ tid key value, calls tid = .get key →
      (interleave env ttl maxEntries cacheMisses calls schedule).programs tid = .done value →
      Served env (ttl * 1000000)
        (interleave env ttl maxEntries cacheMisses calls schedule).history tid key
        value) ∧
      (interleave env ttl maxEntries cacheMisses calls schedule).world.cache.entries.length ≤
        maxEntries := by
  exact ⟨fun _ _ _ => served_of_done, within_bound roomy⟩

end Runs

/-- A clock that ticks once a second, and loaders that find something. -/
def Env.seconds : Env String ℕ ℕ where
  clock moment := 1000000000 * moment
  steady _ _ less := Int.mul_le_mul_of_nonneg_left (Int.ofNat_le.mpr less) (by decide)
  load _ _ moment := some (some moment)

/-- A get, a forgetting of its key while the get loads, and another get. -/
def getErasedGet : Pool ℕ (Req String ℕ) (Req.Answer String ℕ) Fault (Option ℕ) (World String ℕ) :=
  interleave Env.seconds 5000 2 true (fun tid : ℕ => if tid = 1 then .erase "k" else .get "k")
    [0, 0, 0, 0, 1, 0, 2, 2, 2, 2, 2]

/-- The first get returns what it has loaded and stores it under the generation that is gone, and
the second get loads again. -/
theorem forgotten_while_loading :
    getErasedGet.programs 0 = .done (some 3) ∧ getErasedGet.programs 2 = .done (some 9) ∧
      Served Env.seconds 5000000000 getErasedGet.history 0 "k" (some 3) ∧
      Served Env.seconds 5000000000 getErasedGet.history 2 "k" (some 9) ∧
      getErasedGet.world.cache.entries.length ≤ 2 :=
  have kept := serves_nothing_forgotten Env.seconds 5000 2 true
    (fun tid : ℕ => if tid = 1 then .erase "k" else .get "k") [0, 0, 0, 0, 1, 0, 2, 2, 2, 2, 2]
    (.inr (by decide))
  ⟨rfl, rfl, kept.1 0 "k" (some 3) rfl rfl, kept.1 2 "k" (some 9) rfl rfl, kept.2⟩

/-- A cache that may hold nothing holds the answer of the first get. -/
theorem holds_more_than_none : ¬(interleave Env.seconds 5000 0 true (fun _ : ℕ => .get "k")
      [0, 0, 0, 0, 0]).world.cache.entries.length ≤ 0 := by
  decide

end Euclid.Core
