/-
This file proves when a handler that defines a queue leaves the counters of its traffic alone.

A queue is written as a whole, its counters included. A handler that changes one part of a
queue writes the counters of the copy it read, a create-queue writes zeroes. Traffic changes
the counters by statements of its own, so the effect of a handler on them is seen by replaying
the traffic's statements without it. The two agree as long as every write puts back what is
stored.
-/

import Euclid.Eqs.Books
import Euclid.Eqs.Scope

namespace Euclid.Eqs

open Program Discipline Collection List

variable {Fault : Type}

/-! ### Traffic and definitions -/

/-- What one thread does: an operation on messages, or a handler that defines a queue. -/
inductive Defining where
  | traffic (operation : Traffic)
  | createQueue (caller : Option Caller) (nameSpace : String) (request : CreateQueueRequest)
  | addQueueTag (caller : Option Caller) (isEamAdmin granted : Bool) (ern key value : String)
  | setQueueTag (caller : Option Caller) (isEamAdmin granted : Bool) (ern key value : String)
  | deleteQueueTag (caller : Option Caller) (isEamAdmin granted : Bool) (ern key : String)
  | stopQueue (caller : Option Caller) (granted : Bool) (ern : String)
  | startQueue (caller : Option Caller) (granted : Bool) (ern : String)
  | setQueueVisibility (caller : Option Caller) (ern : String) (visibility : Int)
  | setQueueDelay (caller : Option Caller) (ern : String) (delay : Int)
  | setQueueMaxMessageLength (caller : Option Caller) (ern : String) (maxMessageLength : Int)
  | setQueueMaxRetries (caller : Option Caller) (ern : String) (maxRetries : Int)

open Defining

def Defining.handler (env : Env) : Defining → Op StoreError (Response Queue)
  | .traffic operation => do
    let _ ← operation.program env
    pure .unauthorized
  | .createQueue caller nameSpace request => handleCreateQueue env caller nameSpace request
  | .addQueueTag caller isEamAdmin granted ern key value =>
    handleAddQueueTag caller isEamAdmin granted ern key value
  | .setQueueTag caller isEamAdmin granted ern key value =>
    handleSetQueueTag caller isEamAdmin granted ern key value
  | .deleteQueueTag caller isEamAdmin granted ern key =>
    handleDeleteQueueTag caller isEamAdmin granted ern key
  | .stopQueue caller granted ern => handleStopQueue caller granted ern
  | .startQueue caller granted ern => handleStartQueue caller granted ern
  | .setQueueVisibility caller ern visibility => handleSetQueueVisibility caller ern visibility
  | .setQueueDelay caller ern delay => handleSetQueueDelay caller ern delay
  | .setQueueMaxMessageLength caller ern maxMessageLength =>
    handleSetQueueMaxMessageLength caller ern maxMessageLength
  | .setQueueMaxRetries caller ern maxRetries => handleSetQueueMaxRetries caller ern maxRetries

/-- Whether the thread defines a queue. -/
def Defining.defines : Defining → Bool
  | .traffic _ => false
  | _ => true

/-- The handlers that change one part of a queue that exists. -/
def Defining.changes : Defining → Prop
  | .traffic _ | .createQueue _ _ _ => False
  | _ => True

/-- A change of a queue that leaves its name, its key and its counters alone. -/
def KeepsAccount (change : Queue → Except (Response Queue) Queue) : Prop :=
  ∀ {queue changed}, change queue = .ok changed →
    changed.ern = queue.ern ∧ changed.key = queue.key ∧ changed.counters = queue.counters

variable {caller : Option Caller} {ern : String}

theorem changeTags_cases {isEamAdmin granted : Bool} {key : String}
    {change : Queue → Except (Response Queue) (List (String × String))} :
    (∃ response, changeTags caller isEamAdmin granted ern key change = pure response) ∨
      ∃ whole, KeepsAccount whole ∧
        changeTags caller isEamAdmin granted ern key change = changeQueue ern whole := by
  unfold changeTags
  cases caller with
  | none => exact .inl ⟨_, rfl⟩
  | some caller =>
    dsimp only
    split
    · exact .inl ⟨_, rfl⟩
    · refine .inr ⟨_, ?_, rfl⟩
      intro queue changed changes
      dsimp only [permit] at changes
      split at changes
      · cases tagged : change queue with
        | error response =>
          rw [tagged] at changes
          cases changes
        | ok tags =>
          rw [tagged] at changes
          cases changes
          exact ⟨rfl, rfl, rfl⟩
      · cases changes

theorem handleSetQueueStopped_cases {granted : Bool} {stopped : Bool} :
    (∃ response, handleSetQueueStopped caller granted ern stopped = pure response) ∨
      ∃ change, KeepsAccount change ∧
        handleSetQueueStopped caller granted ern stopped = changeQueue ern change := by
  unfold handleSetQueueStopped
  cases caller with
  | none => exact .inl ⟨_, rfl⟩
  | some caller =>
    dsimp only
    split
    · exact .inl ⟨_, rfl⟩
    · split
      · exact .inl ⟨_, rfl⟩
      · refine .inr ⟨_, ?_, rfl⟩
        intro queue changed changes
        cases changes
        exact ⟨rfl, rfl, rfl⟩

theorem setFigure_cases {accepted : Bool} {refusal : String} {change : Queue → Queue}
    (kept : KeepsAccount fun queue => .ok (change queue)) :
    (∃ response, setFigure caller ern accepted refusal change = pure response) ∨
      ∃ change', KeepsAccount change' ∧
        setFigure caller ern accepted refusal change = changeQueue ern change' := by
  unfold setFigure
  cases caller with
  | none => exact .inl ⟨_, rfl⟩
  | some caller =>
    dsimp only
    split
    · exact .inl ⟨_, rfl⟩
    · split
      · exact .inl ⟨_, rfl⟩
      · exact .inr ⟨_, kept, rfl⟩

theorem Defining.handler_cases (env : Env) {defining : Defining} (changes : defining.changes) :
    (∃ response, defining.handler env = pure response) ∨
      ∃ ern change, KeepsAccount change ∧ defining.handler env = changeQueue ern change := by
  have figure : ∀ caller ern accepted refusal {change : Queue → Queue},
      (∀ queue, (change queue).ern = queue.ern ∧ (change queue).key = queue.key ∧
        (change queue).counters = queue.counters) →
      (∃ response, setFigure caller ern accepted refusal change = pure response) ∨
        ∃ name whole, KeepsAccount whole ∧
          setFigure caller ern accepted refusal change = changeQueue name whole := by
    intro caller ern accepted refusal change kept
    refine (setFigure_cases ?_).imp id fun found => ⟨ern, found⟩
    intro queue changed same
    cases same
    exact kept queue
  cases defining with
  | traffic _ | createQueue _ _ _ => exact absurd changes id
  | addQueueTag _ _ _ ern _ _ | setQueueTag _ _ _ ern _ _ | deleteQueueTag _ _ _ ern _ =>
    exact changeTags_cases.imp id fun found => ⟨ern, found⟩
  | stopQueue caller granted ern =>
    exact handleSetQueueStopped_cases.imp id fun found => ⟨ern, found⟩
  | startQueue caller granted ern =>
    exact handleSetQueueStopped_cases.imp id fun found => ⟨ern, found⟩
  | setQueueVisibility _ ern _ | setQueueDelay _ ern _ | setQueueMaxMessageLength _ ern _
  | setQueueMaxRetries _ ern _ => exact figure _ _ _ _ fun queue => ⟨rfl, rfl, rfl⟩

/-- Threads that each do one thing, in the process they belong to. -/
abbrev Defining.pool {Thread : Type} (env : Env) (origin : World) (definings : Thread → Defining) :
    Pool Thread Req Req.Answer StoreError (Response Queue) World :=
  Pool.start origin fun tid => (definings tid).handler env

/-! ### The discipline -/

/-- Whether a thread defines a queue, and the copy of a queue it has read. -/
structure Definer where
  defines : Bool
  copy : Option Queue

/-- The counters a thread writes with a queue: those it read, or none. -/
def Definer.carried (definer : Definer) : Counters := (definer.copy.map Queue.counters).getD 0

/-- A whole queue is written with the counters of the copy. A definition asks little else. -/
def Definer.allows (definer : Definer) : Req → Prop
  | .queue (.upsert queue) => definer.defines ∧ queue.counters = definer.carried
  | .queue (.findByErn _) | .systemClock => True
  | .process (.forgetConfig _) | .process (.forgetQueue _) => True
  | request => request.IsPartial ∧ definer.defines = false

def Definer.after (definer : Definer) : (request : Req) → request.Answer → Definer
  | .queue (.findByErn _), .ok found => { definer with copy := found }
  | _, _ => definer

/-- The discipline of traffic and definitions. Any answer may come. -/
def definition : Discipline Req Req.Answer Definer where
  allows := Definer.allows
  expects := fun _ _ _ => True
  after := Definer.after

theorem Definer.after_defines (definer : Definer) (request : Req) (answer : request.Answer) :
    (definer.after request answer).defines = definer.defines := by
  cases request with
  | queue statement => cases statement <;> cases answer <;> rfl
  | systemClock | steadyClock | randomUuid | process _ | message _ => rfl

theorem follows_traffic {env : Env} {operation : Traffic} :
    ((Defining.traffic operation).handler env).Follows definition ⟨false, none⟩
      fun _ _ => True := by
  have asks : ((Defining.traffic operation).handler env).Asks Req.IsPartial :=
    (operation.isPartial env).bind fun _ => trivial
  refine (asks.follows_keeping (·.defines = false) rfl ?_ ?_).mono fun _ _ _ => trivial
  · intro definer request traffic asked
    cases request with
    | queue statement =>
      cases statement <;> first | exact absurd asked id | exact trivial | exact ⟨asked, traffic⟩
    | process request => cases request <;> first | exact trivial | exact ⟨trivial, traffic⟩
    | systemClock => trivial
    | steadyClock | randomUuid | message _ => exact ⟨asked, traffic⟩
  · intro definer request answer traffic asked
    exact (definer.after_defines request answer).trans traffic

variable {definer : Definer}

theorem upsertQueue_defines {queue : Queue} (defines : definer.defines)
    (carries : queue.counters = definer.carried) :
    (upsertQueue queue).Follows definition definer fun _ reached => reached = definer := by
  unfold upsertQueue onQueues
  rw [follows_bind, follows_bind, follows_issue]
  refine ⟨⟨defines, carries⟩, fun answer _ => ?_⟩
  cases answer with
  | error error => rfl
  | ok stored => exact ⟨trivial, fun _ _ => ⟨trivial, fun _ _ => rfl⟩⟩

theorem changed_defines {decided : Except (Response Queue) Queue}
    (defines : definer.defines) :
    (∀ changed, decided = .ok changed → changed.counters = definer.carried) →
    (match decided with
      | .error response => pure response
      | .ok changed => upsertQueue changed >>= fun saved => pure (.success saved) :
        Op StoreError (Response Queue)).Follows definition definer fun _ _ => True := by
  intro carries
  cases decided with
  | error response => trivial
  | ok changed =>
    show (upsertQueue changed >>= _).Follows definition _ _
    exact Follows.freely (upsertQueue_defines defines (carries _ rfl)) fun _ _ => trivial

theorem changeQueue_defines {change : Queue → Except (Response Queue) Queue}
    (kept : KeepsAccount change) :
    (changeQueue ern change).Follows definition ⟨true, none⟩ fun _ _ => True := by
  unfold changeQueue findQueueByErn orAnswer onQueues
  rw [follows_bind, follows_catching, follows_bind, follows_issue]
  refine ⟨trivial, fun answer _ => ?_⟩
  cases answer with
  | error error => trivial
  | ok found =>
    cases found with
    | none => trivial
    | some queue =>
      exact changed_defines (show (⟨true, some queue⟩ : Definer).defines from rfl)
        fun changed changes => (kept changes).2.2

theorem handleCreateQueue_defines {env : Env} {nameSpace : String} {request : CreateQueueRequest} :
    (handleCreateQueue env caller nameSpace request).Follows definition ⟨true, none⟩
      fun _ _ => True := by
  unfold handleCreateQueue
  split
  · trivial
  · trivial
  · rename_i caller priority _
    have queueWritten : ∀ deadLetterQueueErn, (do
        let created ← readSystemClock
        let modified ← readSystemClock
        let saved ← upsertQueue (request.queue env caller nameSpace request.name
          deadLetterQueueErn priority created modified)
        pure (.success saved) : Op StoreError (Response Queue)).Follows definition
          ⟨true, none⟩ fun _ _ => True := by
      intro deadLetterQueueErn
      refine ⟨trivial, fun created _ => ⟨trivial, fun modified _ => ?_⟩⟩
      show (upsertQueue _ >>= fun saved => pure (Response.success saved)).Follows definition
        ⟨true, none⟩ _
      exact Follows.freely (upsertQueue_defines rfl rfl) fun _ _ => trivial
    rw [follows_bind]
    unfold createDeadLetterQueue
    split
    · exact queueWritten ""
    · refine ⟨trivial, fun created _ => ⟨trivial, fun modified _ => ?_⟩⟩
      show (upsertQueue _ >>= fun saved => pure saved.ern).Follows definition ⟨true, none⟩ _
      rw [follows_bind]
      refine Follows.mono (upsertQueue_defines rfl rfl) fun outcome reached same => ?_
      subst same
      cases outcome with
      | error error => trivial
      | ok saved => exact queueWritten saved.ern

theorem Defining.follows (env : Env) (defining : Defining) :
    (defining.handler env).Follows definition ⟨defining.defines, none⟩ fun _ _ => True := by
  by_cases changes : defining.changes
  · rcases defining.handler_cases env changes with ⟨response, same⟩ | ⟨ern, change, kept, same⟩
    · rw [same]
      trivial
    · rw [same]
      cases defining <;> first | exact changeQueue_defines kept | exact absurd changes id
  · cases defining with
    | traffic operation => exact follows_traffic
    | createQueue caller nameSpace request => exact handleCreateQueue_defines
    | _ => exact absurd trivial changes

/-! ### Replaying traffic -/

section Run

variable {Thread : Type} [DecidableEq Thread] {env : Env}
variable {processOf : Thread → Nat} {definings : Thread → Defining} {origin world : World}
variable {hist : History Thread Req Req.Answer World}

/-- What the queue statements of a history, each at its own moment, make of some queues. -/
def replay (env : Env) (queues : List Queue) : History Thread Req Req.Answer World → List Queue
  | [] => queues
  | event :: earlier =>
    match event.request with
    | .queue statement =>
      (statement.apply (env.systemClock event.before.moment) event.before.moment
        (replay env queues earlier)).2
    | _ => replay env queues earlier

section

variable (definings : Thread → Defining) (hist : History Thread Req Req.Answer World)

/-- The events of a history that are not of a handler that defines a queue. -/
def trafficOf : History Thread Req Req.Answer World :=
  hist.filter fun event => !(definings event.thread).defines

abbrev definersOf : Thread → Definer :=
  definition.sessions (fun tid => ⟨(definings tid).defines, none⟩) hist

end

/-- A history of traffic and definitions. -/
abbrev Defined (env : Env) (processOf : Thread → Nat)
    (definings : Thread → Defining) (origin : World)
    (hist : History Thread Req Req.Answer World) (world : World) : Prop :=
  definition.Governs (machines env processOf)
    (fun tid => ⟨(definings tid).defines, none⟩) origin hist world

/-- A write of a queue finds the record it replaces under the name it writes, with the counters
it carries. -/
def CountersCurrent (definings : Thread → Defining) (earlier : History Thread Req Req.Answer World)
    (event : Event Thread Req Req.Answer World) : Prop :=
  match event.request with
  | .queue (.upsert queue) => ∀ stored ∈ event.before.queues, stored.key = queue.key →
      stored.ern = queue.ern ∧ stored.counters = (definersOf definings earlier event.thread).carried
  | _ => True

/-- Every queue there was at first has the counters it would have without the definitions. -/
def CountersUndisturbed (env : Env) (definings : Thread → Defining) (origin : World)
    (pool : Pool Thread Req Req.Answer StoreError (Response Queue) World) : Prop :=
  ∀ queue ∈ origin.queues, countersOf pool.world.queues queue.ern =
    countersOf (replay env origin.queues (trafficOf definings pool.history)) queue.ern

theorem definersOf_defines {definings : Thread → Defining}
    {hist : History Thread Req Req.Answer World} {tid : Thread} :
    (definersOf definings hist tid).defines = (definings tid).defines := by
  induction hist with
  | nil => rfl
  | cons event earlier hypothesis =>
    rw [definersOf, sessions_cons]
    split
    · exact (Definer.after_defines _ _ _).trans hypothesis
    · exact hypothesis

def accounts (queues : List Queue) : List (String × Counters) :=
  queues.map fun queue => (queue.ern, queue.counters)

theorem countersOf_eq_accounts (queues : List Queue) (ern : String) :
    countersOf queues ern = ((accounts queues).find? fun entry => entry.1 = ern).map Prod.snd := by
  rw [accounts, List.find?_map, Option.map_map]
  rfl

theorem erns_eq_accounts (queues : List Queue) :
    queues.map Queue.ern = (accounts queues).map Prod.fst := by
  rw [accounts, map_map]
  rfl

theorem accounts_upsert {queues : List Queue} {queue : Queue} {now : Time} {moment : Nat}
    (current : ∀ stored ∈ queues, stored.key = queue.key →
      stored.ern = queue.ern ∧ stored.counters = queue.counters) :
    accounts (QueueStatement.apply now moment queues (.upsert queue)).2 = accounts queues ∨
      ((∀ stored ∈ queues, stored.ern ≠ queue.ern) ∧
        accounts (QueueStatement.apply now moment queues (.upsert queue)).2 =
          accounts queues ++ [(queue.ern, queue.counters)]) := by
  simp only [QueueStatement.apply]
  split
  · exact .inl rfl
  · rename_i distinct
    split
    · refine .inl (map_updateFirst fun stored mem selected => ?_)
      obtain ⟨ern, counters⟩ := current stored mem (of_decide_eq_true selected)
      rw [ern, counters]
      rfl
    · rename_i absent
      refine .inr ⟨fun stored mem same => ?_, map_append⟩
      have other := List.find?_eq_none.mp absent stored mem
      have clash : queue.clashes queues := by
        refine any_eq_true.mpr ⟨stored, mem, ?_⟩
        simpa [same] using other
      exact distinct clash

variable {counters : Counters}

theorem named_append {queues after : List Queue} {ern : String}
    (named : Named queues) (fresh : ∀ stored ∈ queues, stored.ern ≠ ern)
    (appended : accounts after = accounts queues ++ [(ern, counters)]) : Named after := by
  rw [Named, erns_eq_accounts, appended, map_append, ← erns_eq_accounts, nodup_append]
  refine ⟨named, nodup_singleton _, fun first old second new same => ?_⟩
  obtain ⟨stored, mem, rfl⟩ := mem_map.mp old
  exact fresh stored mem (same.trans (mem_singleton.mp new))

theorem countersOf_append {queues after : List Queue} {ern other : String}
    (present : (countersOf queues ern).isSome)
    (appended : accounts after = accounts queues ++ [(other, counters)]) :
    countersOf after ern = countersOf queues ern := by
  rw [countersOf_eq_accounts] at present
  rw [countersOf_eq_accounts, appended, countersOf_eq_accounts, List.find?_append]
  cases found : (accounts queues).find? fun entry => entry.1 = ern with
  | none =>
    rw [found] at present
    cases present
  | some entry => rfl

/-- Names stay distinct, no queue goes away, and its counters are those of the replay. -/
structure Undisturbed (definings : Thread → Defining) (env : Env)
    (origin : World) (hist : History Thread Req Req.Answer World)
    (world : World) : Prop where
  named : Named world.queues
  replayed : Named (replay env origin.queues (trafficOf definings hist))
  same : ∀ ern, (countersOf origin.queues ern).isSome →
    (countersOf world.queues ern).isSome ∧ countersOf world.queues ern =
      countersOf (replay env origin.queues (trafficOf definings hist)) ern

theorem undisturbed (defined : Defined env processOf definings origin hist world)
    (named : Named origin.queues) (current : History.Meets (CountersCurrent definings) hist) :
    Undisturbed definings env origin hist world := by
  induction defined with
  | start => exact ⟨named, named, fun ern present => ⟨present, rfl⟩⟩
  | @step earlier world defined asking request allowed hypothesis =>
    obtain ⟨condition, current⟩ := current
    obtain ⟨named, replayed, same⟩ := hypothesis current
    -- an event of a definition is not replayed
    have skipped : (definings asking).defines → replay env origin.queues (trafficOf definings
        (.made (machines env processOf) asking request world :: earlier)) =
          replay env origin.queues (trafficOf definings earlier) := by
      intro defines
      rw [trafficOf, filter_cons_of_neg (by simpa using defines)]
      rfl
    have silent : accounts (machines env processOf asking request world).2.queues =
          accounts world.queues →
        replay env origin.queues (trafficOf definings
          (.made (machines env processOf) asking request world :: earlier)) =
            replay env origin.queues (trafficOf definings earlier) →
        Undisturbed definings env origin
          (.made (machines env processOf) asking request world :: earlier)
          (machines env processOf asking request world).2 := by
      intro unchanged skipped
      refine ⟨?_, by rw [skipped]; exact replayed, fun ern present => ?_⟩
      · rw [Named, erns_eq_accounts, unchanged, ← erns_eq_accounts]
        exact named
      · rw [skipped, countersOf_eq_accounts, unchanged, ← countersOf_eq_accounts]
        exact same ern present
    rw [← definersOf_defines] at skipped
    cases request with
    | queue statement =>
      by_cases whole : ∃ queue, statement = .upsert queue
      · obtain ⟨queue, rfl⟩ := whole
        obtain ⟨defines, carries⟩ := allowed
        rcases accounts_upsert
          fun stored mem sameKey => carries ▸ condition stored mem sameKey with
          unchanged | ⟨fresh, appended⟩
        · exact silent unchanged (skipped defines)
        · refine ⟨named_append named fresh appended, by rw [skipped defines]; exact replayed,
            fun ern present => ?_⟩
          obtain ⟨stays, equal⟩ := same ern present
          have kept := countersOf_append stays appended
          rw [skipped defines, ← equal]
          exact ⟨(congrArg Option.isSome kept).trans stays, kept⟩
      · have amending : ∀ queue, statement ≠ .upsert queue := fun queue is => whole ⟨queue, is⟩
        by_cases defines : (definersOf definings earlier asking).defines
        · cases statement with
          | findByErn ern => exact silent rfl (skipped defines)
          | upsert queue => exact absurd rfl (amending queue)
          | _ => exact absurd (allowed.2.symm.trans defines) Bool.false_ne_true
        · have kept : replay env origin.queues (trafficOf definings
              (.made (machines env processOf) asking (.queue statement) world :: earlier)) =
                (statement.apply (env.systemClock world.moment) world.moment
                  (replay env origin.queues (trafficOf definings earlier))).2 := by
            rw [definersOf_defines] at defines
            rw [trafficOf, filter_cons_of_pos (by simpa using defines)]
            rfl
          refine ⟨?_, ?_, fun ern present => ?_⟩
          · exact (congrArg List.Nodup (erns_apply _ _ amending)).mpr named
          · rw [kept]
            exact (congrArg List.Nodup (erns_apply _ _ amending)).mpr replayed
          · obtain ⟨stays, equal⟩ := same ern present
            have after := countersOf_apply named (env.systemClock world.moment) world.moment
              amending ern
            rw [kept, countersOf_apply replayed _ _ amending ern, ← equal, ← after]
            exact ⟨(congrArg Option.isSome after).trans (Option.isSome_map.trans stays), rfl⟩
    | _ =>
      refine silent rfl ?_
      rw [trafficOf, filter_cons]
      split <;> rfl

/-- In every run in which each write of a queue carries the counters that are stored, the
definitions leave the counters as the traffic makes them. -/
theorem definitions_keep_counters (env : Env) (processOf : Thread → Nat)
    (definings : Thread → Defining) (origin : World) (named : Named origin.queues)
    (schedule : List Thread) (current : History.Meets (CountersCurrent definings)
      ((pool env origin definings).run (machines env processOf) schedule).history) :
    CountersUndisturbed env definings origin
      ((pool env origin definings).run (machines env processOf) schedule) := by
  have defined := (governs_run definition (machines env processOf)
    (fun tid => ⟨(definings tid).defines, none⟩) (fun _ _ _ => True) origin
    (fun tid => (definings tid).handler env)
    (fun tid => (definings tid).follows env) (fun _ _ _ _ _ _ => trivial)
    schedule).1
  intro queue stored
  refine ((undisturbed defined named current).same queue.ern ?_).2
  rw [countersOf_of_mem named stored]
  rfl

end Run

/-! ### Both outcomes -/

instance {Thread : Type} [DecidableEq Thread] (definings : Thread → Defining)
    (earlier : History Thread Req Req.Answer World)
    (event : Event Thread Req Req.Answer World) :
    Decidable (CountersCurrent definings earlier event) := by
  unfold CountersCurrent
  generalize event.request = request
  rcases request with _ | _ | _ | _ | ⟨⟨⟩⟩ | _ <;> infer_instance

/-- A queue is tagged while a message is sent to it. -/
def taggedAndSent : Bool → Defining
  | false => .addQueueTag (some ⟨"someone", "1", "eu-central-1"⟩) false true "orders" "team" "a"
  | true => .traffic (.send "orders" ⟨"first", "", "hello", [], [], .medium⟩)

/-- In turns, the tag leaves the counters alone. -/
theorem definitions_keep_counters_of_turns :
    CountersUndisturbed (.stepping .mongo 1000) taggedAndSent .oneQueue
      ((pool (.stepping .mongo 1000) .oneQueue taggedAndSent).run
        (machines (.stepping .mongo 1000) fun _ => 0)
        (List.replicate 20 true ++ List.replicate 9 false)) :=
  definitions_keep_counters (.stepping .mongo 1000) (fun _ => 0) taggedAndSent .oneQueue
    (nodup_singleton _) _ (by decide)

/-- The tag has read the queue when the send counts its message, and puts the old counters back. -/
theorem tag_undoes_counters : ¬CountersUndisturbed (.stepping .mongo 1000) taggedAndSent .oneQueue
      ((pool (.stepping .mongo 1000) .oneQueue taggedAndSent).run
        (machines (.stepping .mongo 1000) fun _ => 0)
        ([false] ++ List.replicate 20 true ++ List.replicate 9 false)) := by
  unfold CountersUndisturbed
  decide

end Euclid.Eqs
