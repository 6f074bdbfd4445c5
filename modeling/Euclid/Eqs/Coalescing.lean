/-
This file proves when the coalesced counter writes of several processes lose nothing.

An adjustment waits in the process that made it until a flush writes it, and adjustments of
different processes reach the store in any order. What has been issued is first owed by a
process, then in the hands of the thread that took it out, then written; nothing is lost on
the way. The one statement that is not an addition is the clamp, which raises a counter that a
subtraction has taken below zero. So the stored counters end up exact if and only if no clamp
ever found a counter below zero.
-/

import Euclid.Eqs.Books
import Euclid.Eqs.Conduct

namespace Euclid.Eqs

open Program Discipline Collection List Option Function Counters

variable {Fault : Type}

/-! ### Threads that adjust and flush -/

/-- One call a thread makes. -/
inductive Adjusting where
  | adjust (queueErn : String) (delta : Counters)
  | flush

open Adjusting

def Adjusting.program : Adjusting → Op StoreError Unit
  | .adjust queueErn delta => adjustQueueCounters queueErn delta
  | .flush => flushQueueCounters

/-- The calls of a thread, one after the other. -/
def adjustAll (calls : List Adjusting) : Op StoreError Unit :=
  forEach calls program

/-- Threads that each make their calls in the process they belong to. -/
abbrev Adjusting.pool {Thread : Type} (origin : World) (calls : Thread → List Adjusting) :
    Pool Thread Req Req.Answer StoreError Unit World :=
  Pool.start origin fun tid => adjustAll (calls tid)

/-! ### The discipline -/

/-- A thread is held to what it has taken out to write: it writes that, in order, before it takes
out more. -/
def allowsCounting (due : List (String × Counters)) : Req → Prop
  | .process (.addPending _ _) => True
  | .process (.takePending _) => due = []
  | .queue (.increment ern delta) => due.head? = some (ern, delta)
  | .queue (.clamp _ _) => True
  | _ => False

def afterCounting (due : List (String × Counters)) :
    (req : Req) → req.Answer → List (String × Counters)
  | .process (.takePending _), taken => taken
  | .queue (.increment _ _), _ => due.tail
  | _, _ => due

/-- The discipline of counting. Any answer may come. -/
def counting : Discipline Req Req.Answer (List (String × Counters)) where
  allows := allowsCounting
  expects := fun _ _ _ => True
  after := afterCounting

variable {due : List (String × Counters)}

theorem follows_onQueues_counting {stmt : QueueStatement}
    {ends : Except StoreError stmt.Answer → List (String × Counters) → Prop}
    (allowed : allowsCounting due (.queue stmt)) (ended : ∀ answer : Except StoreError stmt.Answer,
      ends answer (afterCounting due (.queue stmt) answer)) :
    (onQueues stmt).Follows counting due ends := by
  unfold onQueues
  rw [follows_bind, follows_issue]
  refine ⟨allowed, fun answer _ => ?_⟩
  cases answer with
  | ok value => exact ended (.ok value)
  | error error => exact ended (.error error)

variable {queueErn : String}

theorem clamps_follow {pending : Counters} :
    (forEach clampOrder fun field => onlyIf (pending.get field < 0)
      (onQueues (.clamp queueErn field))).Follows counting due fun _ reached => reached = due := by
  let isClamp := fun req : Req => ∃ ern field, req = .queue (.clamp ern field)
  have asks : (forEach clampOrder fun field => onlyIf (pending.get field < 0)
      (onQueues (.clamp queueErn field))).Asks isClamp :=
    Asks.forEach fun field _ => Asks.onlyIf fun _ => asks_onQueues ⟨queueErn, field, rfl⟩
  refine asks.follows ?_ ?_
  · rintro req ⟨ern, field, rfl⟩
    trivial
  · rintro req ⟨ern, field, rfl⟩ answer
    rfl

theorem writeCounters_counts {entry : String × Counters} {rest : List (String × Counters)} :
    (writeCounters entry.1 entry.2 : Op Fault Unit).Follows counting (entry :: rest)
      fun outcome reached => outcome = .ok () ∧ reached = rest := by
  unfold writeCounters orAnswer
  rw [follows_catching, follows_bind]
  refine follows_onQueues_counting rfl fun answer => ?_
  cases answer with
  | error error => exact ⟨rfl, rfl⟩
  | ok _ =>
    refine clamps_follow.mono fun outcome reached same => ?_
    cases outcome with
    | ok _ => exact ⟨rfl, same⟩
    | error error => exact ⟨rfl, same⟩

theorem flushPendingCounters_counts {force : Bool} :
    (flushPendingCounters force : Op Fault Unit).Follows counting []
      fun outcome reached => outcome = .ok () ∧ reached = [] := by
  unfold flushPendingCounters locally
  rw [follows_bind, follows_issue]
  refine ⟨rfl, fun due _ => ?_⟩
  refine follows_forEach (fun entries session => session = entries) rfl ?_
  rintro entry rest _ rfl
  exact writeCounters_counts

theorem adjustQueueCounters_counts {delta : Counters} :
    (adjustQueueCounters queueErn delta : Op Fault Unit).Follows counting []
      fun outcome reached => outcome = .ok () ∧ reached = [] := by
  unfold adjustQueueCounters
  split
  · exact ⟨rfl, rfl⟩
  · exact ⟨trivial, fun _ _ => flushPendingCounters_counts⟩

theorem adjustAll_counts {calls : List Adjusting} :
    (adjustAll calls).Follows counting [] fun outcome reached => outcome = .ok () ∧
      reached = [] := by
  refine follows_forEach (fun _ session => session = []) rfl ?_
  rintro call rest _ rfl
  cases call with
  | adjust queueErn delta => exact adjustQueueCounters_counts
  | flush => exact flushPendingCounters_counts

/-! ### What an adjustment goes through -/

/-- What a request adds to the adjustments made to one queue. -/
def Req.issues (ern : String) : Req → Counters
  | .process req => req.issues ern
  | _ => 0

open Req

/-- What a request takes out of a process's memory to write. -/
def Req.takes (ern : String) : (req : Req) → req.Answer → Counters
  | .process req, answer => req.takes ern answer
  | _, _ => 0

/-- What a request adds to a queue's stored counters. -/
def Req.writes (ern : String) : Req → Counters
  | .queue (.increment queueErn delta) => if queueErn = ern then delta else 0
  | _ => 0

/-- What a request raises a queue's stored counters by. -/
def Req.lifts (ern : String) (world : World) : Req → Counters
  | .queue (.clamp queueErn field) =>
    if queueErn = ern then
      ((countersOf world.queues ern).map fun counters => counters.clamped field - counters).getD 0
    else 0
  | _ => 0

theorem Req.lifts_clamp {ern : String} {field : Field} {world : World}
    {counters : Counters} (stored : countersOf world.queues ern = some counters) :
    (queue (.clamp ern field)).lifts ern world = counters.clamped field - counters := by
  rw [lifts, if_pos rfl, stored]
  rfl

/-- A clamp finds its counter at zero or above. -/
def ClampsNothing {Thread : Type} (event : Event Thread Req Answer World) : Prop :=
  match event.request with
  | .queue (.clamp ern field) => ∀ counters ∈ countersOf event.before.queues ern,
      0 ≤ counters.get field
  | _ => True

section Run

variable {Thread : Type} {env : Env} {processOf : Thread → Nat} {origin world : World}
variable {hist : Past Thread}

/-- The sum over a history of what its events come to. -/
def History.total (amount : Event Thread Req Answer World → Counters)
    (hist : History Thread Req Answer World) : Counters :=
  (hist.map amount).sum

open Eqs.History

theorem History.total_cons (amount : Event Thread Req Answer World → Counters)
    (event : Event Thread Req Answer World) (earlier : Past Thread) :
    total amount (event :: earlier) = amount event + total amount earlier := rfl

def issued (ern : String) (hist : History Thread Req Answer World) : Counters :=
  total (fun event => event.request.issues ern) hist

theorem clampsNothing_iff {event : Event Thread Req Answer World} :
    ClampsNothing event ↔ ∀ ern, (countersOf event.before.queues ern).isSome →
      event.request.lifts ern event.before = 0 := by
  obtain ⟨tid, req, answer, before, after⟩ := event
  cases req with
  | queue stmt =>
    cases stmt with
    | clamp queueErn field =>
      constructor
      · intro nothing ern present
        by_cases own : queueErn = ern
        · subst own
          obtain ⟨counters, found⟩ := isSome_iff_exists.mp present
          exact (lifts_clamp found).trans
            (clamped_sub_eq_zero.mpr (nothing counters found))
        · exact if_neg own
      · intro lifts counters found
        have none := lifts queueErn (isSome_iff_exists.mpr ⟨counters, found⟩)
        exact clamped_sub_eq_zero.mp
          ((lifts_clamp found).symm.trans none)
    | _ => exact ⟨fun _ _ _ => rfl, fun _ => trivial⟩
  | _ => exact ⟨fun _ _ _ => rfl, fun _ => trivial⟩

theorem Req.nonnegative_lifts (ern : String) (world : World) (req : Req) :
    (req.lifts ern world).Nonnegative := by
  cases req with
  | queue stmt =>
    cases stmt with
    | clamp queueErn field =>
      by_cases own : queueErn = ern
      · subst own
        cases found : countersOf world.queues queueErn with
        | none =>
          rw [lifts, if_pos rfl, found]
          exact nonnegative_zero
        | some counters =>
          rw [lifts_clamp found]
          exact counters.nonnegative_clamped_sub field
      · rw [lifts, if_neg own]
        exact nonnegative_zero
    | _ => exact nonnegative_zero
  | _ => exact nonnegative_zero

theorem total_eq_zero_iff {amount : Event Thread Req Answer World → Counters}
    (nonneg : ∀ event, (amount event).Nonnegative) :
    total amount hist = 0 ↔ ∀ event ∈ hist, amount event = 0 := by
  have total_nonneg : ∀ hist, (total amount hist).Nonnegative := by
    intro hist
    induction hist with
    | nil => exact nonnegative_zero
    | cons event earlier ih => exact (nonneg event).add ih
  induction hist with
  | nil => exact ⟨fun _ _ mem => absurd mem not_mem_nil, fun _ => rfl⟩
  | cons event earlier ih =>
    rw [total_cons, forall_mem_cons]
    constructor
    · intro zero
      obtain ⟨first, rest⟩ := (nonneg event).eq_zero (total_nonneg earlier) zero
      exact ⟨first, ih.mp rest⟩
    · rintro ⟨first, rest⟩
      rw [first, ih.mpr rest, add_zero]

variable [DecidableEq Thread]

/-- A history of counting, whatever its interleaving. -/
abbrev Counted (env : Env) (processOf : Thread → Nat) (origin : World)
    (hist : History Thread Req Answer World) (world : World) : Prop :=
  counting.Governs (machines env processOf) (fun _ => []) origin hist world

/-- The stored counters of a queue are what they were at first, what was written to them and
what clamps have raised them by. -/
structure Stored (ern : String) (origin : World)
    (hist : History Thread Req Answer World) (world : World) : Prop where
  named : Named world.queues
  erns : world.queues.map Queue.ern = origin.queues.map Queue.ern
  counters : countersOf world.queues ern = (countersOf origin.queues ern).map fun counters =>
    counters + total (fun event => event.request.writes ern) hist +
      total (fun event => event.request.lifts ern event.before) hist

section

variable (counted : Counted env processOf origin hist world)

include counted

theorem counted_stored
    (named : Named origin.queues) {ern : String} : Stored ern origin hist world := by
  induction counted with
  | start =>
    refine ⟨named, rfl, ?_⟩
    have same : (fun counters : Counters => counters + 0 + 0) = id := by
      funext counters
      rw [add_zero, add_zero]
      rfl
    show _ = Option.map (fun counters => counters + 0 + 0) _
    rw [same, Option.map_id]
    rfl
  | @step earlier world counted asking req allowed ih =>
    obtain ⟨named, erns, counters⟩ := ih
    have silent : req.writes ern = 0 → req.lifts ern world = 0 →
        (machines env processOf asking req world).2.queues = world.queues →
        Stored ern origin (.made (machines env processOf) asking req world :: earlier)
          (machines env processOf asking req world).2 := by
      intro writes lifts same
      refine ⟨by rw [same]; exact named, by rw [same]; exact erns, ?_⟩
      rw [same, counters, total_cons, total_cons, writes, lifts, zero_add, zero_add]
    cases req with
    | process req => exact silent rfl rfl rfl
    | queue stmt =>
      have amending : ∀ queue, stmt ≠ .upsert queue := by
        rintro queue rfl
        exact allowed
      have amended := countersOf_apply named (env.systemClock world.moment) world.moment
        amending ern
      have sameErns : (stmt.apply (env.systemClock world.moment) world.moment
          world.queues).2.map Queue.ern = world.queues.map Queue.ern := erns_apply _ _ amending
      refine ⟨?_, sameErns.trans erns, ?_⟩
      · exact (congrArg Nodup sameErns).mpr named
      show countersOf (stmt.apply _ _ world.queues).2 ern = _
      rw [amended, total_cons, total_cons]
      cases stmt with
      | increment queueErn delta =>
        rw [counters, Option.map_map]
        refine congrArg (Option.map · _) (funext fun first => ?_)
        dsimp only [comp_apply, QueueStatement.amends, writes, lifts]
        split
        · abel
        · abel
      | clamp queueErn field =>
        -- the lift is what the clamp adds to the counters as they are
        have lifted : (countersOf world.queues ern).map
            (QueueStatement.amends ern (.clamp queueErn field)) =
              (countersOf world.queues ern).map fun counters => counters +
                lifts ern world (.queue (.clamp queueErn field)) := by
          cases found : countersOf world.queues ern with
          | none => rfl
          | some first =>
            refine congrArg some ?_
            dsimp only [QueueStatement.amends, lifts]
            rw [found]
            split
            · exact (add_sub_cancel first _).symm
            · exact (add_zero first).symm
        rw [lifted, counters, Option.map_map]
        refine congrArg (Option.map · _) (funext fun first => ?_)
        dsimp only [comp_apply, writes]
        abel
      | _ => exact absurd allowed id
    | _ => exact absurd allowed id

/-- What a process owes and what has been taken out of it is what was issued in it. -/
theorem counted_owed (proc : Nat) (ern : String) :
    (world.processes proc).owed ern +
        total (fun event => event.request.takes ern event.answer)
          (hist.filter fun event => processOf event.thread = proc) =
      (origin.processes proc).owed ern + total (fun event => event.request.issues ern)
          (hist.filter fun event => processOf event.thread = proc) := by
  induction counted with
  | start => rfl
  | @step earlier world counted asking req allowed ih =>
    by_cases own : processOf asking = proc
    · rw [filter_cons_of_pos (by simpa using own), total_cons, total_cons]
      cases req with
      | process req =>
        have same : (machines env processOf asking (.process req) world).2.processes
            proc = (req.apply env world.moment (world.processes proc)).2 := by
          subst own
          exact update_self _ _ _
        have moved := owed_apply env world.moment (world.processes proc) req ern
        have taken : takes ern (.process req)
            (machines env processOf asking (.process req) world).1 =
              req.takes ern (req.apply env world.moment (world.processes proc)).1 := by
          subst own
          rfl
        rw [same]
        rw [taken, ← add_assoc, moved]
        show _ + req.issues ern + _ = _ + (req.issues ern + _)
        rw [add_right_comm, ih]
        abel
      | queue stmt =>
        show _ + (0 + _) = _ + (0 + _)
        rw [zero_add, zero_add]
        exact ih
      | _ => exact absurd allowed id
    · have other : ((machines env processOf asking req world).2.processes proc) =
          world.processes proc := by
        cases req with
        | process req => exact update_of_ne (Ne.symm own) _ _
        | _ => rfl
      rw [filter_cons_of_neg (by simpa using own), other]
      exact ih

/-- What a thread has taken out is what it has written and what it is still held to. -/
theorem counted_held (tid : Thread) (ern : String) :
    owedTo ern (counting.sessions (fun _ => []) hist tid) +
        total (fun event => event.request.writes ern)
          (hist.filter fun event => event.thread = tid) =
      total (fun event => event.request.takes ern event.answer)
          (hist.filter fun event => event.thread = tid) := by
  induction counted with
  | start => rfl
  | @step earlier world counted asking req allowed ih =>
    rw [sessions_cons]
    by_cases own : tid = asking
    · subst own
      rw [if_pos rfl, filter_cons_of_pos (by simp), total_cons, total_cons,
        ← ih]
      generalize counting.sessions (fun _ => []) earlier tid = due at allowed
      cases req with
      | process req =>
        cases req with
        | addPending queueErn delta =>
          show owedTo ern due + (0 + _) = 0 + (owedTo ern due + _)
          rw [zero_add, zero_add]
        | takePending force =>
          obtain rfl : due = [] := allowed
          show owedTo ern _ + (0 + _) = owedTo ern _ + (0 + _)
          rfl
        | _ => exact absurd allowed id
      | queue stmt =>
        cases stmt with
        | increment queueErn delta =>
          obtain ⟨rest, rfl⟩ := List.head?_eq_some_iff.mp allowed
          show owedTo ern rest + ((if queueErn = ern then delta else 0) + _) =
            0 + (((if queueErn = ern then delta else 0) + owedTo ern rest) + _)
          abel
        | clamp queueErn field =>
          show owedTo ern due + (0 + _) = 0 + (owedTo ern due + _)
          rw [zero_add, zero_add]
        | _ => exact absurd allowed id
      | _ => exact absurd allowed id
    · rw [if_neg own, filter_cons_of_neg (by simpa using Ne.symm own)]
      exact ih

/-- When nothing is owed and nothing is held, everything issued has been written. -/
theorem counted_settled (nothingOwed : ∀ proc, (origin.processes proc).pendingCounters = [])
    (flushed : ∀ tid, (world.processes (processOf tid)).pendingCounters = [])
    (released : ∀ tid, counting.sessions (fun _ => []) hist tid = []) (ern : String) :
    total (fun event => event.request.writes ern) hist = issued ern hist := by
  have difference : ∀ first second : Event Thread Req Answer World → Counters,
      ∀ hist, total (fun event => first event - second event) hist =
        total first hist - total second hist := by
    intro first second hist
    induction hist with
    | nil => rfl
    | cons event earlier ih =>
      rw [total_cons, ih, total_cons, total_cons]
      abel
  have empty : ∀ proc : Process, proc.pendingCounters = [] → proc.owed ern = 0 := by
    intro proc none
    rw [Process.owed, none]
    rfl
  have taken : total (fun event => event.request.takes ern event.answer) hist =
      issued ern hist := by
    rw [← sub_eq_zero, issued, ← difference]
    refine sum_eq_zero_of_groups (fun event => processOf event.thread) _ _ fun event _ => ?_
    have moved := counted_owed counted (processOf event.thread) ern
    rw [empty _ (flushed event.thread), empty _ (nothingOwed _), zero_add, zero_add] at moved
    exact (difference _ _ _).trans (sub_eq_zero.mpr moved)
  rw [← taken, ← sub_eq_zero, ← difference]
  refine sum_eq_zero_of_groups (fun event => event.thread) _ _ fun event _ => ?_
  have held := counted_held counted event.thread ern
  rw [released event.thread, owedTo_nil, zero_add] at held
  exact (difference _ _ _).trans (sub_eq_zero.mpr held)

end

theorem counting_run (env : Env) (processOf : Thread → Nat)
    (calls : Thread → List Adjusting) (origin : World) (schedule : List Thread) :
    Counted env processOf origin ((pool origin calls).run (machines env processOf) schedule).history
        ((pool origin calls).run (machines env processOf) schedule).world ∧
      ∀ tid, (((pool origin calls).run (machines env processOf)
          schedule).programs tid).Follows counting
        (counting.sessions (fun _ => [])
          ((pool origin calls).run (machines env processOf) schedule).history tid)
        fun outcome reached => outcome = .ok () ∧ reached = [] :=
  governs_run counting (machines env processOf) (fun _ => []) _ origin
    (fun tid => adjustAll (calls tid)) (fun _ => adjustAll_counts)
    (fun _ _ _ _ _ _ => trivial) schedule

/-- Every queue is stored with the counters it had and all that was issued to it. -/
def CountedExactly (origin : World) (pool : Pool Thread Req Answer StoreError Unit World) : Prop :=
  ∀ queue ∈ origin.queues,
    countersOf pool.world.queues queue.ern = some (queue.counters + issued queue.ern pool.history)

/-- Once every thread has finished and every process has flushed, the stored counters are exact
if and only if no clamp has found a counter below zero. -/
theorem coalesced_exactly_iff (env : Env) (processOf : Thread → Nat)
    (calls : Thread → List Adjusting) (origin : World) (named : Named origin.queues)
    (nothingOwed : ∀ proc, (origin.processes proc).pendingCounters = []) (schedule : List Thread)
    (finished : ∀ tid, ((pool origin calls).run (machines env processOf)
      schedule).programs tid = .done ())
    (flushed : ∀ tid, (((pool origin calls).run (machines env processOf)
      schedule).world.processes (processOf tid)).pendingCounters = []) :
    CountedExactly origin
        ((pool origin calls).run (machines env processOf) schedule) ↔
      ∀ event ∈ ((pool origin calls).run (machines env processOf)
        schedule).history, ClampsNothing event := by
  obtain ⟨counted, following⟩ := counting_run env processOf calls origin schedule
  generalize (pool origin calls).run (machines env processOf) schedule = pool
    at finished flushed counted following ⊢
  have released : ∀ tid, counting.sessions (fun _ => []) pool.history tid = [] := by
    intro tid
    have ends := following tid
    rw [finished tid] at ends
    exact ends.2
  have settled := counted_settled counted nothingOwed flushed released
  -- a queue is exact exactly if nothing has lifted its counters
  have exact_iff : ∀ queue ∈ origin.queues,
      countersOf pool.world.queues queue.ern =
          some (queue.counters + issued queue.ern pool.history) ↔
        ∀ event ∈ pool.history, event.request.lifts queue.ern event.before = 0 := by
    intro queue stored
    rw [(counted_stored counted named).counters, countersOf_of_mem named stored,
      map_some, settled, some_inj, add_eq_left]
    exact total_eq_zero_iff fun event => event.request.nonnegative_lifts _ _
  -- and the queues there are at an event are those there were at first
  have present : ∀ event ∈ pool.history, ∀ ern, (countersOf event.before.queues ern).isSome →
      ∃ queue ∈ origin.queues, queue.ern = ern := by
    intro event mem ern some
    obtain ⟨counters, found⟩ := isSome_iff_exists.mp some
    obtain ⟨later, earlier, split⟩ := append_of_mem mem
    have before := (split ▸ counted).before
    rw [(counted_stored before named).counters] at found
    obtain ⟨first, stored, _⟩ := map_eq_some_iff.mp found
    exact mem_of_countersOf stored
  constructor
  · intro counts event mem
    refine clampsNothing_iff.mpr fun ern some => ?_
    obtain ⟨queue, stored, rfl⟩ := present event mem ern some
    exact (exact_iff queue stored).mp (counts queue stored) event mem
  · intro nothing queue stored
    refine (exact_iff queue stored).mpr fun event mem => ?_
    refine clampsNothing_iff.mp (nothing event mem) queue.ern ?_
    obtain ⟨later, earlier, split⟩ := append_of_mem mem
    have before := (split ▸ counted).before
    rw [(counted_stored before named).counters, countersOf_of_mem named stored]
    rfl

end Run

/-! ### Both outcomes -/

/-- What has been issued to a queue was never below zero. -/
def TotalsNonnegative {Thread : Type} (ern : String)
    (hist : History Thread Req Answer World) : Prop :=
  ∀ earlier ∈ hist.tails, (issued ern earlier).Nonnegative

instance {Thread : Type} (event : Event Thread Req Answer World) :
    Decidable (ClampsNothing event) := by
  unfold ClampsNothing
  generalize event.request = request
  rcases request with _ | _ | _ | _ | ⟨⟨⟩⟩ | _ <;> infer_instance

/-- A message is sent through one process and received through another. -/
def sentAndReceived : Bool → List Adjusting
  | false => [.adjust "orders" ⟨1, 0, 0, 0⟩, .flush]
  | true => [.adjust "orders" ⟨-1, 0, 0, 0⟩, .flush]

/-- The run of the two threads, each in a process of its own. -/
abbrev sentAndReceivedIn (schedule : List Bool) : Pool Bool Req Answer StoreError Unit World :=
  (pool .oneQueue sentAndReceived).run (machines (.stepping .mongo 1) Bool.toNat) schedule

theorem coalesced_exactly_of_turns : CountedExactly .oneQueue
      (sentAndReceivedIn (List.replicate 9 false ++ List.replicate 9 true)) := by
  refine (coalesced_exactly_iff (.stepping .mongo 1) Bool.toNat sentAndReceived .oneQueue
    (nodup_singleton _) (fun _ => rfl) _ (fun tid => ?_) ?_).mpr (by decide)
  · obtain ⟨result, ended, _⟩ := Program.returns_iff.mp
      (show Program.returns (fun _ => true) ((sentAndReceivedIn (replicate 9 false ++
        replicate 9 true)).programs tid) by revert tid; decide)
    exact ended
  · decide

/-- The first process still holds its addition back when the second writes its subtraction: the
clamp fires, and the counter ends one too high, although the total was never negative. -/
theorem clamp_counts_held_back_message : ¬CountedExactly .oneQueue (sentAndReceivedIn
        (false :: List.replicate 9 true ++ List.replicate 9 false)) ∧
      (∀ queue ∈ World.oneQueue.queues, TotalsNonnegative queue.ern (sentAndReceivedIn
        (false :: List.replicate 9 true ++ List.replicate 9 false)).history) ∧
      ∀ tid, (sentAndReceivedIn (false :: List.replicate 9 true ++
          List.replicate 9 false)).programs tid = .done () ∧
        ((sentAndReceivedIn (false :: List.replicate 9 true ++
          List.replicate 9 false)).world.processes tid.toNat).pendingCounters = [] := by
  refine ⟨?_, by unfold TotalsNonnegative; decide, fun tid => ⟨?_, ?_⟩⟩
  · unfold CountedExactly
    decide
  · obtain ⟨result, ended, _⟩ := Program.returns_iff.mp
      (show Program.returns (fun _ => true) ((sentAndReceivedIn (false :: replicate 9 true ++
        replicate 9 false)).programs tid) by revert tid; decide)
    exact ended
  · revert tid
    decide

end Euclid.Eqs
