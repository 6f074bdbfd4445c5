/-
This file says once what each statement does to the counters a queue is stored with, and what
each locked region does to the counters a process still owes it.

The stored counters of a queue are changed in place by an increment, a clamp and a purge, and
replaced by a write of the whole queue. What a process owes grows by an adjustment and is taken
out by a flush.
-/

import Euclid.Eqs.Statement

namespace Euclid.Eqs

open Collection List

/-! ### Stored counters -/

def countersOf (queues : List Queue) (ern : String) : Option Counters :=
  (queues.find? fun queue => queue.ern = ern).map Queue.counters

/-- No two stored queues have the same name: the unique index on `ern`. -/
def Named (queues : List Queue) : Prop := (queues.map Queue.ern).Nodup

variable {queues : List Queue}

theorem countersOf_of_mem (named : Named queues) {queue : Queue}
    (stored : queue ∈ queues) : countersOf queues queue.ern = some queue.counters := by
  cases found : queues.find? fun other => other.ern = queue.ern with
  | none =>
    have absent := List.find?_eq_none.mp found queue stored
    simp at absent
  | some other =>
    have same : other.ern = queue.ern := by simpa using List.find?_some found
    have alsoStored := mem_of_find?_eq_some found
    rw [countersOf, found, inj_on_of_nodup_map named alsoStored stored same]
    rfl

variable {counters : Counters}

theorem mem_of_countersOf {ern : String} (stored : countersOf queues ern = some counters) :
    ∃ queue ∈ queues, queue.ern = ern := by
  obtain ⟨queue, found, _⟩ := Option.map_eq_some_iff.mp stored
  exact ⟨queue, mem_of_find?_eq_some found, by simpa using List.find?_some found⟩

/-- The counters with one field raised to zero where it was below. -/
def Counters.clamped (counters : Counters) (field : Counters.Field) : Counters :=
  if counters.get field < 0 then counters.set field 0 else counters

open Counters

variable {field : Field}

theorem Counters.clamped_of_nonneg
    (nonneg : 0 ≤ counters.get field) : counters.clamped field = counters :=
  if_neg (Int.not_lt.mpr nonneg)

theorem Counters.nonnegative_clamped_sub (counters : Counters) (field : Field) :
    (counters.clamped field - counters).Nonnegative := by
  intro other
  rw [get_sub, clamped]
  split
  · rename_i negative
    by_cases same : other = field
    · rw [same, get_set_self]
      omega
    · rw [get_set_of_ne _ same]
      omega
  · omega

theorem Counters.clamped_sub_eq_zero :
    counters.clamped field - counters = 0 ↔ 0 ≤ counters.get field := by
  constructor
  · intro same
    have raised := congrArg (get · field) same
    simp only [get_sub, get_zero, clamped] at raised
    split at raised
    · rw [get_set_self] at raised
      omega
    · omega
  · intro nonneg
    rw [clamped_of_nonneg nonneg, sub_self]

/-- What a statement makes of the counters of one queue. -/
def QueueStatement.amends (ern : String) : QueueStatement → Counters → Counters
  | .increment queueErn delta, counters => if queueErn = ern then counters + delta else counters
  | .clamp queueErn field, counters => if queueErn = ern then counters.clamped field else counters
  | .zero queueErn, counters => if queueErn = ern then 0 else counters
  | _, counters => counters

open QueueStatement

variable {queueErn : String}

theorem countersOf_updateFirst (named : Named queues)
    {selects : Queue → Bool} {change : Queue → Queue}
    (own : ∀ queue, selects queue → queue.ern = queueErn)
    (kept : ∀ queue, (change queue).ern = queue.ern) (ern : String) :
    countersOf (updateFirst selects change queues) ern =
      (queues.find? fun queue => queue.ern = ern).map fun queue =>
        (if selects queue then change queue else queue).counters := by
  have same : (fun queue : Queue => decide (queue.ern = ern)) ∘
      (fun queue => if selects queue then change queue else queue) =
        fun queue => decide (queue.ern = ern) := by
    funext queue
    show decide ((if selects queue then change queue else queue).ern = ern) = _
    split
    · rw [kept]
    · rfl
  rw [countersOf, updateFirst_eq_updateAll (pairwise_of_key named own), updateAll, List.find?_map,
    same, Option.map_map]
  rfl

variable {stmt : QueueStatement}

/-- What a statement that writes no whole queue does to the counters of a queue. -/
theorem countersOf_apply (named : Named queues) (now : Time) (moment : Nat)
    (amending : ∀ queue, stmt ≠ .upsert queue) (ern : String) :
    countersOf (stmt.apply now moment queues).2 ern =
      (countersOf queues ern).map (stmt.amends ern) := by
  have amended : ∀ (selects : Queue → Bool) (change : Queue → Queue) (queueErn : String),
      (∀ queue, selects queue → queue.ern = queueErn) →
      (∀ queue, (change queue).ern = queue.ern) →
      (∀ queue : Queue, queue.ern = ern →
        (if selects queue then change queue else queue).counters =
          stmt.amends ern queue.counters) →
      countersOf (updateFirst selects change queues) ern =
        (countersOf queues ern).map (stmt.amends ern) := by
    intro selects change queueErn own kept amends
    rw [countersOf_updateFirst named own kept, countersOf, Option.map_map]
    cases found : queues.find? fun queue => queue.ern = ern with
    | none => rfl
    | some queue =>
      have named : queue.ern = ern := by simpa using List.find?_some found
      exact congrArg some (amends queue named)
  cases stmt with
  | upsert queue => exact absurd rfl (amending queue)
  | increment queueErn delta =>
    refine amended _ _ queueErn (fun queue selected => of_decide_eq_true selected)
      (fun _ => rfl) fun queue named => ?_
    subst named
    by_cases own : queueErn = queue.ern <;> simp [amends, own, eq_comm]
  | clamp queueErn field =>
    refine amended _ _ queueErn (fun queue selected => (of_decide_eq_true selected).1)
      (fun _ => rfl) fun queue named => ?_
    subst named
    by_cases own : queueErn = queue.ern
    · subst own
      by_cases negative : queue.counters.get field < 0 <;>
        simp [amends, clamped, negative]
    · simp [amends, own, eq_comm]
  | zero queueErn =>
    refine amended _ _ queueErn (fun queue selected => of_decide_eq_true selected)
      (fun _ => rfl) fun queue named => ?_
    subst named
    by_cases own : queueErn = queue.ern <;> simp [amends, own, eq_comm]
  | readConfig _ | findByErn _ =>
    cases found : countersOf queues ern with
    | none => exact found
    | some counters => exact found

theorem erns_apply (now : Time) (moment : Nat) (amending : ∀ queue, stmt ≠ .upsert queue) :
    (stmt.apply now moment queues).2.map Queue.ern = queues.map Queue.ern := by
  cases stmt with
  | upsert queue => exact absurd rfl (amending queue)
  | increment _ _ | clamp _ _ | zero _ => exact map_updateFirst fun _ _ _ => rfl
  | readConfig _ | findByErn _ => rfl

/-! ### Counters owed -/

/-- What a list of adjustments comes to for one queue. -/
def owedTo (ern : String) (entries : List (String × Counters)) : Counters :=
  (entries.map fun entry => if entry.1 = ern then entry.2 else 0).sum

@[simp] theorem owedTo_nil (ern : String) : owedTo ern [] = 0 := rfl

/-- What an adjustment adds to the counters owed to one queue. -/
def ProcessRequest.issues (ern : String) : ProcessRequest → Counters
  | .addPending queueErn delta => if queueErn = ern then delta else 0
  | _ => 0

/-- What a flush takes out of the counters owed to one queue. -/
def ProcessRequest.takes (ern : String) : (req : ProcessRequest) → req.Answer → Counters
  | .takePending _, due => owedTo ern due
  | _, _ => 0

theorem owed_addPending {now : Time} {delta : Counters}
    {pending : List (String × PendingCounters)} {ern : String} :
    ((addPending now queueErn delta pending).map fun entry =>
        if entry.1 = ern then entry.2.counters else 0).sum =
      (pending.map fun entry => if entry.1 = ern then entry.2.counters else 0).sum +
        if queueErn = ern then delta else 0 := by
  induction pending with
  | nil => simp [addPending]
  | cons entry rest ih =>
    unfold addPending
    split
    · rename_i own
      rw [map_cons, sum_cons, map_cons, sum_cons, own]
      by_cases same : queueErn = ern
      · rw [if_pos same, if_pos same, if_pos same, add_assoc, add_assoc, add_comm delta]
      · rw [if_neg same, if_neg same, if_neg same, add_zero]
    · rw [map_cons, sum_cons, ih, map_cons, sum_cons, add_assoc]

/-- Every locked region moves what a process owes by what it issues and takes. -/
theorem owed_apply (env : Env) (moment : Nat) (proc : Process)
    (req : ProcessRequest) (ern : String) :
    (req.apply env moment proc).2.owed ern + req.takes ern (req.apply env moment proc).1 =
      proc.owed ern + req.issues ern := by
  have untouched : ∀ other : Process, other.pendingCounters = proc.pendingCounters →
      other.owed ern + 0 = proc.owed ern + 0 := by
    intro other same
    rw [Process.owed, same, Process.owed]
  cases req with
  | addPending queueErn delta =>
    show Process.owed _ ern + 0 = _
    rw [add_zero]
    exact owed_addPending
  | takePending force =>
    let due := fun entry : String × PendingCounters =>
      entry.2.isDue (env.steadyClock moment) force
    let share := fun entry : String × PendingCounters =>
      if entry.1 = ern then entry.2.counters else 0
    have taken : owedTo ern ((proc.pendingCounters.filter due).map fun entry =>
        (entry.1, entry.2.counters)) = ((proc.pendingCounters.filter due).map share).sum := by
      rw [owedTo, map_map]
      rfl
    show ((proc.pendingCounters.filter fun entry => !due entry).map share).sum + owedTo ern _ =
      (proc.pendingCounters.map share).sum + 0
    have parts := sum_filter_add_sum_filter_not share due proc.pendingCounters
    rw [add_zero, ← parts, ← taken, add_comm]
    rfl
  | rememberQueue queueErn queue generation readAt =>
    refine untouched _ ?_
    simp only [ProcessRequest.apply]
    split <;> rfl
  | cachedConfig _ | rememberConfig _ _ _ | forgetConfig _ | cachedQueue _ | forgetQueue _ =>
    exact untouched _ rfl

end Euclid.Eqs
