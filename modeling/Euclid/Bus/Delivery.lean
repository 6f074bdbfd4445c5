/-
This file proves that the event bus loses no module event: at-least-once delivery.

An event that was ever stored for a module is still stored, or a handler has returned
success for it, or it is among the dead letters; whatever the interleaving, whichever
statements fail, and wherever a consumer stops. There is one more way to leave, and the
bus takes it on purpose: a consumer in a process that has no handler for the type of the
event deletes it as though it had been handled. And the store removes what has been kept for its
retention.
-/

import Euclid.Bus.Conduct

namespace Euclid.Bus

open Program Discipline

variable {Thread : Type} [DecidableEq Thread]
variable {env : Env} {processOf : Thread → Nat} {ops : Thread → Traffic}
variable {subscriptions : Subscriptions} {world : World} {oid : Oid} {hist : Past Thread}

/-! ### Where an event can be -/

/-- A handler came back with `ok` for the event. -/
def CameBack (hist : History Thread Req Req.Answer World) (oid : Oid) (ok : Option Bool) : Prop :=
  ∃ event ∈ hist, ∃ doc, event.request.handlerResult event.answer = some (doc, ok) ∧ doc.oid = oid

def World.Buries (world : World) (oid : Oid) : Prop :=
  ∃ letter ∈ world.deadLetters, letter.event.oid = oid

def World.StoresForModule (world : World) (oid : Oid) : Prop :=
  ∃ event ∈ world.events, event.oid = oid ∧ ¬isExternal event.targetModule

section

variable (hist : History Thread Req Req.Answer World) (world : World) (oid : Oid)

/-- Where an event that is not lost can be: stored, handled with success, or a dead letter. -/
def Accounted : Prop :=
  world.StoresForModule oid ∨ CameBack hist oid (some true) ∨ world.Buries oid

/-- The store has removed an event at a time until which it was not to be kept. -/
def Expired : Prop :=
  ∃ event ∈ hist, ∃ now, event.request = .event (.expire now) ∧
    ∃ stored ∈ event.before.events, stored.oid = oid ∧ stored.isExpired now

/-- Where an event of a bus can be that takes what it has no handler for and keeps nothing for ever:
accounted for, taken by a consumer without a handler, or expired. -/
def AccountedOrGone : Prop :=
  Accounted hist world oid ∨ CameBack hist oid none ∨ Expired hist oid

end

/-! ### One request -/

section Step

variable {proc : Nat} {tid : Thread} {later earlier : Past Thread}

theorem World.Buries.step (buries : world.Buries oid) (req : Req) :
    (machine env proc req world).2.Buries oid := by
  obtain ⟨letter, stored, same⟩ := buries
  exact ⟨letter, machine_deadLetters env proc world req stored, same⟩

theorem World.StoresForModule.step (stores : world.StoresForModule oid)
    (env : Env) (proc : Nat) (req : Req) :
    (machine env proc req world).2.StoresForModule oid ∨
      (∃ oids, req = .event (.deleteMany oids) ∧ oid ∈ oids) ∨ req = .event (.deleteOne oid) ∨
      (∃ targetModule eventIds, req = .event (.acknowledge targetModule eventIds) ∧
        ¬isExternal targetModule) ∨
      ∃ now, req = .event (.expire now) ∧
        ∃ stored ∈ world.events, stored.oid = oid ∧ stored.isExpired now := by
  obtain ⟨before, stored, rfl, inside⟩ := stores
  rcases machine_fate env proc req stored with
    unchanged | ⟨after, isStored, becomes⟩ | gone
  · exact .inl ⟨before, unchanged, rfl, inside⟩
  · have same := Req.effect_same becomes
    exact .inl ⟨after, isStored, same.oid, by rwa [same.targetModule]⟩
  cases req with
  | event stmt =>
    rcases EventStatement.effect_none gone with
      ⟨oids, rfl, named⟩ | rfl | ⟨eventIds, rfl⟩ | ⟨now, rfl, expired⟩
    · exact .inr (.inl ⟨oids, rfl, named⟩)
    · exact .inr (.inr (.inl rfl))
    · exact .inr (.inr (.inr (.inl ⟨before.targetModule, eventIds, rfl, inside⟩)))
    · exact .inr (.inr (.inr (.inr ⟨now, rfl, before, stored, rfl, expired⟩)))
  | _ => cases gone

theorem acknowledged_cameBack (acknowledged : oid ∈ (sessionsOf ops hist tid).acknowledged) :
    CameBack hist oid (some true) ∨ CameBack hist oid none := by
  obtain ⟨later, event, earlier, rfl, -, doc, ok, returned, accepted, same⟩ :=
    sessions_learned traffic _ (fun session => oid ∈ session.acknowledged)
      (fun _ req answer => ∃ doc ok, req.handlerResult answer = some (doc, ok) ∧
        ok ≠ some false ∧ doc.oid = oid)
      (fun session req answer => Session.after_acknowledged) List.not_mem_nil acknowledged
  have mem : event ∈ later ++ event :: earlier := List.mem_append_right _ (.head _)
  match ok, accepted with
  | some true, _ => exact .inl ⟨event, mem, doc, returned, same⟩
  | none, _ => exact .inr ⟨event, mem, doc, returned, same⟩

theorem buried_buries (governed : Governed env processOf ops subscriptions hist world)
    (buried : oid ∈ (sessionsOf ops hist tid).buried) : world.Buries oid := by
  obtain ⟨later, event, earlier, rfl, -, letter, stored, same⟩ :=
    sessions_learned traffic _ (fun session => oid ∈ session.buried)
      (fun _ req answer => ∃ letter, req.letterStored answer = some letter ∧ letter.event.oid = oid)
      (fun session req answer => Session.after_buried) List.not_mem_nil buried
  refine governed.records.since (World.Buries · oid) ⟨letter, ?_, same⟩ fun _ req _ buries =>
    buries.step req
  obtain ⟨-, made⟩ := governed.made
  rw [made] at stored ⊢
  exact machine_letterStored stored

end Step

/-! ### Every run -/

theorem AccountedOrGone.step (governed : Governed env processOf ops subscriptions hist world)
    (where' : AccountedOrGone hist world oid) (tid : Thread) (req : Req)
    (allowed : (sessionsOf ops hist tid).allows req) :
    AccountedOrGone (Event.made (machines env processOf) tid req world :: hist)
      (machines env processOf tid req world).2 oid := by
  have longer : ∀ ok, CameBack hist oid ok →
      CameBack (Event.made (machines env processOf) tid req world :: hist) oid ok :=
    fun _ => List.exists_mem_cons_of_exists
  rcases where' with (stores | cameBack | buries) | taken | expired
  · rcases stores.step env (processOf tid) req with stores | ⟨oids, rfl, named⟩ | rfl |
      ⟨targetModule, eventIds, rfl, inside⟩ | ⟨now, rfl, expires⟩
    · exact .inl (.inl stores)
    · rcases acknowledged_cameBack (allowed oid named) with accepted | taken
      · exact .inl (.inr (.inl (longer _ accepted)))
      · exact .inr (.inl (longer _ taken))
    · exact .inl (.inr (.inr ((buried_buries governed allowed).step _)))
    · exact absurd allowed inside
    · exact .inr (.inr ⟨_, .head _, now, rfl, expires⟩)
  · exact .inl (.inr (.inl (longer _ cameBack)))
  · exact .inl (.inr (.inr (buries.step req)))
  · exact .inr (.inl (longer _ taken))
  · exact .inr (.inr (List.exists_mem_cons_of_exists expired))

/-- In the world a history has led to, every event that was ever stored for a module is where
`holds` says. -/
def EveryModuleEvent (holds : Oid → Prop) (hist : History Thread Req Req.Answer World) : Prop :=
  ∀ event ∈ hist, ∀ stored ∈ event.after.events, ¬isExternal stored.targetModule → holds stored.oid

/-- At-least-once delivery: over every interleaving of publishing, polling, claiming, acknowledging,
reaping, holding, releasing and expiring, whatever statements fail and wherever a consumer stops, an
event stored for a module is still stored, or has been handled with success, or is a dead letter, or
was taken by a consumer that has no handler for its type, or was kept for as long as it was to
be. -/
theorem delivers_at_least_once (env : Env) (processOf : Thread → Nat)
    (ops : Thread → Traffic) (subscriptions : Subscriptions) (schedule : List Thread) :
    let pool := (Traffic.pool env processOf (.opened subscriptions) ops).run
      (machines env processOf) schedule
    EveryModuleEvent (AccountedOrGone pool.history pool.world) pool.history := by
  intro pool
  obtain ⟨governed, -⟩ := traffic_run env processOf ops subscriptions schedule
  change Governed env processOf ops subscriptions pool.history pool.world at governed
  generalize pool.history = hist, pool.world = world at governed
  induction governed with
  | start => exact fun event mem => absurd mem List.not_mem_nil
  | step governed tid req allowed ih =>
    intro event mem stored isStored inside
    rcases List.mem_cons.mp mem with rfl | past
    · exact .inl (.inl ⟨stored, isStored, rfl, inside⟩)
    · exact (ih event past stored isStored inside).step governed tid req allowed

/-- A consumer in a process without a handler for the type of an event deletes it: it is nowhere,
and nobody has handled it. -/
theorem poll_takes_unhandled :
    let env : Env := { Env.stepping 1 with handles := fun _ _ => false }
    let ops : Fin 2 → Traffic := fun tid =>
      if tid = 0 then .single "made" .null "esm" .none else .poll "eqs"
    let pool := (Traffic.pool env (fun _ => 0) (.opened (.ofModule "eqs" "made"))
      ops).run (machines env fun _ => 0) (List.replicate 10 0 ++ List.replicate 20 1)
    ¬EveryModuleEvent (Accounted pool.history pool.world) pool.history := by
  intro env ops pool every
  have gone : pool.world.events = [] ∧ pool.world.deadLetters = [] := by
    constructor <;> decide
  have unhandled : ∀ event ∈ pool.history,
      (event.request.handlerResult event.answer).all fun result => result.2 ≠ some true := by
    decide
  obtain ⟨event, mem, doc, isStored, inside⟩ : ∃ event ∈ pool.history,
      ∃ stored ∈ event.after.events, ¬isExternal stored.targetModule := by
    decide
  rcases every event mem doc isStored inside with
    ⟨other, remains, -⟩ | ⟨past, happened, other, returned, -⟩ | ⟨letter, remains, -⟩
  · rw [gone.1] at remains
    nomatch remains
  · have failed := unhandled past happened
    rw [returned] at failed
    nomatch failed
  · rw [gone.2] at remains
    nomatch remains

end Euclid.Bus
