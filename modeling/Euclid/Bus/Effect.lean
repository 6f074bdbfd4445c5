/-
This file follows one stored event through one request.

Whatever the request is, an event that is stored afterwards was stored before, unchanged
or as the request's effect on it, or was added by the request; and an event that was
stored before is still there, changed or not, unless the effect removed it. Identities are
never given twice, so the event a statement names by its identity is one event.
-/

import Euclid.Interleaving
import Euclid.Bus.Statement

namespace Euclid.Bus

open List EventStatement

variable {env : Env} {proc : Nat} {world : World}

/-! ### Identities -/

/-- Stored events have identities of their own, all of them given out before now. -/
structure Identified (events : List StoredEvent) (moment : Nat) : Prop where
  distinct : (events.map StoredEvent.oid).Nodup
  made : ∀ event ∈ events, event.oid.1 < moment

variable {events : List StoredEvent} {moment : Nat}

theorem Identified.unique
    (identified : Identified events moment) {first second : StoredEvent} (left : first ∈ events)
    (right : second ∈ events) (same : first.oid = second.oid) : first = second :=
  inj_on_of_nodup_map identified.distinct left right same

/-- The same event later: what identifies and addresses it is as it was. -/
structure StoredEvent.Same (before after : StoredEvent) : Prop where
  oid : after.oid = before.oid
  targetModule : after.targetModule = before.targetModule
  sourceErn : after.sourceErn = before.sourceErn

variable {event : StoredEvent} {before : StoredEvent}

namespace EventStatement

variable {stmt : EventStatement} {after : StoredEvent}

/-- A statement changes none of the fields by which an event is known. -/
theorem outcome_same (becomes : stmt.outcome before = some after) : before.Same after := by
  cases stmt <;> simp only [outcome, Option.some.injEq, reduceCtorEq] at becomes <;>
    subst becomes <;> exact ⟨rfl, rfl, rfl⟩

theorem effect_same (becomes : stmt.effect before = some after) : before.Same after := by
  unfold effect at becomes
  split at becomes
  · exact outcome_same becomes
  · obtain rfl := Option.some.inj becomes
    exact ⟨rfl, rfl, rfl⟩

theorem effect_none (gone : stmt.effect event = none) :
    (∃ oids, stmt = .deleteMany oids ∧ event.oid ∈ oids) ∨ stmt = .deleteOne event.oid ∨
      (∃ eventIds, stmt = .acknowledge event.targetModule eventIds) ∨
      ∃ now, stmt = .expire now ∧ event.isExpired now := by
  unfold effect at gone
  split at gone
  · rename_i selected
    cases stmt with
    | deleteMany oids => exact .inl ⟨oids, rfl, by simpa [selects] using selected⟩
    | deleteOne oid =>
      have same : event.oid = oid := by simpa [selects] using selected
      exact .inr (.inl (by rw [same]))
    | acknowledge targetModule eventIds =>
      have named : event.targetModule = targetModule ∧ event.eventId ∈ eventIds := by
        simpa [selects] using selected
      exact .inr (.inr (.inl ⟨eventIds, by rw [named.1]⟩))
    | expire now => exact .inr (.inr (.inr ⟨now, rfl, selected⟩))
    | _ => cases gone
  · cases gone

theorem added_oid (new : event ∈ stmt.added moment) : event.oid.1 = moment := by
  cases stmt with
  | insert doc =>
    rw [mem_singleton.mp new]
  | insertMany docs =>
    obtain ⟨place, _, rfl⟩ := mem_mapIdx.mp new
    rfl
  | _ => nomatch new

theorem added_nodup (stmt : EventStatement) (moment : Nat) :
    ((stmt.added moment).map StoredEvent.oid).Nodup := by
  cases stmt with
  | insert doc => exact nodup_singleton _
  | insertMany docs =>
    have places : ((insertMany docs).added moment).map StoredEvent.oid =
        (List.range docs.length).map fun place => (moment, place) := by
      refine ext_getElem (by simp [added]) fun place _ _ => ?_
      simp [added]
    rw [places]
    exact nodup_range.map fun first second same => congrArg Prod.snd same
  | _ => exact .nil

/-- What there is afterwards was there and is left, or was added. -/
theorem mem_after : event ∈ stmt.after moment events ↔
      (∃ before ∈ events, stmt.effect before = some event) ∨ event ∈ stmt.added moment := by
  rw [after, mem_append, mem_filterMap]

theorem filterMap_oid_sublist (stmt : EventStatement) (events : List StoredEvent) :
    ((events.filterMap stmt.effect).map StoredEvent.oid).Sublist (events.map StoredEvent.oid) := by
  induction events with
  | nil => exact List.Sublist.refl _
  | cons event rest ih =>
    rw [filterMap_cons]
    split
    · exact ih.cons _
    · rename_i after becomes
      rw [map_cons, map_cons, (effect_same becomes).oid]
      exact ih.cons_cons _

end EventStatement

theorem Identified.after (identified : Identified events moment) (stmt : EventStatement) :
    Identified (stmt.after moment events) (moment + 1) := by
  constructor
  · rw [EventStatement.after, map_append, nodup_append']
    refine ⟨identified.distinct.sublist (stmt.filterMap_oid_sublist events),
      stmt.added_nodup moment, ?_⟩
    intro oid old new
    obtain ⟨event, stored, rfl⟩ := mem_map.mp ((stmt.filterMap_oid_sublist events).mem old)
    obtain ⟨added, isNew, same⟩ := mem_map.mp new
    have before := identified.made event stored
    have now := added_oid isNew
    rw [same] at now
    omega
  · intro event stored
    rcases mem_after.mp stored with ⟨before, wasStored, becomes⟩ | new
    · rw [(effect_same becomes).oid]
      exact Nat.lt_succ_of_lt (identified.made before wasStored)
    · rw [added_oid new]
      exact Nat.lt_succ_self _

/-! ### Requests -/

/-- What a request makes of a stored event, if it is answered. -/
def Req.effect : Req → StoredEvent → Option StoredEvent
  | .event stmt => stmt.effect
  | _ => some

def Req.added (moment : Nat) : Req → List StoredEvent
  | .event stmt => stmt.added moment
  | _ => []

variable {req : Req} {after : StoredEvent}

theorem Req.effect_same (becomes : req.effect before = some after) : before.Same after := by
  cases req with
  | event stmt => exact effect_same becomes
  | _ =>
    obtain rfl := Option.some.inj becomes
    exact ⟨rfl, rfl, rfl⟩

theorem Req.added_oid (new : event ∈ req.added moment) : event.oid.1 = moment := by
  cases req with
  | event stmt => exact added_oid new
  | _ => nomatch new

theorem machine_origin (stored : after ∈ (machine env proc req world).2.events) :
    (∃ before ∈ world.events, after = before ∨ req.effect before = some after) ∨
      after ∈ req.added world.moment := by
  cases req with
  | event stmt =>
    rcases machine_events env proc world stmt with changed | unchanged
    · rw [changed] at stored
      refine (mem_after.mp stored).imp ?_ id
      rintro ⟨before, wasStored, becomes⟩
      exact ⟨before, wasStored, .inr becomes⟩
    · rw [unchanged] at stored
      exact .inl ⟨after, stored, .inl rfl⟩
  | _ => exact .inl ⟨after, stored, .inl rfl⟩

/-- An event that is stored is left as the effect has it, or is gone. -/
theorem machine_fate (env : Env) (proc : Nat) (req : Req) (stored : before ∈ world.events) :
    before ∈ (machine env proc req world).2.events ∨
      (∃ after ∈ (machine env proc req world).2.events, req.effect before = some after) ∨
      req.effect before = none := by
  cases req with
  | event stmt =>
    rcases machine_events env proc world stmt with changed | unchanged
    · rw [changed]
      cases becomes : stmt.effect before with
      | none => exact .inr (.inr becomes)
      | some after =>
        exact .inr (.inl ⟨after, mem_after.mpr (.inl ⟨before, stored, becomes⟩),
          becomes⟩)
    · rw [unchanged]
      exact .inl stored
  | _ => exact .inl stored

/-- Whatever is stored under an identity that has been given out has a property. -/
structure Tracked (holds : StoredEvent → Prop) (oid : Oid) (world : World) : Prop where
  made : oid.1 < world.moment
  each : ∀ event ∈ world.events, event.oid = oid → holds event

variable {holds : StoredEvent → Prop}

theorem Tracked.step {oid : Oid} (tracked : Tracked holds oid world)
    (req : Req) (kept : ∀ before ∈ world.events, before.oid = oid → holds before →
      ∀ after, req.effect before = some after → holds after) :
    Tracked holds oid (machine env proc req world).2 := by
  constructor
  · rw [machine_moment]
    exact Nat.lt_succ_of_lt tracked.made
  intro event stored same
  rcases machine_origin stored with ⟨before, wasStored, rfl | becomes⟩ | new
  · exact tracked.each event wasStored same
  · have sameBefore : before.oid = oid := (Req.effect_same becomes).oid.symm.trans same
    exact kept before wasStored sameBefore (tracked.each before wasStored sameBefore) event becomes
  · have now := Req.added_oid new
    rw [same] at now
    exact absurd tracked.made (by omega)

theorem Identified.tracked (identified : Identified world.events world.moment)
    (stored : event ∈ world.events) (has : holds event) : Tracked holds event.oid world :=
  ⟨identified.made event stored, fun _ isStored same =>
    identified.unique isStored stored same ▸ has⟩

theorem Identified.step (identified : Identified world.events world.moment) (req : Req) :
    Identified (machine env proc req world).2.events (machine env proc req world).2.moment := by
  rw [machine_moment]
  have later : Identified world.events (world.moment + 1) :=
    ⟨identified.distinct, fun event stored => Nat.lt_succ_of_lt (identified.made event stored)⟩
  cases req with
  | event stmt =>
    rcases machine_events env proc world stmt with changed | unchanged
    · rw [changed]
      exact identified.after stmt
    · rw [unchanged]
      exact later
  | _ => exact later

end Euclid.Bus
