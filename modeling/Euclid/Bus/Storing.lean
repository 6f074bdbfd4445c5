/-
This file says what a publish stores for one module when statements fail on the way.

The modules are written in the order of their names, and the first failure ends a publish. So
the event for a module is stored exactly if its subscribers could be read, nothing failed on
the way to it, and it was not itself refused. A statement that fails without an answer has its
effect all the same.
-/

import Mathlib.Data.String.Basic
import Euclid.Bus.Publication

namespace Euclid.Bus

open Program List EventStatement

variable {env : Env} {proc : Nat} {eventType target : String} {world : World} {Fault : Type}

/-! ### The statements that matter to one module -/

def StoredEvent.address (event : StoredEvent) :
    String × Option String × Option String × Option String :=
  (event.eventType, event.targetErn, event.sourceErn, event.messageId)

open StoredEvent

def addressesFor (target : String) (events : List StoredEvent) :
    List (String × Option String × Option String × Option String) :=
  (events.filter fun event => event.targetModule = target).map address

@[simp] theorem addressesFor_nil : addressesFor target [] = [] := rfl

@[simp] theorem addressesFor_append (first second : List StoredEvent) :
    addressesFor target (first ++ second) =
      addressesFor target first ++ addressesFor target second := by
  simp [addressesFor]

/-- The statement does not keep a publish from storing its event for a module. -/
def StoresFor (env : Env) (target : String) : Req → World → Prop
  | .subscription (.find _), world => env.outage world.moment = none
  | .event (.insert doc), world =>
    if doc.targetModule = target then env.outage world.moment ≠ some .refused
    else doc.targetErn.isSome ∧ doc.targetModule < target → env.outage world.moment = none
  | _, _ => True

/-! ### Storing one event after the other -/

/-- Between two worlds nothing happened but that some events were stored, with such addresses for
a module. -/
structure Stores (target : String)
    (addresses : List (String × Option String × Option String × Option String))
    (before after : World) : Prop where
  events : ∃ fresh, after.events = before.events ++ fresh ∧ addressesFor target fresh = addresses
  subscriptions : after.subscriptions = before.subscriptions
  processes : after.processes = before.processes

theorem Stores.trans {first second : List (String × Option String × Option String × Option String)}
    {before between after : World} (left : Stores target first before between)
    (right : Stores target second between after) :
      Stores target (first ++ second) before after := by
  obtain ⟨fresh, leftEvents, leftAddresses⟩ := left.events
  obtain ⟨more, rightEvents, rightAddresses⟩ := right.events
  refine ⟨⟨fresh ++ more, ?_, ?_⟩, right.subscriptions.trans left.subscriptions,
    right.processes.trans left.processes⟩
  · rw [rightEvents, leftEvents, append_assoc]
  · rw [addressesFor_append, leftAddresses, rightAddresses]

theorem addressesFor_single {event : StoredEvent} :
    addressesFor target [event] = if event.targetModule = target then [event.address] else [] := by
  unfold addressesFor
  by_cases own : event.targetModule = target
  · rw [if_pos own, filter_cons_of_pos (by simpa using own)]
    rfl
  · rw [if_neg own, filter_cons_of_neg (by simpa using own)]
    rfl

theorem traces_onEvents {stmt : EventStatement} {condition : Req → World → Prop}
    {post : Prop → Except StoreError stmt.Answer → World → Prop} :
    (onEvents stmt).Traces (machine env proc) condition world post ↔
      post (condition (.event stmt) world) (machine env proc (.event stmt) world).1
        (machine env proc (.event stmt) world).2 := by
  unfold onEvents
  rw [traces_bind, traces_issue]
  dsimp only
  rw [traces_ofExcept, and_true]

theorem Stores.remembers {addresses : List (String × Option String × Option String × Option String)}
    {before after : World} (stores : Stores target addresses before after)
    (remembers : before.Remembers env proc eventType) : after.Remembers env proc eventType := by
  unfold World.Remembers World.subscribers
  rw [stores.processes, stores.subscriptions]
  exact remembers

variable {address : String × Option String × Option String × Option String}

/-- One event is written under an identifier of its own: it is stored unless it is refused, and
the writing goes on unless it fails. -/
theorem insertOne_stores {doc : String → StoredEvent} {module : String}
    (named : ∀ eventId, (doc eventId).targetModule = module)
    (addressed : ∀ eventId, (doc eventId).address = address) :
    (do let eventId ← createRandomUuid
        onEvents (.insert (doc eventId)) : Op StoreError Unit).Traces
      (machine env proc) (StoresFor env target) world fun met outcome after =>
        ∃ outage : Option Outage, (met ↔ if module = target then outage ≠ some .refused
            else address.2.1.isSome ∧ module < target → outage = none) ∧
          (outcome = .ok () ↔ outage = none) ∧
          Stores target (if module = target ∧ outage ≠ some .refused then [address] else [])
            world after := by
  unfold createRandomUuid
  rw [traces_bind, traces_issue]
  dsimp only
  rw [traces_onEvents]
  generalize drawn : doc (machine env proc .randomUuid world).1 = event
  have ownModule : event.targetModule = module := drawn ▸ named _
  have ownAddress : event.address = address := drawn ▸ addressed _
  have ownErn : event.targetErn = address.2.1 := congrArg (·.2.1) ownAddress
  have written : addressesFor target ((insert event).added (world.moment + 1)) =
      if module = target then [address] else [] := by
    rw [← ownModule, ← ownAddress]
    exact addressesFor_single
  refine ⟨env.outage (world.moment + 1), ?_, ?_, ?_⟩
  · show True ∧ (if event.targetModule = target then _ else event.targetErn.isSome ∧ _ → _) ↔ _
    rw [true_and, ownModule, ownErn]
    rfl
  · have answer : (machine env proc (.event (.insert event))
        (machine env proc .randomUuid world).2).1 =
      (underOutage (env.outage (world.moment + 1)) world.events (.ok (),
        (insert event).after (world.moment + 1) world.events)).1 := rfl
    rw [answer]
    cases env.outage (world.moment + 1) with
    | none => exact ⟨fun _ => rfl, fun _ => rfl⟩
    | some outage => cases outage <;> simp [underOutage]
  · refine ⟨?_, rfl, rfl⟩
    have events : (machine env proc (.event (.insert event))
        (machine env proc .randomUuid world).2).2.events =
      (underOutage (env.outage (world.moment + 1)) world.events
        ((.ok () : Except StoreError Unit),
          (insert event).after (world.moment + 1) world.events)).2 := rfl
    rw [events, after_of_unselected fun _ => rfl]
    cases env.outage (world.moment + 1) with
    | none => exact ⟨_, rfl, by simpa using written⟩
    | some outage =>
      cases outage with
      | refused => exact ⟨[], (append_nil _).symm, by simp⟩
      | unanswered => exact ⟨_, rfl, by simpa using written⟩

variable {doc : String → String → StoredEvent}

/-- The modules are written in the order of their names, up to the first failure. What keeps the
one module from getting its event is a failure before it, or its own refusal. -/
theorem insertModules_stores (named : ∀ module eventId, (doc module eventId).targetModule = module)
    (addressed : ∀ module eventId, (doc module eventId).address = address)
    (isSome : address.2.1.isSome) :
    ∀ {modules : List String} {world : World}, modules.Pairwise (· < ·) →
      (forEach modules fun module => do
        let eventId ← createRandomUuid
        onEvents (.insert (doc module eventId)) : Op StoreError Unit).Traces
      (machine env proc) (StoresFor env target) world fun met _ after =>
        ((∀ module ∈ modules, target < module) → met) ∧
        ∃ addresses, Stores target addresses world after ∧
          (met → addresses = if target ∈ modules then [address] else []) ∧
          (¬met → addresses = [])
  | [], world, _ => ⟨fun _ => trivial, [], ⟨⟨[], (append_nil _).symm, rfl⟩, rfl, rfl⟩,
      fun _ => rfl, fun _ => rfl⟩
  | module :: rest, world, sorted => by
    obtain ⟨first, sorted⟩ := pairwise_cons.mp sorted
    rw [forEach, traces_bind]
    refine (insertOne_stores (named module) (addressed module)).mono
      fun met outcome middle kept => ?_
    obtain ⟨outage, permitted, ended, stored⟩ := kept
    rw [isSome] at permitted
    cases outcome with
    | error fault =>
      have failed : outage ≠ none := fun none => by cases ended.mpr none
      refine ⟨fun above => permitted.mpr ?_, _, stored, fun met => ?_, fun unmet => ?_⟩
      · have after := above module (.head _)
        rw [if_neg after.ne']
        exact fun before => absurd before.2 after.not_gt
      · by_cases own : module = target
        · rw [if_pos ⟨own, (if_pos own ▸ permitted).mp met⟩,
            if_pos (mem_cons.mpr (.inl own.symm))]
        · rw [if_neg fun both => own both.1, if_neg]
          intro among
          have before := first target ((mem_cons.mp among).resolve_left (Ne.symm own))
          exact failed ((if_neg own ▸ permitted).mp met ⟨rfl, before⟩)
      · refine if_neg fun both => unmet (permitted.mpr ?_)
        rw [if_pos both.1]
        exact both.2
    | ok result =>
      have went : outage = none := ended.mp rfl
      have met : met := permitted.mpr (by
        rw [went]
        split
        · simp
        · exact fun _ => rfl)
      rw [went] at stored
      refine (insertModules_stores named addressed isSome sorted).mono
        fun also _ after kept => ?_
      obtain ⟨above, addresses, later, whenMet, whenNot⟩ := kept
      refine ⟨fun after => ⟨‹_›, above fun other mem =>
        after other (.tail _ mem)⟩, _, stored.trans later, fun both => ?_,
        fun unmet => ?_⟩
      · rw [whenMet both.2]
        by_cases own : module = target
        · have absent : target ∉ rest := fun among => (first target among).ne own
          simp [own, absent]
        · simp [own, Ne.symm own]
      · have unmet : ¬also := fun also => unmet ⟨‹_›, also⟩
        rw [whenNot unmet]
        by_cases own : module = target
        · exact absurd (above fun other mem => own ▸ first other mem) unmet
        · simp [own]

theorem insertExternals_stores
    (named : ∀ module eventId, (doc module eventId).targetModule = module)
    (addressed : ∀ module eventId, (doc module eventId).address = address)
    (isNone : address.2.1 = none) :
    ∀ {modules : List String} {world : World}, target ∉ modules →
      (forEach modules fun module => do
        let eventId ← createRandomUuid
        onEvents (.insert (doc module eventId)) : Op StoreError Unit).Traces
      (machine env proc) (StoresFor env target) world fun met _ after =>
        met ∧ Stores target [] world after
  | [], world, _ => ⟨trivial, ⟨[], (append_nil _).symm, rfl⟩, rfl, rfl⟩
  | module :: rest, world, absent => by
    obtain ⟨other, absent⟩ := ne_and_not_mem_of_not_mem_cons absent
    rw [forEach, traces_bind]
    refine (insertOne_stores (named module) (addressed module)).mono
      fun met outcome middle kept => ?_
    obtain ⟨outage, permitted, ended, stored⟩ := kept
    rw [isNone, if_neg other.symm] at permitted
    have met : met := permitted.mpr fun impossible => absurd impossible.1 (by simp)
    rw [if_neg fun both => other both.1.symm] at stored
    cases outcome with
    | error fault => exact ⟨met, stored⟩
    | ok result =>
      refine (insertExternals_stores named addressed isNone absent).mono
        fun also _ after kept => ?_
      exact ⟨⟨met, kept.1⟩, stored.trans kept.2⟩

/-! ### One publish -/

variable {delivery : Delivery} {now : Time} {sourceModule : String} {payload : String}

section

variable (module eventId : String)

theorem moduleEvent_targetModule :
    (moduleEvent eventType sourceModule payload delivery now module eventId).targetModule =
      module := by
  unfold moduleEvent withStatus
  split <;> rfl

theorem moduleEvent_address :
    (moduleEvent eventType sourceModule payload delivery now module eventId).address =
      (eventType, some delivery.targetErn, some delivery.sourceErn, some delivery.messageId) := by
  unfold moduleEvent withStatus
  split <;> rfl

theorem externalEvent_targetModule :
    (externalEvent eventType sourceModule payload delivery now module eventId).targetModule =
      module := by
  unfold externalEvent withStatus
  split <;> rfl

theorem externalEvent_address :
    (externalEvent eventType sourceModule payload delivery now module eventId).address =
      (eventType, none, none, none) := by
  unfold externalEvent withStatus
  split <;> rfl

end

variable {accepts : SubscriberRecord → Bool} {subscribers : List SubscriberRecord}

theorem targetsOf_sorted : (targetsOf accepts subscribers).Pairwise (· < ·) := by
  have ascending : (targetsOf accepts subscribers).Pairwise (· ≤ ·) :=
    pairwise_insertionSort _ _
  refine (ascending.and (nodup_nameSet _)).imp fun {first second} both => ?_
  exact lt_of_le_of_ne both.1 both.2

theorem mem_targetsOf :
    target ∈ targetsOf accepts subscribers ↔
      ∃ record ∈ subscribers, accepts record ∧ record.target = target := by
  unfold targetsOf nameSet
  rw [mem_insertionSort, mem_dedup, mem_map]
  simp only [mem_filter, and_assoc]

/-- The subscribers of an event type are those of the collection, or none if they could not be
read. -/
theorem subscribersOf_stores (remembers : world.Remembers env proc eventType) :
    (subscribersOf env eventType : Op Fault (List SubscriberRecord)).Traces (machine env proc)
      (StoresFor env target) world fun met outcome after =>
        after.Remembers env proc eventType ∧
        after.subscriptions = world.subscriptions ∧ after.events = world.events ∧
        (met → outcome = .ok (world.subscribers env eventType)) ∧ (¬met → outcome = .ok []) := by
  unfold subscribersOf
  rw [traces_bind, traces_issue]
  simp only [machine, ProcessRequest.apply]
  have unread : ({ world with
      processes := Function.update world.processes proc (world.processes proc)
      moment := world.moment + 1 } : World) = { world with moment := world.moment + 1 } := by
    rw [Function.update_eq_self]
  rw [unread]
  cases found : (world.processes proc).subscriberCache.find? fun entry =>
      decide (entry.1 = eventType ∧ env.steadyClock world.moment - entry.2.refreshedAt <
        env.subscriptionCacheTtl) with
  | some entry =>
    have selected := List.find?_some found
    simp only [decide_eq_true_eq] at selected
    have known := remembers entry (mem_of_find?_eq_some found) selected.1
    refine ⟨remembers, rfl, rfl, fun _ => congrArg Except.ok known, fun unmet => ?_⟩
    exact absurd ⟨trivial, trivial⟩ unmet
  | none =>
    simp only [Option.map_none]
    unfold orAnswer onSubscriptions
    rw [traces_catching, traces_bind, traces_bind, traces_issue]
    simp only [machine, traces_ofExcept, StoresFor]
    cases failing : env.outage (world.moment + 1) with
    | some outage =>
      cases outage <;> exact ⟨remembers, rfl, rfl, fun met => by simp at met, fun _ => rfl⟩
    | none =>
      simp only [underOutage]
      rw [traces_bind, traces_issue]
      refine ⟨?_, rfl, rfl, fun _ => rfl, fun unmet => ?_⟩
      · intro entry cached named
        simp only [pure_eq, run_done, machine, ProcessRequest.apply, Function.update_self] at cached
        split at cached
        · rcases mem_cons.mp cached with rfl | old
          · rfl
          · exact absurd named (of_decide_eq_true (mem_filter.mp old).2)
        · exact remembers entry cached named
      · exact absurd ⟨trivial, ⟨trivial, trivial⟩, trivial, trivial⟩ unmet

theorem publish_stores (remembers : world.Remembers env proc eventType)
    {record : SubscriberRecord} (registered : record ∈ world.subscribers env eventType)
    (module : record.external = false) (payload : Json) (sourceModule : String)
    (delivery : Delivery) :
    (publish env eventType payload sourceModule delivery : Op Fault Unit).Traces
      (machine env proc) (StoresFor env record.target) world
      fun met outcome after =>
        outcome = .ok () ∧ after.Remembers env proc eventType ∧
        after.subscriptions = world.subscriptions ∧
        ∃ fresh, after.events = world.events ++ fresh ∧
          (met → addressesFor record.target fresh = [(eventType, some delivery.targetErn,
            some delivery.sourceErn, some delivery.messageId)]) ∧
          (¬met → addressesFor record.target fresh = []) := by
  unfold publish orAnswer
  rw [traces_catching, traces_bind]
  refine (subscribersOf_stores remembers).mono fun met outcome read kept => ?_
  obtain ⟨remembers, subscriptions, events, whenMet, whenNot⟩ := kept
  by_cases could : met
  · rw [whenMet could]
    dsimp only
    have among : record.target ∈ targetsOf (fun record => !record.external)
        (world.subscribers env eventType) :=
      mem_targetsOf.mpr ⟨record, registered, by simp [module], rfl⟩
    rw [onlyIf, if_pos (.inl (ne_nil_of_mem among))]
    unfold readSystemClock
    rw [traces_bind, traces_issue]
    dsimp only
    rw [traces_bind]
    refine (insertModules_stores moduleEvent_targetModule
      moduleEvent_address rfl targetsOf_sorted).mono
        fun also outcome written kept => ?_
    obtain ⟨_, addresses, stored, whenStored, whenFailed⟩ := kept
    rw [if_pos among] at whenStored
    -- what has been stored is what the modules came to
    have conclude : ∀ {after : World} {all : Prop},
        Stores record.target addresses (machine env proc .systemClock read).2 after →
        (all ↔ also) → after.Remembers env proc eventType ∧
          after.subscriptions = world.subscriptions ∧
          ∃ fresh, after.events = world.events ++ fresh ∧
            (all → addressesFor record.target fresh = [(eventType, some delivery.targetErn,
              some delivery.sourceErn, some delivery.messageId)]) ∧
            (¬all → addressesFor record.target fresh = []) := by
      intro after all stores same
      obtain ⟨fresh, writes, own⟩ := stores.events
      refine ⟨stores.remembers remembers, stores.subscriptions.trans subscriptions, fresh, ?_,
        fun met => own.trans (whenStored (same.mp met)),
        fun unmet => own.trans (whenFailed fun also => unmet (same.mpr also))⟩
      rw [writes, ← events]
      rfl
    cases outcome with
    | error fault =>
      refine ⟨rfl, conclude stored ⟨fun met => met.1.2.2, fun also => ?_⟩⟩
      exact ⟨⟨could, trivial, also⟩, trivial⟩
    | ok result =>
      dsimp only
      have apart : record.target ∉ targetsOf (fun record =>
          record.isMeant env payload && decide (record.mode = .durable))
            (world.subscribers env eventType) := by
        intro external
        obtain ⟨other, subscribed, isMeant, same⟩ := mem_targetsOf.mp external
        obtain rfl := inj_on_of_nodup_map (world.subscribers_nodup env eventType)
          subscribed registered same
        simp [SubscriberRecord.isMeant, module] at isMeant
      refine (insertExternals_stores externalEvent_targetModule
        externalEvent_address rfl apart).mono fun last outcome after kept => ?_
      obtain ⟨last, nothing⟩ := kept
      have stored := stored.trans nothing
      rw [append_nil] at stored
      cases outcome with
      | ok result =>
        refine ⟨rfl, conclude stored ⟨fun met => met.2.2.1, fun also => ?_⟩⟩
        exact ⟨could, trivial, also, last⟩
      | error fault =>
        refine ⟨rfl, conclude stored ⟨fun met => met.1.2.2.1, fun also => ?_⟩⟩
        exact ⟨⟨could, trivial, also, last⟩, trivial⟩
  · rw [whenNot could]
    dsimp only
    have nobody : ∀ accepts : SubscriberRecord → Bool, targetsOf accepts [] = [] := fun _ => rfl
    rw [nobody, nobody, nobody, onlyIf, if_neg (by simp)]
    refine ⟨rfl, remembers, subscriptions, [], ?_, fun met => ?_, fun _ => rfl⟩
    · exact events.trans (append_nil _).symm
    · exact absurd met.1 could

end Euclid.Bus
