/-
This file proves that publishing a batch stores what publishing its payloads one by one
would store.

Both ways are measured against one list: for each payload, one envelope for each
subscriber that is to get it. Identifiers and times differ between the two, so events are
compared without them; what is left of the expiry is the retention it grants. The order in
which one payload's envelopes are written differs too, so the comparison is up to order.
-/

import Mathlib.Algebra.Group.Basic
import Mathlib.Algebra.Group.Int.Defs
import Mathlib.Data.List.Dedup
import Mathlib.Data.List.Perm.Basic
import Euclid.Bus.EventBus

namespace Euclid.Bus

open Program List EventStatement

/-! ### What a payload is to leave -/

/-- An event without identifiers and times. -/
def StoredEvent.unstamped (event : StoredEvent) : StoredEvent :=
  { event with
    oid := (0, 0)
    eventId := ""
    visibleAt := 0
    createdAt := 0
    expiresAt := event.expiresAt.map fun expiry => expiry - event.createdAt }

/-- A subscriber gets an event stored: a module always, an external subscriber when it is meant
and its deliveries are kept. -/
def SubscriberRecord.receives (env : Env) (entry : Json × Delivery)
    (record : SubscriberRecord) : Bool :=
  !record.external || (record.isMeant env entry.1 && decide (record.mode = .durable))

open SubscriberRecord

def SubscriberRecord.envelope (env : Env) (eventType sourceModule : String)
    (entry : Json × Delivery) (record : SubscriberRecord) : StoredEvent :=
  if record.external then
    (externalEvent eventType sourceModule (env.serialize entry.1) entry.2 0
      record.target "").unstamped
  else
    (moduleEvent eventType sourceModule (env.serialize entry.1) entry.2 0
      record.target "").unstamped

def envelopesFor (env : Env) (eventType sourceModule : String)
    (subscribers : List SubscriberRecord) (entry : Json × Delivery) : List StoredEvent :=
  (subscribers.filter fun record => record.receives env entry).map fun record =>
    record.envelope env eventType sourceModule entry

/-- The subscribers of an event type, as the collection has them. -/
def World.subscribers (env : Env) (world : World) (eventType : String) : List SubscriberRecord :=
  (world.subscriptions.documents.filter fun subscription =>
    subscription.eventType = eventType).map (Subscription.record env.parse)

/-- A process that remembers nothing about an event type but what the collection says. -/
def World.Remembers (env : Env) (world : World) (proc : Nat) (eventType : String) : Prop :=
  ∀ entry ∈ (world.processes proc).subscriberCache, entry.1 = eventType →
    entry.2.subscribers = world.subscribers env eventType

/-! ### Targets -/

theorem Subscription.record_target (parse : String → Option Json) (subscription : Subscription) :
    (subscription.record parse).target = subscription.moduleType := by
  unfold Subscription.record
  split <;> rfl

theorem World.subscribers_nodup (env : Env) (world : World) (eventType : String) :
    ((world.subscribers env eventType).map target).Nodup := by
  rw [World.subscribers, map_map]
  refine pairwise_map.mpr ?_
  refine (world.subscriptions.unique.filter _).imp_of_mem fun {first second} left right apart => ?_
  have leftType := of_decide_eq_true (mem_filter.mp left).2
  have rightType := of_decide_eq_true (mem_filter.mp right).2
  intro same
  simp only [Function.comp, Subscription.record_target] at same
  exact apart ⟨same, leftType.trans rightType.symm⟩

theorem nodup_nameSet (names : List String) : (nameSet names).Nodup :=
  (perm_insertionSort _ _).nodup_iff.mpr (nodup_dedup _)

variable {names : List String}

theorem nameSet_perm (distinct : names.Nodup) : (nameSet names).Perm names := by
  rw [nameSet, distinct.dedup]
  exact perm_insertionSort _ _

theorem nameSet_eq_nil : nameSet names = [] ↔ names = [] := by
  refine ⟨fun empty => eq_nil_iff_forall_not_mem.mpr fun name mem => ?_, ?_⟩
  · have inSet : name ∈ nameSet names := mem_insertionSort _ |>.mpr (mem_dedup.mpr mem)
    rw [empty] at inSet
    exact not_mem_nil inSet
  · rintro rfl
    rfl

theorem targetsOf_perm {subscribers : List SubscriberRecord}
    (distinct : (subscribers.map target).Nodup) (accepts : SubscriberRecord → Bool) :
    (targetsOf accepts subscribers).Perm ((subscribers.filter accepts).map target) :=
  nameSet_perm (distinct.sublist (filter_sublist.map _))

theorem targetsOf_eq_nil {accepts : SubscriberRecord → Bool} {subscribers : List SubscriberRecord}
    (none : targetsOf accepts subscribers = []) : ∀ record ∈ subscribers, ¬accepts record := by
  have empty := map_eq_nil_iff.mp (nameSet_eq_nil.mp none)
  exact fun record mem => by simpa using filter_eq_nil_iff.mp empty record mem

/-! ### The envelopes of one payload -/

section Envelopes

variable {env : Env} {eventType sourceModule : String}

section

variable (payload : String) (delivery : Delivery) (now : Time) (target eventId : String)

theorem moduleEvent_unstamped :
    (moduleEvent eventType sourceModule payload delivery now target eventId).unstamped =
      (moduleEvent eventType sourceModule payload delivery 0 target "").unstamped := by
  unfold moduleEvent StoredEvent.withStatus StoredEvent.unstamped
  split
  · simp
  · rfl

theorem externalEvent_unstamped :
    (externalEvent eventType sourceModule payload delivery now target eventId).unstamped =
      (externalEvent eventType sourceModule payload delivery 0 target "").unstamped := by
  unfold externalEvent StoredEvent.withStatus StoredEvent.unstamped
  split
  · simp
  · rfl

end

/-- The external subscribers that store an event. -/
def storing (env : Env) (payload : Json) (record : SubscriberRecord) : Bool :=
  record.isMeant env payload && decide (record.mode = .durable)

theorem storing_eq_not_live (payload : Json) (record : SubscriberRecord) :
    (record.isMeant env payload && decide (record.mode ≠ .live)) = storing env payload record := by
  unfold storing
  cases record.mode <;> rfl

/-- The envelopes of a payload are those of the modules and those of the external subscribers
that store it. -/
theorem envelopesFor_perm (env : Env) (eventType sourceModule : String)
    (subscribers : List SubscriberRecord) (entry : Json × Delivery) :
    (((subscribers.filter fun record => !record.external).map target).map
        (fun target => (moduleEvent eventType sourceModule (env.serialize entry.1) entry.2
          0 target "").unstamped) ++
      ((subscribers.filter (storing env entry.1)).map target).map
        fun target => (externalEvent eventType sourceModule (env.serialize entry.1) entry.2
          0 target "").unstamped).Perm
      (envelopesFor env eventType sourceModule subscribers entry) := by
  have modules : (subscribers.filter fun record => record.receives env entry).filter
      (fun record => !record.external) = subscribers.filter fun record => !record.external := by
    rw [filter_filter]
    refine filter_congr fun record _ => ?_
    cases external : record.external <;> simp [receives, external]
  have externals : (subscribers.filter fun record => record.receives env entry).filter
      (fun record => !!record.external) = subscribers.filter (storing env entry.1) := by
    rw [filter_filter]
    refine filter_congr fun record _ => ?_
    cases external : record.external <;>
      simp [receives, isMeant, storing, external]
  have split := filter_append_perm (fun record : SubscriberRecord => !record.external)
    (subscribers.filter fun record => record.receives env entry)
  rw [modules, externals] at split
  have mapped := split.map fun record => record.envelope env eventType sourceModule entry
  rw [map_append] at mapped
  refine (List.Perm.of_eq ?_).trans mapped
  rw [map_map, map_map]
  congr 1
  · refine map_congr_left fun record mem => ?_
    have isModule := (mem_filter.mp mem).2
    simp only [Bool.not_eq_true'] at isModule
    simp [envelope, isModule]
  · refine map_congr_left fun record mem => ?_
    have isStoring := (mem_filter.mp mem).2
    simp only [storing, isMeant, Bool.and_eq_true] at isStoring
    simp [envelope, isStoring.1.1.1]

end Envelopes

/-! ### Lists of results -/

theorem map_eq_of_forall₂ {Entry Result Value : Type} {first : Entry → Value}
    {second : Result → Value} {entries : List Entry} {results : List Result}
    (related : List.Forall₂ (fun entry result => second result = first entry) entries results) :
    results.map second = entries.map first := by
  induction related with
  | nil => rfl
  | cons same _ ih => rw [map_cons, map_cons, same, ih]

theorem flatten_perm {Entry : Type} {expected : Entry → List StoredEvent} {entries : List Entry}
    {docs : List (List StoredEvent)} (related : List.Forall₂ (fun entry written =>
      (written.map StoredEvent.unstamped).Perm (expected entry)) entries docs) :
    (docs.flatten.map StoredEvent.unstamped).Perm (entries.flatMap expected) := by
  induction related with
  | nil => exact List.Perm.refl _
  | cons same _ ih =>
    rw [flatten_cons, map_append, flatMap_cons]
    exact same.append ih

/-! ### What a piece of publishing stores -/

/-- Between two worlds, events were stored that are the expected ones, up to order, identifiers
and times; the subscribers are the same, and the process still remembers nothing else. -/
structure Published (env : Env) (proc : Nat) (eventType : String)
    (expected : List StoredEvent) (before after : World) : Prop where
  stored : ∃ fresh, after.events = before.events ++ fresh ∧
    (fresh.map StoredEvent.unstamped).Perm expected
  subscriptions : after.subscriptions = before.subscriptions
  remembers : after.Remembers env proc eventType

section Published

variable {env : Env} {proc : Nat} {eventType : String}

theorem Published.trans {first second : List StoredEvent} {before between after : World}
    (left : Published env proc eventType first before between)
    (right : Published env proc eventType second between after) :
    Published env proc eventType (first ++ second) before after := by
  obtain ⟨fresh, leftEvents, leftPerm⟩ := left.stored
  obtain ⟨more, rightEvents, rightPerm⟩ := right.stored
  refine ⟨⟨fresh ++ more, ?_, ?_⟩, right.subscriptions.trans left.subscriptions, right.remembers⟩
  · rw [rightEvents, leftEvents, append_assoc]
  · rw [map_append]
    exact leftPerm.append rightPerm

theorem Published.perm {expected other : List StoredEvent} {before after : World}
    (published : Published env proc eventType expected before after) (same : expected.Perm other) :
    Published env proc eventType other before after := by
  obtain ⟨fresh, events, perm⟩ := published.stored
  exact ⟨⟨fresh, events, perm.trans same⟩, published.subscriptions, published.remembers⟩

theorem Published.subscribers {expected : List StoredEvent} {before after : World}
    (published : Published env proc eventType expected before after) :
    after.subscribers env eventType = before.subscribers env eventType := by
  rw [World.subscribers, published.subscriptions]
  rfl

end Published

/-! ### What each piece of publishing stores -/

section Programs

variable {env : Env} {proc : Nat} {eventType : String} {world : World} {Fault Result : Type}
  (calm : ∀ moment, env.outage moment = none)

include calm in
theorem machine_event_calm (stmt : EventStatement) :
    machine env proc (.event stmt) world =
      (.ok (stmt.answer world.events), { world with
        events := stmt.after world.moment world.events
        moment := world.moment + 1 }) := by
  simp only [machine, underOutage, calm]

include calm in
theorem ensures_onEvents
    {stmt : EventStatement} {post : Except StoreError stmt.Answer → World → Prop}
    (ensures : post (.ok (stmt.answer world.events)) { world with
      events := stmt.after world.moment world.events
      moment := world.moment + 1 }) :
    (onEvents stmt).Ensures (machine env proc) (fun _ _ => True) world post := by
  unfold onEvents
  rw [ensures_bind, ensures_issue]
  intro _
  rw [machine_event_calm calm]
  exact ensures

theorem ensures_orAnswer {operation : Op StoreError Result} {fallback : Result}
    {post : Except Fault Result → World → Prop}
    (ensures : operation.Ensures (machine env proc) (fun _ _ => True) world
      fun outcome after => ∃ result, outcome = .ok result ∧ post (.ok result) after) :
    (orAnswer operation fallback).Ensures (machine env proc) (fun _ _ => True) world post := by
  unfold orAnswer
  rw [ensures_catching]
  refine ensures.mono fun outcome after kept => ?_
  obtain ⟨result, rfl, holds⟩ := kept
  exact holds

variable (remembers : world.Remembers env proc eventType)

include remembers in
include calm in
/-- The subscribers a process knows are those of the collection, and it still remembers nothing
else. -/
theorem subscribersOf_publishes :
    (subscribersOf env eventType : Op Fault (List SubscriberRecord)).Ensures (machine env proc)
      (fun _ _ => True) world fun outcome after =>
        outcome = .ok (world.subscribers env eventType) ∧
          Published env proc eventType [] world after := by
  intro _
  simp only [machine, ProcessRequest.apply]
  have unread : Published env proc eventType [] world
      { world with
        processes := Function.update world.processes proc (world.processes proc)
        moment := world.moment + 1 } := by
    rw [Function.update_eq_self]
    exact ⟨⟨[], (append_nil _).symm, .nil⟩, rfl, remembers⟩
  cases found : (world.processes proc).subscriberCache.find? fun entry =>
      decide (entry.1 = eventType ∧ env.steadyClock world.moment - entry.2.refreshedAt <
        env.subscriptionCacheTtl) with
  | some entry =>
    have selected := List.find?_some found
    simp only [decide_eq_true_eq] at selected
    have known := remembers entry (mem_of_find?_eq_some found) selected.1
    exact ⟨congrArg Except.ok known, unread⟩
  | none =>
    refine ensures_orAnswer ?_
    intro _
    simp only [machine, underOutage, calm]
    intro _
    refine ⟨_, rfl, rfl, ⟨[], (append_nil _).symm, .nil⟩, rfl, ?_⟩
    intro entry cached named
    simp only [machine, ProcessRequest.apply, Function.update_self] at cached
    split at cached
    · rcases mem_cons.mp cached with rfl | old
      · rfl
      · exact absurd named (of_decide_eq_true (mem_filter.mp old).2)
    · exact remembers entry cached named

theorem forEach_publishes {Entry : Type} {body : Entry → Op Fault Unit}
    {expected : Entry → List StoredEvent} {subscriptions : Subscriptions}
    (turn : ∀ entry before, before.Remembers env proc eventType →
      before.subscriptions = subscriptions →
      (body entry).Ensures (machine env proc) (fun _ _ => True) before
        fun outcome after => outcome = .ok () ∧
          Published env proc eventType (expected entry) before after)
    (entries : List Entry) (remembers : world.Remembers env proc eventType)
    (known : world.subscriptions = subscriptions) :
    (forEach entries body).Ensures (machine env proc) (fun _ _ => True) world
      fun outcome after => outcome = .ok () ∧
        Published env proc eventType (entries.flatMap expected) world after := by
  induction entries generalizing world with
  | nil => exact ⟨rfl, ⟨[], (append_nil _).symm, .nil⟩, rfl, remembers⟩
  | cons entry rest ih =>
    unfold forEach
    rw [ensures_bind]
    refine (turn entry world remembers known).mono fun outcome between kept => ?_
    obtain ⟨rfl, first⟩ := kept
    refine (ih first.remembers (first.subscriptions.trans known)).mono fun outcome after kept => ?_
    exact ⟨kept.1, first.trans kept.2⟩

include remembers calm

theorem insert_publishes (doc : String → StoredEvent)
    {expected : StoredEvent} (same : ∀ eventId, (doc eventId).unstamped = expected) :
    (do let eventId ← createRandomUuid
        onEvents (.insert (doc eventId)) : Op StoreError Unit).Ensures
      (machine env proc) (fun _ _ => True) world fun outcome after =>
        outcome = .ok () ∧ Published env proc eventType [expected] world after := by
  intro _
  refine ensures_onEvents calm ⟨rfl, ⟨_, after_of_unselected (fun _ => rfl) _ _, ?_⟩,
    rfl, remembers⟩
  rw [← same (env.randomUuid world.moment)]
  exact List.Perm.refl _

/-- A publish stores one envelope for each subscriber that is to get the event. -/
theorem publish_publishes (sourceModule : String) (entry : Json × Delivery) :
    (publish env eventType entry.1 sourceModule entry.2 : Op Fault Unit).Ensures
      (machine env proc) (fun _ _ => True) world fun outcome after =>
        outcome = .ok () ∧ Published env proc eventType
          (envelopesFor env eventType sourceModule
            (world.subscribers env eventType) entry) world after := by
  refine ensures_orAnswer ?_
  rw [ensures_bind]
  refine (subscribersOf_publishes calm remembers).mono fun outcome between known => ?_
  obtain ⟨rfl, read⟩ := known
  dsimp only
  have distinct := world.subscribers_nodup env eventType
  have modules := targetsOf_perm distinct fun record => !record.external
  have externals := targetsOf_perm distinct (storing env entry.1)
  have expected := envelopesFor_perm env eventType sourceModule
    (world.subscribers env eventType) entry
  unfold onlyIf
  split
  · rw [ensures_bind, readSystemClock, ensures_issue]
    intro _
    have clocked : Published env proc eventType [] world
        (machine env proc .systemClock between).2 :=
      ⟨read.stored, read.subscriptions, read.remembers⟩
    dsimp only
    rw [ensures_bind]
    refine (forEach_publishes (fun target before remembers _ => insert_publishes calm remembers _
      fun eventId => moduleEvent_unstamped _ _ _ target eventId) _ clocked.remembers rfl).mono
      fun outcome written kept => ?_
    obtain ⟨rfl, forModules⟩ := kept
    refine (forEach_publishes (fun target before remembers _ => insert_publishes calm remembers _
      fun eventId => externalEvent_unstamped _ _ _ target eventId) _ forModules.remembers rfl).mono
      fun outcome after kept => ?_
    obtain ⟨rfl, forExternals⟩ := kept
    refine ⟨(), rfl, rfl, ((clocked.trans forModules).trans forExternals).perm ?_⟩
    rw [nil_append, ← map_eq_flatMap, ← map_eq_flatMap]
    exact ((modules.map _).append (externals.map _)).trans expected
  · rename_i nobody
    obtain ⟨noModule, noExternal, -⟩ := not_or.mp nobody |>.imp not_not.mp not_or.mp
    rw [noModule] at modules
    rw [show targetsOf (storing env entry.1) _ = [] from not_not.mp noExternal] at externals
    rw [nil_perm.mp modules, nil_perm.mp externals] at expected
    exact ⟨(), rfl, rfl, read.perm expected⟩

omit remembers calm

/-- What a batch writes for one payload are its envelopes; writing them down stores nothing. -/
theorem envelopesOf_builds {origin : World} (subscribers : List SubscriberRecord)
    (distinct : (subscribers.map target).Nodup) (sourceModule : String) (now : Time)
    (entry : Json × Delivery) (unstored : Published env proc eventType [] origin world) :
    (envelopesOf env eventType sourceModule now
        (targetsOf (fun record => !record.external) subscribers) subscribers entry :
        Op Fault (List StoredEvent)).Ensures
      (machine env proc) (fun _ _ => True) world fun outcome after =>
        ∃ docs, outcome = .ok docs ∧ (docs.map StoredEvent.unstamped).Perm
            (envelopesFor env eventType sourceModule subscribers entry) ∧
          Published env proc eventType [] origin after := by
  have drawn : ∀ (before : World) (doc : String → StoredEvent) (expected : StoredEvent),
      (∀ eventId, (doc eventId).unstamped = expected) →
      Published env proc eventType [] origin before →
      (do let eventId ← createRandomUuid
          pure (doc eventId) : Op Fault StoredEvent).Ensures
        (machine env proc) (fun _ _ => True) before fun outcome after =>
          ∃ written, outcome = .ok written ∧ written.unstamped = expected ∧
            Published env proc eventType [] origin after :=
    fun before doc expected same unstored _ =>
      ⟨_, rfl, same _, unstored.stored, unstored.subscriptions, unstored.remembers⟩
  unfold envelopesOf
  rw [ensures_bind]
  refine (ensures_mapEach (Published env proc eventType [] origin)
    (fun target doc => doc.unstamped = (moduleEvent eventType sourceModule
      (env.serialize entry.1) entry.2 0 target "").unstamped) unstored
    fun target before unstored => drawn before _ _
      (fun eventId => moduleEvent_unstamped _ _ _ target eventId) unstored).mono
    fun outcome between kept => ?_
  obtain ⟨forModules, rfl, areModules, unstored⟩ := kept
  dsimp only
  rw [ensures_bind]
  refine (ensures_mapEach (Published env proc eventType [] origin)
    (fun record doc => doc.unstamped = (externalEvent eventType sourceModule
      (env.serialize entry.1) entry.2 0 record.target "").unstamped) unstored
    fun record before unstored => drawn before _ _
      (fun eventId => externalEvent_unstamped _ _ _ record.target eventId) unstored).mono
    fun outcome after kept => ?_
  obtain ⟨forExternals, rfl, areExternals, unstored⟩ := kept
  refine ⟨_, rfl, ?_, unstored⟩
  have modules := targetsOf_perm distinct fun record => !record.external
  have expected := envelopesFor_perm env eventType sourceModule subscribers entry
  rw [map_append, map_eq_of_forall₂ areModules, map_eq_of_forall₂ areExternals,
    filter_congr fun record _ => storing_eq_not_live entry.1 record]
  refine ((modules.map _).append (List.Perm.of_eq ?_)).trans expected
  rw [map_map]
  rfl

include remembers in
include calm in
theorem publishBatch_publishes {sourceModule : String} {batch : List (Json × Delivery)} :
    (publishBatch env eventType batch sourceModule : Op Fault Unit).Ensures
      (machine env proc) (fun _ _ => True) world fun outcome after =>
        outcome = .ok () ∧ Published env proc eventType
          (batch.flatMap (envelopesFor env eventType sourceModule
            (world.subscribers env eventType))) world after := by
  unfold publishBatch onlyIf
  split
  swap
  · rename_i empty
    rw [not_not.mp empty]
    exact ⟨rfl, ⟨[], (append_nil _).symm, .nil⟩, rfl, remembers⟩
  refine ensures_orAnswer ?_
  rw [ensures_bind]
  refine (subscribersOf_publishes calm remembers).mono fun outcome between known => ?_
  obtain ⟨rfl, read⟩ := known
  dsimp only
  have distinct := world.subscribers_nodup env eventType
  split
  · rw [ensures_bind]
    refine (subscribersOf_publishes calm read.remembers).mono fun outcome again known => ?_
    obtain ⟨rfl, readAgain⟩ := known
    rw [read.subscribers]
    dsimp only
    rw [ensures_bind, readSystemClock, ensures_issue]
    intro _
    have both := read.trans readAgain
    have clocked : Published env proc eventType [] world
        (machine env proc .systemClock again).2 :=
      ⟨both.stored, both.subscriptions, both.remembers⟩
    dsimp only
    rw [ensures_bind]
    refine (ensures_mapEach (Published env proc eventType [] world)
      (fun entry docs => (docs.map StoredEvent.unstamped).Perm (envelopesFor env
        eventType sourceModule (world.subscribers env eventType) entry)) clocked
      fun entry before unstored => envelopesOf_builds _ distinct sourceModule _ entry unstored).mono
      fun outcome written kept => ?_
    obtain ⟨docs, rfl, areEnvelopes, unstored⟩ := kept
    have expected := flatten_perm areEnvelopes
    dsimp only
    split
    · rw [ensures_bind]
      refine ensures_onEvents calm ⟨(), rfl, rfl, ?_⟩
      have same : ((insertMany docs.flatten).added written.moment).map
          StoredEvent.unstamped = docs.flatten.map StoredEvent.unstamped := by
        refine ext_getElem? fun place => ?_
        rw [added, List.getElem?_map, List.getElem?_map, List.getElem?_mapIdx,
          Option.map_map]
        rfl
      have inserted : Published env proc eventType
          (batch.flatMap (envelopesFor env eventType sourceModule
            (world.subscribers env eventType))) written { written with
              events := (insertMany docs.flatten).after written.moment written.events
              moment := written.moment + 1 } :=
        ⟨⟨_, after_of_unselected (fun _ => rfl) _ _, same ▸ expected⟩, rfl,
          unstored.remembers⟩
      exact unstored.trans inserted
    · rename_i nothing
      rw [not_not.mp nothing] at expected
      exact ⟨(), rfl, rfl, unstored.perm expected⟩
  · rename_i nobody
    obtain ⟨noModule, noExternal⟩ := not_or.mp nobody |>.imp not_not.mp not_not.mp
    have none : world.subscribers env eventType = [] := by
      refine eq_nil_iff_forall_not_mem.mpr fun record mem => ?_
      cases external : record.external with
      | true => exact targetsOf_eq_nil noExternal record mem external
      | false => exact targetsOf_eq_nil noModule record mem (by simp [external])
    rw [none]
    refine ⟨(), rfl, rfl, read.perm (List.Perm.of_eq ?_)⟩
    simp [envelopesFor]

end Programs

/-! ### Batches and single publishes -/

variable {record : SubscriberRecord}

theorem filter_target {subscribers : List SubscriberRecord}
    (distinct : (subscribers.map target).Nodup) (mem : record ∈ subscribers) :
    (subscribers.filter fun other => other.target = record.target) = [record] := by
  induction subscribers with
  | nil => nomatch mem
  | cons head rest ih =>
    rw [map_cons, nodup_cons] at distinct
    obtain ⟨apart, distinct⟩ := distinct
    rcases mem_cons.mp mem with rfl | inRest
    · have others : (rest.filter fun other => decide (other.target = record.target)) = [] := by
        refine filter_eq_nil_iff.mpr fun other inRest => ?_
        have different : other.target ≠ record.target := fun same =>
          apart (same ▸ mem_map_of_mem inRest)
        simpa using different
      rw [filter_cons_of_pos (by simp), others]
    · have different : head.target ≠ record.target := fun same =>
        apart (same ▸ mem_map_of_mem inRest)
      rw [filter_cons_of_neg (by simpa using different), ih distinct inRest]

theorem filter_flatMap_of_option {Entry Value : Type} {expand : Entry → List Value}
    {keeps : Value → Bool} {accepts : Entry → Bool} {value : Entry → Value}
    (single : ∀ entry, (expand entry).filter keeps = if accepts entry then [value entry] else [])
    (entries : List Entry) :
    (entries.flatMap expand).filter keeps = (entries.filter accepts).map value := by
  induction entries with
  | nil => rfl
  | cons entry rest ih =>
    rw [flatMap_cons, filter_append, ih, single]
    by_cases accepted : accepts entry
    · rw [if_pos accepted, filter_cons_of_pos accepted]
      rfl
    · rw [if_neg accepted, filter_cons_of_neg accepted]
      rfl

section Subscriber

variable {env : Env} {eventType sourceModule : String} {entry : Json × Delivery}

theorem envelope_targetModule {env : Env} {eventType sourceModule : String}
    {record : SubscriberRecord} :
    (record.envelope env eventType sourceModule entry).targetModule = record.target := by
  unfold envelope
  split <;>
    simp only [externalEvent, moduleEvent, StoredEvent.withStatus, StoredEvent.unstamped] <;>
    split <;> rfl

theorem envelopesFor_filter {subscribers : List SubscriberRecord}
    (distinct : (subscribers.map target).Nodup) (mem : record ∈ subscribers) :
    (envelopesFor env eventType sourceModule subscribers entry).filter
        (fun event => event.targetModule = record.target) =
      if record.receives env entry then
        [record.envelope env eventType sourceModule entry] else [] := by
  have selected : (fun event : StoredEvent => decide (event.targetModule = record.target)) ∘
      (fun other => envelope env eventType sourceModule entry other) =
      fun other => decide (other.target = record.target) := by
    funext other
    simp only [Function.comp, envelope_targetModule]
  rw [envelopesFor, filter_map, selected, filter_comm, filter_target distinct mem,
    filter_singleton]
  cases record.receives env entry <;> rfl

theorem stored_of_subscriber {subscribers : List SubscriberRecord}
    (distinct : (subscribers.map target).Nodup)
    (mem : record ∈ subscribers) {batch : List (Json × Delivery)} {fresh : List StoredEvent}
    (expected : (fresh.map StoredEvent.unstamped).Perm
      (batch.flatMap (envelopesFor env eventType sourceModule subscribers))) :
    ((fresh.filter fun event => event.targetModule = record.target).map StoredEvent.unstamped).Perm
      ((batch.filter fun entry => record.receives env entry).map fun entry =>
        record.envelope env eventType sourceModule entry) := by
  have chosen := expected.filter fun event => decide (event.targetModule = record.target)
  rw [filter_map, filter_flatMap_of_option fun entry =>
    envelopesFor_filter distinct mem] at chosen
  exact chosen

end Subscriber

/-- Publishing a batch stores, for every subscriber, the events that publishing its payloads one
by one stores, up to order, identifiers and times: each payload the subscriber is to get, once,
and nothing for anybody else. -/
theorem publishBatch_as_publishes (env : Env)
    (calm : ∀ moment, env.outage moment = none) (proc : Nat) (world : World)
    (eventType : String) (remembers : world.Remembers env proc eventType)
    (batch : List (Json × Delivery)) (sourceModule : String) :
    let single := ((forEach batch fun entry =>
      publish env eventType entry.1 sourceModule entry.2 : Op Empty Unit).run
        (machine env proc) world).2
    let batched := ((publishBatch env eventType batch sourceModule :
      Op Empty Unit).run (machine env proc) world).2
    ∃ fromSingle fromBatch,
      single.events = world.events ++ fromSingle ∧ batched.events = world.events ++ fromBatch ∧
      (fromBatch.map StoredEvent.unstamped).Perm (fromSingle.map StoredEvent.unstamped) ∧
      (∀ record ∈ world.subscribers env eventType,
        ((fromBatch.filter fun event => event.targetModule = record.target).map
            StoredEvent.unstamped).Perm
          ((batch.filter fun entry => record.receives env entry).map fun entry =>
            record.envelope env eventType sourceModule entry)) ∧
      ∀ event ∈ fromBatch, ∃ record ∈ world.subscribers env eventType,
        event.targetModule = record.target := by
  intro single batched
  have distinct := world.subscribers_nodup env eventType
  have publishes : ∀ (entry : Json × Delivery) (before : World),
      before.Remembers env proc eventType → before.subscriptions = world.subscriptions →
      (publish env eventType entry.1 sourceModule entry.2 : Op Empty Unit).Ensures
        (machine env proc) (fun _ _ => True) before fun outcome after =>
          outcome = .ok () ∧ Published env proc eventType
            (envelopesFor env eventType sourceModule
              (world.subscribers env eventType) entry) before after := by
    intro entry before remembers same
    have known : before.subscribers env eventType = world.subscribers env eventType := by
      rw [World.subscribers, same]
      rfl
    exact known ▸ publish_publishes calm remembers sourceModule entry
  obtain ⟨-, oneByOne⟩ := (forEach_publishes publishes batch remembers rfl).run_of_true
  have batches : (publishBatch env eventType batch sourceModule :
      Op Empty Unit).Ensures (machine env proc) (fun _ _ => True) world _ :=
    publishBatch_publishes calm remembers
  obtain ⟨-, together⟩ := batches.run_of_true
  obtain ⟨fromSingle, singleEvents, singleExpected⟩ := oneByOne.stored
  obtain ⟨fromBatch, batchEvents, batchExpected⟩ := together.stored
  refine ⟨fromSingle, fromBatch, singleEvents, batchEvents, batchExpected.trans singleExpected.symm,
    fun record mem => stored_of_subscriber distinct mem batchExpected, fun event stored => ?_⟩
  have unstamped := batchExpected.mem_iff.mp (mem_map_of_mem stored)
  obtain ⟨entry, -, inEnvelopes⟩ := mem_flatMap.mp unstamped
  obtain ⟨record, chosen, same⟩ := mem_map.mp inEnvelopes
  refine ⟨record, (mem_filter.mp chosen).1, ?_⟩
  rw [← envelope_targetModule, same]
  rfl

/-- A store where a module and an external subscriber have subscribed to one event type. -/
def World.subscribed : World :=
  { World.empty with
    subscriptions := (Subscriptions.empty.upsert id "eqs" "made"
      Subscriptions.id_keepsNames).upsert id "client:shop" "made" Subscriptions.id_keepsNames }

/-- Two payloads, to a module and an external subscriber. -/
theorem publishBatch_as_publishes_of_two :
    let env := Env.stepping 1
    let batch := [(Json.null, Delivery.none), (Json.bool true, Delivery.none)]
    let batched := ((publishBatch env "made" batch "esm" : Op Empty Unit).run
      (machine env 0) .subscribed).2
    ∃ fromBatch, batched.events = fromBatch ∧
      ∀ record ∈ World.subscribed.subscribers env "made",
        ((fromBatch.filter fun event => event.targetModule = record.target).map
            StoredEvent.unstamped).Perm
          ((batch.filter fun entry => record.receives env entry).map fun entry =>
            record.envelope env "made" "esm" entry) := by
  intro env batch batched
  obtain ⟨-, fromBatch, -, events, -, each, -⟩ := publishBatch_as_publishes env
    (fun _ => rfl) 0 .subscribed "made" (fun entry cached _ => absurd cached not_mem_nil) batch
    "esm"
  exact ⟨fromBatch, events, each⟩

end Euclid.Bus
