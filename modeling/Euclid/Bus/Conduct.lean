/-
This file proves that every operation of the event bus follows the discipline of
`Euclid/Bus/Traffic.lean`.

Publishing and subscribing ask nothing a session has to remember. A poll is the one that
needs an argument: while it hands on its batch, what its handlers accepted is among what it
will delete and what failed among what it will put back. A release has let go of a whole
page, and of the last one, when it answers how many it released.
-/

import Euclid.Bus.Traffic

namespace Euclid.Bus

open Program Discipline List

variable {Fault Result : Type} {session : Session}

/-! ### Statements -/

variable {stmt : EventStatement}

theorem follows_onEvents
    {ends : Except StoreError stmt.Answer → Session → Prop} (allowed : session.allowsEvent stmt)
    (answers : ∀ answer, Session.expects (.event stmt) answer →
      ends answer (session.afterEvent stmt answer)) :
    (onEvents stmt).Follows traffic session ends := by
  unfold onEvents
  rw [follows_bind, follows_issue]
  refine ⟨allowed, fun answer expected => ?_⟩
  exact follows_ofExcept.mpr (answers answer expected)

variable {operation : Op StoreError Result} {fallback : Result}

theorem follows_logged {holds : Session → Prop}
    (follows : operation.Follows traffic session fun _ reached => holds reached) :
    (orAnswer operation fallback : Op Fault Result).Follows traffic session
      fun _ reached => holds reached :=
  follows_catching.mpr (follows.mono fun outcome reached kept => by cases outcome <;> exact kept)

/-! ### Publishing and subscribing -/

/-- Requests every thread may make at any time. -/
def Req.IsFree : Req → Prop
  | .systemClock | .randomUuid | .process _ | .subscription _ => True
  | .event (.insert doc) => doc.IsFresh
  | _ => False

theorem follows_free {operation : Op Fault Result} (asks : operation.Asks Req.IsFree) :
    operation.Follows traffic session fun _ _ => True := by
  refine asks.follows_keeping (fun _ => True) trivial (fun session req _ free => ?_)
    fun _ _ _ _ _ => trivial
  cases req with
  | event stmt => cases stmt <;> first | exact free | exact absurd free id
  | handle _ | handlerReturned _ | storeDeadLetter _ => exact absurd free id
  | _ => trivial

variable {heldBy : String}

theorem StoredEvent.isFresh_withStatus {event : StoredEvent} (fresh : event.IsFresh)
    {expiresAt : Time} : (event.withStatus heldBy expiresAt).IsFresh := by
  unfold StoredEvent.withStatus
  split
  · exact ⟨fresh.unclaimed, fresh.unattempted, by simp⟩
  · exact ⟨fresh.unclaimed, fresh.unattempted, by simp⟩

open StoredEvent

variable {eventType : String} {sourceModule : String} {now : Time} {delivery : Delivery}
  {payload : String}

theorem moduleEvent_isFresh {target eventId : String} :
    (moduleEvent eventType sourceModule payload delivery now target eventId).IsFresh :=
  isFresh_withStatus ⟨rfl, rfl, by simp⟩

theorem externalEvent_isFresh {target eventId : String} :
    (externalEvent eventType sourceModule payload delivery now target eventId).IsFresh :=
  isFresh_withStatus ⟨rfl, rfl, by simp⟩

variable {kind : Req → Prop}

theorem asks_onEvents (asked : kind (.event stmt)) : (onEvents stmt).Asks kind :=
  (asks_issue asked).bind fun answer => asks_ofExcept answer

theorem asks_onSubscriptions {stmt : SubscriptionStatement}
    (asked : kind (.subscription stmt)) : (onSubscriptions stmt).Asks kind :=
  (asks_issue asked).bind fun answer => asks_ofExcept answer

theorem asks_orAnswer (asks : operation.Asks kind) :
    (orAnswer operation fallback : Op Fault Result).Asks kind :=
  asks.catching fun _ => trivial

variable {env : Env}

theorem subscribersOf_free :
    (subscribersOf env eventType : Op Fault (List SubscriberRecord)).Asks Req.IsFree := by
  refine (asks_issue trivial).bind fun cached => ?_
  obtain ⟨now, generation, known⟩ := cached
  cases known with
  | some subscribers => trivial
  | none =>
    refine asks_orAnswer ((asks_onSubscriptions trivial).bind fun docs => ?_)
    exact (asks_issue trivial).bind fun _ => trivial

theorem publish_free {payload : Json} :
    (publish env eventType payload sourceModule delivery : Op Fault Unit).Asks Req.IsFree := by
  refine asks_orAnswer (subscribersOf_free.bind fun subscribers => ?_)
  refine Asks.onlyIf fun _ => (asks_issue trivial).bind fun now => ?_
  refine (Asks.forEach fun target _ => ?_).bind fun _ => Asks.forEach fun target _ => ?_
  · exact (asks_issue trivial).bind fun eventId => asks_onEvents moduleEvent_isFresh
  · exact (asks_issue trivial).bind fun eventId =>
      asks_onEvents externalEvent_isFresh

theorem subscribe_free {moduleType : String} :
    (subscribe moduleType eventType : Op Fault Unit).Asks Req.IsFree :=
  asks_orAnswer ((asks_onSubscriptions trivial).bind fun _ => asks_issue trivial)

variable {subscriber : String}

theorem subscribeExternal_free
    {filter : List (String × Json)} {accountId : String} {mode : DeliveryMode} :
    (subscribeExternal env subscriber eventType filter accountId mode :
      Op Fault Unit).Asks Req.IsFree :=
  asks_orAnswer ((asks_onSubscriptions trivial).bind fun _ => asks_issue trivial)

theorem envelopesOf_follows {targets : List String} {subscribers : List SubscriberRecord}
    {entry : Json × Delivery} :
    (envelopesOf env eventType sourceModule now targets subscribers entry :
      Op Fault (List StoredEvent)).Follows traffic session fun outcome _ =>
        (∀ docs, outcome = .ok docs → ∀ doc ∈ docs, doc.IsFresh) ∧ True := by
  have drawn : ∀ (before : Session) (doc : String → StoredEvent),
      (∀ eventId, (doc eventId).IsFresh) →
      (do let eventId ← createRandomUuid
          pure (doc eventId) : Op Fault StoredEvent).Follows traffic before
        fun outcome _ => (∀ written, outcome = .ok written → written.IsFresh) ∧ True := by
    refine fun before doc fresh => ⟨trivial, fun eventId _ => ⟨fun written same => ?_, trivial⟩⟩
    rw [← Except.ok.inj same]
    exact fresh eventId
  unfold envelopesOf
  rw [follows_bind]
  refine (follows_mapEach (fun _ => True) IsFresh trivial fun target before _ =>
    drawn before _ fun eventId => moduleEvent_isFresh).mono fun outcome reached kept => ?_
  cases outcome with
  | error fault => exact ⟨nofun, trivial⟩
  | ok forModules =>
    dsimp only
    rw [follows_bind]
    refine (follows_mapEach (fun _ => True) IsFresh trivial fun record before _ =>
      drawn before _ fun eventId => externalEvent_isFresh).mono
      fun outcome reached others => ?_
    cases outcome with
    | error fault => exact ⟨nofun, trivial⟩
    | ok forExternals =>
      refine ⟨fun docs same doc mem => ?_, trivial⟩
      rw [← Except.ok.inj same] at mem
      rcases mem_append.mp mem with inModules | inExternals
      · exact kept.1 forModules rfl doc inModules
      · exact others.1 forExternals rfl doc inExternals

theorem publishBatch_follows {batch : List (Json × Delivery)} :
    (publishBatch env eventType batch sourceModule : Op Fault Unit).Follows traffic
      session fun _ _ => True := by
  unfold publishBatch onlyIf
  split
  swap
  · trivial
  refine follows_logged ?_
  rw [follows_bind]
  refine (follows_free subscribersOf_free).mono fun outcome reached _ => ?_
  cases outcome with
  | error fault => trivial
  | ok known =>
    dsimp only
    split
    swap
    · trivial
    rw [follows_bind]
    refine (follows_free subscribersOf_free).mono fun outcome reached _ => ?_
    cases outcome with
    | error fault => trivial
    | ok subscribers =>
      refine follows_issue_bind.mpr ⟨trivial, fun now _ => ?_⟩
      rw [follows_bind]
      refine (follows_mapEach (fun _ => True)
        (fun docs : List StoredEvent => ∀ doc ∈ docs, doc.IsFresh) trivial
        fun entry before _ => envelopesOf_follows).mono fun outcome reached kept => ?_
      cases outcome with
      | error fault => trivial
      | ok docs =>
        dsimp only
        split
        · rw [follows_bind]
          refine follows_onEvents (fun doc mem => ?_) fun answer _ => by
            cases answer <;> trivial
          obtain ⟨written, inDocuments, inWritten⟩ := mem_flatten.mp mem
          exact kept.1 docs rfl written inDocuments doc inWritten
        · trivial

/-! ### Modules -/

theorem moveToDlq_follows {doc : StoredEvent} {reason : String}
    (exhausted : doc ∈ session.exhausted) :
    (moveToDlq doc reason : Op Fault Unit).Follows traffic session
      fun outcome reached => outcome = .ok () ∧
        ∃ buried, reached = { session with buried := buried } := by
  unfold moveToDlq
  rw [orAnswer, follows_catching]
  refine follows_issue_bind.mpr ⟨exhausted, fun answer _ => ?_⟩
  rw [follows_bind, follows_ofExcept]
  cases answer with
  | error fault => exact ⟨rfl, session.buried, rfl⟩
  | ok stored =>
    refine follows_onEvents (mem_append_right _ (.head _)) fun answer _ => ?_
    cases answer <;> exact ⟨rfl, _, rfl⟩

/-- What a poll still has to hand on is in its batch, once each, and what it will delete and put
back is what its handlers have decided. -/
structure HandsOn (batch : List StoredEvent) (acked requeue : List Oid) (session : Session) :
    Prop where
  waiting : ∀ doc ∈ batch, doc ∈ session.batch
  distinct : (batch.map oid).Nodup
  accepted : ∀ oid ∈ acked, oid ∈ session.acknowledged
  failed : ∀ oid ∈ requeue, oid ∈ session.failed

theorem handleEach_follows {batch : List StoredEvent} {acked requeue : List Oid}
    (hands : HandsOn batch acked requeue session) :
    (handleEach batch acked requeue : Op Fault (List Oid × List Oid)).Follows traffic session
      fun outcome reached => ∃ accepted again, outcome = .ok (accepted, again) ∧
        HandsOn [] accepted again reached := by
  induction batch generalizing acked requeue session with
  | nil => exact ⟨acked, requeue, rfl, hands⟩
  | cons doc rest ih =>
    obtain ⟨notIn, distinct⟩ := nodup_cons.mp hands.distinct
    have waiting : ∀ other ∈ rest,
        other ∈ session.batch.filter fun other => other.oid ≠ doc.oid := by
      intro other mem
      refine mem_filter.mpr ⟨hands.waiting other (.tail _ mem), ?_⟩
      refine decide_eq_true fun same => notIn ?_
      rw [← same]
      exact mem_map_of_mem mem
    refine follows_issue_bind.mpr ⟨hands.waiting doc (.head _), fun _ _ => ?_⟩
    refine follows_issue_bind.mpr ⟨rfl, fun ok _ => ?_⟩
    show Program.Follows traffic _ (Session.afterHandler _ doc ok) _
    unfold Session.afterHandler
    by_cases accepted : ok ≠ some false
    · rw [if_pos accepted, if_pos accepted]
      refine ih ⟨waiting, distinct, fun oid mem => ?_, hands.failed⟩
      rcases mem_append.mp mem with before | now
      · exact mem_append_left _ (hands.accepted oid before)
      · exact mem_append_right _ now
    rw [if_neg accepted, if_neg accepted]
    by_cases last : kMaxAttempts ≤ doc.attempts
    · rw [if_pos last, if_pos last, follows_bind]
      refine (moveToDlq_follows (mem_append_right _ (.head _))).mono
        fun outcome reached moved => ?_
      obtain ⟨rfl, buried, rfl⟩ := moved
      exact ih ⟨waiting, distinct, hands.accepted, hands.failed⟩
    · rw [if_neg last, if_neg last]
      refine ih ⟨waiting, distinct, hands.accepted, fun oid mem => ?_⟩
      rcases mem_append.mp mem with before | now
      · exact mem_append_left _ (hands.failed oid before)
      · exact mem_append_right _ now

variable {operation : Traffic}

theorem pollOnce_follows {instanceId moduleType : String} :
    (pollOnce instanceId moduleType : Op Fault Unit).Follows traffic (.opening operation)
      fun _ _ => True := by
  refine follows_logged ?_
  refine follows_issue_bind.mpr ⟨trivial, fun now _ => ?_⟩
  rw [follows_bind]
  refine follows_onEvents trivial fun answer _ => ?_
  cases answer with
  | error fault => trivial
  | ok candidateIds =>
    dsimp only
    unfold onlyIf
    split
    swap
    · trivial
    refine follows_issue_bind.mpr ⟨trivial, fun claimToken _ => ?_⟩
    rw [follows_bind]
    refine follows_onEvents ⟨rfl, rfl, now, rfl, rfl⟩ fun answer _ => ?_
    cases answer with
    | error fault => trivial
    | ok modified =>
      dsimp only
      split
      swap
      · trivial
      rw [follows_bind]
      refine follows_onEvents ⟨rfl, rfl⟩ fun answer expected => ?_
      cases answer with
      | error fault => trivial
      | ok batch =>
        dsimp only
        rw [follows_bind]
        refine Follows.mono (handleEach_follows ⟨fun doc mem => mem, expected,
          fun oid none => absurd none not_mem_nil,
          fun oid none => absurd none not_mem_nil⟩) fun outcome reached hands => ?_
        obtain ⟨acked, requeue, rfl, hands⟩ := hands
        dsimp only
        rw [follows_bind]
        have settles : (if requeue ≠ [] then do
              let again ← readSystemClock
              onEvents (.requeue requeue again)
            else .done () : Op StoreError Unit).Follows traffic reached fun _ _ => True := by
          split
          · refine follows_issue_bind.mpr ⟨trivial, fun again _ => ?_⟩
            exact follows_onEvents ⟨hands.failed, rfl⟩ fun answer _ => by cases answer <;> trivial
          · trivial
        split
        · refine follows_onEvents hands.accepted fun answer _ => ?_
          cases answer with
          | error fault => trivial
          | ok deleted => exact settles
        · exact settles

theorem reap_follows :
    (reap : Op Fault Unit).Follows traffic (.opening operation) fun _ _ => True := by
  refine follows_logged ?_
  refine follows_issue_bind.mpr ⟨trivial, fun now _ => ?_⟩
  rw [follows_bind]
  exact follows_onEvents rfl fun answer _ => by cases answer <;> trivial

theorem expire_follows :
    (expire : Op Fault Unit).Follows traffic (.opening operation) fun _ _ => True := by
  refine follows_logged ?_
  refine follows_issue_bind.mpr ⟨trivial, fun now _ => ?_⟩
  exact follows_onEvents rfl fun answer _ => by cases answer <;> trivial

/-! ### External subscribers -/

theorem claimEvents_follows {maxEvents : Int} {visibility : Time} :
    (claimEvents env subscriber maxEvents visibility :
      Op Fault (List EventEnvelope)).Follows traffic (.opening operation) fun _ _ => True := by
  refine follows_logged ?_
  refine follows_issue_bind.mpr ⟨trivial, fun now _ => ?_⟩
  rw [follows_bind]
  refine follows_onEvents (isExternal_externalTarget subscriber) fun answer _ => ?_
  cases answer with
  | error fault => trivial
  | ok candidateIds =>
    dsimp only
    split
    · trivial
    refine follows_issue_bind.mpr ⟨trivial, fun claimToken _ => ?_⟩
    rw [follows_bind]
    refine follows_onEvents ⟨rfl, rfl, rfl, rfl⟩ fun answer _ => ?_
    cases answer with
    | error fault => trivial
    | ok modified =>
      dsimp only
      split
      · trivial
      rw [follows_bind]
      exact follows_onEvents ⟨rfl, rfl⟩ fun answer _ => by cases answer <;> trivial

theorem ackEvents_follows {eventIds : List String} :
    (ackEvents subscriber eventIds : Op Fault Nat).Follows traffic session fun _ _ => True := by
  unfold ackEvents
  split
  · trivial
  · exact follows_logged
      (follows_onEvents (isExternal_externalTarget subscriber) fun _ _ => trivial)

/-! ### Holding and releasing -/

theorem holdDeliveries_follows {sourceErn : String} :
    (holdDeliveries sourceErn : Op Fault Int).Follows traffic
      (.opening (.hold sourceErn)) fun _ _ => True := by
  unfold holdDeliveries
  split
  · trivial
  refine follows_logged ?_
  rw [follows_bind]
  exact follows_onEvents rfl fun answer _ => by cases answer <;> trivial

theorem releaseEach_follows {page : List StoredEvent}
    (read : session.readAt = some now) (shown : ∀ event ∈ page, event.oid ∈ session.page)
    (distinct : (page.map oid).Nodup) :
    (releaseEach now page).Follows traffic session fun outcome reached =>
      ∀ released, outcome = .ok released →
        reached = { session with
          page := session.page.filter fun oid => oid ∉ page.map StoredEvent.oid } := by
  induction page generalizing session with
  | nil => simp [releaseEach, Follows]
  | cons event rest ih =>
    obtain ⟨notIn, distinct⟩ := nodup_cons.mp distinct
    refine follows_issue_bind.mpr ⟨⟨shown event (.head _), read⟩, fun answer _ => ?_⟩
    rw [follows_bind]
    cases answer with
    | error fault =>
      have others : ∀ other ∈ rest, other.oid ∈ session.page := fun other mem =>
        shown other (.tail _ mem)
      refine (ih read others distinct).mono fun outcome reached _ => ?_
      cases outcome <;> exact nofun
    | ok modified =>
      have others : ∀ other ∈ rest, other.oid ∈ session.page.filter fun oid => oid ≠ event.oid := by
        intro other mem
        refine mem_filter.mpr ⟨shown other (.tail _ mem), ?_⟩
        refine decide_eq_true fun same => notIn ?_
        rw [← same]
        exact mem_map_of_mem mem
      refine (ih (by exact read) others distinct).mono fun outcome reached kept => ?_
      cases outcome with
      | error fault => exact nofun
      | ok remaining =>
        intro released _
        have both : (session.page.filter fun oid => oid ≠ event.oid).filter
            (fun oid => oid ∉ rest.map StoredEvent.oid) =
              session.page.filter fun oid => oid ∉ (event :: rest).map StoredEvent.oid := by
          rw [filter_filter]
          refine filter_congr fun oid _ => ?_
          simp only [map_cons, mem_cons, not_or, Bool.decide_and, Bool.and_comm]
        rw [kept remaining rfl, ← both]
        rfl

theorem releasePages_follows {pages : Nat} {released : Int} (read : session.readAt = some now)
    (releases : ∃ pages, session.traffic = .release heldBy pages) :
    (releasePages heldBy now pages released).Follows traffic session fun outcome reached =>
      ∀ total, outcome = .ok (some total) → reached.page = [] ∧ reached.lastPage = true := by
  induction pages generalizing session released with
  | zero => exact nofun
  | succ pages ih =>
    unfold releasePages
    rw [follows_bind]
    refine follows_onEvents releases fun answer distinct => ?_
    cases answer with
    | error fault => exact nofun
    | ok page =>
      dsimp only
      split
      · rename_i none
        intro total _
        subst none
        exact ⟨rfl, rfl⟩
      rw [follows_bind]
      refine Follows.mono (releaseEach_follows read
        (fun event mem => mem_map_of_mem mem) distinct)
        fun outcome reached kept => ?_
      cases outcome with
      | error fault => exact nofun
      | ok modified =>
        rw [kept modified rfl]
        dsimp only
        split
        · rename_i short
          intro total _
          exact ⟨by simp [Session.afterEvent], decide_eq_true short⟩
        · exact ih read releases

theorem releaseHeld_follows {pages : Nat} :
    (releaseHeld heldBy pages : Op Fault (Option Int)).Follows traffic
      (.opening (.release heldBy pages)) fun outcome reached => heldBy ≠ "" →
        ∀ released, outcome = .ok (some released) → 0 ≤ released →
          reached.page = [] ∧ reached.lastPage = true := by
  unfold releaseHeld
  split
  · rename_i unnamed
    exact fun named => absurd unnamed named
  rw [orAnswer, follows_catching]
  refine follows_issue_bind.mpr ⟨trivial, fun now _ => ?_⟩
  refine Follows.mono (releasePages_follows rfl ⟨pages, rfl⟩) fun outcome reached kept => ?_
  cases outcome with
  | ok total =>
    intro _ released same _
    rw [Except.ok.inj same] at kept
    exact kept released rfl
  | error fault =>
    intro _ released same nonneg
    obtain rfl := Option.some.inj (Except.ok.inj same)
    exact absurd nonneg (by decide)

/-! ### Every operation -/

/-- What an operation leaves behind: a release that answers how many it released has let go of
its last page. -/
def Traffic.Ends (operation : Traffic) (outcome : Except Empty (Option Int)) (session : Session) :
    Prop :=
  ∀ heldBy pages, operation = .release heldBy pages → heldBy ≠ "" →
    ∀ released, outcome = .ok (some released) → 0 ≤ released →
      session.page = [] ∧ session.lastPage = true

theorem Traffic.follows (env : Env) (proc : Nat) (operation : Traffic) :
    (operation.program env proc).Follows Bus.traffic (.opening operation) operation.Ends := by
  have settled : ∀ {Result : Type} {program : Op Empty Result} {answer : Result → Option Int},
      (∀ heldBy pages, operation ≠ .release heldBy pages) →
      program.Follows Bus.traffic (.opening operation) (fun _ _ => True) →
      (program >>= fun result => pure (answer result)).Follows Bus.traffic (.opening operation)
        operation.Ends := by
    intro Result program answer other follows
    rw [follows_bind]
    refine follows.mono fun outcome reached _ => ?_
    cases outcome with
    | ok result => exact fun heldBy pages same => absurd same (other heldBy pages)
    | error fault => exact fault.elim
  cases operation with
  | single eventType payload sourceModule delivery =>
    exact settled (by simp) (follows_free publish_free)
  | batch eventType entries sourceModule =>
    exact settled (by simp) publishBatch_follows
  | module moduleType eventType =>
    exact settled (by simp) (follows_free subscribe_free)
  | client subscriber eventType filter accountId mode =>
    exact settled (by simp)
      (follows_free subscribeExternal_free)
  | poll moduleType => exact settled (by simp) pollOnce_follows
  | claim subscriber maxEvents visibility =>
    exact settled (by simp) claimEvents_follows
  | ack subscriber eventIds => exact settled (by simp) ackEvents_follows
  | sweep => exact settled (by simp) reap_follows
  | hold sourceErn => exact settled (by simp) holdDeliveries_follows
  | release heldBy pages =>
    refine releaseHeld_follows.mono fun outcome reached kept => ?_
    rintro other pages' same named released answered nonneg
    obtain ⟨rfl, -⟩ := Traffic.release.inj same
    exact kept named released answered nonneg
  | expiry => exact settled (by simp) expire_follows

abbrev Past (Thread : Type) : Type := History Thread Req Req.Answer World

section Run

variable {Thread : Type} [DecidableEq Thread]

/-- The session of each thread after a history of traffic. -/
abbrev sessionsOf (ops : Thread → Traffic)
    (hist : History Thread Req Req.Answer World) : Thread → Session :=
  traffic.sessions (fun tid => .opening (ops tid)) hist

/-- A history of traffic from a store nobody has published to. -/
abbrev Governed (env : Env) (processOf : Thread → Nat)
    (ops : Thread → Traffic) (subscriptions : Subscriptions)
    (hist : History Thread Req Req.Answer World) (world : World) : Prop :=
  traffic.Governs (machines env processOf) (fun tid => .opening (ops tid))
    (.opened subscriptions) hist world

variable {env : Env} {processOf : Thread → Nat} {ops : Thread → Traffic}
variable {subscriptions : Subscriptions} {world : World} {hist : Past Thread}

theorem governed_identified (governed : Governed env processOf ops subscriptions hist world) :
    Identified world.events world.moment := by
  refine governed.records.invariant (fun world => Identified world.events world.moment)
    ⟨.nil, fun event stored => absurd stored not_mem_nil⟩ ?_
  intro tid req world identified
  exact identified.step req

theorem traffic_run (env : Env) (processOf : Thread → Nat)
    (ops : Thread → Traffic) (subscriptions : Subscriptions) (schedule : List Thread) :
    let pool := (Traffic.pool env processOf (.opened subscriptions) ops).run
      (machines env processOf) schedule
    Governed env processOf ops subscriptions pool.history pool.world ∧
      ∀ tid, (pool.programs tid).Follows traffic (sessionsOf ops pool.history tid) (ops tid).Ends :=
  governs_run traffic (machines env processOf) _ (fun tid => (ops tid).Ends)
    _ _ (fun tid => (ops tid).follows env (processOf tid))
    (fun _ _ governed _ req _ => machine_expected (governed_identified governed) req)
    schedule

end Run

end Euclid.Bus
