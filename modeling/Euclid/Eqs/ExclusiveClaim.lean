/-
This file proves that receives do not hand out the same message twice.

Selection, claim and read back are three statements, and the candidates of competing
receives overlap freely. What separates the receives is the claim: it is conditional on
the message being available, and it leaves a handle nobody else has drawn. So every copy
a receive hands out goes back to a claim of its own, and two claims of one message have
something between them that put it back.
-/

import Euclid.Eqs.Claim

namespace Euclid.Eqs

open Program Discipline List

variable {Thread : Type}

/-! ### Put-backs -/

/-- An event that makes a message available which was not. -/
def PutsBack (oid : Oid) (event : Event Thread Req Req.Answer World) : Prop :=
  (∃ msg ∈ event.before.messages, msg.oid = oid ∧ msg.status ≠ .available) ∧
    ∃ msg ∈ event.after.messages, msg.oid = oid ∧ msg.status = .available

/-- Two claims of one message with a put-back of it between them. -/
def SeparatelyClaimed (hist : History Thread Req Req.Answer World)
    (first second : Thread) (oid : Oid) (firstHandle secondHandle : String) : Prop :=
  ∃ later newer middle older earlier, hist = later ++ newer :: (middle ++ older :: earlier) ∧
    (IsClaim first oid firstHandle newer ∧ IsClaim second oid secondHandle older ∨
      IsClaim second oid secondHandle newer ∧ IsClaim first oid firstHandle older) ∧
    ∃ event ∈ middle, PutsBack oid event

section Records

variable {env : Env} {processOf : Thread → Nat} {origin world : World}

/-- Before a message can be claimed again, something has put it back. -/
theorem putBack_between {middle earlier : Past Thread}
    {newer older : Event Thread Req Req.Answer World} {first second : Thread} {oid : Oid}
    {firstHandle secondHandle : String} (records : History.Records (machines env processOf) origin
      (middle ++ older :: earlier) newer.before)
    (identified : Identified origin.messages origin.moment)
    (again : IsClaim first oid firstHandle newer) (once : IsClaim second oid secondHandle older) :
    ∃ event ∈ middle, PutsBack oid event := by
  have atOlder : Identified older.after.messages older.after.moment := by
    obtain ⟨stepped, before⟩ := records.suffix
    have after : older.after =
        (machine env (processOf older.thread) older.request older.before).2 :=
      (congrArg Prod.snd stepped).symm
    rw [after]
    exact (records_identified before identified).step
  have taken : ¬((∃ msg ∈ older.after.messages, msg.oid = oid ∧
      msg.status = .available) ∨ older.after.moment ≤ oid.1) := by
    obtain ⟨claimed, stored, same, invisible, _⟩ := once.claimed
    rintro (⟨msg, inAfter, sameOid, isAvailable⟩ | unmade)
    · rw [atOlder.unique inAfter stored (sameOid.trans same.symm), invisible] at isAvailable
      cases isAvailable
    · have below := atOlder.made claimed stored
      rw [same] at below
      omega
  -- an identity still to be made counts as available, so that it cannot come back from nothing
  obtain ⟨event, mem, unavailable, available⟩ := records.crossing
    (fun world => (∃ msg ∈ world.messages, msg.oid = oid ∧ msg.status = .available) ∨
      world.moment ≤ oid.1) taken (.inl again.available)
  refine ⟨event, mem, ?_⟩
  obtain ⟨absent, made⟩ := not_or.mp unavailable
  have stepped := records.machine_eq (List.mem_append_left _ mem)
  have after : event.after =
      (machine env (processOf event.thread) event.request event.before).2 :=
    (congrArg Prod.snd stepped).symm
  have stillMade : ¬event.after.moment ≤ oid.1 := by
    rw [after, machine_moment]
    omega
  obtain ⟨msg, inAfter, same, isAvailable⟩ := available.resolve_right stillMade
  refine ⟨?_, msg, inAfter, same, isAvailable⟩
  rw [after] at inAfter
  cases req : event.request with
  | message stmt =>
    rw [req] at inAfter
    rcases stmt.origin _ _ _ _ inAfter with ⟨before, stored, sameOid, _⟩ | ⟨fresh, _⟩
    · refine ⟨before, stored, sameOid.trans same, fun wasAvailable => absent ?_⟩
      exact ⟨before, stored, sameOid.trans same, wasAvailable⟩
    · rw [same] at fresh
      exact absurd (le_of_eq fresh.symm) made
  | systemClock | steadyClock | randomUuid | process _ | queue _ =>
    rw [req] at inAfter
    exact absurd ⟨msg, inAfter, same, isAvailable⟩ absent

end Records

/-! ### Exclusive claims -/

section Receives

variable [DecidableEq Thread] {env : Env} {processOf : Thread → Nat}
variable {ops : Thread → Traffic} {origin world : World} {hist : Past Thread}

section

variable (governed : Governed env processOf ops origin hist world)

include governed

variable {result : List Message} {queueErn : String}

theorem Received.claimed (unissued : ∀ msg ∈ origin.messages, ∀ moment, origin.moment ≤ moment →
      msg.receiptHandle ≠ env.randomUuid moment) {tid : Thread} {maxCount : Int}
    (received : Received queueErn maxCount result (sessionsOf ops hist tid))
    {copy : Message} (returned : copy ∈ result) :
    ClaimedBy hist tid copy.oid copy.receiptHandle := by
  obtain ⟨msg, inRead, rfl, _⟩ := received.between.readBack copy returned
  rw [ReceiveCall.handOut_oid, ReceiveCall.handOut_receiptHandle]
  obtain ⟨event, mem, rfl, claimOf⟩ := read_claimOf governed unissued inRead
  exact ⟨event, mem, claimOf.isClaim⟩

theorem Received.complete (identified : Identified origin.messages origin.moment)
    (unissued : ∀ msg ∈ origin.messages, ∀ moment, origin.moment ≤ moment →
      msg.receiptHandle ≠ env.randomUuid moment) {tid : Thread} {maxCount : Int}
    (received : Received queueErn maxCount result (sessionsOf ops hist tid))
    {msg : Message} (stored : msg ∈ world.messages)
    (drawn : msg.receiptHandle ∈ (sessionsOf ops hist tid).drawn) :
    ∃ copy ∈ result, copy.oid = msg.oid ∧ copy.receiptHandle = msg.receiptHandle := by
  rcases drawn_has governed identified unissued stored drawn with outstanding | held
  · rw [received.between.settled] at outstanding
    nomatch outstanding
  · obtain ⟨copy, inHeld, sameOid, sameHandle⟩ := held
    refine ⟨_, received.between.handedOut copy inHeld, ?_, ?_⟩
    · rw [ReceiveCall.handOut_oid, sameOid]
    · rw [ReceiveCall.handOut_receiptHandle, sameHandle]

theorem claims_separate
    (identified : Identified origin.messages origin.moment) {first second : Thread}
    (different : first ≠ second) {oid : Oid} {firstHandle secondHandle : String}
    (one : ClaimedBy hist first oid firstHandle) (other : ClaimedBy hist second oid secondHandle) :
    SeparatelyClaimed hist first second oid firstHandle secondHandle := by
  obtain ⟨claim, inHistory, isClaim⟩ := one
  obtain ⟨otherClaim, inHistoryToo, isOtherClaim⟩ := other
  have apart : claim ≠ otherClaim := by
    rintro rfl
    exact different (isClaim.claimant.symm.trans isOtherClaim.claimant)
  obtain ⟨later, middle, earlier, split⟩ := History.ordered inHistory inHistoryToo apart
  rcases split with rfl | rfl
  · obtain ⟨_, before⟩ := governed.records.suffix
    exact ⟨later, claim, middle, otherClaim, earlier, rfl, .inl ⟨isClaim, isOtherClaim⟩,
      putBack_between before identified isClaim isOtherClaim⟩
  · obtain ⟨_, before⟩ := governed.records.suffix
    exact ⟨later, otherClaim, middle, claim, earlier, rfl, .inr ⟨isOtherClaim, isClaim⟩,
      putBack_between before identified isOtherClaim isClaim⟩

end

end Receives

/-- However receives are interleaved with each other and with all other traffic, what two of
them hand out of one message they claimed separately, with a put-back between the claims; and
a receive that has finished has handed out every message it claimed that still carries its
handle. -/
theorem receives_claim_exclusively [DecidableEq Thread] (env : Env)
    (processOf : Thread → Nat) (ops : Thread → Traffic) (origin : World)
    (identified : Identified origin.messages origin.moment)
    (unissued : ∀ msg ∈ origin.messages, ∀ moment, origin.moment ≤ moment →
      msg.receiptHandle ≠ env.randomUuid moment) (schedule : List Thread) :
    let pool := (Traffic.pool env origin ops).run (machines env processOf) schedule
    (∀ first second queueErn maxCount waitTime polls otherQueueErn otherMaxCount otherWaitTime
        otherPolls result otherResult, first ≠ second →
      ops first = .receive queueErn maxCount waitTime polls →
      ops second = .receive otherQueueErn otherMaxCount otherWaitTime otherPolls →
      pool.programs first = .done result → pool.programs second = .done otherResult →
      ∀ copy ∈ result, ∀ other ∈ otherResult, copy.oid = other.oid →
        SeparatelyClaimed pool.history first second copy.oid copy.receiptHandle
          other.receiptHandle) ∧
    ∀ tid queueErn maxCount waitTime polls result,
      ops tid = .receive queueErn maxCount waitTime polls →
      pool.programs tid = .done result →
      ∀ msg ∈ pool.world.messages,
        ClaimedBy pool.history tid msg.oid msg.receiptHandle →
        ∃ copy ∈ result, copy.oid = msg.oid ∧ copy.receiptHandle = msg.receiptHandle := by
  intro pool
  obtain ⟨governed, following⟩ := traffic_run env processOf ops origin identified schedule
  constructor
  · intro first second queueErn maxCount waitTime polls otherQueueErn otherMaxCount otherWaitTime
      otherPolls result otherResult different receives alsoReceives finished alsoFinished copy
      returned other alsoReturned same
    refine claims_separate governed identified different
      ((received_of_follows (following _) receives finished).claimed governed unissued returned) ?_
    rw [same]
    exact (received_of_follows (following _) alsoReceives alsoFinished).claimed governed unissued
      alsoReturned
  · intro tid queueErn maxCount waitTime polls result receives finished msg stored claimed
    exact (received_of_follows (following _) receives finished).complete governed
      identified unissued
      stored (claimedBy_drawn governed claimed)

/-- A receive, a sweep after the lease has run out, and another receive: the message is handed
out twice, and the two claims are separate. -/
theorem receives_claim_exclusively_of_sweep :
    let ops := fun tid => if tid = 1 then Traffic.sweep else .receive "orders" 1 0 0
    let pool := (Traffic.pool (.stepping .memory 10000) .oneWaiting ops).run
      (machines (.stepping .memory 10000) fun _ => 0)
      (replicate 20 0 ++ replicate 20 1 ++ replicate 20 2)
    ∃ firstHandle secondHandle,
      SeparatelyClaimed pool.history 0 2 (0, 0) firstHandle secondHandle := by
  intro ops pool
  have unissued : ∀ msg ∈ World.oneWaiting.messages, ∀ moment, World.oneWaiting.moment ≤ moment →
      msg.receiptHandle ≠ (Env.stepping .memory 10000).randomUuid moment := by
    intro msg stored moment _ same
    obtain rfl := List.mem_singleton.mp stored
    exact Env.randomUuid_ne_empty _ moment same.symm
  have exclusively := (receives_claim_exclusively (.stepping .memory 10000) (fun _ => 0) ops
    .oneWaiting ⟨by decide, by decide⟩ unissued
    (replicate 20 0 ++ replicate 20 1 ++ replicate 20 2)).1
  have handsOut : ∀ tid, tid = 0 ∨ tid = 2 → (pool.programs tid).returns fun result =>
        result.any fun msg => msg.oid = (0, 0) := by
    rintro tid (rfl | rfl) <;> decide +kernel
  obtain ⟨result, finished, passes⟩ := returns_iff.mp (handsOut 0 (.inl rfl))
  obtain ⟨otherResult, alsoFinished, alsoPasses⟩ := returns_iff.mp (handsOut 2 (.inr rfl))
  obtain ⟨copy, returned, sameOid⟩ := List.any_eq_true.mp passes
  obtain ⟨other, alsoReturned, otherSame⟩ := List.any_eq_true.mp alsoPasses
  have same : copy.oid = (0, 0) := of_decide_eq_true sameOid
  have alsoSame : other.oid = (0, 0) := of_decide_eq_true otherSame
  refine ⟨copy.receiptHandle, other.receiptHandle, ?_⟩
  rw [← same]
  exact exclusively 0 2 "orders" 1 0 0 "orders" 1 0 0 result otherResult (by decide) rfl rfl
    finished alsoFinished copy returned other alsoReturned (same.trans alsoSame.symm)

end Euclid.Eqs
