/-
This file says when a lease is respected.

A receive that claims a message leases it until the time of the claim plus the timeout it
hands the message out with. The sweep judges leases on a snapshot and ends them later, by
identity and status alone, so it can end another lease than the one it judged. A run in
which it never does, in which no sweep comes between a claim and the write of its timeout,
and in which a message is moved away only by the claim that found it dead, respects every
lease: the message stays invisible under its handle, and no two receives hand out the same
message with overlapping leases.
-/

import Mathlib
import Euclid.Eqs.Claim

namespace Euclid.Eqs

open Program Discipline List Traffic

variable {Thread : Type} [DecidableEq Thread] {env : Env}
variable {processOf : Thread → Nat} {ops : Thread → Traffic} {origin world : World}
variable {hist earlier : Past Thread}

/-! ### The condition -/

/-- A put-back ends the lease its sweep has judged, once the receive that holds the message has
written the timeout it leases for; and a move takes a message from under the claim that found
it dead. -/
def LeaseKept (ops : Thread → Traffic) (earlier : History Thread Req Req.Answer World)
    (event : Event Thread Req Req.Answer World) : Prop :=
  match event.request with
  | .message (.resetInvisible oid) =>
    ∀ msg ∈ event.before.messages, msg.oid = oid → msg.status = .invisible →
      (∀ judged ∈ (sessionsOf ops earlier event.thread).snapshot, judged.oid = oid →
        judged.lastReceived = msg.lastReceived ∧ judged.visibilityTimeout = msg.visibilityTimeout) ∧
      ∀ tid, msg.receiptHandle ∈ (sessionsOf ops earlier tid).drawn →
        (sessionsOf ops earlier tid).isDead msg = false →
        (sessionsOf ops earlier tid).isStale msg = false
  | .message (.moveToDeadLetter oids _ _) =>
    ∀ msg ∈ event.before.messages, msg.oid ∈ oids →
      ∃ copy ∈ (sessionsOf ops earlier event.thread).read, copy.oid = msg.oid ∧
        copy.receiptHandle = msg.receiptHandle ∧
        (sessionsOf ops earlier event.thread).isDead copy
  | _ => True

/-! ### Timeouts and judgements -/

theorem ReceiveCall.handOut_visibilityTimeout (call : ReceiveCall) (msg : Message) :
    (call.handOut msg).visibilityTimeout =
      if msg.visibilityPinned = true ∨ call.queueVisibility ≤ 0 then msg.visibilityTimeout
      else call.queueVisibility := by
  unfold ReceiveCall.handOut ReceiveCall.isStale
  by_cases kept : msg.visibilityPinned = true ∨ call.queueVisibility ≤ 0
  · rw [if_pos kept]
    rcases kept with pinned | none
    · simp [pinned]
    · simp [none]
  · obtain ⟨unpinned, visible⟩ := not_or.mp kept
    rw [if_neg kept]
    by_cases same : msg.visibilityTimeout = call.queueVisibility
    · simp [same]
    · simp [unpinned, visible, same, Message.leased]

open ReceiveCall

theorem ReceiveCall.handOut_lastReceived (call : ReceiveCall) (msg : Message) :
    (call.handOut msg).lastReceived = msg.lastReceived := by
  unfold handOut
  split <;> rfl

/-- A message that the thread's queue leases for its own timeout. -/
def Session.Leases (session : Session) (msg : Message) : Prop :=
  ¬(msg.visibilityPinned = true ∨ (session.call "" 0).queueVisibility ≤ 0)

theorem Session.leases_of_isStale {session : Session} {msg : Message}
    (stale : session.isStale msg) :
    session.Leases msg := by
  unfold Session.isStale ReceiveCall.isStale at stale
  rintro (pinned | none)
  · simp [pinned] at stale
  · simp [none] at stale

theorem Session.judges_eq {session other : Session} (same : other.config = session.config) :
    other.isDead = session.isDead ∧ other.Leases = session.Leases ∧
      other.handOut = session.handOut := by
  refine ⟨?_, ?_, ?_⟩
  · funext msg
    unfold Session.isDead Session.call
    rw [same]
  · funext msg
    unfold Session.Leases Session.call
    rw [same]
  · funext msg
    unfold Session.handOut Session.call
    rw [same]

/-- The message carries the timeout its claim found, or what 32 bits hold of the one its claim
leases for. -/
def Session.Times (session : Session) (claimed msg : Message) : Prop :=
  msg.visibilityTimeout = claimed.visibilityTimeout ∨
    (session.Leases claimed ∧
      msg.visibilityTimeout = int32 (session.handOut claimed).visibilityTimeout)

section Judgements

variable {session : Session} {claimed msg : Message} (continues : claimed.Continues msg)

include continues

theorem Message.Continues.isDead_eq : session.isDead msg = session.isDead claimed := by
  unfold Session.isDead isDead
  rw [continues.receivedCount]

theorem Message.Continues.leaseEnd_eq (times : session.Times claimed msg) :
    (session.handOut msg).leaseEnd = (session.handOut claimed).leaseEnd := by
  have same : (session.handOut msg).visibilityTimeout =
      (session.handOut claimed).visibilityTimeout := by
    unfold Session.Times at times
    unfold Session.handOut at times ⊢
    rw [handOut_visibilityTimeout] at times ⊢
    rw [handOut_visibilityTimeout, continues.visibilityPinned]
    split
    · rename_i own
      rcases times with found | ⟨leases, _⟩
      · exact found
      · exact absurd own leases
    · rfl
  unfold Message.leaseEnd
  rw [same]
  unfold Session.handOut
  rw [handOut_lastReceived, handOut_lastReceived, continues.lastReceived]

theorem Message.Continues.leased (stale : session.isStale msg) :
    session.Leases claimed ∧
      (session.handOut msg).visibilityTimeout = (session.handOut claimed).visibilityTimeout := by
  have leases := Session.leases_of_isStale stale
  unfold Session.Leases at leases ⊢
  rw [continues.visibilityPinned] at leases
  refine ⟨leases, ?_⟩
  unfold Session.handOut
  rw [handOut_visibilityTimeout, handOut_visibilityTimeout, continues.visibilityPinned,
    if_neg leases, if_neg leases]

end Judgements

/-! ### Clocks -/

theorem Session.after_sweepTime {session : Session} {req : Req} {answer : req.Answer}
    (other : req ≠ .systemClock) : (session.after req answer).sweepTime = session.sweepTime := by
  have cached : ∀ ern config, (session.afterCached ern config).sweepTime = session.sweepTime :=
    fun ern config => by cases config <;> rfl
  cases req with
  | systemClock => exact absurd rfl other
  | steadyClock | randomUuid => rfl
  | process req =>
    cases req with
    | cachedConfig ern => exact cached ern _
    | _ => rfl
  | queue stmt =>
    cases stmt with
    | readConfig ern => cases answer <;> rfl
    | _ => rfl
  | message stmt => cases stmt <;> cases answer <;> rfl

variable {tid : Thread}

theorem sweepTime_le (forward : Monotone env.systemClock)
    (governed : Governed env processOf ops origin hist world)
    {time : Time} (read : time ∈ (sessionsOf ops hist tid).sweepTime) :
    time ≤ env.systemClock world.moment := by
  induction governed with
  | start => cases read
  | @step earlier world governed asking req allowed ih =>
    rw [machine_moment]
    rw [sessionsOf_made] at read
    have later : env.systemClock world.moment ≤
        env.systemClock (world.moment + 1) := forward (Nat.le_succ _)
    split at read
    · rename_i own
      by_cases reads : req = .systemClock
      · subst reads
        obtain rfl := Option.some.inj read
        exact later
      · refine (ih ?_).trans later
        rwa [Session.after_sweepTime reads] at read
    · exact (ih read).trans later

/-! ### What a claimed message carries -/

variable {event : Event Thread Req Req.Answer World} {claimed : Message}

section Held

variable (forward : Monotone env.systemClock)
variable (governed : Governed env processOf ops origin hist world)
variable (identified : Identified origin.messages origin.moment)
variable (unissued : ∀ msg ∈ origin.messages, ∀ moment, origin.moment ≤ moment →
  msg.receiptHandle ≠ env.randomUuid moment)
variable (unredriven : ∀ tid deadLetterQueueErn targetQueueErn sourceQueueErn,
  ops tid ≠ .redrive deadLetterQueueErn targetQueueErn sourceQueueErn)

include governed

variable {handle : String} {asking : Thread}

theorem judges_kept (mem : event ∈ hist)
    {oid : Oid} (isClaim : IsClaim event.thread oid handle event)
    {req : Req} (allowed : (sessionsOf ops hist asking).allows req) :
    (sessionsOf ops (.made (machines env processOf) asking req world :: hist)
        event.thread).isDead = (sessionsOf ops hist event.thread).isDead ∧
      (sessionsOf ops (.made (machines env processOf) asking req world :: hist)
        event.thread).Leases = (sessionsOf ops hist event.thread).Leases ∧
      (sessionsOf ops (.made (machines env processOf) asking req world :: hist)
        event.thread).handOut = (sessionsOf ops hist event.thread).handOut := by
  have drew := claimedBy_drawn governed ⟨event, mem, isClaim⟩
  have later : Governed env processOf ops origin
      ([.made (machines env processOf) asking req world] ++ hist) _ :=
    .step governed asking req allowed
  exact Session.judges_eq (config_kept later (ne_nil_of_mem drew))

include identified unissued

variable {msg : Message}

section

variable (mem : event ∈ hist) (leaves : Leaves env event claimed) (stored : msg ∈ world.messages)
  (under : msg.receiptHandle = claimed.receiptHandle)

include mem leaves stored under

theorem held_continues : claimed.Continues msg ∧ msg.status = .invisible := by
  have drawn := claimedBy_drawn governed ⟨event, mem, leaves.isClaim⟩
  rw [← under] at drawn
  obtain ⟨other, inHistory, _, claimOf⟩ := drawn_claimOf governed unissued stored drawn
  exact ⟨leaves.continues governed identified mem inHistory claimOf under, claimOf.invisible⟩

/-- What is stored under the handle of a claim carries the timeout the claim found, or the one
it leases for. -/
theorem held_times : (sessionsOf ops hist event.thread).Times claimed msg := by
  induction governed generalizing msg with
  | start => nomatch mem
  | @step earlier world governed asking req allowed ih =>
    have later : Governed env processOf ops origin
        (.made (machines env processOf) asking req world :: earlier) _ :=
      .step governed asking req allowed
    obtain ⟨continues, invisible⟩ :=
      held_continues later identified unissued mem leaves stored under
    rcases mem_cons.mp mem with rfl | inEarlier
    · rw [leaves.stored governed identified allowed stored continues.oid]
      exact .inl rfl
    · have times : ∀ before ∈ world.messages, before.receiptHandle = msg.receiptHandle →
          (sessionsOf ops earlier event.thread).Times claimed before :=
        fun before inBefore same => ih inEarlier inBefore (same.trans under)
      have drawn := claimedBy_drawn governed ⟨event, inEarlier, leaves.isClaim⟩
      rw [← under] at drawn
      have named : msg.receiptHandle ≠ "" := by
        obtain ⟨moment, _, _, same⟩ := (governed_issued governed).past event.thread _ drawn
        rw [same]
        exact env.randomUuid_ne_empty moment
      unfold Session.Times
      obtain ⟨_, sameLeases, sameHandOut⟩ := judges_kept governed inEarlier leaves.isClaim allowed
      rw [sameLeases, sameHandOut]
      cases req with
      | message stmt =>
        rcases stmt.origin _ _ _ _ stored with ⟨before, inBefore, _, becomes⟩ | stores
        · rcases becomes with rfl | changes
          · exact times msg inBefore rfl
          · cases stmt with
            | setLease oids handles visibility =>
              have same : msg.receiptHandle = before.receiptHandle := by
                rw [changes.2]
                rfl
              rw [same] at drawn
              obtain rfl := (governed_issued governed).apart event.thread asking _ drawn
                (allowed.2.1 changes.1.2)
              have has := drawn_has governed identified unissued inBefore drawn
              rw [Session.Has, allowed.1] at has
              obtain ⟨copy, inHeld, sameOid, sameHandle⟩ := has.resolve_left not_mem_nil
              have read := held_read ops earlier event.thread inHeld
              obtain ⟨stale, timeout⟩ := allowed.2.2 copy read
                (by rw [sameOid]; exact changes.1.1) (by rw [sameHandle]; exact changes.1.2)
              obtain ⟨other, inHistory, _, claimOf⟩ := read_claimOf governed unissued read
              have copied := leaves.continues governed identified inEarlier inHistory claimOf
                (sameHandle.trans (same.symm.trans under))
              rw [changes.2]
              obtain ⟨leases, same⟩ := copied.leased stale
              exact .inr ⟨leases, timeout.trans (congrArg int32 same)⟩
            | rewriteBody messageId body contentType =>
              have timed := times before inBefore (by rw [changes.2]; rfl)
              rw [changes.2]
              exact timed
            | resetDelayed oid =>
              have timed := times before inBefore (by rw [changes.2]; rfl)
              rw [changes.2]
              exact timed
            | moveToDeadLetter _ _ _ | resetInvisible _ | redrive _ _ _ =>
              rw [changes.2] at named
              exact absurd rfl named
            | claim oid handle =>
              -- the handle was spent by the earlier claim already
              have same : handle = claimed.receiptHandle := by
                rw [← under, changes.2]
                rfl
              have once := claim_unique later (.head _) mem (congrArg some same)
                leaves.isClaim.spends
              have before := records_before governed.records inEarlier
              rw [← once] at before
              exact absurd before (lt_irrefl _)
            | upsert written => exact absurd allowed id
            | _ => exact absurd changes id
        · exact absurd (Session.stores_unclaimed allowed stores) named
      | _ => exact times msg stored rfl

end

/-- What a thread has read back carries the timeout its claim found, or the one it leases for. -/
theorem read_times (mem : event ∈ hist) (leaves : Leaves env event claimed) {copy : Message}
    (read : copy ∈ (sessionsOf ops hist event.thread).read)
    (under : copy.receiptHandle = claimed.receiptHandle) :
    (sessionsOf ops hist event.thread).Times claimed copy := by
  induction governed with
  | start => nomatch mem
  | @step earlier world governed asking req allowed ih =>
    have later : Governed env processOf ops origin
        (.made (machines env processOf) asking req world :: earlier) _ :=
      .step governed asking req allowed
    rw [sessionsOf_made] at read
    -- the copy was read back before, or is stored now
    have known : copy ∈ (sessionsOf ops earlier event.thread).read ∨
        copy ∈ world.messages ∧
          copy.receiptHandle ∈ (sessionsOf ops earlier event.thread).drawn := by
      split at read
      · rename_i own
        rw [← own] at allowed read
        exact Session.mem_read_after allowed read
      · exact .inl read
    have inEarlier : event ∈ earlier := by
      refine (mem_cons.mp mem).resolve_left fun now => ?_
      obtain ⟨other, inHistory, _, claimOf⟩ : ∃ other ∈ earlier,
          other.thread = event.thread ∧ ClaimOf env copy other := by
        rcases known with old | ⟨stored, drawn⟩
        · exact read_claimOf governed unissued old
        · exact drawn_claimOf governed unissued stored drawn
      have spends := claimOf.isClaim.spends
      rw [under] at spends
      have same := claim_unique later (.tail _ inHistory) mem spends
        leaves.isClaim.spends
      have before := records_before governed.records inHistory
      rw [same, now] at before
      exact absurd before (lt_irrefl _)
    unfold Session.Times
    obtain ⟨_, sameLeases, sameHandOut⟩ := judges_kept governed inEarlier leaves.isClaim allowed
    rw [sameLeases, sameHandOut]
    rcases known with old | ⟨stored, _⟩
    · exact ih inEarlier old
    · exact held_times governed identified unissued inEarlier leaves stored under

/-! ### Leases are kept -/

include forward unredriven

/-- A statement that meets the condition leaves a message whose lease is running under the handle
of the claim that holds it. -/
theorem held_changed (mem : event ∈ hist) (leaves : Leaves env event claimed)
    (alive : (sessionsOf ops hist event.thread).isDead claimed = false)
    (running : env.systemClock world.moment <
      ((sessionsOf ops hist event.thread).handOut claimed).leaseEnd) {stmt : MessageStatement}
    (allowed : (sessionsOf ops hist asking).allowsMessage stmt) (kept : LeaseKept ops hist
      (.made (machines env processOf) asking (.message stmt) world))
    {before : Message} (stored : before ∈ world.messages)
    (under : before.receiptHandle = claimed.receiptHandle)
    (changes : stmt.Changes (env.systemClock world.moment) before msg) :
    msg.receiptHandle = claimed.receiptHandle := by
  obtain ⟨continues, invisible⟩ :=
    held_continues governed identified unissued mem leaves stored under
  have drawn : before.receiptHandle ∈ (sessionsOf ops hist event.thread).drawn := by
    rw [under]
    exact claimedBy_drawn governed ⟨event, mem, leaves.isClaim⟩
  cases stmt with
  | claim oid handle =>
    have available := changes.1.2
    rw [invisible] at available
    cases available
  | moveToDeadLetter oids deadLetterQueueErn queueErn =>
    obtain ⟨copy, read, _, sameHandle, dead⟩ := kept before stored changes.1
    obtain ⟨other, inHistory, rfl, claimOf⟩ := read_claimOf governed unissued read
    have readDrawn := claimedBy_drawn governed ⟨other, inHistory, claimOf.isClaim⟩
    rw [sameHandle] at readDrawn
    rw [(governed_issued governed).apart other.thread event.thread _ readDrawn drawn] at dead
    have same := leaves.continues governed identified mem inHistory claimOf (sameHandle.trans under)
    rw [same.isDead_eq, alive] at dead
    cases dead
  | setLease oids handles visibility =>
    rw [changes.2]
    exact under
  | rewriteBody messageId body contentType =>
    rw [changes.2]
    exact under
  | resetInvisible oid =>
    obtain ⟨judgedSame, written⟩ := kept before stored changes.1.1 invisible
    obtain ⟨_, time, read, judged, inSnapshot, sameOid, runOut⟩ := allowed
    obtain ⟨sameReceived, sameTimeout⟩ := judgedSame judged inSnapshot sameOid
    have fresh := written event.thread drawn (by rw [continues.isDead_eq, alive])
    have unchanged : (sessionsOf ops hist event.thread).handOut before = before := by
      unfold Session.handOut handOut
      unfold Session.isStale at fresh
      rw [if_neg (by rw [fresh]; exact Bool.false_ne_true)]
    have ends : before.leaseEnd =
        ((sessionsOf ops hist event.thread).handOut claimed).leaseEnd := by
      have times := held_times governed identified unissued mem leaves stored under
      rw [← continues.leaseEnd_eq times, unchanged]
    have past : before.leaseEnd ≤ env.systemClock world.moment := by
      refine le_trans (le_of_eq ?_) (runOut.trans (sweepTime_le forward governed read))
      unfold Message.leaseEnd
      rw [sameReceived, sameTimeout]
    rw [← ends] at running
    exact absurd past (not_le.mpr running)
  | resetDelayed oid =>
    have delayed := changes.1.2
    rw [invisible] at delayed
    cases delayed
  | upsert written => exact absurd allowed id
  | redrive deadLetterQueueErn targetQueueErn sourceQueueErn =>
    have own : ops asking = .redrive deadLetterQueueErn targetQueueErn sourceQueueErn := by
      rw [← sessionsOf_traffic ops hist asking]
      exact allowed
    exact absurd own (unredriven _ _ _ _)
  | _ => exact absurd changes id

/-- As long as the lease of a claim runs, what is stored of its message is under its handle,
unless the claimant has found it dead. -/
def LeasesHold (env : Env) (ops : Thread → Traffic)
    (hist : History Thread Req Req.Answer World) (world : World) : Prop :=
  ∀ event ∈ hist, ∀ claimed, Leaves env event claimed →
    (sessionsOf ops hist event.thread).isDead claimed = false →
    env.systemClock world.moment < ((sessionsOf ops hist event.thread).handOut claimed).leaseEnd →
    ∀ msg ∈ world.messages, msg.oid = claimed.oid → msg.receiptHandle = claimed.receiptHandle

/-- In every history whose events meet the condition leases hold. -/
theorem leases_hold (kept : History.Meets (LeaseKept ops) hist) :
    LeasesHold env ops hist world := by
  induction governed with
  | start => exact fun event mem => absurd mem not_mem_nil
  | @step earlier world governed asking req allowed ih =>
    obtain ⟨keptNow, keptBefore⟩ := kept
    intro event mem claimed leaves alive running msg stored same
    rcases mem_cons.mp mem with rfl | inEarlier
    · rw [leaves.stored governed identified allowed stored same]
    · -- an earlier claim, whose lease was running before this event too
      obtain ⟨sameDead, _, sameHandOut⟩ := judges_kept governed inEarlier leaves.isClaim allowed
      rw [sameDead] at alive
      rw [sameHandOut, machine_moment] at running
      have wasRunning := lt_of_le_of_lt (forward (Nat.le_succ world.moment)) running
      have before := ih keptBefore event inEarlier claimed leaves alive wasRunning
      cases req with
      | message stmt =>
        rcases stmt.origin _ _ _ _ stored with ⟨old, inBefore, sameOid, becomes⟩ | stores
        · have heldBefore := before old inBefore (sameOid.trans same)
          rcases becomes with rfl | changes
          · exact heldBefore
          · exact held_changed forward governed identified unissued unredriven inEarlier leaves
              alive wasRunning allowed keptNow inBefore heldBefore changes
        · -- the message was there before its claim, so it is not made now
          obtain ⟨waiting, waited, left⟩ := leaves.waiting
          have made := (records_identified_before governed.records identified inEarlier).made
            waiting waited
          have claimedBefore := records_before governed.records inEarlier
          have madeNow : waiting.oid.1 = world.moment := by
            rw [← stores.1, same, left, Message.claimed]
          omega
      | _ => exact before msg stored same

/-- A message is claimed again only when the lease of the claim before has run out, unless that
claimant had found it dead. -/
theorem leases_apart (kept : History.Meets (LeaseKept ops) hist)
    {later middle earlier : Past Thread} {newer older : Event Thread Req Req.Answer World}
    (split : hist = later ++ newer :: (middle ++ older :: earlier))
    (leaves : Leaves env older claimed)
    (alive : (sessionsOf ops hist older.thread).isDead claimed = false)
    (again : IsClaim tid claimed.oid handle newer) :
    ((sessionsOf ops hist older.thread).handOut claimed).leaseEnd ≤
      env.systemClock newer.before.moment := by
  have regrouped : hist = (later ++ [newer]) ++ (middle ++ older :: earlier) := by
    rw [split]
    simp
  have mem : older ∈ middle ++ older :: earlier := mem_append_right _ (.head _)
  have before := (split ▸ governed).before
  have keptBefore := (split ▸ kept).suffix
  have drew := claimedBy_drawn before ⟨older, mem, leaves.isClaim⟩
  obtain ⟨sameDead, _, sameHandOut⟩ :=
    Session.judges_eq (config_kept (regrouped ▸ governed) (ne_nil_of_mem drew))
  rw [regrouped, sameDead] at alive
  rw [regrouped, sameHandOut]
  by_contra running
  obtain ⟨msg, stored, same, available⟩ := again.available
  have under := leases_hold forward before identified unissued unredriven keptBefore older mem
    claimed leaves alive (not_le.mp running) msg stored same
  have invisible := (held_continues before identified unissued mem leaves stored under).2
  rw [available] at invisible
  cases invisible

omit forward unredriven in
theorem Received.leased {queueErn : String} {maxCount : Int} {result : List Message}
    (received : Received queueErn maxCount result (sessionsOf ops hist tid))
    {copy : Message} (returned : copy ∈ result) :
    ∃ event ∈ hist, ∃ claimed, event.thread = tid ∧ Leaves env event claimed ∧
      claimed.oid = copy.oid ∧ (sessionsOf ops hist tid).isDead claimed = false ∧
      ((sessionsOf ops hist tid).handOut claimed).leaseEnd = copy.leaseEnd ∧
      copy.lastReceived = env.systemClock event.before.moment := by
  obtain ⟨msg, read, rfl, alive⟩ := received.between.readBack copy returned
  obtain ⟨event, mem, rfl, claimOf⟩ := read_claimOf governed unissued read
  obtain ⟨claimed, leaves, continues⟩ := claimOf.left
  have times := read_times governed identified unissued mem leaves read continues.receiptHandle
  refine ⟨event, mem, claimed, rfl, leaves, ?_, ?_, ?_, ?_⟩
  · rw [handOut_oid, continues.oid]
  · rw [← continues.isDead_eq, ← alive]
    exact under_isDead _ _ _ _ _ _
  · rw [← continues.leaseEnd_eq times]
    exact congrArg Message.leaseEnd (under_handOut _ _ _ _ _ _)
  · rw [handOut_lastReceived, continues.lastReceived]
    obtain ⟨waiting, _, left⟩ := leaves.waiting
    exact congrArg Message.lastReceived left

end Held

/-- Leases are respected where a claimed message stays invisible under its handle until its lease
has run out, unless the receive that claimed it found it dead; and where the leases of two
receives on one message do not overlap. -/
structure LeasesRespected (env : Env) (ops : Thread → Traffic)
    (pool : Pool Thread Req Req.Answer StoreError (List Message) World) : Prop where
  invisible : ∀ event ∈ pool.history, ∀ claimed, Leaves env event claimed →
    (sessionsOf ops pool.history event.thread).isDead claimed = false →
    env.systemClock pool.world.moment <
      ((sessionsOf ops pool.history event.thread).handOut claimed).leaseEnd →
    ∀ msg ∈ pool.world.messages, msg.oid = claimed.oid →
      msg.status = .invisible ∧ msg.receiptHandle = claimed.receiptHandle
  apart : ∀ first second queueErn maxCount waitTime polls otherQueueErn otherMaxCount
      otherWaitTime otherPolls result otherResult, first ≠ second →
    ops first = .receive queueErn maxCount waitTime polls →
    ops second = .receive otherQueueErn otherMaxCount otherWaitTime otherPolls →
    pool.programs first = .done result → pool.programs second = .done otherResult →
    ∀ copy ∈ result, ∀ other ∈ otherResult, copy.oid = other.oid →
      copy.leaseEnd ≤ other.lastReceived ∨ other.leaseEnd ≤ copy.lastReceived

/-- In every run whose put-backs and moves meet the condition leases are respected. -/
theorem leases_respected (env : Env) (forward : Monotone env.systemClock) (processOf : Thread → Nat)
    (ops : Thread → Traffic) (origin : World)
    (identified : Identified origin.messages origin.moment)
    (unissued : ∀ msg ∈ origin.messages, ∀ moment, origin.moment ≤ moment →
      msg.receiptHandle ≠ env.randomUuid moment)
    (unredriven : ∀ tid deadLetterQueueErn targetQueueErn sourceQueueErn,
      ops tid ≠ .redrive deadLetterQueueErn targetQueueErn sourceQueueErn)
    (schedule : List Thread) (kept : History.Meets (LeaseKept ops)
      ((pool env origin ops).run (machines env processOf) schedule).history) :
    LeasesRespected env ops
      ((pool env origin ops).run (machines env processOf) schedule) := by
  obtain ⟨governed, following⟩ := traffic_run env processOf ops origin identified schedule
  generalize (pool env origin ops).run (machines env processOf)
    schedule = pool at kept governed following ⊢
  constructor
  · intro event mem claimed leaves alive running msg stored same
    have under := leases_hold forward governed identified unissued unredriven kept event mem
      claimed leaves alive running msg stored same
    exact ⟨(held_continues governed identified unissued mem leaves stored under).2, under⟩
  · intro first second queueErn maxCount waitTime polls otherQueueErn otherMaxCount otherWaitTime
      otherPolls result otherResult different receives alsoReceives finished alsoFinished copy
      returned other alsoReturned same
    obtain ⟨event, mem, claimed, rfl, leaves, sameOid, alive, ends, claimedAt⟩ :=
      (received_of_follows (following _) receives finished).leased governed identified unissued
        returned
    obtain ⟨otherEvent, otherMember, otherClaimed, rfl, otherLeaves, otherSame, otherAlive,
        otherEnds, otherClaimedAt⟩ :=
      (received_of_follows (following _) alsoReceives alsoFinished).leased governed identified
        unissued alsoReturned
    have oneMessage : claimed.oid = otherClaimed.oid := by rw [sameOid, otherSame, same]
    have apart : event ≠ otherEvent := fun both => different (congrArg Event.thread both)
    obtain ⟨later, middle, earlier, split | split⟩ := History.ordered mem otherMember apart
    · right
      rw [← otherEnds, claimedAt]
      exact leases_apart forward governed identified unissued unredriven kept split otherLeaves
        otherAlive (oneMessage ▸ leaves.isClaim)
    · left
      rw [← ends, otherClaimedAt]
      exact leases_apart forward governed identified unissued unredriven kept split leaves alive
        (oneMessage ▸ otherLeaves.isClaim)

/-! ### Both outcomes -/

instance [Fintype Thread] (earlier : History Thread Req Req.Answer World)
    (event : Event Thread Req Req.Answer World) :
    Decidable (LeaseKept ops earlier event) := by
  unfold LeaseKept
  generalize event.request = request
  rcases request with _ | _ | _ | _ | _ | ⟨⟨⟩⟩ <;> infer_instance

/-- A receive, a sweep after its lease has run out, and another receive: the sweep ends the lease
it has judged, so the two leases do not overlap. -/
theorem leases_respected_of_sweep :
    let ops : Fin 3 → Traffic := fun tid =>
      if tid = 1 then .sweep else .receive "orders" 1 0 0
    LeasesRespected (.stepping .memory 10000) ops
      ((pool (.stepping .memory 10000) .oneWaiting ops).run
        (machines (.stepping .memory 10000) fun _ => 0)
        (replicate 20 0 ++ replicate 20 1 ++ replicate 20 2)) := by
  intro ops
  refine leases_respected (.stepping .memory 10000) ?_ (fun _ => 0) ops .oneWaiting
    ⟨by decide, by decide⟩ ?_ ?_ _ ?_
  · intro first second before
    exact Int.mul_le_mul_of_nonneg_left (Int.ofNat_le.mpr before) (by decide)
  · intro msg stored moment _ same
    obtain rfl := mem_singleton.mp stored
    exact Env.randomUuid_ne_empty _ moment same.symm
  · intro tid deadLetterQueueErn targetQueueErn sourceQueueErn
    show (if tid = 1 then sweep else .receive "orders" 1 0 0) ≠ _
    split <;> simp
  · decide +kernel

/-- A sweep that has read its snapshot, a second sweep that puts the message back, a receive that
claims it again, and then the first sweep: it ends the new lease, and a third receive is handed
the message while that lease is running. -/
theorem sweep_ends_running_lease :
    let env : Env := { Env.stepping .memory 1 with
      systemClock := fun moment => if moment < 14 then moment else moment + 60000 }
    let ops : Fin 5 → Traffic := fun tid =>
      if tid = 1 ∨ tid = 2 then .sweep else .receive "orders" 1 0 0
    ¬LeasesRespected env ops
      ((pool env .oneWaiting ops).run (machines env fun _ => 0)
        (replicate 13 0 ++ replicate 2 1 ++ replicate 20 2 ++
          replicate 20 3 ++ replicate 20 1 ++ replicate 20 4)) := by
  intro env ops respected
  have handsOut : ∀ tid, tid = 3 ∨ tid = 4 →
      (((pool env .oneWaiting ops).run (machines env fun _ => 0)
        (replicate 13 0 ++ replicate 2 1 ++ replicate 20 2 ++
          replicate 20 3 ++ replicate 20 1 ++ replicate 20 4)).programs
            tid).returns fun result => result.any fun msg =>
              msg.oid = (0, 0) ∧ 60000 < msg.lastReceived ∧
                msg.lastReceived < 60200 ∧ 90000 < msg.leaseEnd := by
    rintro tid (rfl | rfl) <;> decide +kernel
  obtain ⟨result, finished, passes⟩ := returns_iff.mp (handsOut 3 (.inl rfl))
  obtain ⟨otherResult, alsoFinished, alsoPasses⟩ := returns_iff.mp (handsOut 4 (.inr rfl))
  obtain ⟨copy, returned, holds⟩ := any_eq_true.mp passes
  obtain ⟨other, alsoReturned, alsoHolds⟩ := any_eq_true.mp alsoPasses
  obtain ⟨sameOid, _, claimedBefore, leasedUntil⟩ := of_decide_eq_true holds
  obtain ⟨otherOid, _, otherBefore, otherUntil⟩ := of_decide_eq_true alsoHolds
  rcases respected.apart 3 4 "orders" 1 0 0 "orders" 1 0 0 result otherResult (by decide) rfl rfl
    finished alsoFinished copy returned other alsoReturned (sameOid.trans otherOid.symm) with
    before | after
  · have ended : (90000 : Int) < 60200 := leasedUntil.trans_le (before.trans otherBefore.le)
    exact absurd ended (by decide)
  · have ended : (90000 : Int) < 60200 := otherUntil.trans_le (after.trans claimedBefore.le)
    exact absurd ended (by decide)

end Euclid.Eqs
