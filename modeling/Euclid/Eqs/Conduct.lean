/-
This file proves that every operation on messages follows the discipline of
`Euclid/Eqs/Traffic.lean`, and that the store answers it as expected.

The counter bookkeeping asks nothing a session would notice. The receive is the one that
needs an argument: between its passes nothing it has claimed is outstanding, everything it
holds is among what it will hand out, and everything it will hand out is a copy it read
back and did not find dead.
-/

import Euclid.Eqs.Traffic

namespace Euclid.Eqs

open Program Discipline List ReceiveCall

variable {Fault State Result : Type} {session : Session}

/-! ### Statements -/

variable {stmt : MessageStatement}

theorem follows_onMessages {ends : Except StoreError stmt.Answer → Session → Prop}
    (allowed : session.allowsMessage stmt)
    (answers : ∀ value, Session.expectsMessage stmt (.ok value) →
      ends (.ok value) (session.afterMessage stmt value))
    (errors : ∀ error, Session.expectsMessage stmt (.error error) → ends (.error error) session) :
    (onMessages stmt).Follows traffic session ends := by
  unfold onMessages
  rw [follows_bind, follows_issue]
  refine ⟨allowed, fun answer expected => ?_⟩
  cases answer with
  | ok value => exact answers value expected
  | error error =>
    have same : session.after (.message stmt) (.error error) = session := by
      cases stmt <;> rfl
    show ends (.error error) (session.after (.message stmt) (.error error))
    rw [same]
    exact errors error expected

/-- A statement that is not an insert is expected to go well. -/
def MessageStatement.IsCertain (stmt : MessageStatement) : Prop :=
  ∀ error, ¬Session.expectsMessage stmt (.error error)

/-- A statement that goes well, in a `try` whose `catch` goes on with the local state. -/
theorem follows_certain {state : State} {ends : Except State stmt.Answer → Session → Prop}
    (certain : stmt.IsCertain) (allowed : session.allowsMessage stmt)
    (answers : ∀ value, Session.expectsMessage stmt (.ok value) →
      ends (.ok value) (session.afterMessage stmt value)) :
    (orThrow (onMessages stmt) state).Follows traffic session ends :=
  follows_catching.mpr (follows_onMessages allowed answers fun error expected =>
    absurd expected (certain error))

/-! ### What a session does not notice -/

/-- Requests every thread may make and no session records: the clock of the timers, and the
counters, in the process and in the store. -/
def Req.IsSilent : Req → Prop
  | .steadyClock => True
  | .process (.addPending _ _) | .process (.takePending _) => True
  | .queue (.increment _ _) | .queue (.clamp _ _) | .queue (.zero _) => True
  | _ => False

open Req

variable {program : Op Fault Result}

theorem follows_silent (asks : program.Asks IsSilent) :
    program.Follows traffic session fun _ reached => reached = session := by
  refine asks.follows (fun req silent => ?_) fun req silent answer => ?_
  · cases req with
    | steadyClock => trivial
    | process req => cases req <;> first | exact absurd silent id | trivial
    | queue stmt => cases stmt <;> first | exact absurd silent id | trivial
    | systemClock | randomUuid | message stmt => exact absurd silent id
  · cases req with
    | steadyClock => rfl
    | process req => cases req <;> first | exact absurd silent id | rfl
    | queue stmt => cases stmt <;> first | exact absurd silent id | rfl
    | systemClock | randomUuid | message stmt => exact absurd silent id

section Silence

variable {kind : Req → Prop}

theorem asks_onQueues {stmt : QueueStatement} (asked : kind (.queue stmt)) :
    (onQueues stmt).Asks kind :=
  (asks_issue asked).bind fun answer => asks_ofExcept answer

theorem asks_onMessages (asked : kind (.message stmt)) : (onMessages stmt).Asks kind :=
  (asks_issue asked).bind fun answer => asks_ofExcept answer

end Silence

theorem writeCounters_silent {queueErn : String} {pending : Counters} :
    (writeCounters queueErn pending : Op Fault Unit).Asks IsSilent := by
  refine Asks.catching ?_ fun _ => trivial
  exact (asks_onQueues trivial).bind fun _ => Asks.forEach fun field _ =>
    Asks.onlyIf fun _ => asks_onQueues trivial

theorem flushPendingCounters_silent (force : Bool) :
    (flushPendingCounters force : Op Fault Unit).Asks IsSilent :=
  Asks.bind (asks_issue trivial) fun _ => Asks.forEach fun _ _ =>
    writeCounters_silent

theorem adjustQueueCounters_silent (queueErn : String) (delta : Counters) :
    (adjustQueueCounters queueErn delta : Op Fault Unit).Asks IsSilent := by
  unfold adjustQueueCounters
  split
  · trivial
  · exact Asks.bind (asks_issue trivial) fun _ => flushPendingCounters_silent false

theorem settleCounters_silent (call : ReceiveCall) (receive : Receive) :
    (settleCounters call receive : Op Fault Unit).Asks IsSilent :=
  (adjustQueueCounters_silent _ _).bind fun _ =>
    Asks.onlyIf fun _ => adjustQueueCounters_silent _ _

theorem adjustEach_silent (delta : Int → Counters) (erns : ResetErns) :
    (adjustEach delta erns : Op Fault Unit).Asks IsSilent :=
  Asks.forEach fun _ _ => adjustQueueCounters_silent _ _

/-! ### The configuration -/

/-- After a lookup of its queue's configuration a thread knows what it was told. -/
theorem queueConfig_follows {ern : String}
    (own : session.config = none ∧ session.drawn = [] ∧ session.traffic.queue = some ern) :
    (queueConfig ern).Follows traffic session fun outcome reached =>
      match outcome with
      | .ok config => reached = session.configured ern config
      | .error _ => reached = session := by
  unfold queueConfig locally
  rw [follows_bind, follows_issue]
  refine ⟨own, fun cached _ => ?_⟩
  obtain ⟨readAt, config⟩ := cached
  cases config with
  | some config => rfl
  | none =>
    show (onQueues (.readConfig ern) >>= _).Follows traffic session _
    unfold onQueues
    rw [follows_bind, follows_bind, follows_issue]
    refine ⟨own, fun read _ => ?_⟩
    dsimp only
    rw [follows_ofExcept]
    cases read with
    | error error => rfl
    | ok config =>
      cases config with
      | none => rfl
      | some config =>
        show (issue (process _) >>= _).Follows traffic _ _
        rw [follows_bind, follows_issue]
        exact ⟨rfl, fun _ _ => rfl⟩

/-! ### Receiving -/

variable {cands : List Oid}

theorem drawHandles_follows :
    (drawHandles cands : Op Fault (List String)).Follows traffic session
      fun outcome reached => ∃ handles : List String, outcome = .ok handles ∧
        handles.length = cands.length ∧ handles.Nodup ∧
        (∀ handle ∈ handles, handle ∉ session.drawn) ∧
        reached = { session with
          drawn := handles.reverse ++ session.drawn
          unspent := handles.reverse ++ session.unspent } := by
  induction cands generalizing session with
  | nil => exact ⟨[], rfl, rfl, .nil, by simp, rfl⟩
  | cons cand rest ih =>
    unfold drawHandles createRandomUuid
    rw [follows_bind, follows_issue]
    refine ⟨trivial, fun uuid expected => ?_⟩
    dsimp only
    rw [follows_bind]
    refine ih.mono fun outcome reached drawn => ?_
    obtain ⟨handles, rfl, length, distinct, fresh, rfl⟩ := drawn
    refine ⟨uuid :: handles, rfl, by simp [length], ?_, ?_, ?_⟩
    · exact nodup_cons.mpr ⟨fun mem => fresh uuid mem (.head _), distinct⟩
    · intro handle mem
      rcases mem_cons.mp mem with rfl | mem
      · exact expected.1
      · exact fun seen => fresh handle mem (.tail _ seen)
    · simp [Session.after, append_assoc]

/-- What a session and a batch of claims end in: handles spent, and the claims that took
outstanding. -/
theorem updateEach_follows {claims : List (Oid × String)} (distinct : (claims.map Prod.snd).Nodup)
    (unspent : ∀ claim ∈ claims, claim.2 ∈ session.unspent) :
    (updateEach claims).Follows traffic session fun outcome reached =>
      ∃ (modified : Nat) (unspent : List String) (outstanding : List (Oid × String)),
        outcome = .ok modified ∧
        reached = { session with unspent := unspent, outstanding := outstanding } ∧
        (∀ claim ∈ outstanding, claim ∈ session.outstanding ∨ claim ∈ claims) ∧
        (modified = 0 → outstanding = session.outstanding) := by
  induction claims generalizing session with
  | nil => exact ⟨0, session.unspent, session.outstanding, rfl, rfl, fun _ => .inl, fun _ => rfl⟩
  | cons claim rest ih =>
    obtain ⟨apart, distinct⟩ := nodup_cons.mp distinct
    unfold updateEach
    rw [follows_bind]
    refine follows_onMessages (unspent claim (.head _)) (fun modified _ => ?_)
      fun error expected => absurd expected (by rintro ⟨_, ⟨⟩⟩)
    dsimp only
    rw [follows_bind]
    have remaining : ∀ other ∈ rest,
        other.2 ∈ (session.claimed claim.1 claim.2 modified).unspent := by
      intro other mem
      refine (mem_erase_of_ne fun same => ?_).mpr (unspent other (.tail _ mem))
      exact apart (mem_map.mpr ⟨other, mem, same⟩)
    refine (ih distinct remaining).mono fun outcome reached ended => ?_
    obtain ⟨more, unspent, outstanding, rfl, rfl, came, none⟩ := ended
    refine ⟨modified + more, unspent, outstanding, rfl, rfl, fun other mem => ?_, fun zero => ?_⟩
    · rcases came other mem with old | new
      · have added : other ∈ session.outstanding ∨ other = claim := by
          unfold Session.claimed at old
          split at old
          · exact .inl old
          · exact (mem_cons.mp old).symm
        rcases added with old | rfl
        · exact .inl old
        · exact .inr (.head _)
      · exact .inr (.tail _ new)
    · have both : modified = 0 ∧ more = 0 := Nat.add_eq_zero_iff.mp zero
      rw [none both.2]
      exact if_pos both.1

/-- What a pass of a receive can rely on, and leaves. -/
structure Between (call : ReceiveCall) (session : Session) (receive : Receive) : Prop where
  settled : session.outstanding = []
  known : ∀ msg ∈ session.read, msg.receiptHandle ∈ session.drawn
  handedOut : ∀ msg ∈ session.held, call.handOut msg ∈ receive.result
  readBack : ∀ copy ∈ receive.result, ∃ msg ∈ session.read,
    copy = call.handOut msg ∧ call.isDead msg = false

/-- The session belongs to a receive that has looked up its configuration. -/
structure Receiving (call : ReceiveCall) (session : Session) : Prop where
  configured : ∃ config, session.config = some (call.queueErn, config)
  call_eq : call = session.call call.queueErn call.maxCount

variable {call : ReceiveCall}

theorem Receiving.of_same {other : Session}
    (receiving : Receiving call session) (same : other.config = session.config) :
    Receiving call other := by
  refine ⟨by rw [same]; exact receiving.configured, ?_⟩
  rw [Session.call, same]
  exact receiving.call_eq

section Judgements

variable {call : ReceiveCall} (receiving : Receiving call session) (msg : Message)

include receiving

theorem Receiving.isDead_eq : call.isDead msg = session.isDead msg := by
  rw [receiving.call_eq]
  exact under_isDead _ _ _ _ _ msg

theorem Receiving.isStale_eq : call.isStale msg = session.isStale msg := by
  rw [receiving.call_eq]
  exact under_isStale _ _ _ _ _ msg

theorem Receiving.handOut_eq : call.handOut msg = session.handOut msg := by
  rw [receiving.call_eq]
  exact under_handOut _ _ _ _ _ msg

end Judgements

variable {msg : Message}

theorem Receiving.of_isDead (receiving : Receiving call session) (dead : call.isDead msg) :
    ∃ config, session.config = some (call.queueErn, some config) ∧
      config.deadLetterQueueErn = call.deadLetterQueueErn := by
  obtain ⟨config, configured⟩ := receiving.configured
  have same := receiving.call_eq
  rw [Session.call, configured] at same
  cases config with
  | none =>
    rw [same] at dead
    exact absurd dead (by simp [isDead, under])
  | some config =>
    exact ⟨config, configured, (congrArg deadLetterQueueErn same).symm⟩

variable {found : List Message}

theorem mem_inOrder (mem : msg ∈ inOrder cands found) : msg ∈ found := by
  obtain ⟨oid, _, same⟩ := mem_filterMap.mp mem
  exact mem_of_find?_eq_some same

theorem mem_inOrder_of_mem (unique : (found.map Message.oid).Nodup) (mem : msg ∈ found)
    (cand : msg.oid ∈ cands) : msg ∈ inOrder cands found := by
  refine mem_filterMap.mpr ⟨msg.oid, cand, ?_⟩
  cases first : found.find? fun other => other.oid = msg.oid with
  | none =>
    have absent := List.find?_eq_none.mp first msg mem
    simp at absent
  | some other =>
    have same : other.oid = msg.oid := by simpa using List.find?_some first
    rw [inj_on_of_nodup_map unique (mem_of_find?_eq_some first) mem same]

variable {receive : Receive}

/-- What was won and is not dead is handed out, what is dead moves away. -/
theorem deliver_follows {handles : List String} {won : List Message} (before : List Message)
    (receiving : Receiving call session) (drawn : handles ⊆ session.drawn)
    (settled : session.outstanding = [])
    (known : ∀ msg ∈ session.read, msg.receiptHandle ∈ session.drawn)
    (held : session.held = before ++ won) (fresh : ∀ msg ∈ won, msg ∈ session.read)
    (onePass : ∀ msg ∈ session.read, msg.receiptHandle ∈ handles →
      ∀ other ∈ won, msg.oid = other.oid → msg = other)
    (handedOut : ∀ msg ∈ before, call.handOut msg ∈ receive.result)
    (readBack : ∀ copy ∈ receive.result, ∃ msg ∈ session.read,
      copy = call.handOut msg ∧ call.isDead msg = false) :
    (deliver call handles won receive).Follows traffic session fun outcome reached =>
      ∃ settled, outcome = .ok settled ∧ Between call reached settled ∧
        reached.config = session.config ∧ reached.drawn = session.drawn := by
  have results : ∀ copy ∈ receive.result ++
      (won.filter fun msg => !call.isDead msg).map call.handOut,
      ∃ msg ∈ session.read, copy = call.handOut msg ∧ call.isDead msg = false := by
    intro copy mem
    rcases mem_append.mp mem with old | new
    · exact readBack copy old
    · obtain ⟨msg, inWon, rfl⟩ := mem_map.mp new
      obtain ⟨inWon, alive⟩ := mem_filter.mp inWon
      exact ⟨msg, fresh msg inWon, rfl, by simpa using alive⟩
  have alive : ∀ msg ∈ session.held, call.isDead msg = false ∨ msg ∈ before →
      call.handOut msg ∈ receive.result ++
        (won.filter fun msg => !call.isDead msg).map call.handOut := by
    intro msg mem reason
    rw [held] at mem
    rcases mem_append.mp mem with old | new
    · exact mem_append_left _ (handedOut msg old)
    · rcases reason with lives | old
      · refine mem_append_right _ (mem_map.mpr ⟨msg, ?_, rfl⟩)
        exact mem_filter.mpr ⟨new, by simp [lives]⟩
      · exact mem_append_left _ (handedOut msg old)
  -- the lease and the result, from the session the move has left
  have leasing : ∀ (reached : Session) (moved : Receive), reached.config = session.config →
      reached.drawn = session.drawn → reached.read = session.read →
      reached.outstanding = [] → moved.result = receive.result →
      Between call reached { moved with
        result := moved.result ++ (won.filter fun msg => !call.isDead msg).map call.handOut } →
      (do
        leaseStale call handles ((won.filter fun msg => !call.isDead msg).filter call.isStale) moved
        pure { moved with result := moved.result ++
          (won.filter fun msg => !call.isDead msg).map call.handOut } :
        Op Receive Receive).Follows traffic reached fun outcome reached =>
          ∃ settled, outcome = .ok settled ∧ Between call reached settled ∧
            reached.config = session.config ∧ reached.drawn = session.drawn := by
    intro reached moved sameConfig sameDrawn sameRead unclaimed sameResult between
    unfold leaseStale onlyIf
    rw [follows_bind]
    split
    · refine follows_certain (fun error => by rintro ⟨_, ⟨⟩⟩) ?_ fun _ _ => ?_
      · refine ⟨unclaimed, by rw [sameDrawn]; exact drawn, fun msg inRead selected under => ?_⟩
        rw [sameRead] at inRead
        obtain ⟨other, mem, sameOid⟩ := mem_map.mp selected
        obtain ⟨mem, stale⟩ := mem_filter.mp mem
        obtain rfl := onePass msg inRead under other (mem_filter.mp mem).1 sameOid.symm
        have reachedReceiving := receiving.of_same sameConfig
        rw [← reachedReceiving.isStale_eq, ← reachedReceiving.handOut_eq]
        refine ⟨stale, ?_⟩
        rw [handOut, if_pos stale]
        rfl
      · exact ⟨_, rfl, between, sameConfig, sameDrawn⟩
    · exact ⟨_, rfl, between, sameConfig, sameDrawn⟩
  unfold deliver moveDead
  rw [follows_bind]
  split
  · rename_i noneDead
    refine leasing session _ rfl rfl rfl settled rfl ⟨settled, known, fun msg mem => ?_, results⟩
    refine alive msg mem ?_
    rw [held] at mem
    rcases mem_append.mp mem with old | new
    · exact .inr old
    · have lives := filter_eq_nil_iff.mp noneDead msg new
      exact .inl (by simpa using lives)
  · rename_i someDead
    obtain ⟨first, mem⟩ := exists_mem_of_ne_nil _ someDead
    obtain ⟨config, configured, target⟩ := receiving.of_isDead (mem_filter.mp mem).2
    rw [follows_bind]
    refine follows_certain (fun error => by rintro ⟨_, ⟨⟩⟩) ?_ fun _ _ => ?_
    · refine ⟨⟨config, configured, target⟩, fun oid mem => ?_⟩
      obtain ⟨msg, inDead, rfl⟩ := mem_map.mp mem
      obtain ⟨inWon, dead⟩ := mem_filter.mp inDead
      exact ⟨msg, fresh msg inWon, rfl, by rw [← receiving.isDead_eq]; exact dead⟩
    · refine leasing _ _ rfl rfl rfl settled rfl ⟨settled, known, fun msg mem => ?_, results⟩
      obtain ⟨mem, remains⟩ := mem_filter.mp mem
      refine alive msg mem ?_
      rw [held] at mem
      rcases mem_append.mp mem with old | new
      · exact .inr old
      · left
        by_contra dead
        have moved : msg.oid ∈ (won.filter call.isDead).map Message.oid :=
          mem_map.mpr ⟨msg, mem_filter.mpr ⟨new, by simpa using dead⟩, rfl⟩
        exact of_decide_eq_true remains moved

/-- A part of a receive leaves the next what it relies on. -/
def GoesOn (call : ReceiveCall) (config : Option (String × Option QueueConfig))
    (outcome : Except Receive Receive) (reached : Session) : Prop :=
  ∃ settled, outcome = .ok settled ∧ Between call reached settled ∧ reached.config = config

theorem claimPasses_follows {priority : MessagePriority} {target : Int}
    {passes : Nat} {taken : Int} (receiving : Receiving call session)
    (between : Between call session receive) :
    (claimPasses call priority target passes taken receive).Follows traffic session
      (GoesOn call session.config) := by
  induction passes generalizing taken receive session with
  | zero => exact ⟨receive, rfl, between, rfl⟩
  | succ passes ih =>
    unfold claimPasses
    split
    · dsimp only
      rw [follows_bind]
      refine follows_certain (fun error => by rintro ⟨_, ⟨⟩⟩) trivial fun cands _ => ?_
      dsimp only [Session.afterMessage]
      split
      · exact ⟨receive, rfl, between, rfl⟩
      · rw [follows_bind]
        refine drawHandles_follows.mono fun outcome reached drew => ?_
        obtain ⟨handles, rfl, length, distinct, fresh, rfl⟩ := drew
        dsimp only
        rw [follows_bind, orThrow, follows_catching]
        have snd : (cands.zip handles).map Prod.snd = handles := map_snd_zip (le_of_eq length)
        refine (updateEach_follows (by rw [snd]; exact distinct) fun claim mem => ?_).mono
          fun outcome reached updated => ?_
        · refine mem_append_left _ (mem_reverse.mpr ?_)
          rw [← snd]
          exact mem_map.mpr ⟨claim, mem, rfl⟩
        · obtain ⟨modified, unspent, outstanding, rfl, rfl, came, none⟩ := updated
          dsimp only
          have older : ∀ msg ∈ session.read,
              msg.receiptHandle ∈ handles.reverse ++ session.drawn :=
            fun msg mem => mem_append_right _ (between.known msg mem)
          split
          · rename_i zero
            exact ih (receiving.of_same rfl)
              ⟨(none zero).trans between.settled, older, between.handedOut, between.readBack⟩
          · rw [follows_bind]
            refine follows_certain (fun error => by rintro ⟨_, ⟨⟩, _⟩) ?_ fun found expected => ?_
            · refine ⟨fun handle mem => mem_append_left _ (mem_reverse.mpr mem),
                fun msg mem reused => ?_, fun claim mem => ?_⟩
              · exact fresh _ reused (between.known msg mem)
              · rcases came claim mem with old | new
                · rw [between.settled] at old
                  nomatch old
                · exact of_mem_zip new
            · obtain ⟨answer, same, filtered, unique⟩ := expected
              obtain rfl := Except.ok.inj same
              dsimp only [Session.afterMessage]
              rw [follows_bind]
              refine Follows.mono (deliver_follows session.held (receiving.of_same rfl)
                (fun handle mem => mem_append_left _ (mem_reverse.mpr mem)) rfl
                (fun msg mem => ?_) rfl (fun msg mem => ?_)
                (fun msg mem under other won same => ?_) between.handedOut
                fun copy mem => ?_) fun outcome reached delivered => ?_
              · rcases mem_append.mp mem with old | new
                · exact older msg old
                · exact mem_append_left _ (mem_reverse.mpr
                    (filtered msg (mem_inOrder new)).2)
              · exact mem_append_right _ mem
              · rcases mem_append.mp mem with old | new
                · exact absurd (between.known msg old) (fresh _ under)
                · exact inj_on_of_nodup_map unique (mem_inOrder new) (mem_inOrder won) same
              · obtain ⟨msg, inRead, rest⟩ := between.readBack copy mem
                exact ⟨msg, mem_append_left _ inRead, rest⟩
              · obtain ⟨settled, rfl, between, config, _⟩ := delivered
                exact config ▸ ih (receiving.of_same config) between
    · exact ⟨receive, rfl, between, rfl⟩

variable {priorities : List MessagePriority}

theorem countTiers_follows {counts : MessagePriority → Int} :
    (countTiers call receive priorities counts).Follows traffic session
      fun outcome reached => ∃ counted, outcome = .ok counted ∧ reached = session := by
  induction priorities generalizing counts with
  | nil => exact ⟨counts, rfl, rfl⟩
  | cons priority rest ih =>
    unfold countTiers
    rw [follows_bind]
    exact follows_certain (fun error => by rintro ⟨_, ⟨⟩⟩) trivial fun waiting _ => ih

theorem claimTiers_follows {takeCounts : MessagePriority → Int} (receiving : Receiving call session)
    (between : Between call session receive) :
    (claimTiers call takeCounts priorities receive).Follows traffic session
      (GoesOn call session.config) := by
  induction priorities generalizing receive session with
  | nil => exact ⟨receive, rfl, between, rfl⟩
  | cons priority rest ih =>
    unfold claimTiers
    rw [follows_bind]
    refine (claimPasses_follows receiving between).mono fun outcome reached claimed => ?_
    obtain ⟨settled, rfl, between, config⟩ := claimed
    exact config ▸ ih (receiving.of_same config) between

variable {env : Env}

theorem look_follows (receiving : Receiving call session) (between : Between call session receive) :
    (look env call receive).Follows traffic session (GoesOn call session.config) := by
  unfold look
  rw [follows_bind]
  refine countTiers_follows.mono fun outcome reached counted => ?_
  obtain ⟨counts, rfl, rfl⟩ := counted
  exact claimTiers_follows receiving between

variable {polls : Nat}

theorem poll_follows {waitTime : Int}
    {deadline : Time} (receiving : Receiving call session)
    (between : Between call session receive) :
    (poll env call waitTime deadline polls receive).Follows traffic session
      (GoesOn call session.config) := by
  induction polls generalizing receive session with
  | zero => exact look_follows receiving between
  | succ polls ih =>
    unfold poll
    rw [follows_bind]
    refine (look_follows receiving between).mono fun outcome reached looked => ?_
    obtain ⟨settled, rfl, between, config⟩ := looked
    dsimp only
    split
    · exact ⟨settled, rfl, between, config⟩
    · unfold readSteadyClock
      rw [follows_bind, follows_issue]
      refine ⟨trivial, fun now _ => ?_⟩
      show (ite _ _ _ : Op Receive Receive).Follows traffic reached _
      split
      · exact ⟨settled, rfl, between, config⟩
      · exact config ▸ ih (receiving.of_same config) between

/-- What a finished receive can say: it looked its queue up, it holds nothing it has not handed
out, and it has handed out nothing it did not read back and find alive. -/
structure Received (queueErn : String) (maxCount : Int) (result : List Message)
    (session : Session) : Prop where
  configured : ∃ config, session.config = some (queueErn, config)
  between : Between (session.call queueErn maxCount) session ⟨result, 0, 0, 0⟩

variable {queueErn : String}

theorem receiveMessages_follows {maxCount waitTime : Int} (own : session.traffic =
      .receive queueErn maxCount waitTime polls) (blank : session.drawn = [] ∧
      session.outstanding = [] ∧ session.read = [] ∧ session.held = [] ∧ session.config = none) :
    (receiveMessages env queueErn maxCount waitTime polls).Follows traffic session
      fun outcome reached => ∀ result, outcome = .ok result →
        Received queueErn maxCount result reached := by
  obtain ⟨undrawn, settled, unread, empty, unconfigured⟩ := blank
  unfold receiveMessages readSteadyClock
  rw [follows_bind, follows_issue]
  refine ⟨trivial, fun start _ => ?_⟩
  show (queueConfig queueErn >>= _).Follows traffic session _
  rw [follows_bind]
  have looks : session.config = none ∧ session.drawn = [] ∧
      session.traffic.queue = some queueErn := ⟨unconfigured, undrawn, by rw [own]; rfl⟩
  refine (queueConfig_follows looks).mono fun outcome reached looked => ?_
  cases outcome with
  | error error => exact nofun
  | ok config =>
    dsimp only at looked ⊢
    subst looked
    have receiving : Receiving (under queueErn maxCount config)
        (session.configured queueErn config) := by
      refine ⟨⟨config, ?_⟩, ?_⟩ <;> cases config <;> rfl
    have between : Between (under queueErn maxCount config)
        (session.configured queueErn config) Receive.start := by
      refine ⟨settled, fun msg mem => ?_, fun msg mem => ?_,
        fun copy mem => absurd mem not_mem_nil⟩
      · rw [Session.configured, unread] at mem
        nomatch mem
      · rw [Session.configured, empty] at mem
        nomatch mem
    rw [follows_bind, follows_catching]
    refine (poll_follows receiving between).mono fun outcome reached polled => ?_
    obtain ⟨received, rfl, between, same⟩ := polled
    show (settleCounters _ _ >>= _).Follows traffic reached _
    rw [follows_bind]
    refine (follows_silent (settleCounters_silent _ _)).mono fun outcome last silent => ?_
    subst silent
    cases outcome with
    | error error => exact nofun
    | ok done =>
      intro result finished
      obtain rfl := Except.ok.inj finished
      refine ⟨⟨config, same⟩, ?_⟩
      have call : under queueErn maxCount config = last.call queueErn maxCount := by
        rw [Session.call, same]
        rfl
      rw [← call]
      exact ⟨between.settled, between.known, between.handedOut, between.readBack⟩

/-! ### The other operations -/

theorem follows_systemClock {ends : Except Fault Time → Session → Prop} :
    (readSystemClock : Op Fault Time).Follows traffic session ends ↔
      ∀ time, ends (.ok time) { session with sweepTime := some time } := by
  unfold readSystemClock
  rw [follows_issue]
  exact ⟨fun follows time => follows.2 time trivial, fun all => ⟨trivial, fun time _ => all time⟩⟩

theorem follows_silently (asks : program.Asks IsSilent) :
    program.Follows traffic session fun _ _ => True :=
  (follows_silent asks).mono fun _ _ _ => trivial

theorem MessageDraft.message_isSent (env : Env) (queueErn : String)
    (created modified : Time) (draft : MessageDraft) :
    (draft.message env queueErn created modified).IsSent queueErn draft :=
  ⟨rfl, rfl, rfl, rfl, .inl rfl⟩

variable {draft : MessageDraft}

theorem Message.IsSent.under (sent : msg.IsSent queueErn draft) (env : Env) (config : QueueConfig)
    (delayedAt expiresFrom : Time) :
    (msg.under env config delayedAt expiresFrom).IsSent queueErn draft := by
  refine ⟨sent.queue, sent.identifier, sent.unclaimed, sent.unreceived, ?_⟩
  by_cases delayed : config.delay > 0
  · exact .inr (if_pos delayed)
  · rw [Message.under]
    rw [if_neg delayed]
    exact sent.waiting

theorem MessageDraft.batched_isSent (env : Env) (queueErn : String)
    (config : Option QueueConfig) (now : Time) (draft : MessageDraft) :
    (draft.batched env queueErn config now).IsSent queueErn draft := by
  cases config with
  | none => exact draft.message_isSent env queueErn now now
  | some config => exact (draft.message_isSent env queueErn now now).under _ config now now

theorem applyConfig_follows {config : Option QueueConfig} (sent : msg.IsSent queueErn draft) :
    (applyConfig env msg config : Op Fault Message).Follows traffic session
      fun outcome reached => ∃ addressed : Message, outcome = .ok addressed ∧
        addressed.IsSent queueErn draft ∧ reached.traffic = session.traffic := by
  cases config with
  | none => exact ⟨msg, rfl, sent, rfl⟩
  | some config =>
    dsimp only [applyConfig]
    split
    · rw [follows_bind, follows_systemClock]
      intro delayedAt
      show (readSystemClock >>= _).Follows traffic _ _
      rw [follows_bind, follows_systemClock]
      exact fun expiresFrom => ⟨_, rfl, sent.under _ _ _ _, rfl⟩
    · rw [follows_bind, follows_systemClock]
      exact fun expiresFrom => ⟨_, rfl, sent.under _ _ _ _, rfl⟩

theorem sendMessage_follows (own : session.traffic = .send queueErn draft)
    (blank : session.config = none ∧ session.drawn = []) :
    (sendMessage env queueErn draft : Op Fault Message).Follows traffic session
      fun _ _ => True := by
  unfold sendMessage
  rw [follows_bind, follows_systemClock]
  intro created
  show (readSystemClock >>= _).Follows traffic _ _
  rw [follows_bind, follows_systemClock]
  intro modified
  refine follows_catching.mpr ?_
  rw [follows_bind, orThrow, follows_catching]
  refine Follows.mono (queueConfig_follows ?_) fun outcome reached looked => ?_
  · exact ⟨blank.1, blank.2, congrArg Traffic.queue own⟩
  · cases outcome with
    | error error => trivial
    | ok config =>
      dsimp only at looked ⊢
      subst looked
      rw [follows_bind]
      refine (applyConfig_follows (draft.message_isSent env queueErn created
        modified)).mono fun outcome reached applied => ?_
      obtain ⟨msg, rfl, sent, same⟩ := applied
      show (readSystemClock >>= _).Follows traffic _ _
      rw [follows_bind, follows_systemClock]
      intro stamp
      dsimp only
      rw [follows_bind, orThrow, follows_catching]
      refine follows_onMessages ⟨queueErn, draft, ?_, ?_⟩ (fun _ _ => ?_) fun _ _ => trivial
      · exact same.trans own
      · exact ⟨sent.queue, sent.identifier, sent.unclaimed, sent.unreceived, sent.waiting⟩
      · show (adjustQueueCounters _ _ >>= _).Follows traffic _ _
        rw [follows_bind]
        refine (follows_silently (adjustQueueCounters_silent _ _)).mono
          fun outcome _ _ => ?_
        cases outcome <;> trivial

theorem sendMessages_follows
    {drafts : List MessageDraft} (own : session.traffic = .sendBatch queueErn drafts)
    (blank : session.config = none ∧ session.drawn = []) :
    (sendMessages env queueErn drafts : Op Fault (List Message)).Follows traffic
      session fun _ _ => True := by
  unfold sendMessages
  split
  · trivial
  · rw [orAnswer, follows_catching, follows_bind]
    refine Follows.mono (queueConfig_follows ?_) fun outcome reached looked => ?_
    · exact ⟨blank.1, blank.2, congrArg Traffic.queue own⟩
    · cases outcome with
      | error error => trivial
      | ok config =>
        dsimp only at looked ⊢
        subst looked
        rw [follows_bind, follows_systemClock]
        intro now
        dsimp only
        rw [follows_bind]
        refine follows_onMessages ⟨queueErn, drafts, ?_, fun doc mem => ?_⟩
          (fun _ _ => ?_) fun _ _ => trivial
        · exact own
        · obtain ⟨msg, written, rfl⟩ := mem_map.mp mem
          obtain ⟨draft, inBatch, rfl⟩ := mem_map.mp written
          have sent := draft.batched_isSent env queueErn config now
          exact ⟨draft, inBatch, sent.queue, sent.identifier, sent.unclaimed, sent.unreceived,
            sent.waiting⟩
        · dsimp only
          rw [follows_bind]
          refine (follows_silently (Asks.onlyIf fun _ => adjustQueueCounters_silent _ _)).mono
            fun outcome _ _ => ?_
          cases outcome <;> trivial

variable {msgs : List Message}

theorem resetEach_follows {runOut : Message → Bool}
    {resetOf : Oid → Op StoreError Nat} {erns : ResetErns}
    (resets : ∀ msg ∈ msgs, runOut msg → (resetOf msg.oid).Follows traffic session
      fun outcome reached => ∃ modified, outcome = .ok modified ∧ reached = session) :
    (resetEach resetOf runOut msgs erns).Follows traffic session
      fun outcome reached => ∃ noted, outcome = .ok noted ∧ reached = session := by
  induction msgs generalizing erns with
  | nil => exact ⟨erns, rfl, rfl⟩
  | cons msg rest ih =>
    have later : ∀ noted, (resetEach resetOf runOut rest noted).Follows traffic session
        fun outcome reached => ∃ noted, outcome = .ok noted ∧ reached = session :=
      fun noted => ih fun other mem =>
        resets other (.tail _ mem)
    unfold resetEach
    split
    · rename_i out
      rw [follows_bind]
      refine (resets msg (.head _) out).mono fun outcome reached done => ?_
      obtain ⟨modified, rfl, rfl⟩ := done
      dsimp only
      split
      · exact later erns
      · exact later _
    · exact later erns

theorem resetExpiredMessages_follows (own : session.traffic = .sweep) :
    (resetExpiredMessages : Op Fault Unit).Follows traffic session fun _ _ => True := by
  unfold resetExpiredMessages
  rw [orAnswer, follows_catching, follows_bind, follows_systemClock]
  intro now
  dsimp only
  rw [follows_bind]
  refine follows_onMessages trivial (fun claimed _ => ?_) fun _ _ => trivial
  dsimp only [Session.afterMessage]
  rw [follows_bind]
  refine (resetEach_follows fun msg mem out => ?_).mono fun outcome reached put => ?_
  · refine follows_onMessages ⟨own, now, rfl, msg, mem, rfl, of_decide_eq_true out⟩
      (fun modified _ => ⟨modified, rfl, rfl⟩) fun error expected => absurd expected ?_
    rintro ⟨_, ⟨⟩⟩
  · obtain ⟨reset, rfl, rfl⟩ := put
    dsimp only
    rw [follows_bind]
    refine follows_onMessages trivial (fun delayed _ => ?_) fun _ _ => trivial
    dsimp only [Session.afterMessage]
    rw [follows_bind]
    refine (resetEach_follows fun msg mem out => ?_).mono fun outcome reached put => ?_
    · refine follows_onMessages ⟨own, now, rfl, msg, mem, rfl, of_decide_eq_true out⟩
        (fun modified _ => ⟨modified, rfl, rfl⟩) fun error expected => absurd expected ?_
      rintro ⟨_, ⟨⟩⟩
    · obtain ⟨released, rfl, rfl⟩ := put
      exact (follows_silently ((adjustEach_silent _ _).bind fun _ =>
        adjustEach_silent _ _)).mono fun outcome _ _ => by
        cases outcome <;> trivial

theorem deleted_follows {deleting : Op StoreError (Option Message)}
    (follows : deleting.Follows traffic session fun _ _ => True) :
    (orAnswer (do
      let deleted ← deleting
      match deleted with
      | none => pure ()
      | some msg => adjustForDeleted msg) () :
      Op Fault Unit).Follows traffic session fun _ _ => True := by
  rw [orAnswer, follows_catching, follows_bind]
  refine follows.mono fun outcome reached _ => ?_
  cases outcome with
  | error error => trivial
  | ok deleted =>
    cases deleted with
    | none => trivial
    | some msg =>
      exact (follows_silently (adjustQueueCounters_silent _ _)).mono fun outcome _ _ => by
        cases outcome <;> trivial

theorem findMessageByName_follows {messageId : String} :
    (findMessageByName messageId : Op Fault (Option Message)).Follows traffic session
      fun _ _ => True := by
  unfold findMessageByName
  rw [orAnswer, follows_catching]
  exact follows_onMessages trivial (fun _ _ => trivial) fun _ _ => trivial

theorem updateMessageBody_follows {messageId body : String}
    (own : session.traffic = .updateBody messageId body) :
    (updateMessageBody env messageId body :
      Op Fault (Option Message)).Follows traffic session fun _ _ => True := by
  unfold updateMessageBody
  rw [orAnswer, follows_catching, follows_bind]
  refine follows_onMessages own (fun before _ => ?_) fun _ _ => trivial
  cases before with
  | none => trivial
  | some previous =>
    show (adjustQueueCounters _ _ >>= _).Follows traffic _ _
    rw [follows_bind]
    refine (follows_silently (adjustQueueCounters_silent _ _)).mono fun outcome reached _ => ?_
    cases outcome with
    | error error => trivial
    | ok done =>
      exact findMessageByName_follows.mono fun outcome _ _ => by
        cases outcome <;> trivial

theorem redriveMessages_follows {deadLetterQueueErn targetQueueErn sourceQueueErn : String}
    (own : session.traffic = .redrive deadLetterQueueErn targetQueueErn sourceQueueErn) :
    (redriveMessages deadLetterQueueErn targetQueueErn sourceQueueErn :
      Op Fault Nat).Follows traffic session fun _ _ => True := by
  unfold redriveMessages
  split
  · trivial
  · rw [orAnswer, follows_catching, follows_bind]
    refine follows_onMessages trivial (fun movedBytes _ => ?_) fun _ _ => trivial
    dsimp only [Session.afterMessage]
    rw [follows_bind]
    refine follows_onMessages own (fun moved _ => ?_) fun _ _ => trivial
    dsimp only [Session.afterMessage]
    rw [follows_bind]
    refine (follows_silently (Asks.onlyIf fun _ => (adjustQueueCounters_silent _ _).bind fun _ =>
      adjustQueueCounters_silent _ _)).mono
      fun outcome _ _ => ?_
    cases outcome <;> trivial

theorem purgeQueue_follows (own : session.traffic = .purge queueErn) :
    (purgeQueue queueErn : Op Fault Unit).Follows traffic session fun _ _ => True := by
  unfold purgeQueue
  rw [follows_bind]
  refine (follows_silent (flushPendingCounters_silent true)).mono fun outcome reached same => ?_
  subst same
  cases outcome with
  | error error => trivial
  | ok done =>
    rw [orAnswer, follows_catching, follows_bind]
    refine follows_onMessages own (fun deleted _ => ?_) fun _ _ => trivial
    have silent : (onQueues (.zero queueErn)).Asks IsSilent := asks_onQueues trivial
    exact (follows_silently silent).mono fun outcome _ _ => by
      cases outcome <;> trivial

/-! ### All traffic -/

/-- What is known of a thread that has finished. -/
def Traffic.Ends : Traffic → Except StoreError (List Message) → Session → Prop
  | .receive queueErn maxCount _ _, outcome, session =>
    ∀ result, outcome = .ok result → Received queueErn maxCount result session
  | _, _, _ => True

theorem received_of_follows {request : Traffic} {maxCount waitTime : Int}
    {result : List Message} {program : Op StoreError (List Message)}
    (follows : program.Follows traffic session request.Ends)
    (receives : request = .receive queueErn maxCount waitTime polls)
    (finished : program = .done result) : Received queueErn maxCount result session := by
  subst receives finished
  exact follows result rfl

theorem Traffic.follows (env : Env) (operation : Traffic) :
    (operation.program env).Follows traffic (.opening operation) operation.Ends := by
  cases operation with
  | receive queueErn maxCount waitTime polls =>
    exact receiveMessages_follows rfl ⟨rfl, rfl, rfl, rfl, rfl⟩
  | send queueErn draft => exact (sendMessage_follows rfl ⟨rfl, rfl⟩).freely fun _ _ => trivial
  | sendBatch queueErn drafts =>
    exact (sendMessages_follows rfl ⟨rfl, rfl⟩).freely fun _ _ => trivial
  | updateBody messageId body => exact (updateMessageBody_follows rfl).freely fun _ _ => trivial
  | delete receiptHandle =>
    exact Follows.freely (deleted_follows (follows_onMessages rfl (fun _ _ => trivial)
      fun _ _ => trivial)) fun _ _ => trivial
  | deleteById messageId =>
    exact Follows.freely (deleted_follows (follows_onMessages rfl (fun _ _ => trivial)
      fun _ _ => trivial)) fun _ _ => trivial
  | redrive _ _ _ => exact (redriveMessages_follows rfl).freely fun _ _ => trivial
  | purge queueErn => exact (purgeQueue_follows rfl).freely fun _ _ => trivial
  | flush => exact (follows_silently (flushPendingCounters_silent true)).freely fun _ _ => trivial
  | sweep => exact (resetExpiredMessages_follows rfl).freely fun _ _ => trivial
  | expire =>
    exact follows_bind.mpr (follows_onMessages rfl (fun _ _ => trivial) fun _ _ => trivial)

/-! ### The store answers as expected -/

abbrev Past (Thread : Type) : Type := History Thread Req Answer World

section World

variable {Thread : Type} [DecidableEq Thread] {env : Env}
variable {processOf : Thread → Nat} {ops : Thread → Traffic} {origin world : World}
variable {hist : Past Thread}

/-- The sessions of threads that each run one operation. -/
abbrev sessionsOf (ops : Thread → Traffic)
    (hist : History Thread Req Answer World) : Thread → Session :=
  traffic.sessions (fun tid => .opening (ops tid)) hist

/-- A history of traffic, whatever its interleaving. -/
abbrev Governed (env : Env) (processOf : Thread → Nat) (ops : Thread → Traffic) (origin : World)
    (hist : History Thread Req Answer World) (world : World) : Prop :=
  traffic.Governs (machines env processOf) (fun tid => .opening (ops tid)) origin hist world

theorem sessionsOf_made (ops : Thread → Traffic) (earlier : Past Thread) (asking tid : Thread)
    (req : Req) (world : World) :
    sessionsOf ops (.made (machines env processOf) asking req world :: earlier) tid =
      if tid = asking then (sessionsOf ops earlier tid).after req
        (machine env (processOf asking) req world).1 else sessionsOf ops earlier tid := by
  rw [sessionsOf, sessions_cons]
  split
  · rename_i own
    rw [own]
    rfl
  · rfl

theorem sessionsOf_traffic (ops : Thread → Traffic) (hist : Past Thread) (tid : Thread) :
    (sessionsOf ops hist tid).traffic = ops tid := by
  induction hist with
  | nil => rfl
  | cons event earlier ih =>
    by_cases same : tid = event.thread
    · subst same
      rw [sessionsOf, sessions_self, traffic_after, Session.after_traffic]
      exact ih
    · rw [sessionsOf, sessions_of_ne _ _ _ _ same]
      exact ih

theorem Session.after_drawn (session : Session) {req : Req} (answer : req.Answer)
    (other : req ≠ .randomUuid) : (session.after req answer).drawn = session.drawn := by
  have cached : ∀ ern config, (session.afterCached ern config).drawn = session.drawn :=
    fun ern config => by cases config <;> rfl
  cases req with
  | systemClock => rfl
  | steadyClock => rfl
  | randomUuid => exact absurd rfl other
  | process req =>
    cases req with
    | cachedConfig ern => exact cached ern _
    | _ => rfl
  | queue stmt =>
    cases stmt with
    | readConfig ern => cases answer <;> rfl
    | _ => rfl
  | message stmt =>
    cases answer with
    | ok answer => cases stmt <;> rfl
    | error => cases stmt <;> rfl

/-- What is known of the identifiers drawn in a history: each comes from a moment of the
history, and no two threads have drawn the same one. -/
structure Issued (env : Env) (ops : Thread → Traffic) (origin : World)
    (hist : History Thread Req Answer World) (world : World) : Prop where
  past : ∀ tid, ∀ handle ∈ (sessionsOf ops hist tid).drawn,
    ∃ moment, origin.moment ≤ moment ∧ moment < world.moment ∧ handle = env.randomUuid moment
  apart : ∀ first second handle, handle ∈ (sessionsOf ops hist first).drawn →
    handle ∈ (sessionsOf ops hist second).drawn → first = second
  begun : origin.moment ≤ world.moment

theorem Issued.fresh (issued : Issued env ops origin hist world) (tid : Thread) :
    env.randomUuid world.moment ∉ (sessionsOf ops hist tid).drawn := by
  intro drawn
  obtain ⟨moment, _, before, same⟩ := issued.past tid _ drawn
  rw [env.randomUuid_injective same] at before
  exact absurd before (lt_irrefl _)

variable (governed : Governed env processOf ops origin hist world)

include governed in
theorem governed_issued : Issued env ops origin hist world := by
  induction governed with
  | start =>
    exact ⟨nofun,
      nofun, le_refl _⟩
  | @step earlier world governed tid req allowed ih =>
    have later : ((machines env processOf) tid req world).2.moment =
        world.moment + 1 := machine_moment _ _ _ _
    -- a handle of the session after the event was there before, or is this moment's
    have traced : ∀ other, ∀ handle ∈ (sessionsOf ops
        (.made (machines env processOf) tid req world :: earlier) other).drawn,
        handle ∈ (sessionsOf ops earlier other).drawn ∨
          other = tid ∧ handle = env.randomUuid world.moment := by
      intro other handle drawn
      rw [sessionsOf_made] at drawn
      split at drawn
      · rename_i own
        by_cases draws : req = .randomUuid
        · subst draws
          exact (mem_cons.mp drawn).symm.imp id fun new => ⟨own, new⟩
        · rw [Session.after_drawn _ _ draws] at drawn
          exact .inl drawn
      · exact .inl drawn
    refine ⟨fun other handle drawn => ?_, fun first second handle inFirst inSecond => ?_, ?_⟩
    · rw [later]
      rcases traced other handle drawn with old | ⟨_, rfl⟩
      · obtain ⟨moment, begun, before, same⟩ := ih.past other handle old
        exact ⟨moment, begun, Nat.lt_succ_of_lt before, same⟩
      · exact ⟨world.moment, ih.begun, Nat.lt_succ_self _, rfl⟩
    · rcases traced first handle inFirst with oldFirst | ⟨firstSame, new⟩
      · rcases traced second handle inSecond with oldSecond | ⟨_, rfl⟩
        · exact ih.apart first second handle oldFirst oldSecond
        · exact absurd oldFirst (ih.fresh first)
      · rcases traced second handle inSecond with oldSecond | ⟨secondSame, _⟩
        · rw [new] at oldSecond
          exact absurd oldSecond (ih.fresh second)
        · rw [firstSame, secondSame]
    · rw [later]
      exact Nat.le_succ_of_le ih.begun

include governed in
theorem governed_identified (identified : Identified origin.messages origin.moment) :
    Identified world.messages world.moment := by
  induction governed with
  | start => exact identified
  | step governed tid req allowed ih => exact ih.step

theorem machine_expected {backend : Backend} {now : Time} {moment : Nat}
    (identified : Identified msgs moment) (stmt : MessageStatement) :
    Session.expectsMessage stmt (stmt.apply backend now moment msgs).1 := by
  cases stmt with
  | insert doc => trivial
  | insertMany docs => trivial
  | readBack oids handles =>
    refine ⟨_, rfl, fun msg mem => ?_, ?_⟩
    · simpa using (mem_filter.mp mem).2
    · exact identified.distinct.sublist (filter_sublist.map _)
  | upsert written =>
    simp only [MessageStatement.apply]
    split <;> exact ⟨_, rfl⟩
  | _ => exact ⟨_, rfl⟩

include governed in
theorem governed_answered (identified : Identified origin.messages origin.moment)
    {tid : Thread} {req : Req} :
    traffic.expects (sessionsOf ops hist tid) req (machines env processOf tid req world).1 := by
  cases req with
  | message stmt => exact machine_expected (governed_identified governed identified) stmt
  | randomUuid => exact ⟨(governed_issued governed).fresh tid, env.randomUuid_ne_empty _⟩
  | systemClock | steadyClock => trivial
  | process req => cases req <;> trivial
  | queue stmt => cases stmt <;> trivial

theorem traffic_run (env : Env) (processOf : Thread → Nat) (ops : Thread → Traffic) (origin : World)
    (identified : Identified origin.messages origin.moment) (schedule : List Thread) :
    Governed env processOf ops origin
        ((Traffic.pool env origin ops).run (machines env processOf) schedule).history
        ((Traffic.pool env origin ops).run (machines env processOf) schedule).world ∧
      ∀ tid,
        (((Traffic.pool env origin ops).run (machines env processOf)
          schedule).programs tid).Follows traffic
          (sessionsOf ops ((Traffic.pool env origin ops).run
            (machines env processOf) schedule).history tid) (ops tid).Ends :=
  governs_run traffic (machines env processOf) _ (fun tid => (ops tid).Ends)
    origin _ (fun tid => (ops tid).follows env)
    (fun _ _ governed _ _ _ => governed_answered governed identified) schedule

end World

end Euclid.Eqs
