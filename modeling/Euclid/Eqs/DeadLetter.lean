/-
This file proves what a dead letter queue promises: a message is handed out a bounded number
of times before it is moved there, and nothing is lost or doubled on the way.

The count a receive judges by is raised by every claim and lowered only by a move or a
redrive. Between two of those, in one stay of the message in its queue, the claims are
therefore numbered, and a receive hands out only what it claimed under a number within the
bound. A claim does not ask which queue the message is in, though: a receive of another
queue that found the message there earlier can still take it. The bound is on what receives
of the message's own queue hand out.
-/

import Mathlib.Data.Fintype.Basic
import Mathlib.Tactic.FinCases
import Euclid.Eqs.Claim

namespace Euclid.Eqs

open Program Discipline Collection List Option ReceiveCall Req

variable {Thread : Type} [DecidableEq Thread] {env : Env}
variable {processOf : Thread → Nat} {ops : Thread → Traffic} {origin world : World}
variable {hist : Past Thread}

/-! ### What is known of a queue's configuration -/

/-- The configurations in the rows of the queue collection. -/
def World.rows (world : World) : List (String × QueueConfig) :=
  world.queues.map fun queue => (queue.ern, queue.config)

def Process.remembered (proc : Process) : List (String × QueueConfig) :=
  proc.queueConfigs.map fun entry => (entry.1, entry.2.config)

/-- A configuration is known of a queue if its row says so or some process remembers it. -/
def World.Knows (world : World) (ern : String) (config : QueueConfig) : Prop :=
  (ern, config) ∈ world.rows ∨ ∃ proc, (ern, config) ∈ (world.processes proc).remembered

/-- What a lookup of a queue's configuration can say. -/
def World.Tells (world : World) (ern : String) : Option QueueConfig → Prop
  | none => ∀ config, (ern, config) ∉ world.rows
  | some config => world.Knows ern config

/-- What traffic can learn of configurations is what was known when it started. -/
structure Informed (ops : Thread → Traffic) (origin : World)
    (hist : History Thread Req Answer World) (world : World) : Prop where
  rows : world.rows = origin.rows
  remembered : ∀ proc ern config, (ern, config) ∈ (world.processes proc).remembered →
    origin.Knows ern config
  own : ∀ tid ern config, (sessionsOf ops hist tid).config = some (ern, config) →
    (ops tid).queue = some ern
  told : ∀ tid ern config,
    (sessionsOf ops hist tid).config = some (ern, some config) →
    origin.Knows ern config
  missing : ∀ tid ern, (sessionsOf ops hist tid).config = some (ern, none) →
    ∀ config, (ern, config) ∉ origin.rows

variable {req : Req} {session : Session} {proc : Nat}

theorem rows_kept (allowed : session.allows req) :
    (machine env proc req world).2.rows = world.rows := by
  cases req with
  | queue stmt =>
    cases stmt with
    | upsert queue => exact absurd allowed id
    | increment _ _ | clamp _ _ | zero _ =>
      show (updateFirst _ _ _).map _ = world.queues.map _
      exact map_updateFirst fun _ _ _ => rfl
    | readConfig _ | findByErn _ => rfl
  | _ => rfl

theorem remembered_after {other : Nat}
    (allowed : session.allows req) {ern : String} {config : QueueConfig}
    (remembers : (ern, config) ∈ ((machine env proc req world).2.processes other).remembered) :
    (ern, config) ∈ (world.processes other).remembered ∨
      session.config = some (ern, some config) := by
  cases req with
  | process req =>
    by_cases own : other = proc
    · subst own
      have same : (machine env other (.process req) world).2.processes other =
          (req.apply env world.moment (world.processes other)).2 :=
        Function.update_self _ _ _
      rw [same] at remembers
      cases req with
      | rememberConfig asked told readAt =>
        rcases mem_cons.mp remembers with new | old
        · obtain ⟨rfl, rfl⟩ := Prod.mk.inj new
          exact .inr allowed
        · obtain ⟨entry, mem, same⟩ := mem_map.mp old
          exact .inl (mem_map.mpr ⟨entry, mem_of_mem_filter mem, same⟩)
      | forgetConfig asked =>
        obtain ⟨entry, mem, same⟩ := mem_map.mp remembers
        exact .inl (mem_map.mpr ⟨entry, mem_of_mem_filter mem, same⟩)
      | rememberQueue _ _ generation _ =>
        simp only [ProcessRequest.apply] at remembers
        split at remembers <;> exact .inl remembers
      | _ => exact .inl remembers
    · have same : (machine env proc (.process req) world).2.processes other =
          world.processes other := Function.update_of_ne own _ _
      rw [same] at remembers
      exact .inl remembers
  | _ => exact .inl remembers

/-- What a thread knows of its queue after a request it knew before, was remembered by its
process, or is in the queue's row. -/
theorem config_after (allowed : session.allows req) {ern : String} {config : Option QueueConfig}
    (told : (session.after req (machine env proc req world).1).config = some (ern, config)) :
    session.config = some (ern, config) ∨
      session.traffic.queue = some ern ∧ world.Tells ern config := by
  cases req with
  | systemClock | steadyClock | randomUuid => exact .inl told
  | process req =>
    cases req with
    | cachedConfig asked =>
      cases found : (world.processes proc).queueConfigs.find? fun entry =>
          entry.1 = asked ∧ env.steadyClock world.moment - entry.2.readAt < kQueueConfigTtl with
      | none =>
        have answer : (machine env proc (.process (.cachedConfig asked)) world).1.2 =
            none := by
          show Option.map _ (List.find? _ _) = none
          rw [found]
          rfl
        rw [Session.after, answer] at told
        exact .inl told
      | some entry =>
        have answer : (machine env proc (.process (.cachedConfig asked)) world).1.2 =
            some entry.2.config := by
          show Option.map _ (List.find? _ _) = _
          rw [found]
          rfl
        rw [Session.after, answer] at told
        obtain ⟨rfl, rfl⟩ := Prod.mk.inj (some.inj told)
        have named : entry.1 = asked := by
          have selected := List.find?_some found
          exact (of_decide_eq_true selected).1
        refine .inr ⟨allowed.2.2, .inr ⟨proc, mem_map.mpr ⟨entry, ?_, ?_⟩⟩⟩
        · exact mem_of_find?_eq_some found
        · rw [named]
    | _ => exact .inl told
  | queue stmt =>
    cases stmt with
    | readConfig asked =>
      obtain ⟨rfl, rfl⟩ := Prod.mk.inj (some.inj told)
      refine .inr ⟨allowed.2.2, ?_⟩
      cases found : world.queues.find? fun queue => queue.ern = asked with
      | none =>
        intro config stored
        obtain ⟨queue, mem, same⟩ := mem_map.mp stored
        have different := List.find?_eq_none.mp found queue mem
        exact different (decide_eq_true (Prod.mk.inj same).1)
      | some queue =>
        have named : queue.ern = asked := by
          have selected := List.find?_some found
          exact of_decide_eq_true selected
        refine .inl (mem_map.mpr ⟨queue, mem_of_find?_eq_some found, ?_⟩)
        rw [named]
    | _ => exact .inl told
  | message stmt =>
    have same : ∀ answer, (session.after (.message stmt) answer).config = session.config := by
      intro answer
      cases stmt <;> cases answer <;> rfl
    rw [same] at told
    exact .inl told

variable (governed : Governed env processOf ops origin hist world)

include governed in
theorem governed_informed : Informed ops origin hist world := by
  induction governed with
  | start =>
    refine ⟨rfl, fun proc ern config known => .inr ⟨proc, known⟩, ?_, ?_, ?_⟩
    · exact nofun
    · exact nofun
    · exact nofun
  | @step earlier world governed asking req allowed ih =>
    obtain ⟨rows, remembered, own, told, missing⟩ := ih
    have knows : ∀ ern config, world.Knows ern config → origin.Knows ern config := by
      rintro ern config (stored | ⟨proc, remembers⟩)
      · rw [rows] at stored
        exact .inl stored
      · exact remembered proc ern config remembers
    -- what a thread has been told now it was told before, or learns from this world
    have traced : ∀ tid ern config, (sessionsOf ops
        (.made (machines env processOf) asking req world :: earlier) tid).config =
          some (ern, config) →
        (sessionsOf ops earlier tid).config = some (ern, config) ∨
          (ops tid).queue = some ern ∧ world.Tells ern config := by
      intro tid ern config now
      rw [sessionsOf_made] at now
      split at now
      · rename_i same
        subst same
        rw [← sessionsOf_traffic ops earlier tid]
        exact config_after allowed now
      · exact .inl now
    refine ⟨(rows_kept allowed).trans rows, ?_, ?_, ?_, ?_⟩
    · intro proc ern config remembers
      rcases remembered_after allowed remembers with old | new
      · exact remembered proc ern config old
      · exact told asking ern config new
    · intro tid ern config now
      rcases traced tid ern config now with old | ⟨queue, _⟩
      · exact own tid ern config old
      · exact queue
    · intro tid ern config now
      rcases traced tid ern (some config) now with old | ⟨_, known⟩
      · exact told tid ern config old
      · exact knows ern config known
    · intro tid ern now
      rcases traced tid ern none now with old | ⟨_, absent⟩
      · exact missing tid ern old
      · rw [← rows]
        exact absent

/-! ### Counting claims -/

/-- An event that gives a message a new start in a queue: a move or a redrive of it. -/
def Rehomes (oid : Oid) (event : Event Thread Req Answer World) : Prop :=
  match event.request with
  | .message (.moveToDeadLetter oids _ _) => oid ∈ oids
  | .message (.redrive deadLetterQueueErn _ sourceQueueErn) =>
    ∃ msg ∈ event.before.messages, msg.oid = oid ∧ msg.isRedriven deadLetterQueueErn sourceQueueErn
  | _ => False

include governed in
theorem governed_received (received : ∀ msg ∈ origin.messages, 0 ≤ msg.receivedCount) :
    ∀ msg ∈ world.messages, 0 ≤ msg.receivedCount := by
  induction governed with
  | start => exact received
  | @step earlier world governed asking req allowed ih =>
    intro msg stored
    cases req with
    | message stmt =>
      rcases stmt.origin _ _ _ _ stored with ⟨before, inBefore, _, becomes⟩ | stores
      · have counted := ih before inBefore
        rcases becomes with rfl | changes
        · exact counted
        · cases stmt with
          | claim _ _ =>
            rw [changes.2]
            exact Int.add_nonneg counted (by decide)
          | moveToDeadLetter _ _ _ | redrive _ _ _ =>
            rw [changes.2]
            exact le_refl 0
          | setLease _ _ _ | resetInvisible _ | resetDelayed _ | rewriteBody _ _ _ =>
            rw [changes.2]
            exact counted
          | upsert written => exact absurd allowed id
          | _ => exact absurd changes id
      · obtain ⟨_, _, sent, _⟩ := Session.stores_sent allowed stores
        exact le_of_eq sent.unreceived.symm
    | _ => exact ih msg stored

variable {event : Event Thread Req Answer World}

include governed in
theorem claimed_made (identified : Identified origin.messages origin.moment) (mem : event ∈ hist)
    {tid : Thread} {oid : Oid} {handle : String} (isClaim : IsClaim tid oid handle event) :
    oid.1 < world.moment := by
  obtain ⟨waiting, stored, same, _⟩ := isClaim.available
  have made := (records_identified_before governed.records identified mem).made waiting stored
  rw [same] at made
  exact made.trans (records_before governed.records mem)

variable {msg : Message}

/-- In a stay a message has been received at least as often as it has been claimed. -/
theorem claims_counted {stay earlier claims : Past Thread}
    (governed : Governed env processOf ops origin (stay ++ earlier) world)
    (identified : Identified origin.messages origin.moment)
    (received : ∀ msg ∈ origin.messages, 0 ≤ msg.receivedCount) {oid : Oid}
    (stays : ∀ event ∈ stay, ¬Rehomes oid event) (inStay : claims.Sublist stay)
    (areClaims : ∀ event ∈ claims, ∃ tid handle, IsClaim tid oid handle event)
    (stored : msg ∈ world.messages) (same : msg.oid = oid) :
    (claims.length : Int) ≤ msg.receivedCount := by
  induction stay generalizing world claims msg with
  | nil =>
    obtain rfl := sublist_nil.mp inStay
    exact governed_received governed received msg stored
  | cons event stay ih =>
    cases governed with
    | @step _ world governed asking req allowed =>
      have stayed : ∀ event ∈ stay, ¬Rehomes oid event :=
        fun event mem => stays event (.tail _ mem)
      cases inStay with
      | cons_cons _ rest =>
        -- the event is one of the claims
        obtain ⟨tid, handle, isClaim⟩ := areClaims _ (.head _)
        obtain ⟨waiting, waited, sameOid, leaves⟩ := isClaim.leaves env
        have counted := ih governed stayed rest
          (fun event mem => areClaims event (.tail _ mem)) waited sameOid
        rw [leaves.stored governed identified allowed stored (same.trans sameOid.symm),
          Message.claimed, length_cons, Nat.cast_succ]
        exact Int.add_le_add_right counted 1
      | cons _ rest =>
        have before : ∀ old ∈ world.messages, old.oid = oid →
            (claims.length : Int) ≤ old.receivedCount :=
          fun old inBefore sameOid =>
            ih governed stayed rest areClaims inBefore sameOid
        cases req with
        | message stmt =>
          rcases stmt.origin _ _ _ _ stored with ⟨old, inBefore, sameOid, becomes⟩ | stores
          · have counted := before old inBefore (sameOid.trans same)
            rcases becomes with rfl | changes
            · exact counted
            · cases stmt with
              | claim _ _ =>
                rw [changes.2, Message.claimed]
                exact counted.trans (Int.le_add_one (le_refl _))
              | moveToDeadLetter oids _ _ =>
                refine absurd ?_ (stays _ (.head _))
                show oid ∈ oids
                rw [← sameOid.trans same]
                exact changes.1
              | redrive _ _ _ =>
                exact absurd ⟨old, inBefore, sameOid.trans same, changes.1⟩
                  (stays _ (.head _))
              | setLease _ _ _ | resetInvisible _ | resetDelayed _ | rewriteBody _ _ _ =>
                rw [changes.2]
                exact counted
              | upsert written => exact absurd allowed id
              | _ => exact absurd changes id
          · -- a message just made has not been claimed yet
            cases claims with
            | nil =>
              obtain ⟨_, _, sent, _⟩ := Session.stores_sent allowed stores
              exact le_of_eq sent.unreceived.symm
            | cons claim claims =>
              obtain ⟨tid, handle, isClaim⟩ := areClaims claim (.head _)
              have made := claimed_made governed identified
                (mem_append_left _ (rest.subset (.head _))) isClaim
              rw [← same, stores.1] at made
              exact absurd made (lt_irrefl _)
        | _ => exact before msg stored same

/-! ### What is handed out -/

def Traffic.isReceive : Traffic → Bool
  | .receive _ _ _ _ => true
  | _ => false

open Traffic

theorem Traffic.eq_receive {operation : Traffic} {queueErn : String}
    (receives : operation.isReceive) (own : operation.queue = some queueErn) :
    ∃ maxCount waitTime polls, operation = .receive queueErn maxCount waitTime polls := by
  cases operation with
  | receive asked maxCount waitTime polls =>
    obtain rfl := some.inj own
    exact ⟨maxCount, waitTime, polls, rfl⟩
  | _ => cases receives

/-- The event is a claim of a message in a queue, and the receive that made it has handed the
message out. -/
def Returned (ops : Thread → Traffic)
    (pool : Pool Thread Req Answer StoreError (List Message) World) (queueErn : String)
    (oid : Oid) (event : Event Thread Req Answer World) : Prop :=
  (∃ msg ∈ event.before.messages, msg.oid = oid ∧ msg.status = .available ∧
    msg.queueErn = queueErn) ∧
    (ops event.thread).isReceive ∧
    (pool.programs event.thread).returns fun result => result.any fun copy =>
      copy.oid = oid ∧ event.request = .message (.claim oid copy.receiptHandle) ∧
        ∃ msg ∈ event.after.messages, msg.oid = oid ∧ msg.status = .invisible ∧
          msg.receiptHandle = copy.receiptHandle

/-- A claim that takes a message from a queue is made by a receive of that queue. -/
def ClaimsOwn (ops : Thread → Traffic) (queueErn : String) (_ : History Thread Req Answer World)
    (event : Event Thread Req Answer World) : Prop :=
  match event.request with
  | .message (.claim oid _) => ∀ msg ∈ event.before.messages, msg.oid = oid →
      msg.status = .available → msg.queueErn = queueErn →
      (ops event.thread).queue = some queueErn
  | _ => True

include governed in
/-- A message a receive hands out was claimed within the bound of its queue. -/
theorem Received.counted (identified : Identified origin.messages origin.moment)
    (unissued : ∀ msg ∈ origin.messages, ∀ moment, origin.moment ≤ moment →
      msg.receiptHandle ≠ env.randomUuid moment) {queueErn deadLetterQueueErn : String}
    {bound : Int} (named : deadLetterQueueErn ≠ "")
    (exists_row : ∃ config, (queueErn, config) ∈ origin.rows)
    (configured : ∀ config, origin.Knows queueErn config →
      config.deadLetterQueueErn = deadLetterQueueErn ∧ config.maxReceiveCount = bound)
    (mem : event ∈ hist) {maxCount : Int} {result : List Message}
    (received : Received queueErn maxCount result (sessionsOf ops hist event.thread))
    {copy : Message} (returned : copy ∈ result)
    (isClaim : IsClaim event.thread copy.oid copy.receiptHandle event) :
    ∀ msg ∈ event.after.messages, msg.oid = copy.oid → msg.receivedCount ≤ bound := by
  intro msg stored same
  obtain ⟨read, inRead, rfl, alive⟩ := received.between.readBack copy returned
  rw [handOut_oid, handOut_receiptHandle] at isClaim
  rw [handOut_oid] at same
  obtain ⟨waiting, _, sameOid, leaves⟩ := isClaim.leaves env
  rw [leaves.after governed identified mem stored (same.trans sameOid.symm)]
  obtain ⟨other, inHistory, _, claimOf⟩ := read_claimOf governed unissued inRead
  have continues := leaves.continues governed identified mem inHistory claimOf rfl
  rw [← continues.receivedCount]
  -- the receive knows the configuration of its queue
  obtain ⟨config, told⟩ := received.configured
  have informed := governed_informed governed
  cases config with
  | none =>
    obtain ⟨config, stored⟩ := exists_row
    exact absurd stored (informed.missing _ _ told config)
  | some config =>
    obtain ⟨target, most⟩ := configured config (informed.told _ _ _ told)
    rw [Session.call, told] at alive
    by_contra exceeded
    have dead : (under queueErn maxCount (some config)).isDead read := by
      simp [isDead, under, target, most, named, not_le.mp exceeded]
    rw [bind_some] at alive
    rw [dead] at alive
    cases alive

/-! ### Conservation -/

/-- The statement of an event takes a message out. -/
def TakesOut (env : Env) (oid : Oid) (event : Event Thread Req Answer World) : Prop :=
  ∃ stmt, event.request = .message stmt ∧ ∃ msg ∈ event.before.messages,
    msg.oid = oid ∧ stmt.Removes (env.systemClock event.before.moment) msg

/-- Traffic around one queue and its dead letter queue: sends and receives are of one of the two,
and a redrive goes from the dead letter queue back. -/
structure Traffic.Serves (source deadLetter : String) (operation : Traffic) : Prop where
  queue : ∀ queueErn, operation.queue = some queueErn → queueErn = source ∨ queueErn = deadLetter
  redrive : ∀ deadLetterQueueErn targetQueueErn sourceQueueErn,
    operation = .redrive deadLetterQueueErn targetQueueErn sourceQueueErn →
    deadLetterQueueErn = deadLetter ∧ targetQueueErn = source

include governed in
/-- The next request of such traffic leaves a message in one of the two queues, or takes it
out. -/
theorem family_step
    {source deadLetter : String} (serves : ∀ tid, (ops tid).Serves source deadLetter)
    (sources : ∀ config, origin.Knows source config → config.deadLetterQueueErn = deadLetter)
    (deadLetters : ∀ config, origin.Knows deadLetter config → config.deadLetterQueueErn = "")
    {asking : Thread} (allowed : (sessionsOf ops hist asking).allows req)
    (stored : msg ∈ world.messages) (lives : msg.queueErn = source ∨ msg.queueErn = deadLetter) :
    TakesOut env msg.oid (.made (machines env processOf) asking req world) ∨
      ∃ after ∈ (machine env (processOf asking) req world).2.messages,
        after.oid = msg.oid ∧ after.messageId = msg.messageId ∧
          (after.queueErn = source ∨ after.queueErn = deadLetter) := by
  have unchanged : msg ∈ (machine env (processOf asking) req world).2.messages →
      ∃ after ∈ (machine env (processOf asking) req world).2.messages,
        after.oid = msg.oid ∧ after.messageId = msg.messageId ∧
          (after.queueErn = source ∨ after.queueErn = deadLetter) :=
    fun same => ⟨msg, same, rfl, rfl, lives⟩
  cases req with
  | message stmt =>
    rcases stmt.fate env.backend (env.systemClock world.moment) world.moment
      world.messages stored with ⟨after, inAfter, sameOid, becomes⟩ | removes
    · rcases becomes with rfl | changes
      · exact .inr (unchanged inAfter)
      · refine .inr ⟨after, inAfter, sameOid, changes.messageId, ?_⟩
        cases stmt with
        | moveToDeadLetter oids deadLetterQueueErn queueErn =>
          obtain ⟨⟨config, told, target⟩, dead⟩ := allowed
          obtain ⟨copy, _, _, isDead⟩ := dead msg.oid changes.1
          have informed := governed_informed governed
          have known := informed.told _ _ _ told
          have own := informed.own _ _ _ told
          have moved : after.queueErn = config.deadLetterQueueErn := by
            rw [changes.2, target]
            rfl
          rw [moved]
          rcases (serves asking).queue _ own with rfl | rfl
          · exact .inr (sources config known)
          · -- a queue that has no dead letter queue of its own finds nothing dead
            rw [Session.isDead, Session.call, told, bind_some] at isDead
            simp [ReceiveCall.isDead, ReceiveCall.under, deadLetters config known] at isDead
        | redrive deadLetterQueueErn targetQueueErn sourceQueueErn =>
          have own : ops asking = .redrive deadLetterQueueErn targetQueueErn sourceQueueErn := by
            rw [← sessionsOf_traffic ops hist asking]
            exact allowed
          rw [changes.2]
          exact .inl ((serves asking).redrive _ _ _ own).2
        | claim _ _ | setLease _ _ _ | resetInvisible _ | resetDelayed _ | rewriteBody _ _ _ =>
          rw [changes.2]
          exact lives
        | upsert written => exact absurd allowed id
        | _ => exact absurd changes id
    · exact .inl ⟨stmt, rfl, msg, stored, rfl, removes⟩
  | _ => exact .inr (unchanged stored)

theorem family_kept {later earlier : Past Thread} {reached : World}
    (governed : Governed env processOf ops origin (later ++ earlier) world)
    (atEarlier : Governed env processOf ops origin earlier reached)
    {source deadLetter : String} (serves : ∀ tid, (ops tid).Serves source deadLetter)
    (sources : ∀ config, origin.Knows source config → config.deadLetterQueueErn = deadLetter)
    (deadLetters : ∀ config, origin.Knows deadLetter config → config.deadLetterQueueErn = "")
    (stored : msg ∈ reached.messages) (lives : msg.queueErn = source ∨ msg.queueErn = deadLetter) :
    (∃ event ∈ later, TakesOut env msg.oid event) ∨
      ∃ after ∈ world.messages, after.oid = msg.oid ∧ after.messageId = msg.messageId ∧
        (after.queueErn = source ∨ after.queueErn = deadLetter) := by
  induction later generalizing world with
  | nil =>
    rw [governed.records.world_eq atEarlier.records]
    exact .inr ⟨msg, stored, rfl, rfl, lives⟩
  | cons newest later ih =>
    cases governed with
    | @step _ world governed asking req allowed =>
      rcases ih governed with ⟨event, mem, takes⟩ | kept
      · exact .inl ⟨event, .tail _ mem, takes⟩
      · obtain ⟨between, inWorld, sameOid, sameId, livesStill⟩ := kept
        rcases family_step governed serves sources deadLetters allowed inWorld livesStill with
          takes | ⟨after, inAfter, afterOid, afterId, afterLives⟩
        · rw [sameOid] at takes
          exact .inl ⟨_, .head _, takes⟩
        · exact .inr ⟨after, inAfter, afterOid.trans sameOid, afterId.trans sameId, afterLives⟩

/-! ### What a dead letter queue promises -/

/-- In one stay in its queue a message is handed out no more often than the queue allows; and
what was in the queue or its dead letter queue is one document in one of them, unless a
statement that takes messages out took it. -/
structure DeadLetterKept (env : Env) (ops : Thread → Traffic)
    (source deadLetter : String) (bound : Int)
    (pool : Pool Thread Req Answer StoreError (List Message) World) : Prop where
  bounded : ∀ oid later stay earlier, pool.history = later ++ (stay ++ earlier) →
    (∀ event ∈ stay, ¬Rehomes oid event) →
    ∀ returns : History Thread Req Answer World, returns.Sublist stay →
      (∀ event ∈ returns, Returned ops pool source oid event) →
      (returns.length : Int) ≤ bound
  conserved : ∀ later event earlier, pool.history = later ++ event :: earlier →
    ∀ msg ∈ event.after.messages,
      msg.queueErn = source ∨ msg.queueErn = deadLetter →
      (∃ removal ∈ later, TakesOut env msg.oid removal) ∨
        ∃ found : Message, (pool.world.messages.filter fun other =>
            other.messageId = msg.messageId) = [found] ∧ found.oid = msg.oid ∧
          (found.queueErn = source ∨ found.queueErn = deadLetter)

/-- In every run in which only receives of the queue claim messages that are in it, its dead
letter queue keeps its promise. -/
theorem deadLetter_kept (env : Env) (processOf : Thread → Nat)
    (ops : Thread → Traffic) (origin : World)
    (identified : Identified origin.messages origin.moment)
    (unissued : ∀ msg ∈ origin.messages, ∀ moment, origin.moment ≤ moment →
      msg.receiptHandle ≠ env.randomUuid moment) (distinguished : Distinguished origin.messages)
    (received : ∀ msg ∈ origin.messages, 0 ≤ msg.receivedCount)
    (source deadLetter : String) (bound : Int) (named : deadLetter ≠ "") (positive : 0 < bound)
    (exists_row : ∃ config, (source, config) ∈ origin.rows)
    (sources : ∀ config, origin.Knows source config →
      config.deadLetterQueueErn = deadLetter ∧ config.maxReceiveCount = bound)
    (deadLetters : ∀ config, origin.Knows deadLetter config → config.deadLetterQueueErn = "")
    (serves : ∀ tid, (ops tid).Serves source deadLetter) (schedule : List Thread)
    (claimsOwn : History.Meets (ClaimsOwn ops source)
      ((pool env origin ops).run (machines env processOf) schedule).history) :
    DeadLetterKept env ops source deadLetter bound
      ((pool env origin ops).run (machines env processOf) schedule) := by
  obtain ⟨governed, following⟩ := traffic_run env processOf ops origin identified schedule
  generalize (pool env origin ops).run (machines env processOf)
    schedule = pool at claimsOwn governed following ⊢
  constructor
  · intro oid later stay earlier split stays returns inStay areReturns
    cases returns with
    | nil => exact positive.le
    | cons newest rest =>
      obtain ⟨recent, older, rfl, inRecent, restOlder⟩ := cons_sublist_iff.mp inStay
      obtain ⟨after, before, rfl⟩ := append_of_mem inRecent
      have regrouped : later ++ (after ++ newest :: before ++ older ++ earlier) =
          (later ++ after) ++ newest :: (before ++ older ++ earlier) := by simp
      rw [regrouped] at split
      have mem : newest ∈ pool.history := by
        rw [split]
        exact mem_append_right _ (.head _)
      have upTo : Governed env processOf ops origin
          (newest :: (before ++ older) ++ earlier) newest.after := (split ▸ governed).upTo
      have areClaims : ∀ event ∈ newest :: rest, ∃ tid handle, IsClaim tid oid handle event := by
        intro event among
        obtain ⟨⟨msg, stored, same, available, _⟩, _, returned⟩ := areReturns event among
        obtain ⟨result, _, passes⟩ := returns_iff.mp returned
        obtain ⟨copy, _, holds⟩ := any_eq_true.mp passes
        obtain ⟨_, req, claimed⟩ := of_decide_eq_true holds
        exact ⟨event.thread, copy.receiptHandle, rfl, req, ⟨msg, stored, same, available⟩, claimed⟩
      obtain ⟨waited, receives, returned⟩ := areReturns newest (.head _)
      obtain ⟨result, finished, passes⟩ := returns_iff.mp returned
      obtain ⟨copy, inResult, holds⟩ := any_eq_true.mp passes
      obtain ⟨rfl, req, claimed, stored, same, invisible⟩ := of_decide_eq_true holds
      have isClaim : IsClaim newest.thread copy.oid copy.receiptHandle newest := by
        obtain ⟨msg, inBefore, sameOid, available, _⟩ := waited
        exact ⟨rfl, req, ⟨msg, inBefore, sameOid, available⟩, ⟨claimed, stored, same, invisible⟩⟩
      -- the newest of the claims is within the bound, and as many as all of them
      have within : claimed.receivedCount ≤ bound := by
        have own : (ops newest.thread).queue = some source := by
          have condition := (History.meets_iff_split _ _).mp claimsOwn _ _ _ split
          rw [ClaimsOwn, req] at condition
          obtain ⟨msg, inBefore, sameOid, available, inSource⟩ := waited
          exact condition msg inBefore sameOid available inSource
        obtain ⟨maxCount, waitTime, polls, receive⟩ := eq_receive receives own
        exact (received_of_follows (following _) receive finished).counted governed identified
          unissued named exists_row sources mem inResult isClaim claimed stored same
      refine le_trans ?_ within
      refine claims_counted upTo identified received (fun event among => ?_)
        ((restOlder.trans (sublist_append_right before older)).cons_cons newest) areClaims
        stored same
      refine stays event ?_
      rcases mem_cons.mp among with rfl | earlierStay
      · exact mem_append_left _ inRecent
      · rw [append_assoc]
        exact mem_append_right _ (.tail _ earlierStay)
  · intro later event earlier split msg stored lives
    have atEvent : Governed env processOf ops origin (event :: earlier)
        event.after := (split ▸ governed).upTo
    rcases family_kept (split ▸ governed) atEvent serves (fun config known =>
      (sources config known).1) deadLetters stored lives with taken | kept
    · exact .inl taken
    · obtain ⟨after, inWorld, sameOid, sameId, livesStill⟩ := kept
      refine .inr ⟨after, ?_, sameOid, livesStill⟩
      rw [← sameId]
      exact (records_distinguished governed.records distinguished).filter_eq inWorld

/-! ### Both outcomes -/

instance (oid : Oid) (event : Event Thread Req Answer World) :
    Decidable (Rehomes oid event) := by
  unfold Rehomes
  generalize event.request = request
  rcases request with _ | _ | _ | _ | _ | ⟨⟨⟩⟩ <;> infer_instance

instance (pool : Pool Thread Req Answer StoreError (List Message) World)
    (queueErn : String) (oid : Oid) (event : Event Thread Req Answer World) :
    Decidable (Returned ops pool queueErn oid event) := by
  unfold Returned
  infer_instance

instance (queueErn : String) (earlier : History Thread Req Answer World)
    (event : Event Thread Req Answer World) :
    Decidable (ClaimsOwn ops queueErn earlier event) := by
  unfold ClaimsOwn
  generalize event.request = request
  rcases request with _ | _ | _ | _ | _ | ⟨⟨⟩⟩ <;> infer_instance

/-- A queue that hands a message out once, and its dead letter queue with one message in it. -/
def World.oneDead : World where
  messages := [{ Message.blank with
    queueErn := "orders-dlq", sourceQueueErn := "orders", messageId := "first" }]
  queues :=
    [{ Queue.blank with
        ern := "orders", name := "orders", deadLetterQueueErn :=
          "orders-dlq", maxReceiveCount := 1 },
      { Queue.blank with ern := "orders-dlq", name := "orders-dlq" }]
  processes := fun _ => .fresh
  moment := 1

/-- A receive of the dead letter queue, a redrive, a receive of the queue and a sweep. -/
def redriven : Fin 4 → Traffic
  | 0 => .receive "orders-dlq" 1 0 0
  | 1 => .redrive "orders-dlq" "orders" ""
  | 2 => .receive "orders" 1 0 0
  | 3 => .sweep

/-- Surroundings in which a lease runs out at one moment. -/
def leaseRunsOutAt (jump : Nat) : Env :=
  { Env.stepping .memory 1 with
    systemClock := fun moment => if moment < jump then moment else moment + 60000 }

/-- One after the other the four operations keep the promise. -/
theorem deadLetter_kept_of_redriven :
    DeadLetterKept (leaseRunsOutAt 20) redriven "orders" "orders-dlq" 1
      ((Traffic.pool (leaseRunsOutAt 20) .oneDead redriven).run
        (machines (leaseRunsOutAt 20) fun _ => 0)
        (List.replicate 20 1 ++ List.replicate 20 2 ++ List.replicate 20 3 ++
          List.replicate 20 0)) := by
  refine deadLetter_kept (leaseRunsOutAt 20) (fun _ => 0) redriven .oneDead
    ⟨by decide, by decide⟩ ?_ (nodup_singleton _) (by decide) "orders" "orders-dlq" 1
    (by decide) (by decide) ⟨_, .head _⟩ ?_ ?_ ?_ _ (by decide +kernel)
  · intro msg stored moment _ same
    obtain rfl := mem_singleton.mp stored
    exact Env.randomUuid_ne_empty _ moment same.symm
  · rintro config (stored | ⟨proc, remembers⟩)
    · have told : config = Queue.config { Queue.blank with
          ern := "orders", name := "orders", deadLetterQueueErn := "orders-dlq",
          maxReceiveCount := 1 } := by
        simpa [World.rows, World.oneDead] using stored
      rw [told]
      exact ⟨rfl, rfl⟩
    · cases remembers
  · rintro config (stored | ⟨proc, remembers⟩)
    · have told : config = Queue.config { Queue.blank with
          ern := "orders-dlq", name := "orders-dlq" } := by
        simpa [World.rows, World.oneDead] using stored
      rw [told]
      rfl
    · cases remembers
  · intro tid
    constructor
    · intro queueErn own
      fin_cases tid <;> simp_all [redriven, Traffic.queue]
    · intro deadLetterQueueErn targetQueueErn sourceQueueErn own
      fin_cases tid <;> simp_all [redriven]

/-- A receive of the dead letter queue has found the message there. It is redriven, handed out
by a receive of its queue and put back; then the first receive claims it as well, and its queue
has had it handed out twice. -/
theorem claim_from_another_queue :
    ¬DeadLetterKept (leaseRunsOutAt 29) redriven "orders" "orders-dlq" 1
      ((pool (leaseRunsOutAt 29) .oneDead redriven).run
        (machines (leaseRunsOutAt 29) fun _ => 0)
        (List.replicate 9 0 ++ List.replicate 20 1 ++ List.replicate 20 2 ++
          List.replicate 20 3 ++ List.replicate 20 0)) := by
  intro kept
  generalize final : (pool (leaseRunsOutAt 29) .oneDead redriven).run
    (machines (leaseRunsOutAt 29) fun _ => 0) _ = pool at kept
  -- the stay is everything since the redrive
  have bounded := kept.bounded (0, 0) [] (pool.history.take 27) (pool.history.drop 27)
    (take_append_drop 27 pool.history).symm
    (by rw [← final]; decide +kernel)
    ((pool.history.take 27).filter fun event =>
      decide (Returned redriven pool "orders" (0, 0) event))
    filter_sublist
    fun event mem => of_decide_eq_true (mem_filter.mp mem).2
  have twice : ((pool.history.take 27).filter fun event =>
      decide (Returned redriven pool "orders" (0, 0) event)).length = 2 := by
    rw [← final]
    decide +kernel
  rw [twice] at bounded
  exact absurd bounded (by decide)

end Euclid.Eqs
