/-
This file follows a receipt handle from the moment it is drawn to the message that carries it.

A handle is drawn by one thread, spent on one claim, and stays with the message until
something puts the message back or moves it. So a stored message that carries a drawn
handle is still what that one claim made of it, up to its body and its timeout, and a copy
a thread has read back is a message it claimed itself.
-/

import Euclid.Eqs.Conduct

namespace Euclid.Eqs

open Program Discipline List

variable {Thread : Type}

def World.oneWaiting : World where
  messages := [{ Message.blank with queueErn := "orders", messageId := "first" }]
  queues := [{ Queue.blank with ern := "orders", name := "orders" }]
  processes := fun _ => .fresh
  moment := 1

/-! ### Claims -/

/-- A claim that took: the message was available, and carries the claim's handle after it. -/
structure IsClaim (tid : Thread) (oid : Oid) (receiptHandle : String)
    (event : Event Thread Req Req.Answer World) : Prop where
  claimant : event.thread = tid
  request : event.request = .message (.claim oid receiptHandle)
  available : ∃ msg ∈ event.before.messages, msg.oid = oid ∧ msg.status = .available
  claimed : ∃ msg ∈ event.after.messages, msg.oid = oid ∧ msg.status = .invisible ∧
    msg.receiptHandle = receiptHandle

/-- Some claim of a history took this message, by this thread, under this handle. -/
def ClaimedBy (hist : History Thread Req Req.Answer World) (tid : Thread)
    (oid : Oid) (receiptHandle : String) : Prop :=
  ∃ event ∈ hist, IsClaim tid oid receiptHandle event

/-- The event is the claim a message is still under. -/
structure ClaimOf (env : Env) (msg : Message)
    (event : Event Thread Req Req.Answer World) : Prop where
  isClaim : IsClaim event.thread msg.oid msg.receiptHandle event
  continues : ∃ waiting ∈ event.before.messages, waiting.status = .available ∧
    (waiting.claimed msg.receiptHandle (env.systemClock event.before.moment)).Continues msg

variable {event : Event Thread Req Req.Answer World} {msg : Message} {env : Env}

theorem ClaimOf.later {later : Message} (claimOf : ClaimOf env msg event)
    (continues : msg.Continues later) : ClaimOf env later event := by
  obtain ⟨isClaim, waiting, stored, available, claimed⟩ := claimOf
  refine ⟨?_, waiting, stored, available, ?_⟩
  · rw [continues.oid, continues.receiptHandle]
    exact isClaim
  · rw [continues.receiptHandle]
    exact claimed.trans continues

theorem ClaimOf.invisible (claimOf : ClaimOf env msg event) : msg.status = .invisible := by
  obtain ⟨_, _, _, claimed⟩ := claimOf.continues
  exact claimed.status

structure Leaves (env : Env) (event : Event Thread Req Req.Answer World)
    (claimed : Message) : Prop where
  isClaim : IsClaim event.thread claimed.oid claimed.receiptHandle event
  waiting : ∃ waiting ∈ event.before.messages,
    claimed = waiting.claimed claimed.receiptHandle (env.systemClock event.before.moment)

variable {tid : Thread} {handle : String}

theorem IsClaim.leaves {oid : Oid} (env : Env) (isClaim : IsClaim tid oid handle event) :
    ∃ waiting ∈ event.before.messages, waiting.oid = oid ∧ Leaves env event
      (waiting.claimed handle (env.systemClock event.before.moment)) := by
  obtain ⟨waiting, stored, rfl, _⟩ := isClaim.available
  refine ⟨waiting, stored, rfl, ?_, waiting, stored, rfl⟩
  rw [isClaim.claimant]
  exact isClaim

theorem ClaimOf.left (claimOf : ClaimOf env msg event) :
    ∃ claimed, Leaves env event claimed ∧ claimed.Continues msg := by
  obtain ⟨isClaim, waiting, stored, _, continues⟩ := claimOf
  refine ⟨_, ⟨?_, waiting, stored, rfl⟩, continues⟩
  rw [continues.oid, continues.receiptHandle] at isClaim
  exact isClaim

def Req.spends : Req → Option String
  | .message (.claim _ receiptHandle) => some receiptHandle
  | _ => none

theorem IsClaim.spends {oid : Oid} (isClaim : IsClaim tid oid handle event) :
    event.request.spends = some handle := by
  rw [isClaim.request]
  rfl

/-! ### Identities over a history -/

section Records

variable {env : Env} {processOf : Thread → Nat} {origin world : World} {hist : Past Thread}

section

variable (records : History.Records (machines env processOf) origin hist world)

include records

theorem records_identified (identified : Identified origin.messages origin.moment) :
    Identified world.messages world.moment :=
  records.invariant (fun world => Identified world.messages world.moment) identified
    fun _ _ _ => Identified.step

theorem records_distinguished
    (distinguished : Distinguished origin.messages) : Distinguished world.messages :=
  records.invariant (fun world => Distinguished world.messages) distinguished
    fun _ _ _ => Distinguished.step

theorem records_identified_before
    (identified : Identified origin.messages origin.moment) (mem : event ∈ hist) :
    Identified event.before.messages event.before.moment := by
  obtain ⟨later, earlier, rfl⟩ := append_of_mem mem
  exact records_identified records.suffix.2 identified

theorem records_before (mem : event ∈ hist) : event.before.moment < world.moment := by
  induction hist generalizing world with
  | nil => nomatch mem
  | cons newest earlier ih =>
    obtain ⟨rfl, stepped, before⟩ := records
    have next : newest.after.moment = newest.before.moment + 1 := by
      rw [← machine_moment env (processOf newest.thread) newest.before newest.request]
      exact congrArg World.moment (congrArg Prod.snd stepped).symm
    rcases mem_cons.mp mem with rfl | inEarlier
    · omega
    · have earlierBefore := ih before inEarlier
      omega

end

end Records

/-! ### Who a handle belongs to -/

section Handles

variable [DecidableEq Thread] {env : Env} {processOf : Thread → Nat}
variable {ops : Thread → Traffic} {origin world : World} {hist : Past Thread}
variable {session : Session}

theorem Session.drawn_subset {req : Req} {answer : req.Answer} :
    session.drawn ⊆ (session.after req answer).drawn := by
  by_cases draws : req = .randomUuid
  · subst draws
    exact fun handle drawn => .tail _ drawn
  · rw [Session.after_drawn _ _ draws]
    exact fun handle drawn => drawn

open Session

variable {ops : Thread → Traffic}

theorem sessionsOf_drawn_subset {event : Event Thread Req Req.Answer World}
    {earlier : Past Thread} {tid : Thread} :
    (sessionsOf ops earlier tid).drawn ⊆ (sessionsOf ops (event :: earlier) tid).drawn := by
  by_cases same : tid = event.thread
  · subst same
    rw [sessionsOf, sessionsOf, sessions_self, traffic_after]
    exact drawn_subset
  · rw [sessionsOf, sessionsOf, sessions_of_ne _ _ _ _ same]
    exact fun handle drawn => drawn

theorem drawn_later (ops : Thread → Traffic) (later earlier : Past Thread) (tid : Thread) :
    (sessionsOf ops earlier tid).drawn ⊆ (sessionsOf ops (later ++ earlier) tid).drawn := by
  induction later with
  | nil => exact fun handle drawn => drawn
  | cons event later ih =>
    exact fun handle drawn => sessionsOf_drawn_subset (ih drawn)

theorem unspent_drawn {hist : Past Thread} {tid : Thread} :
    (sessionsOf ops hist tid).unspent ⊆ (sessionsOf ops hist tid).drawn := by
  refine sessions_invariant traffic _ (fun session => session.unspent ⊆ session.drawn)
    (fun tid => nil_subset _) (fun session req answer kept => ?_) hist tid
  rw [traffic_after]
  have cached : ∀ ern config, (session.afterCached ern config).unspent ⊆
      (session.afterCached ern config).drawn := fun ern config => by cases config <;> exact kept
  cases req with
  | systemClock => exact kept
  | steadyClock => exact kept
  | randomUuid => exact cons_subset_cons _ kept
  | process req =>
    cases req with
    | cachedConfig ern => exact cached ern _
    | _ => exact kept
  | queue stmt =>
    cases stmt with
    | readConfig ern => cases answer <;> exact kept
    | _ => exact kept
  | message stmt =>
    cases answer with
    | error => cases stmt <;> exact kept
    | ok answer =>
      cases stmt with
      | claim oid receiptHandle => exact fun handle mem => kept (mem_of_mem_erase mem)
      | _ => exact kept

variable (governed : Governed env processOf ops origin hist world)
variable (identified : Identified origin.messages origin.moment)
variable (unissued : ∀ msg ∈ origin.messages, ∀ moment, origin.moment ≤ moment →
  msg.receiptHandle ≠ env.randomUuid moment)

section

include governed

theorem claimedBy_drawn
    {oid : Oid} {receiptHandle : String} (claimed : ClaimedBy hist tid oid receiptHandle) :
    receiptHandle ∈ (sessionsOf ops hist tid).drawn := by
  induction governed with
  | start =>
    obtain ⟨event, mem, _⟩ := claimed
    nomatch mem
  | step governed asking req allowed ih =>
    obtain ⟨event, mem, isClaim⟩ := claimed
    refine sessionsOf_drawn_subset ?_
    rcases mem_cons.mp mem with rfl | earlier
    · obtain rfl : asking = tid := isClaim.claimant
      obtain rfl : req = .message (.claim oid receiptHandle) := isClaim.request
      exact unspent_drawn allowed
    · exact ih ⟨event, earlier, isClaim⟩

include unissued

/-- A stored message that carries a handle drawn in this history is still under the claim that
gave it the handle. -/
theorem handle_claimOf (stored : msg ∈ world.messages) {moment : Nat}
    (begun : origin.moment ≤ moment)
    (drawn : msg.receiptHandle = env.randomUuid moment) :
    ∃ event ∈ hist, ClaimOf env msg event := by
  induction governed generalizing msg with
  | start => exact absurd drawn (unissued msg stored moment begun)
  | @step earlier world governed asking req allowed ih =>
    have known : ∀ before ∈ world.messages, before.receiptHandle = msg.receiptHandle →
        ∃ event ∈ earlier, ClaimOf env before event :=
      fun before inBefore same => ih inBefore (same.trans drawn)
    have named : msg.receiptHandle ≠ "" := by
      rw [drawn]
      exact env.randomUuid_ne_empty moment
    cases req with
    | message stmt =>
      rcases stmt.origin _ _ _ _ stored with ⟨before, inBefore, sameOid, same⟩ | inserted
      · rcases same with rfl | changes
        · exact exists_mem_cons_of_exists (known msg inBefore rfl)
        · have partly : ∀ written, stmt ≠ .upsert written := by
            rintro written rfl
            exact allowed
          rcases changes.continues partly with continues | cleared | ⟨delayed, ended⟩ | claim
          · obtain ⟨event, mem, claimOf⟩ := known before inBefore continues.receiptHandle.symm
            exact ⟨event, .tail _ mem, claimOf.later continues⟩
          · exact absurd cleared named
          · obtain ⟨event, _, claimOf⟩ :=
              known before inBefore (congrArg Message.receiptHandle ended).symm
            have invisible := claimOf.invisible
            rw [delayed] at invisible
            cases invisible
          · obtain ⟨isClaim, was, becomes⟩ := claim
            refine ⟨_, .head _, ⟨rfl, ?_, ⟨before, inBefore, sameOid, was⟩,
              ⟨msg, stored, rfl, congrArg Message.status becomes, rfl⟩⟩,
              before, inBefore, was, ?_⟩
            · rw [isClaim, sameOid]
            · dsimp only
              rw [← becomes]
              exact .refl msg
      · exact absurd (stores_unclaimed allowed inserted) named
    | _ =>
      exact exists_mem_cons_of_exists (known msg stored rfl)

theorem drawn_claimOf (stored : msg ∈ world.messages)
    (drawn : msg.receiptHandle ∈ (sessionsOf ops hist tid).drawn) :
    ∃ event ∈ hist, event.thread = tid ∧ ClaimOf env msg event := by
  have issued := governed_issued governed
  obtain ⟨moment, begun, _, same⟩ := issued.past tid _ drawn
  obtain ⟨event, mem, claimOf⟩ := handle_claimOf governed unissued stored begun same
  refine ⟨event, mem, ?_, claimOf⟩
  exact issued.apart event.thread tid _
    (claimedBy_drawn governed ⟨event, mem, claimOf.isClaim⟩) drawn

/-! ### What a thread has read back -/

end

/-- The requests that change what a thread has claimed, read back or holds. -/
def Req.IsHolding : Req → Prop
  | .message (.claim _ _) | .message (.readBack _ _) | .message (.moveToDeadLetter _ _ _) => True
  | _ => False

variable {req : Req}

theorem Session.after_holding (session : Session) (answer : req.Answer) (other : ¬req.IsHolding) :
    (session.after req answer).outstanding = session.outstanding ∧
      (session.after req answer).read = session.read ∧
      (session.after req answer).held = session.held := by
  have cached : ∀ ern config, (session.afterCached ern config).outstanding =
      session.outstanding ∧ (session.afterCached ern config).read = session.read ∧
      (session.afterCached ern config).held = session.held :=
    fun ern config => by cases config <;> exact ⟨rfl, rfl, rfl⟩
  cases req with
  | systemClock | steadyClock | randomUuid => exact ⟨rfl, rfl, rfl⟩
  | process req =>
    cases req with
    | cachedConfig ern => exact cached ern _
    | _ => exact ⟨rfl, rfl, rfl⟩
  | queue stmt =>
    cases stmt with
    | readConfig ern => cases answer <;> exact ⟨rfl, rfl, rfl⟩
    | _ => exact ⟨rfl, rfl, rfl⟩
  | message stmt =>
    cases stmt with
    | claim _ _ | readBack _ _ | moveToDeadLetter _ _ _ => exact absurd trivial other
    | _ => cases answer <;> exact ⟨rfl, rfl, rfl⟩

theorem Session.mem_read_after {proc : Nat} {copy : Message} (allowed : session.allows req)
    (read : copy ∈ (session.after req (machine env proc req world).1).read) :
    copy ∈ session.read ∨ copy ∈ world.messages ∧ copy.receiptHandle ∈ session.drawn := by
  by_cases holding : req.IsHolding
  · cases req with
    | message stmt =>
      cases stmt with
      | readBack oids handles =>
        rcases mem_append.mp read with old | new
        · exact .inl old
        · obtain ⟨stored, _, under⟩ : copy ∈ world.messages ∧ copy.oid ∈ oids ∧
              copy.receiptHandle ∈ handles := by
            simpa using mem_filter.mp (mem_inOrder new)
          exact .inr ⟨stored, allowed.1 under⟩
      | claim _ _ | moveToDeadLetter _ _ _ => exact .inl read
      | _ => exact absurd holding id
    | _ => exact absurd holding id
  · rw [(after_holding _ _ holding).2.1] at read
    exact .inl read

include governed unissued in
theorem read_claimOf {copy : Message} (read : copy ∈ (sessionsOf ops hist tid).read) :
    ∃ event ∈ hist, event.thread = tid ∧ ClaimOf env copy event := by
  induction governed with
  | start => nomatch read
  | @step earlier world governed asking req allowed ih =>
    have known : copy ∈ (sessionsOf ops earlier tid).read → ∃ event ∈
        (Event.made (machines env processOf) asking req world :: earlier :
          Past Thread),
        event.thread = tid ∧ ClaimOf env copy event := by
      intro old
      exact exists_mem_cons_of_exists (ih old)
    by_cases own : tid = asking
    · subst own
      rw [sessionsOf, sessions_self, traffic_after] at read
      rcases mem_read_after allowed read with old | ⟨stored, under⟩
      · exact known old
      · exact exists_mem_cons_of_exists (drawn_claimOf governed unissued stored under)
    · rw [sessionsOf, sessions_of_ne _ _ _ _ own] at read
      exact known read

/-! ### What a thread holds -/

/-- The thread has a claim on the message to read back, or holds a copy of it. -/
def Session.Has (session : Session) (msg : Message) : Prop :=
  (msg.oid, msg.receiptHandle) ∈ session.outstanding ∨
    ∃ copy ∈ session.held, copy.oid = msg.oid ∧ copy.receiptHandle = msg.receiptHandle

theorem held_read (ops : Thread → Traffic) (hist : Past Thread) (tid : Thread) :
    (sessionsOf ops hist tid).held ⊆ (sessionsOf ops hist tid).read := by
  refine sessions_invariant traffic _ (fun session => session.held ⊆ session.read)
    (fun tid => nil_subset _) (fun session req answer kept => ?_) hist tid
  rw [traffic_after]
  by_cases holding : req.IsHolding
  · cases req with
    | message stmt =>
      cases answer with
      | error => cases stmt <;> exact kept
      | ok answer =>
        cases stmt with
        | readBack oids handles =>
          intro msg mem
          rcases mem_append.mp mem with old | new
          · exact mem_append_left _ (kept old)
          · exact mem_append_right _ new
        | moveToDeadLetter oids target source =>
          exact fun msg mem => kept (mem_of_mem_filter mem)
        | claim _ _ => exact kept
        | _ => exact absurd holding id
    | _ => exact absurd holding id
  · obtain ⟨_, read, held⟩ := session.after_holding answer holding
    rw [read, held]
    exact kept

/-- What a thread has of a message under its handle it still has after its next request, as
long as the message keeps the handle. -/
theorem Session.Has.after (has : session.Has msg) {proc : Nat} {world : World}
    (identified : Identified world.messages world.moment) (allowed : session.allows req)
    (before : msg ∈ world.messages)
    (unmoved : ∀ oids target source, req = .message (.moveToDeadLetter oids target source) →
      msg.oid ∉ oids) : (session.after req (machine env proc req world).1).Has msg := by
  by_cases holding : req.IsHolding
  · cases req with
    | message stmt =>
      cases stmt with
      | claim oid receiptHandle =>
        rcases has with outstanding | held
        · refine .inl ?_
          show _ ∈ ite _ _ _
          split
          · exact outstanding
          · exact .tail _ outstanding
        · exact .inr held
      | readBack oids handles =>
        rcases has with outstanding | ⟨copy, held, same⟩
        · obtain ⟨cand, under⟩ := allowed.2.2 _ outstanding
          refine .inr ⟨msg, mem_append_right _ ?_, rfl, rfl⟩
          refine mem_inOrder_of_mem ?_ (mem_filter.mpr ⟨before, ?_⟩) cand
          · exact identified.distinct.sublist (filter_sublist.map _)
          · simp [cand, under]
        · exact .inr ⟨copy, mem_append_left _ held, same⟩
      | moveToDeadLetter oids target source =>
        rcases has with outstanding | ⟨copy, held, same⟩
        · exact .inl outstanding
        · refine .inr ⟨copy, mem_filter.mpr ⟨held, ?_⟩, same⟩
          rw [same.1]
          exact decide_eq_true (unmoved oids target source rfl)
      | _ => exact absurd holding id
    | _ => exact absurd holding id
  · obtain ⟨outstanding, _, held⟩ := session.after_holding (machine env proc req world).1 holding
    unfold Has
    rw [outstanding, held]
    exact has

include governed identified unissued in
/-- A message that carries a handle of a thread is outstanding for it, or held by it. -/
theorem drawn_has (stored : msg ∈ world.messages)
    (drawn : msg.receiptHandle ∈ (sessionsOf ops hist tid).drawn) :
    (sessionsOf ops hist tid).Has msg := by
  induction governed generalizing msg with
  | start => nomatch drawn
  | @step earlier world governed asking req allowed ih =>
    have later : Governed env processOf ops origin _ _ := .step governed asking req allowed
    have named : msg.receiptHandle ≠ "" := by
      obtain ⟨moment, _, _, same⟩ := (governed_issued later).past tid _ drawn
      rw [same]
      exact env.randomUuid_ne_empty moment
    obtain ⟨claim, inHistory, claimant, claimOf⟩ := drawn_claimOf later unissued stored drawn
    -- what the thread had of the message before, it has now
    have keeps : ∀ before ∈ world.messages, before.oid = msg.oid →
        before.receiptHandle = msg.receiptHandle →
        before.receiptHandle ∈ (sessionsOf ops earlier tid).drawn →
        (sessionsOf ops (Event.made (machines env processOf) asking req world :: earlier)
          tid).Has msg := by
      intro before inBefore sameOid sameHandle wasDrawn
      have had := ih inBefore wasDrawn
      have same : ∀ session : Session, session.Has before → session.Has msg := by
        intro session has
        unfold Has at has ⊢
        rwa [sameOid, sameHandle] at has
      by_cases own : tid = asking
      · subst own
        rw [sessionsOf, sessions_self, traffic_after]
        refine same _ (had.after (governed_identified governed identified) allowed inBefore ?_)
        rintro oids target source rfl moved
        obtain ⟨old, inOld, becomes⟩ := Collection.mem_updateAll.mp stored
        split at becomes
        · rw [← becomes] at named
          exact absurd rfl named
        · rename_i unselected
          rw [becomes, ← sameOid] at unselected
          exact unselected (decide_eq_true moved)
      · rw [sessionsOf, sessions_of_ne _ _ _ _ own]
        exact same _ had
    -- the thread had drawn the handle before, as nobody claims under one just drawn
    have wasDrawn : msg.receiptHandle ∈ (sessionsOf ops earlier tid).drawn ∨
        ∃ oid handle, req = .message (.claim oid handle) := by
      by_cases isClaim : ∃ oid handle, req = .message (.claim oid handle)
      · exact .inr isClaim
      · rcases mem_cons.mp inHistory with rfl | inEarlier
        · exact absurd ⟨_, _, claimOf.isClaim.request⟩ isClaim
        · left
          rw [← claimant]
          exact claimedBy_drawn governed ⟨claim, inEarlier, claimOf.isClaim⟩
    cases req with
    | message stmt =>
      rcases stmt.origin _ _ _ _ stored with ⟨before, inBefore, sameOid, same⟩ | inserted
      · have oldDrawn : msg.receiptHandle ∈ (sessionsOf ops earlier tid).drawn := by
          rcases wasDrawn with old | ⟨oid, handle, isClaim⟩
          · exact old
          · by_cases own : tid = asking
            · subst own
              rw [sessionsOf, sessions_self, traffic_after,
                after_drawn _ _ (by rw [isClaim]; simp)] at drawn
              exact drawn
            · rwa [sessionsOf, sessions_of_ne _ _ _ _ own] at drawn
        rcases same with rfl | changes
        · exact keeps msg inBefore rfl rfl oldDrawn
        · have partly : ∀ written, stmt ≠ .upsert written := by
            rintro written rfl
            exact allowed
          rcases changes.continues partly with continues | cleared | ⟨delayed, ended⟩ | claimed
          · exact keeps before inBefore sameOid continues.receiptHandle.symm
              (by rwa [← continues.receiptHandle])
          · exact absurd cleared named
          · have sameHandle : before.receiptHandle = msg.receiptHandle := by rw [ended]; rfl
            exact keeps before inBefore sameOid sameHandle (by rwa [sameHandle])
          · obtain ⟨isClaim, was, becomes⟩ := claimed
            subst isClaim
            have ours : msg.receiptHandle ∈ (sessionsOf ops earlier asking).drawn :=
              unspent_drawn allowed
            obtain rfl : tid = asking := (governed_issued governed).apart tid asking _ oldDrawn ours
            rw [sessionsOf_made, if_pos rfl]
            have answer : (machine env (processOf tid)
                (.message (.claim before.oid msg.receiptHandle)) world).1 = .ok 1 :=
              claim_answer env.backend (env.systemClock world.moment) world.moment
                inBefore was msg.receiptHandle
            rw [answer]
            exact .inl (by rw [← sameOid]; exact .head _)
      · exact absurd (stores_unclaimed allowed inserted) named
    | _ =>
      rcases wasDrawn with old | ⟨_, _, isClaim⟩
      · exact keeps msg stored rfl rfl old
      · cases isClaim

/-! ### Every handle is spent once -/

def spent (hist : History Thread Req Req.Answer World) : List String :=
  hist.filterMap fun event => event.request.spends

/-- What is spent is gone: it was drawn, nobody has it left, and it was spent once. -/
structure SpentOnce (ops : Thread → Traffic)
    (hist : History Thread Req Req.Answer World) : Prop where
  distinct : (spent hist).Nodup
  gone : ∀ handle ∈ spent hist, ∀ tid, handle ∉ (sessionsOf ops hist tid).unspent
  wasDrawn : ∀ handle ∈ spent hist, ∃ tid, handle ∈ (sessionsOf ops hist tid).drawn
  unspent : ∀ tid, (sessionsOf ops hist tid).unspent.Nodup

theorem Session.after_unspent {answer : req.Answer}
    (draws : req ≠ .randomUuid) (spends : req.spends = none) :
    (session.after req answer).unspent = session.unspent := by
  have cached : ∀ ern config, (session.afterCached ern config).unspent = session.unspent :=
    fun ern config => by cases config <;> rfl
  cases req with
  | randomUuid => exact absurd rfl draws
  | systemClock | steadyClock => rfl
  | process req =>
    cases req with
    | cachedConfig ern => exact cached ern _
    | _ => rfl
  | queue stmt =>
    cases stmt with
    | readConfig ern => cases answer <;> rfl
    | _ => rfl
  | message stmt =>
    cases stmt with
    | claim _ _ => cases spends
    | _ => cases answer <;> rfl

section

include governed

/-- In every history of traffic a handle is spent once. -/
theorem governed_spentOnce : SpentOnce ops hist := by
  induction governed with
  | start => exact ⟨.nil, by simp [spent], by simp [spent], fun tid => .nil⟩
  | @step earlier world governed asking req allowed ih =>
    have issued := governed_issued governed
    obtain ⟨distinct, gone, wasDrawn, unspent⟩ := ih
    have drawnLater : ∀ handle ∈ spent earlier, ∃ tid, handle ∈ (sessionsOf ops
        (.made (machines env processOf) asking req world :: earlier) tid).drawn := by
      intro handle old
      obtain ⟨tid, drawn⟩ := wasDrawn handle old
      exact ⟨tid, sessionsOf_drawn_subset drawn⟩
    by_cases draws : req = .randomUuid
    · subst draws
      refine ⟨distinct, fun handle old tid => ?_, drawnLater, fun tid => ?_⟩
      · rw [sessionsOf_made]
        split
        · intro mem
          rcases mem_cons.mp mem with rfl | left
          · obtain ⟨drawer, drawn⟩ := wasDrawn _ old
            exact issued.fresh drawer drawn
          · exact gone handle old tid left
        · exact gone handle old tid
      · rw [sessionsOf_made]
        split
        · refine nodup_cons.mpr ⟨fun mem => ?_, unspent tid⟩
          exact issued.fresh tid (unspent_drawn mem)
        · exact unspent tid
    · cases spends : req.spends with
      | none =>
        have same : spent (.made (machines env processOf) asking req world :: earlier) =
            spent earlier := filterMap_cons_none spends
        have kept : ∀ tid, (sessionsOf ops
            (.made (machines env processOf) asking req world :: earlier)
              tid).unspent = (sessionsOf ops earlier tid).unspent := by
          intro tid
          rw [sessionsOf_made]
          split
          · exact after_unspent draws spends
          · rfl
        refine ⟨?_, fun handle old tid => ?_, ?_, fun tid => ?_⟩
        · rw [same]
          exact distinct
        · rw [same] at old
          rw [kept]
          exact gone handle old tid
        · rw [same]
          exact drawnLater
        · rw [kept]
          exact unspent tid
      | some handle =>
        obtain ⟨oid, rfl⟩ : ∃ oid, req = .message (.claim oid handle) := by
          cases req with
          | message stmt =>
            cases stmt with
            | claim oid other => exact ⟨oid, by rw [Option.some.inj spends]⟩
            | _ => cases spends
          | _ => cases spends
        have ours : handle ∈ (sessionsOf ops earlier asking).unspent := allowed
        have left : ∀ tid, (sessionsOf ops (.made (machines env processOf) asking
            (.message (.claim oid handle)) world :: earlier) tid).unspent =
            if tid = asking then (sessionsOf ops earlier tid).unspent.erase handle
              else (sessionsOf ops earlier tid).unspent := by
          intro tid
          rw [sessionsOf_made]
          split <;> rfl
        refine ⟨?_, fun other mem tid => ?_, fun other mem => ?_, fun tid => ?_⟩
        · exact nodup_cons.mpr ⟨fun old => gone handle old asking ours, distinct⟩
        · rw [left]
          rcases mem_cons.mp mem with rfl | old
          · split
            · exact (unspent tid).not_mem_erase
            · rename_i different
              intro still
              exact different (issued.apart tid asking _ (unspent_drawn still)
                (unspent_drawn ours))
          · split
            · exact fun still => gone other old tid (mem_of_mem_erase still)
            · exact gone other old tid
        · rcases mem_cons.mp mem with rfl | old
          · exact ⟨asking, sessionsOf_drawn_subset (unspent_drawn ours)⟩
          · exact drawnLater other old
        · rw [left]
          split
          · exact (unspent tid).erase handle
          · exact unspent tid

theorem claim_unique {first second : Event Thread Req Req.Answer World} (left : first ∈ hist)
    (right : second ∈ hist) {handle : String} (spends : first.request.spends = some handle)
    (alsoSpends : second.request.spends = some handle) : first = second := by
  by_contra different
  have distinct := (governed_spentOnce governed).distinct
  obtain ⟨later, middle, earlier, rfl | rfl⟩ := History.ordered left right different
  all_goals
    rw [spent, filterMap_append, filterMap_cons_some (by assumption)] at distinct
    have apart := (nodup_cons.mp (nodup_append.mp distinct).2.1).1
    refine apart (mem_filterMap.mpr ⟨_, mem_append_right _ (.head _), ?_⟩)
    assumption

include identified

variable {claimed : Message}

/-- What is stored of a message after its claim is what the claim leaves. -/
theorem Leaves.stored {asking : Thread} (allowed : (sessionsOf ops hist asking).allows req)
    (leaves : Leaves env (.made (machines env processOf) asking req world)
      claimed) (stored : msg ∈ (machine env (processOf asking) req world).2.messages)
    (same : msg.oid = claimed.oid) : msg = claimed := by
  have later : Governed env processOf ops origin
      (.made (machines env processOf) asking req world :: hist) _ :=
    .step governed asking req allowed
  obtain ⟨found, alsoStored, sameOid, invisible, under⟩ := leaves.isClaim.claimed
  obtain rfl := (governed_identified later identified).unique stored alsoStored
    (same.trans sameOid.symm)
  obtain ⟨waiting, waited, left⟩ := leaves.waiting
  obtain rfl : req = .message (.claim claimed.oid claimed.receiptHandle) := leaves.isClaim.request
  rcases MessageStatement.origin env.backend (env.systemClock world.moment)
    world.moment world.messages (.claim claimed.oid claimed.receiptHandle) stored with
    ⟨before, inBefore, kept, becomes⟩ | ⟨_, _, _, inserts, _⟩
  · have waitedSame : waiting.oid = before.oid := by rw [kept, same, left, Message.claimed]
    obtain rfl := (governed_identified governed identified).unique waited inBefore waitedSame
    rcases becomes with rfl | changes
    · -- what is still as it was before the claim was not available then
      obtain ⟨other, inWorld, otherSame, available⟩ := leaves.isClaim.available
      have unclaimed := (governed_identified governed identified).unique inBefore inWorld
        (same.trans otherSame.symm)
      rw [unclaimed, available] at invisible
      cases invisible
    · rw [changes.2, left]
      rfl
  · exact absurd inserts id

theorem Leaves.after (mem : event ∈ hist) (leaves : Leaves env event claimed)
    (stored : msg ∈ event.after.messages) (same : msg.oid = claimed.oid) : msg = claimed := by
  obtain ⟨later, earlier, rfl⟩ := append_of_mem mem
  cases governed.upTo with
  | step before asking req allowed => exact leaves.stored before identified allowed stored same

theorem Leaves.continues {other : Event Thread Req Req.Answer World}
    (mem : event ∈ hist) (leaves : Leaves env event claimed)
    (inHistory : other ∈ hist) (claimOf : ClaimOf env msg other)
    (under : msg.receiptHandle = claimed.receiptHandle) : claimed.Continues msg := by
  have alsoSpends := claimOf.isClaim.spends
  rw [under] at alsoSpends
  obtain rfl := claim_unique governed mem inHistory leaves.isClaim.spends alsoSpends
  obtain ⟨waiting, stored, left⟩ := leaves.waiting
  obtain ⟨found, alsoStored, _, continues⟩ := claimOf.continues
  have distinct := (records_identified_before governed.records identified mem).distinct
  have sameOid : waiting.oid = found.oid := by
    have claims := leaves.isClaim.request.symm.trans claimOf.isClaim.request
    have same : claimed.oid = msg.oid := by
      injection claims with statements
      injection statements
    rw [continues.oid, left] at same
    exact same
  rw [inj_on_of_nodup_map distinct stored alsoStored sameOid, ← under] at left
  rw [left]
  exact continues

/-! ### The configuration of a claim -/

end

theorem Session.after_config {session : Session} (answer : req.Answer)
    (allowed : session.allows req) (drew : session.drawn ≠ []) :
    (session.after req answer).config = session.config := by
  cases req with
  | systemClock | steadyClock | randomUuid => rfl
  | process req =>
    cases req with
    | cachedConfig ern => exact absurd allowed.2.1 drew
    | _ => rfl
  | queue stmt =>
    cases stmt with
    | readConfig ern => exact absurd allowed.2.1 drew
    | _ => rfl
  | message stmt => cases stmt <;> cases answer <;> rfl

theorem config_kept {later earlier : Past Thread}
    (governed : Governed env processOf ops origin (later ++ earlier) world)
    (drew : (sessionsOf ops earlier tid).drawn ≠ []) :
    (sessionsOf ops (later ++ earlier) tid).config = (sessionsOf ops earlier tid).config := by
  induction later generalizing world with
  | nil => rfl
  | cons newest later ih =>
    cases governed with
    | step governed asking req allowed =>
      have stillDrew : (sessionsOf ops (later ++ earlier) tid).drawn ≠ [] := by
        intro empty
        have grown := drawn_later ops later earlier tid
        rw [empty] at grown
        exact drew (eq_nil_of_subset_nil grown)
      rw [cons_append, sessionsOf_made]
      split
      · rename_i own
        subst own
        exact (after_config _ allowed stillDrew).trans (ih governed)
      · exact ih governed

end Handles

end Euclid.Eqs
