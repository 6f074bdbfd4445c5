/-
This file bounds how often an event is handed to a handler.

An event is attempted once for each claim, and the count is judged in one place: where a
handler has failed. A lease that merely runs out goes back to pending in the reaper, which
does not look at the count, and so do the two other statements that put an event back
blindly. As long as whatever is put back has an attempt left, an event is handed on
`kMaxAttempts` times at most, and a consumer that stops in the middle changes nothing
about that.
-/

import Euclid.Bus.Claim

namespace Euclid.Bus

open Program Discipline List Option

/-! ### Putting back -/

/-- A statement that makes an event pending again. -/
def EventStatement.putsBack (stmt : EventStatement) (event : StoredEvent) : Bool :=
  match stmt with
  | .requeue .. | .reap _ | .release .. => stmt.selects event
  | _ => false

/-- A request that makes an event pending again. -/
def Req.putsBack : Req → StoredEvent → Bool
  | .event stmt, stored => stmt.putsBack stored
  | _, _ => false

/-- How far an event can get: a claimed one has been attempted, and a module's event that waits
has an attempt left. -/
structure StoredEvent.IsBounded (event : StoredEvent) : Prop where
  nonneg : 0 ≤ event.attempts
  attempted : event.claimToken ≠ none → 0 < event.attempts
  bounded : ¬isExternal event.targetModule → event.attempts ≤ kMaxAttempts
  waiting : ¬isExternal event.targetModule → event.status = .pending → event.attempts < kMaxAttempts

theorem StoredEvent.IsFresh.isBounded {event : StoredEvent} (fresh : event.IsFresh) :
    event.IsBounded := by
  refine ⟨le_of_eq fresh.unattempted.symm, fun claimed => absurd fresh.unclaimed claimed, ?_, ?_⟩
  · intro _
    rw [fresh.unattempted]
    decide
  · intro _ _
    rw [fresh.unattempted]
    decide

/-- A statement that claims no module event out of turn, and puts back none that has no attempt
left, keeps events bounded. -/
theorem EventStatement.bounded {stmt : EventStatement} {before after : StoredEvent}
    (bounded : before.IsBounded) (foreign : ∀ oids now claimedBy claimToken visibleAt,
      stmt = .claimClaimable oids now claimedBy claimToken visibleAt → before.oid ∈ oids →
        isExternal before.targetModule)
    (inTime : stmt.putsBack before → ¬isExternal before.targetModule →
      before.attempts < kMaxAttempts)
    (becomes : stmt.effect before = some after) : after.IsBounded := by
  unfold effect at becomes
  split at becomes
  swap
  · obtain rfl := some.inj becomes
    exact bounded
  rename_i selected
  cases stmt with
  | claimPending oids claimedBy claimToken visibleAt =>
    obtain rfl := some.inj becomes
    have pending : before.status = .pending := (of_decide_eq_true selected).2
    refine ⟨?_, fun _ => ?_, fun inside => ?_, fun _ waits =>
      absurd waits (by simp [StoredEvent.claimed])⟩
    · exact Int.le_add_one bounded.nonneg
    · exact Int.lt_add_one_of_le bounded.nonneg
    · exact bounded.waiting inside pending
  | claimClaimable oids now claimedBy claimToken visibleAt =>
    obtain rfl := some.inj becomes
    have named : before.oid ∈ oids := of_decide_eq_true (Bool.and_eq_true_iff.mp selected).1
    have outside := foreign _ _ _ _ _ rfl named
    refine ⟨?_, fun _ => ?_, fun inside => absurd outside inside,
      fun inside => absurd outside inside⟩
    · exact Int.le_add_one bounded.nonneg
    · exact Int.lt_add_one_of_le bounded.nonneg
  | requeue oids visibleAt =>
    obtain rfl := some.inj becomes
    exact ⟨bounded.nonneg, bounded.attempted, bounded.bounded, fun inside _ =>
      inTime selected inside⟩
  | reap now =>
    obtain rfl := some.inj becomes
    exact ⟨bounded.nonneg, bounded.attempted, bounded.bounded, fun inside _ =>
      inTime selected inside⟩
  | release oid visibleAt expiresAt =>
    obtain rfl := some.inj becomes
    exact ⟨bounded.nonneg, bounded.attempted, bounded.bounded, fun inside _ =>
      inTime selected inside⟩
  | hold sourceErn =>
    obtain rfl := some.inj becomes
    exact ⟨bounded.nonneg, bounded.attempted, bounded.bounded,
      fun _ waits => absurd waits (by simp [StoredEvent.heldFor])⟩
  | deleteMany | deleteOne | acknowledge | expire => cases becomes
  | _ => cases selected

/-! ### Candidates of external subscribers -/

/-- The candidates a request showed to an external subscriber. -/
def Req.candidates : (req : Req) → req.Answer → List Oid
  | .event (.findClaimable ..), .ok oids => oids
  | _, _ => []

variable {oid : Oid}

theorem Session.after_candidates {session : Session} {req : Req} {answer : req.Answer}
    (named : oid ∈ (session.after req answer).candidates) :
    oid ∈ session.candidates ∨ oid ∈ req.candidates answer := by
  cases req with
  | handlerReturned doc =>
    have same : (session.afterHandler doc answer).candidates = session.candidates := by
      unfold afterHandler
      split
      · rfl
      · split <;> rfl
    exact .inl (same ▸ named)
  | event stmt =>
    cases stmt with
    | findClaimable => cases answer with
      | error fault => exact .inl named
      | ok oids => exact .inr named
    | _ => cases answer <;> exact .inl named
  | storeDeadLetter letter => cases answer <;> exact .inl named
  | _ => exact .inl named

theorem machine_candidates {env : Env} {proc : Nat} {world : World}
    {req : Req} (shown : oid ∈ req.candidates (machine env proc req world).1) :
    ∃ targetModule now limit, req = .event (.findClaimable targetModule now limit) ∧
      ∃ event ∈ world.events, event.oid = oid ∧ event.targetModule = targetModule := by
  cases req with
  | event stmt =>
    cases stmt with
    | findClaimable targetModule now limit =>
      cases answered :
          (machine env proc (.event (.findClaimable targetModule now limit)) world).1 with
      | error fault =>
        rw [answered] at shown
        nomatch shown
      | ok oids =>
        rw [answered] at shown
        obtain ⟨rfl, -⟩ := machine_event_ok env proc world answered
        obtain ⟨event, found, same⟩ := mem_map.mp shown
        have chosen := (perm_insertionSort _ _).mem_iff.mp (mem_of_mem_take found)
        obtain ⟨stored, meets⟩ := mem_filter.mp chosen
        exact ⟨targetModule, now, limit, rfl, event, stored, same,
          of_decide_eq_true (Bool.and_eq_true_iff.mp meets).1⟩
    | _ => nomatch shown
  | _ => nomatch shown

section History

variable {Thread : Type} [DecidableEq Thread]
variable {env : Env} {processOf : Thread → Nat} {ops : Thread → Traffic}
variable {subscriptions : Subscriptions} {world : World} {hist : Past Thread}
  (governed : Governed env processOf ops subscriptions hist world) {oid : Oid}

include governed in
theorem candidates_foreign {tid : Thread} (named : oid ∈ (sessionsOf ops hist tid).candidates) :
    Tracked (fun event => isExternal event.targetModule) oid world := by
  obtain ⟨later, event, earlier, rfl, rfl, shown⟩ :=
    sessions_learned traffic _ (fun session => oid ∈ session.candidates)
      (fun _ req answer => oid ∈ req.candidates answer)
      (fun session req answer => Session.after_candidates) not_mem_nil named
  have kept : ∀ (tid : Thread) (req : Req) (world : World),
      Tracked (fun event => isExternal event.targetModule) oid world →
        Tracked (fun event => isExternal event.targetModule) oid
          (machines env processOf tid req world).2 := by
    intro tid req world tracked
    refine tracked.step req fun before _ _ foreign after becomes => ?_
    rw [(Req.effect_same becomes).targetModule]
    exact foreign
  obtain ⟨allowed, made⟩ := governed.made
  rw [made] at shown
  obtain ⟨targetModule, now, limit, asked, found, stored, rfl, rfl⟩ := machine_candidates shown
  rw [asked] at allowed
  have before : Tracked (fun event => isExternal event.targetModule) found.oid event.before :=
    (governed_identified governed.before).tracked stored allowed
  have after : Tracked (fun event => isExternal event.targetModule) found.oid event.after := by
    rw [made]
    exact kept _ _ _ before
  exact governed.records.since _ after kept

/-! ### Every run -/

/-- Whatever module event is put back to pending has an attempt left. -/
def PutBackInTime (_earlier : History Thread Req Req.Answer World)
    (event : Event Thread Req Req.Answer World) : Prop :=
  ∀ stored ∈ event.before.events, event.request.putsBack stored → ¬isExternal stored.targetModule →
    stored.attempts < kMaxAttempts

instance (earlier : History Thread Req Req.Answer World)
    (event : Event Thread Req Req.Answer World) : Decidable (PutBackInTime earlier event) :=
  inferInstanceAs (Decidable (∀ stored ∈ event.before.events, event.request.putsBack stored →
    ¬isExternal stored.targetModule → stored.attempts < kMaxAttempts))

/-- The copies of an event that handlers were given. -/
def handings (hist : History Thread Req Req.Answer World) (oid : Oid) : List StoredEvent :=
  hist.filterMap fun event => event.request.handed.filter fun doc => doc.oid = oid

include governed in
theorem governed_bounded (kept : History.Meets PutBackInTime hist) :
    ∀ event ∈ world.events, event.IsBounded := by
  induction governed with
  | start => exact fun event stored => absurd stored not_mem_nil
  | @step earlier world governed asking req allowed ih =>
    have inTime : PutBackInTime earlier
      (Event.made (machines env processOf) asking req world) := kept.1
    intro event stored
    rcases machine_origin stored with ⟨before, wasStored, rfl | becomes⟩ | new
    · exact ih kept.2 event wasStored
    · have bounded := ih kept.2 before wasStored
      cases req with
      | event stmt =>
        refine EventStatement.bounded bounded ?_ (inTime before wasStored) becomes
        rintro oids now claimedBy claimToken visibleAt rfl named
        obtain ⟨-, -, -, rfl⟩ := allowed
        exact (candidates_foreign governed named).each before wasStored rfl
      | _ =>
        obtain rfl := some.inj becomes
        exact bounded
    · exact (added_isFresh allowed new).isBounded

/-- Handed to handlers at most so many times. -/
def AttemptsBounded (hist : History Thread Req Req.Answer World) : Prop :=
  ∀ oid, (∀ doc ∈ handings hist oid, ¬isExternal doc.targetModule) →
    ((handings hist oid).length : Int) ≤ kMaxAttempts

variable {doc : StoredEvent}

omit [DecidableEq Thread] in
theorem mem_handings : doc ∈ handings hist oid ↔
    doc.oid = oid ∧ ∃ event ∈ hist, event.request.handed = some doc := by
  simp only [handings, mem_filterMap, filter_eq_some_iff, decide_eq_true_eq]
  constructor
  · rintro ⟨event, happened, handed, same⟩
    exact ⟨same, event, happened, handed⟩
  · rintro ⟨same, event, happened, handed⟩
    exact ⟨event, happened, handed, same⟩

include governed in
theorem handings_nodup : ((handings hist oid).map StoredEvent.attempts).Nodup := by
  induction governed with
  | start => exact .nil
  | @step earlier world governed asking req allowed ih =>
    have whole := Governs.step governed asking req allowed
    unfold handings at ih ⊢
    rw [filterMap_cons]
    split
    · exact ih
    rename_i doc chosen
    obtain ⟨handed, same⟩ := filter_eq_some_iff.mp chosen
    refine nodup_cons.mpr ⟨fun twice => ?_, ih⟩
    obtain ⟨copy, isHanding, sameAttempts⟩ := mem_map.mp twice
    obtain ⟨sameOid, past, happened, handedBefore⟩ := mem_handings.mp isHanding
    obtain ⟨middle, oldest, rfl⟩ := append_of_mem happened
    exact handed_attempts whole handed handedBefore
      ((of_decide_eq_true same).trans sameOid.symm) sameAttempts.symm

include governed in
theorem handings_bounded (kept : History.Meets PutBackInTime hist)
    (isHanding : doc ∈ handings hist oid) (inside : ¬isExternal doc.targetModule) :
    0 < doc.attempts ∧ doc.attempts ≤ kMaxAttempts := by
  obtain ⟨-, event, happened, handed⟩ := mem_handings.mp isHanding
  obtain ⟨later, earlier, rfl⟩ := append_of_mem happened
  obtain ⟨read, past, -, stored, oids, claimToken, token, -⟩ :=
    batch_readBack governed.before (handed_waits governed.upTo handed)
  obtain ⟨middle, oldest, rfl⟩ := append_of_mem past
  have bounded := governed_bounded governed.before.before
    (History.Meets.suffix (History.Meets.suffix kept)) doc stored
  exact ⟨bounded.attempted (by rw [token]; exact some_ne_none _), bounded.bounded inside⟩

/-- In every run where whatever module event is put back to pending has an attempt left, an event
is handed to handlers `kMaxAttempts` times at most. -/
theorem attempts_bounded (env : Env) (processOf : Thread → Nat)
    (ops : Thread → Traffic) (subscriptions : Subscriptions) (schedule : List Thread)
    (kept : History.Meets PutBackInTime
      ((Traffic.pool env processOf (.opened subscriptions) ops).run
        (machines env processOf) schedule).history) :
    AttemptsBounded ((Traffic.pool env processOf (.opened subscriptions) ops).run
      (machines env processOf) schedule).history := by
  obtain ⟨governed, -⟩ := traffic_run env processOf ops subscriptions schedule
  generalize (Traffic.pool env processOf (.opened subscriptions) ops).run
    (machines env processOf) schedule = pool at kept governed
  intro oid inside
  have attempts : (handings pool.history oid).map StoredEvent.attempts ⊆
      (List.range kMaxAttempts.toNat).map fun place : Nat => (place : Int) + 1 := by
    intro attempt among
    obtain ⟨doc, isHanding, rfl⟩ := mem_map.mp among
    obtain ⟨attempted, bounded⟩ := handings_bounded governed kept isHanding (inside doc isHanding)
    refine mem_map.mpr ⟨(doc.attempts - 1).toNat, mem_range.mpr ?_, ?_⟩ <;> omega
  have fewer := (subperm_of_subset (handings_nodup governed) attempts).length_le
  rw [length_map, length_map, length_range] at fewer
  exact Int.ofNat_le.mpr fewer

end History

/-! ### Both outcomes -/

/-- One publisher, and pairs of a consumer and a reaper, one after the other. -/
def consumersAndReapers (place : Fin 13) : Traffic :=
  if place = 0 then .single "made" .null "esm" .none
  else if place.val % 2 = 1 then .poll "eqs"
  else .sweep

/-- A consumer whose handler fails puts the event back, and the next one is handed it again. -/
theorem attempts_bounded_of_failure :
    let env : Env := { Env.stepping 1 with succeeds := fun _ _ => false }
    AttemptsBounded ((Traffic.pool env (fun _ => 0) (.opened (.ofModule "eqs" "made"))
      consumersAndReapers).run (machines env fun _ => 0)
        (List.replicate 10 0 ++ List.replicate 12 1 ++ List.replicate 12 3)).history := by
  intro env
  exact attempts_bounded env (fun _ => 0) consumersAndReapers _ _ (by decide)

/-- A consumer that stops while a handler has the event, and a reaper that puts it back, six times
over: the event is handed on for a sixth time. -/
theorem sixth_attempt : ¬AttemptsBounded ((Traffic.pool (.stepping 10000) (fun _ => 0)
      (.opened (.ofModule "eqs" "made")) consumersAndReapers).run
        (machines (.stepping 10000) fun _ => 0)
        (List.replicate 10 0 ++ (List.finRange 13).tail.flatMap fun place =>
          List.replicate 6 place)).history := by
  intro bounded
  generalize final : (Traffic.pool (.stepping 10000) (fun _ => 0)
      (.opened (.ofModule "eqs" "made")) consumersAndReapers).run
        (machines (.stepping 10000) fun _ => 0)
        (List.replicate 10 0 ++ (List.finRange 13).tail.flatMap fun place =>
          List.replicate 6 place) = pool at bounded
  have handed : (∀ doc ∈ handings pool.history (5, 0), ¬isExternal doc.targetModule) ∧
      (handings pool.history (5, 0)).length = 6 := by
    rw [← final]
    decide +kernel
  have fewer := bounded (5, 0) handed.1
  rw [handed.2] at fewer
  exact absurd fewer (by decide)

end Euclid.Bus
