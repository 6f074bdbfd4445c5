/-
This file proves when a blocked key stays blocked and a deletion keeps its window.

Every handler writes back the whole of the key it has read, so whatever happened to the key in
between is at stake. A delete only needs the key to be there: status and date are its own. A revoke
may not meet a date, and a description or a tag may meet neither another status nor a later date
than the one it brings back. A window must fit into the clock. In a run where every write meets
this, an induction on the history carries what is known of the stored key, and of the copy that each
call holds.
-/

import Euclid.Ekm.Server

namespace Euclid.Ekm

open Program Discipline Option
open Eag (Response)

/-! ### Dates -/

def ticksOfDays (days : Int) : Int := days * 86400000000000

theorem milliseconds_mono {first second : Int} (before : first ≤ second) :
    milliseconds first ≤ milliseconds second :=
  Int.tdiv_le_tdiv (by decide) before

theorem milliseconds_of_milliseconds (date : Int) : milliseconds (date * 1000000) = date :=
  Int.mul_tdiv_cancel _ (by decide)

theorem deletionDateAfter_eq {now days : Int} (start : 0 ≤ now) (some : 1 ≤ days)
    (fits : now + ticksOfDays days < 2 ^ 63) :
    deletionDateAfter now days = now + ticksOfDays days := by
  unfold ticksOfDays at *
  have hours : int64 (24 * days) = 24 * days := int64_of_lt (by omega) (by omega)
  have ticks : int64 (24 * days * 3600000000000) = 24 * days * 3600000000000 :=
    int64_of_lt (by omega) (by omega)
  have sum : now + 24 * days * 3600000000000 = now + days * 86400000000000 := by omega
  unfold deletionDateAfter
  rw [hours, ticks, sum]
  exact int64_of_lt (by omega) fits

theorem milliseconds_add_days {now days : Int} (start : 0 ≤ now) (some : 0 ≤ days) :
    milliseconds (now + ticksOfDays days) = milliseconds now + days * 86400000 := by
  unfold milliseconds ticksOfDays
  rw [Int.tdiv_eq_ediv_of_nonneg (by omega), Int.tdiv_eq_ediv_of_nonneg start]
  omega

/-! ### What has happened -/

variable {Thread : Type}

/-- The events of a run of calls. -/
abbrev Past (Thread : Type) : Type := History Thread Req Req.Answer World

section Past

variable [DecidableEq Thread]

def Req.isFind : Req → Bool
  | .find => true
  | _ => false

def Req.isReadClock : Req → Bool
  | .readClock => true
  | _ => false

def Req.isUpsert : Req → Bool
  | .upsert _ => true
  | _ => false

def foundBy (tid : Thread) : Past Thread → Option Row
  | [] => none
  | event :: earlier =>
    if event.thread = tid ∧ event.request.isFind then event.before.row
    else foundBy tid earlier

def readBy (env : Env) (tid : Thread) : Past Thread → Option Int
  | [] => none
  | event :: earlier =>
    if event.thread = tid ∧ event.request.isReadClock then
      some (env.clock event.before.moment)
    else readBy env tid earlier

end Past

def Call.Blocks : Call → Prop
  | .deleteKey .. => True
  | .revokeKey _ => True
  | _ => False

/-- The event is a call's write that schedules the deletion, so many days later. -/
def Schedules (calls : Thread → Call) (event : Event Thread Req Req.Answer World)
    (days : Int) : Prop :=
  event.request.isUpsert ∧ ∃ keyId, calls event.thread = .deleteKey keyId days

/-- The event takes the key away. -/
def Removes (event : Event Thread Req Req.Answer World) : Prop :=
  event.before.row.isSome ∧ event.after.row = none

section Property

variable [DecidableEq Thread] (env : Env) (calls : Thread → Call)

/-- The last deletion that was scheduled is due at a date: its window, from what its call read from
the clock, has passed. -/
def Scheduled (past : Past Thread) (date : Int) : Prop :=
  ∃ later deletion earlier days reading, past = later ++ deletion :: earlier ∧
    Schedules calls deletion days ∧ (∀ event ∈ later, ∀ days, ¬Schedules calls event days) ∧
    readBy env deletion.thread earlier = some reading ∧
    milliseconds reading + days * 86400000 ≤ date

/-- A blocked key stays blocked, a date stands for a pending deletion, a deletion keeps its window,
and a key that was purged does not come back. Dates are in milliseconds, as they are stored. -/
structure KeepsItsWord (answered : Thread → Option (Response (Option Key))) (past : Past Thread)
    (world : World) : Prop where
  blocked : ∀ tid key, (calls tid).Blocks → answered tid = some (.success key) →
    ∀ row ∈ world.row, row.attributes.status ≠ .available
  dated : ∀ row ∈ world.row, row.deletionDate ≠ none → row.attributes.status = .pendingDeletion
  windowed : History.Meets (fun earlier event => Removes event →
    Scheduled env calls earlier (milliseconds (env.clock event.before.moment))) past
  gone : (∃ event ∈ past, Removes event) → world.row = none

/-- A call may write over a row what it has made of the row that it found. -/
def Call.MayOverwrite : Call → Row → Row → Prop
  | .deleteKey .., _, _ => True
  | .revokeKey _, _, row => row.deletionDate = none
  | _, found, row =>
    found.attributes.status = row.attributes.status ∧
      ∀ date ∈ row.deletionDate, ∃ later ∈ found.deletionDate, date ≤ later

instance Call.decidableMayOverwrite (call : Call) (found row : Row) :
    Decidable (call.MayOverwrite found row) := by
  cases call <;> unfold MayOverwrite <;> infer_instance

/-- The window of a deletion fits into the clock. -/
def Call.FitsAt (reading : Int) : Call → Prop
  | .deleteKey _ days => reading + ticksOfDays days < 2 ^ 63
  | _ => True

instance Call.decidableFitsAt (reading : Int) (call : Call) : Decidable (call.FitsAt reading) := by
  cases call <;> unfold FitsAt <;> infer_instance

/-- The event does no harm: a key that is written is still there, and may be overwritten with what
was made of the row found before; and a window fits into the clock. -/
def Harmless (earlier : Past Thread) (event : Event Thread Req Req.Answer World) : Prop :=
  (event.request.isUpsert → ∃ row ∈ event.before.row,
    ∀ found ∈ foundBy event.thread earlier, (calls event.thread).MayOverwrite found row) ∧
  (event.request.isReadClock → (calls event.thread).FitsAt (env.clock event.before.moment))

instance (earlier : Past Thread) (event : Event Thread Req Req.Answer World) :
    Decidable (Harmless env calls earlier event) := by
  unfold Harmless
  infer_instance

end Property

/-! ### Rows -/

/-- The deletion of a row is pending exactly if it has a date, and the date is not the epoch. -/
structure Row.IsRegular (row : Row) : Prop where
  pending : row.attributes.status = .pendingDeletion ↔ row.deletionDate.isSome
  positive : ∀ date ∈ row.deletionDate, 0 < date

variable {row : Row} {key : Key}

theorem Row.IsRegular.date_kept (regular : row.IsRegular)
    (same : key.deletionDate = row.toKey.deletionDate) :
    key.toDocument.deletionDate = row.deletionDate := by
  unfold Key.toDocument
  rw [same, Row.toKey]
  cases date : row.deletionDate with
  | none => rfl
  | some date' =>
    have positive := regular.positive date' date
    dsimp only [Option.getD]
    rw [if_pos (by omega), milliseconds_of_milliseconds]

theorem Row.IsRegular.undated (regular : row.IsRegular)
    (other : row.attributes.status ≠ .pendingDeletion) : row.deletionDate = none := by
  rw [← not_isSome_iff_eq_none, ← regular.pending]
  exact other

theorem writtenOver_deletion (row : Row) {reading days : Int}
    (pending : key.attributes.status = .pendingDeletion)
    (date : key.deletionDate = deletionDateAfter reading days) (start : 0 ≤ reading)
    (some : 1 ≤ days) (fits : reading + ticksOfDays days < 2 ^ 63) :
    (key.writtenOver row).IsRegular ∧ ∀ date ∈ (key.writtenOver row).deletionDate,
      milliseconds reading + days * 86400000 ≤ date := by
  have written : (key.writtenOver row).deletionDate =
      Option.some (milliseconds reading + days * 86400000) := by
    have later : reading + ticksOfDays days ≠ 0 := by
      unfold ticksOfDays
      omega
    unfold Key.writtenOver Key.toDocument
    rw [date, deletionDateAfter_eq start some fits, if_pos later,
      milliseconds_add_days start (by omega)]
    rfl
  have least : 0 ≤ milliseconds reading := Int.tdiv_nonneg start (by decide)
  rw [written]
  refine ⟨⟨⟨fun _ => by rw [written]; rfl, fun _ => pending⟩, ?_⟩, ?_⟩
  · rw [written]
    rintro _ ⟨⟩
    omega
  · rintro _ ⟨⟩
    exact le_refl _

theorem writtenOver_revoked {found : Row} (regular : found.IsRegular)
    (free : found.attributes.status ≠ .pendingDeletion) (revoked : key.attributes.status = .revoked)
    (same : key.deletionDate = found.toKey.deletionDate) (undated : row.deletionDate = none) :
    (key.writtenOver row).IsRegular ∧ (key.writtenOver row).deletionDate = none := by
  have date : (key.writtenOver row).deletionDate = none := by
    unfold Key.writtenOver
    rw [regular.date_kept same, regular.undated free, bind_some, undated]
    rfl
  refine ⟨⟨⟨fun pending => ?_, fun dated => ?_⟩, fun other mem => ?_⟩, date⟩
  · exact absurd (revoked.symm.trans pending) (by decide)
  · rw [date] at dated
    exact absurd dated (by decide)
  · rw [date] at mem
    nomatch mem

/-- What is written with the status and the date that were found keeps the status of the row, and
dates it no earlier. -/
theorem writtenOver_restored {found : Row} (regular : found.IsRegular)
    (stored : row.IsRegular) (status : key.attributes.status = found.attributes.status)
    (same : key.deletionDate = found.toKey.deletionDate)
    (current : found.attributes.status = row.attributes.status)
    (later : ∀ date ∈ row.deletionDate, ∃ later ∈ found.deletionDate, date ≤ later) :
    (key.writtenOver row).IsRegular ∧
      (key.writtenOver row).attributes.status = row.attributes.status ∧
      ∀ date ∈ (key.writtenOver row).deletionDate, ∃ other ∈ row.deletionDate, other ≤ date := by
  have date : (key.writtenOver row).deletionDate = found.deletionDate := by
    unfold Key.writtenOver
    rw [regular.date_kept same, bind_some]
    cases found' : found.deletionDate with
    | some date => rfl
    | none =>
      cases row' : row.deletionDate with
      | none => rfl
      | some date =>
        obtain ⟨other, mem, _⟩ := later date row'
        exact absurd (found'.symm.trans mem) (by simp)
  have kept : (key.writtenOver row).attributes.status = found.attributes.status := status
  refine ⟨⟨?_, ?_⟩, kept.trans current, ?_⟩
  · rw [kept, date]
    exact regular.pending
  · rw [date]
    exact regular.positive
  · rw [date]
    intro date' mem
    have pending : row.deletionDate.isSome := by
      rw [← stored.pending, ← current, regular.pending, mem]
      rfl
    obtain ⟨other, is⟩ := isSome_iff_exists.mp pending
    obtain ⟨last, found', before⟩ := later other is
    obtain rfl := some.inj (found'.symm.trans mem)
    exact ⟨other, is, before⟩

/-! ### What a call may do -/

inductive Phase where
  | fresh
  | found (key : Key)
  | timed (reading : Int)
  | sweeping (reading : Int)
  | past

/-- What a call may write, once it has read: a deletion its window, a revoke its status, and the
others what they have found. -/
def Call.MayWrite : Call → Phase → Key → Prop
  | .deleteKey _ days, .timed reading, written =>
    1 ≤ days ∧ written.attributes.status = .pendingDeletion ∧
      written.deletionDate = deletionDateAfter reading days
  | .deleteKey .., _, _ => False
  | .revokeKey _, .found key, written =>
    key.attributes.status ≠ .pendingDeletion ∧ written.attributes.status = .revoked ∧
      written.deletionDate = key.deletionDate
  | .purge, _, _ => False
  | _, .found key, written =>
    written.attributes.status = key.attributes.status ∧ written.deletionDate = key.deletionDate
  | _, _, _ => False

/-- A call makes the requests of its program. -/
def allowsCall (call : Call) (phase : Phase) : Req → Prop
  | .find => phase = .fresh
  | .readClock => phase = .fresh ∧ call = .purge ∨
    ∃ keyId days key, call = .deleteKey keyId days ∧ phase = .found key
  | .upsert written => call.MayWrite phase written
  | .purge again => phase = .sweeping again

def afterCall : Call → (req : Req) → req.Answer → Phase
  | _, .find, some key => .found key
  | _, .find, none => .fresh
  | .purge, .readClock, reading => .sweeping reading
  | _, .readClock, reading => .timed reading
  | _, .upsert _, _ => .past
  | _, .purge _, _ => .fresh

/-- The discipline of calls. A session is the call of a thread and how far it is. -/
def calling : Discipline Req Req.Answer (Call × Phase) where
  allows := fun session req => allowsCall session.1 session.2 req
  expects := fun _ _ _ => True
  after := fun session req answer => (session.1, afterCall session.1 req answer)

/-- A call that is answered with a key has written it. -/
def endsOver (outcome : Except Empty (Response (Option Key))) (reached : Call × Phase) : Prop :=
  ∀ key, reached.1.Blocks → outcome = .ok (.success key) → reached.2 = .past

theorem handleKeyTag_follows {call : Call} {ern name : String} {value : Option String}
    (silent : ¬call.Blocks)
    (writes : ∀ key written, written.attributes.status = key.attributes.status →
      written.deletionDate = key.deletionDate → call.MayWrite (.found key) written) :
    (handleKeyTag ern name value).Follows calling (call, .fresh) endsOver := by
  refine ⟨rfl, fun answer _ => ?_⟩
  cases answer with
  | none => exact fun _ blocks => absurd blocks silent
  | some key => exact ⟨writes key _ rfl rfl, fun _ _ _ blocks => absurd blocks silent⟩

theorem call_follows (call : Call) : call.program.Follows calling (call, .fresh) endsOver := by
  cases call with
  | deleteKey keyId days =>
    show (handleDeleteKey keyId days).Follows _ _ _
    unfold handleDeleteKey
    split
    · rintro _ _ ⟨⟩
    split
    · rintro _ _ ⟨⟩
    refine ⟨rfl, fun answer _ => ?_⟩
    cases answer with
    | none => rintro _ _ ⟨⟩
    | some key =>
      refine ⟨.inr ⟨_, _, key, rfl, rfl⟩, fun reading _ => ?_⟩
      exact ⟨⟨by omega, rfl, rfl⟩, fun _ _ _ _ _ => rfl⟩
  | revokeKey ern =>
    show (handleRevokeKey ern).Follows _ _ _
    unfold handleRevokeKey
    split
    · rintro _ _ ⟨⟩
    refine ⟨rfl, fun answer _ => ?_⟩
    cases answer with
    | none => rintro _ _ ⟨⟩
    | some key =>
      dsimp only [Program.bind]
      split
      · rintro _ _ ⟨⟩
      · rename_i free
        exact ⟨⟨free, rfl, rfl⟩, fun _ _ _ _ _ => rfl⟩
  | setKeyDescription ern description =>
    show (handleSetKeyDescription ern description).Follows _ _ _
    unfold handleSetKeyDescription
    split
    · rintro _ _ ⟨⟩
    refine ⟨rfl, fun answer _ => ?_⟩
    cases answer with
    | none => rintro _ _ ⟨⟩
    | some key => exact ⟨⟨rfl, rfl⟩, fun _ _ _ blocks => blocks.elim⟩
  | addKeyTag ern key value =>
    exact handleKeyTag_follows id fun _ _ status date => ⟨status, date⟩
  | deleteKeyTag ern key =>
    exact handleKeyTag_follows id fun _ _ status date => ⟨status, date⟩
  | purge =>
    exact ⟨.inl ⟨rfl, rfl⟩, fun reading _ => ⟨rfl, fun _ _ _ blocks => blocks.elim⟩⟩

/-! ### What holds after every event -/

section Runs

variable [DecidableEq Thread] {env : Env} {calls : Thread → Call}

/-- A call that blocks the key has written it. -/
def IsBlocked (calls : Thread → Call) (past : Past Thread) : Prop :=
  ∃ event ∈ past, event.request.isUpsert ∧ (calls event.thread).Blocks

variable {past : Past Thread}

theorem Scheduled.mono {date later : Int}
    (scheduled : Scheduled env calls past date) (before : date ≤ later) :
    Scheduled env calls past later := by
  obtain ⟨since, deletion, earlier, days, reading, rfl, schedules, last, read, due⟩ := scheduled
  exact ⟨since, deletion, earlier, days, reading, rfl, schedules, last, read, due.trans before⟩

variable {event : Event Thread Req Req.Answer World}

theorem Scheduled.later {date : Int} (scheduled : Scheduled env calls past date)
    (other : ∀ days, ¬Schedules calls event days) : Scheduled env calls (event :: past) date := by
  obtain ⟨since, deletion, earlier, days, reading, rfl, schedules, last, read, due⟩ := scheduled
  refine ⟨event :: since, deletion, earlier, days, reading, rfl, schedules, ?_, read, due⟩
  exact List.forall_mem_cons.mpr ⟨other, last⟩

/-- What a call knows agrees with what has happened. -/
def Agrees (env : Env) (past : Past Thread) (world : World) (tid : Thread) : Call × Phase → Prop
  | (_, .fresh) => True
  | (_, .found key) => ∃ row ∈ foundBy tid past, row.IsRegular ∧ key = row.toKey
  | (call, .timed reading) => readBy env tid past = some reading ∧ 0 ≤ reading ∧ call.FitsAt reading
  | (_, .sweeping reading) => reading ≤ env.clock world.moment
  | (_, .past) => ∃ event ∈ past, event.thread = tid ∧ event.request.isUpsert

/-- What holds of the stored key: it is regular, blocked once it was, and due no earlier than the
last deletion said. -/
structure Stored (env : Env) (calls : Thread → Call) (past : Past Thread)
    (row : Row) : Prop where
  regular : row.IsRegular
  blocked : IsBlocked calls past → row.attributes.status ≠ .available
  scheduled : ∀ date ∈ row.deletionDate, Scheduled env calls past date

/-- The stored key is sound, it is taken away when it is due, for good, and every call agrees with
what has happened. -/
structure Sound (env : Env) (calls : Thread → Call) (past : Past Thread)
    (world : World) (sessions : Thread → Call × Phase) : Prop where
  stored : ∀ row ∈ world.row, Stored env calls past row
  windowed : History.Meets (fun earlier event => Removes event →
    Scheduled env calls earlier (milliseconds (env.clock event.before.moment))) past
  gone : (∃ event ∈ past, Removes event) → world.row = none
  agrees : ∀ tid, Agrees env past world tid (sessions tid)
  named : ∀ tid, (sessions tid).1 = calls tid

variable {session : Call × Phase}

theorem Agrees.later {world : World} {tid : Thread}
    (agrees : Agrees env past world tid session) (other : tid ≠ event.thread) (row : Option Row) :
    Agrees env (event :: past) ⟨row, world.moment + 1⟩ tid session := by
  obtain ⟨call, phase⟩ := session
  have own : ¬event.thread = tid := fun same => other same.symm
  cases phase with
  | fresh => exact trivial
  | found key =>
    show ∃ row ∈ foundBy tid (event :: past), _
    rw [foundBy, if_neg fun both => own both.1]
    exact agrees
  | timed reading =>
    show readBy env tid (event :: past) = _ ∧ _
    rw [readBy, if_neg fun both => own both.1]
    exact agrees
  | sweeping reading => exact le_trans agrees (env.steady (Nat.le_succ _))
  | past =>
    exact List.exists_mem_cons_of_exists agrees

section Step

variable {past : Past Thread} {world : World} {sessions : Thread → Call × Phase} {tid : Thread}

theorem Stored.later (stored : Stored env calls past row) (silent : ¬event.request.isUpsert) :
    Stored env calls (event :: past) row := by
  refine ⟨stored.regular, ?_, fun date mem => ?_⟩
  · rintro ⟨write, mem, writes, blocks⟩
    rcases List.mem_cons.mp mem with rfl | before
    · exact absurd writes silent
    · exact stored.blocked ⟨write, before, writes, blocks⟩
  · exact (stored.scheduled date mem).later fun _ schedules => silent schedules.1

theorem Stored.write {written : Key} (stored : Stored env calls past row)
    (agrees : Agrees env past world tid session) (named : session.1 = calls tid)
    (writes : session.1.MayWrite session.2 written)
    (may : ∀ found ∈ foundBy tid past, (calls tid).MayOverwrite found row) :
    Stored env calls (Event.made (machine env) tid (.upsert written) world :: past)
      (written.writtenOver row) := by
  obtain ⟨call, phase⟩ := session
  obtain rfl : call = calls tid := named
  -- A call that neither deletes nor revokes keeps what is known of the row.
  have restores : ∀ key, phase = .found key → ¬(calls tid).Blocks →
      written.attributes.status = key.attributes.status →
      written.deletionDate = key.deletionDate →
      (∀ found, (calls tid).MayOverwrite found row →
        found.attributes.status = row.attributes.status ∧
          ∀ date ∈ row.deletionDate, ∃ later ∈ found.deletionDate, date ≤ later) →
      Stored env calls (Event.made (machine env) tid (.upsert written) world :: past)
        (written.writtenOver row) := by
    rintro key rfl silent status date overwrites
    obtain ⟨found, has, regular, rfl⟩ := agrees
    obtain ⟨current, later⟩ := overwrites found (may found has)
    obtain ⟨good, kept, dates⟩ :=
      writtenOver_restored regular stored.regular status date current later
    refine ⟨good, ?_, fun date mem => ?_⟩
    · rintro ⟨write, mem, also, blocks⟩
      rw [kept]
      rcases List.mem_cons.mp mem with rfl | before
      · exact absurd blocks silent
      · exact stored.blocked ⟨write, before, also, blocks⟩
    · obtain ⟨other, had, before⟩ := dates date mem
      refine ((stored.scheduled other had).mono before).later fun days schedules => silent ?_
      obtain ⟨_, keyId, same⟩ := schedules
      rw [show calls tid = _ from same]
      exact trivial
  cases called : calls tid with
  | deleteKey keyId days =>
    rw [called] at writes
    cases phase with
    | timed reading =>
      obtain ⟨some, pending, date⟩ := writes
      obtain ⟨read, start, fits⟩ := agrees
      rw [called] at fits
      obtain ⟨regular, dates⟩ := writtenOver_deletion row pending date start some fits
      refine ⟨regular, fun _ => ?_, fun date mem => ?_⟩
      · rw [show (written.writtenOver row).attributes.status = _ from pending]
        decide
      · exact ⟨[], _, past, days, reading, rfl, ⟨rfl, keyId, called⟩,
          fun _ mem => absurd mem List.not_mem_nil, read, dates date mem⟩
    | _ => exact writes.elim
  | revokeKey ern =>
    rw [called] at writes may
    cases phase with
    | found key =>
      obtain ⟨free, revoked, date⟩ := writes
      obtain ⟨found, has, regular, rfl⟩ := agrees
      obtain ⟨good, undated⟩ := writtenOver_revoked regular free revoked date (may found has)
      refine ⟨good, fun _ => ?_, fun date mem => ?_⟩
      · rw [show (written.writtenOver row).attributes.status = _ from revoked]
        decide
      · exact absurd (undated.symm.trans mem) (by simp)
    | _ => exact writes.elim
  | purge =>
    rw [called] at writes
    exact writes.elim
  | _ =>
    rw [called] at writes restores
    cases phase with
    | found key => exact restores key rfl id writes.1 writes.2 fun _ => id
    | _ => exact writes.elim

variable {req : Req}

section

variable (sound : Sound env calls past world sessions)

include sound

variable (allowed : allowsCall (sessions tid).1 (sessions tid).2 req)
  (harmless : Harmless env calls past (Event.made (machine env) tid req world))

include harmless in
include allowed in
theorem Sound.stored_step :
    ∀ row ∈ req.effect world.row, Stored env calls
      (Event.made (machine env) tid req world :: past) row := by
  intro row mem
  cases req with
  | find => exact (sound.stored row mem).later Bool.false_ne_true
  | readClock => exact (sound.stored row mem).later Bool.false_ne_true
  | purge now => exact (sound.stored row (mem_filter_iff.mp mem).1).later Bool.false_ne_true
  | upsert key =>
    obtain ⟨before, is, may⟩ := harmless.1 rfl
    obtain rfl := some.inj mem
    rw [show world.row = some before from is]
    exact (sound.stored before is).write (sound.agrees tid) (sound.named tid) allowed may

include allowed in
theorem Sound.removes_step (removes : Removes (Event.made (machine env) tid req world)) :
    Scheduled env calls past (milliseconds (env.clock world.moment)) := by
  obtain ⟨there, away⟩ := removes
  obtain ⟨row, is⟩ := isSome_iff_exists.mp there
  replace is : world.row = some row := is
  replace away : req.effect world.row = none := away
  rw [is] at away
  cases req with
  | find => exact absurd away (by simp [Req.effect])
  | readClock => exact absurd away (by simp [Req.effect])
  | upsert key => exact absurd away (by simp [Req.effect])
  | purge now =>
    have due : row.IsDue now := by
      by_contra other
      rw [Req.effect, filter_some_pos (by simpa using other)] at away
      nomatch away
    obtain ⟨date, dated, due⟩ := due
    have agrees := sound.agrees tid
    rw [show sessions tid = ((sessions tid).1, Phase.sweeping now) from
      Prod.ext rfl allowed] at agrees
    have read : now ≤ env.clock world.moment := agrees
    exact ((sound.stored row is).scheduled date dated).mono (due.trans (milliseconds_mono read))

include harmless in
theorem Sound.gone_step
    (removed : ∃ event ∈ Event.made (machine env) tid req world :: past, Removes event) :
    req.effect world.row = none := by
  obtain ⟨event, mem, removes⟩ := removed
  rcases List.mem_cons.mp mem with rfl | before
  · exact removes.2
  · have gone := sound.gone ⟨event, before, removes⟩
    cases req with
    | find => exact gone
    | readClock => exact gone
    | purge now =>
      rw [gone]
      rfl
    | upsert key =>
      obtain ⟨row, is, _⟩ := harmless.1 rfl
      exact absurd (gone.symm.trans is) (by simp)

include harmless in
include allowed in
theorem Sound.own_step :
    Agrees env (Event.made (machine env) tid req world :: past) (machine env tid req world).2 tid
      (calling.after (sessions tid) req (machine env tid req world).1) := by
  have named := sound.named tid
  generalize sessions tid = session at allowed named ⊢
  obtain ⟨call, phase⟩ := session
  obtain rfl : call = calls tid := named
  cases req with
  | find =>
    show Agrees _ _ _ _ (calls tid, afterCall _ .find (world.row.map Row.toKey))
    cases found : world.row with
    | none => exact trivial
    | some row =>
      refine ⟨row, ?_, (sound.stored row found).regular, rfl⟩
      rw [foundBy, if_pos ⟨rfl, rfl⟩]
      exact found
  | readClock =>
    have start : 0 ≤ env.clock world.moment := env.epoch.trans (env.steady (Nat.zero_le _))
    have read : readBy env tid
        (Event.made (machine env) tid .readClock world :: past) =
          some (env.clock world.moment) := by
      rw [readBy, if_pos ⟨rfl, rfl⟩]
    have fits : (calls tid).FitsAt _ := harmless.2 rfl
    show Agrees _ _ _ _ (calls tid, afterCall _ .readClock (env.clock world.moment))
    cases called : calls tid with
    | purge => exact env.steady (Nat.le_succ _)
    | _ => exact ⟨read, start, called ▸ fits⟩
  | upsert key =>
    show Agrees _ _ _ _ (calls tid, afterCall _ (.upsert key) _)
    cases calls tid <;> exact ⟨_, .head _, rfl, rfl⟩
  | purge now =>
    show Agrees _ _ _ _ (calls tid, afterCall _ (.purge now) _)
    cases calls tid <;> exact trivial

end

end Step

theorem sound_of_governed {origin world : World}
    (governed : calling.Governs (machine env) (fun tid => (calls tid, .fresh)) origin past world)
    (start : ∀ row ∈ origin.row, row.attributes.status = .available ∧ row.deletionDate = none)
    (meets : History.Meets (Harmless env calls) past) :
    Sound env calls past world (calling.sessions (fun tid => (calls tid, .fresh)) past) := by
  induction governed with
  | start =>
    refine ⟨fun row mem => ?_, trivial, ?_, fun _ => trivial, fun _ => rfl⟩
    · obtain ⟨available, undated⟩ := start row mem
      refine ⟨⟨?_, fun date mem => ?_⟩, ?_, fun date mem => ?_⟩
      · rw [available, undated]
        decide
      · exact absurd (undated.symm.trans mem) (by simp)
      · rintro ⟨_, mem, _⟩
        nomatch mem
      · exact absurd (undated.symm.trans mem) (by simp)
    · rintro ⟨_, mem, _⟩
      nomatch mem
  | @step past world governed tid req allowed ih =>
    have sound := ih meets.2
    refine ⟨sound.stored_step allowed meets.1, ⟨sound.removes_step allowed, sound.windowed⟩,
      sound.gone_step meets.1, fun other => ?_, fun other => ?_⟩
    · rw [sessions_cons]
      split
      · rename_i same
        rw [same]
        exact sound.own_step allowed meets.1
      · rename_i different
        exact (sound.agrees other).later different _
    · rw [sessions_cons]
      split
      · exact sound.named other
      · exact sound.named other

end Runs

/-! ### Runs -/

def answered {Thread : Type} (pool : Pool Thread Req Req.Answer Empty (Response (Option Key)) World)
    (tid : Thread) : Option (Response (Option Key)) :=
  match pool.programs tid with
  | .done response => some response
  | _ => none

theorem done_of_answered {Thread : Type} {tid : Thread} {response : Response (Option Key)}
    {pool : Pool Thread Req Req.Answer Empty (Response (Option Key)) World}
    (success : answered pool tid = some response) : pool.programs tid = .done response := by
  unfold answered at success
  split at success
  · rename_i done
    rw [done, some.inj success]
  · nomatch success

/-- Every thread makes its call about one key, one request after the other as the schedule lets
it. -/
def interleave [DecidableEq Thread] (env : Env) (row : Row)
    (calls : Thread → Call) (schedule : List Thread) :
    Pool Thread Req Req.Answer Empty (Response (Option Key)) World :=
  (Pool.start ⟨some row, 0⟩ fun tid => (calls tid).program).run (machine env) schedule

/-- However the calls about a new key are interleaved, if every event does no harm, then once a
delete or a revoke was answered with success the key is never available again, a key with a deletion
date is pending deletion, the key is taken away only when the window of the last deletion has
passed, and from then on there is none. -/
theorem keeps_its_word [DecidableEq Thread] (env : Env) (row : Row)
    (calls : Thread → Call) (schedule : List Thread) (created : row.attributes.status = .available)
    (undated : row.deletionDate = none) (harmless : History.Meets (Harmless env calls)
      (interleave env row calls schedule).history) :
    KeepsItsWord env calls (answered (interleave env row calls schedule))
      (interleave env row calls schedule).history
      (interleave env row calls schedule).world := by
  obtain ⟨governed, following⟩ := governs_run calling (machine env)
    (fun tid => (calls tid, .fresh)) _ ⟨some row, 0⟩ _
    (fun tid => call_follows (calls tid)) (fun _ _ _ _ _ _ => trivial) schedule
  have start : ∀ other ∈ some row, other.attributes.status = .available ∧
      other.deletionDate = none := by
    rintro _ ⟨⟩
    exact ⟨created, undated⟩
  have sound := sound_of_governed governed start harmless
  refine ⟨fun tid key blocks success => ?_, fun row' mem dated => ?_, sound.windowed, sound.gone⟩
  · have ends := following tid
    rw [show ((Pool.start _ _).run _ schedule).programs tid = _ from done_of_answered
      success] at ends
    have past := ends key (by rw [sound.named]; exact blocks) rfl
    have agrees := sound.agrees tid
    rw [show calling.sessions _ _ tid = (_, Phase.past) from Prod.ext rfl past] at agrees
    obtain ⟨write, mem, same, writes⟩ := agrees
    intro row' stored
    exact (sound.stored row' stored).blocked ⟨write, mem, writes, by rw [same]; exact blocks⟩
  · exact ((sound.stored row' mem).regular.pending).mpr (isSome_iff_ne_none.mpr dated)

/-! ### Overlapping calls -/

def Row.created : Row where
  attributes :=
    { region := "eu"
      accountId := "1"
      nameSpace := "default"
      ern := "ern:ekm:key"
      name := "key"
      description := ""
      algorithm := "AES"
      length := 32
      keyMaterial := "material"
      status := .available
      tags := fun _ => none }
  deletionDate := none

def Env.hours : Env where
  clock moment := 3600000000000 * moment
  steady _ _ less := Int.mul_le_mul_of_nonneg_left (Int.ofNat_le.mpr less) (by decide)
  epoch := by decide

/-- Someone describes a key, someone deletes it, and all others sweep. -/
def describedAndDeleted (days : Int) : ℕ → Call
  | 0 => .setKeyDescription "ern:ekm:key" "for invoices"
  | 1 => .deleteKey "key" days
  | _ => .purge

/-- A key is described, deleted, and purged a day later. -/
theorem purged_after_a_day : KeepsItsWord Env.hours (describedAndDeleted 1)
      (answered (interleave Env.hours Row.created (describedAndDeleted 1)
        ([0, 0, 1, 1, 1] ++ (List.range 12).flatMap fun sweep => [sweep + 2, sweep + 2])))
      (interleave Env.hours Row.created (describedAndDeleted 1)
        ([0, 0, 1, 1, 1] ++ (List.range 12).flatMap fun sweep => [sweep + 2, sweep + 2])).history
      (interleave Env.hours Row.created (describedAndDeleted 1)
        ([0, 0, 1, 1, 1] ++ (List.range 12).flatMap fun sweep => [sweep + 2, sweep + 2])).world :=
  keeps_its_word Env.hours Row.created (describedAndDeleted 1) _ rfl rfl (by decide)

/-- A description that was read before the key was deleted is written after that: the key is
available again, and its deletion goes on. -/
theorem described_while_deleted : ¬KeepsItsWord Env.hours (describedAndDeleted 7)
      (answered (interleave Env.hours Row.created (describedAndDeleted 7) [0, 1, 1, 1, 0]))
      (interleave Env.hours Row.created (describedAndDeleted 7) [0, 1, 1, 1, 0]).history
      (interleave Env.hours Row.created (describedAndDeleted 7) [0, 1, 1, 1, 0]).world := by
  intro keeps
  have dated := keeps.dated _ rfl
  exact absurd (dated (by decide)) (by decide)

end Euclid.Ekm
