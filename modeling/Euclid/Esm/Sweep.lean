/-
This file follows an object while sweeps of its bucket go on in any number of instances, and shows
when a sweep leaves it alone in its grace period and after a use.

A sweep judges an object by the page that it read, and marks it later if it is still online and
still the same file. In between others may archive, restore, use and write the object. A page notes
that, so that what a sweep knows can be compared with what is there: as long as nothing was noted,
an object that is online and still the same file has the times of the page. Times are in
milliseconds, on one clock.
-/

import Euclid.Esm.Repository
import Euclid.Interleaving

namespace Euclid.Esm.Sweep

open Option

open Core (Text)

/-! ### Rules -/

structure LifecycleRule where
  id : String
  prefixText : Text
  archiveAfterDays : Int
  restoreDays : Int
  enabled : Bool

/-- `RuleFor`: the first of those with the longest prefix. -/
def ruleFor (rules : List LifecycleRule) (key : Text) : Option LifecycleRule :=
  rules.foldl (fun best rule =>
    if rule.enabled = false ∨ ¬rule.prefixText <+: key then best
    else
      match best with
      | none => some rule
      | some other =>
        if other.prefixText.length < rule.prefixText.length then some rule else best)
    none

def days (count : Int) : Int := count * 86400000

structure LifecycleFacts where
  state : LifecycleState
  archivable : Bool
  lastUsed : Int
  lastAccessed : Option Int
  restoredAt : Option Int
  restoredUntil : Option Int

/-- An object that was restored has been used since. -/
def usedSinceRestore (lastAccessed restoredAt : Option Int) : Bool :=
  match lastAccessed, restoredAt with
  | some used, some restored => restored < used
  | _, _ => false

def shouldArchive (facts : LifecycleFacts) (rule : LifecycleRule) (now : Int) : Bool :=
  if facts.state ≠ .standard ∨ facts.archivable = false then false
  else
    let unused : Bool := days rule.archiveAfterDays ≤ now - facts.lastUsed
    match facts.restoredUntil with
    | none => unused
    | some restoredUntil =>
      if now < restoredUntil then false
      else if usedSinceRestore facts.lastAccessed facts.restoredAt = false then true
      else unused

/-! ### Steps -/

/-- The row of an object with the times that its lifecycle goes by. -/
structure Row where
  object : Object
  modified : Int
  lastAccessed : Option Int

def Row.facts (row : Row) : LifecycleFacts where
  state := row.object.lifecycleState
  archivable := row.object.status = .completed ∧ isDirectoryKey row.object.key = false
  lastUsed := row.lastAccessed.getD row.modified
  lastAccessed := row.lastAccessed
  restoredAt := row.object.restoredAt
  restoredUntil := row.object.restoredUntil

/-- Two rows are of one object, and of one file of it. -/
def Row.IsFileOf (row other : Row) : Prop :=
  row.object.ern = other.object.ern ∧ row.object.internalName = other.object.internalName

instance (row other : Row) : Decidable (row.IsFileOf other) := inferInstanceAs (Decidable (_ ∧ _))

/-- What an instance has read: the rules, with the buckets, and the row, in a page. No code reads
`touched`: the object was restored, used or written since, with the same file. -/
structure Page where
  rules : List LifecycleRule
  row : Row
  readAt : Int
  touched : Bool

structure State (Instance : Type) where
  clock : Int
  row : Option Row
  pages : Instance → Option Page

/-- Where an event has a time, the clock was read for it some time before the write. What
`archive-object` has asked of the object that it read is not looked at again. -/
inductive Event (Instance : Type) where
  | waits (time : ℕ)
  | reads (sweeper : Instance) (rules : List LifecycleRule)
  | marks (sweeper : Instance) (now : Int)
  | archiveObject (now : Int)
  | restoreObject (count now : Int)
  | recordObjectAccess (used : Int)
  | replaced (row : Row)
  | deleted

/-- `archiveObject` leaves an object marked, at a time that was read before. -/
def Row.archived (row : Row) (now : Int) : Row :=
  { row with
    object := { row.object with
      lifecycleState := .archived
      archivedAt := some now
      restoredAt := none
      restoredUntil := none } }

/-- `restoreObject`, of an object that is archived. -/
def Row.restored (row : Row) (count now : Int) : Row :=
  if row.object.lifecycleState = .archived then
    { row with
      object := { row.object with
        lifecycleState := .standard
        archivedAt := none
        restoredAt := some now
        restoredUntil := some (now + days count)
        archiveFile := ""
        archiveMember := none } }
  else row

variable {Instance : Type} [DecidableEq Instance]

/-- What a mark finds: the page, the rule that covers the object, and the row, if the page's row
should be archived and the row is still online with the same file. -/
def State.marked (state : State Instance) (sweeper : Instance) (now : Int) :
    Option (Page × LifecycleRule × Row) := do
  let page ← state.pages sweeper
  guard (page.readAt ≤ now ∧ now ≤ state.clock)
  let rule ← ruleFor page.rules page.row.object.key
  guard (shouldArchive page.row.facts rule now)
  let row ← state.row
  guard (row.IsFileOf page.row ∧ row.object.lifecycleState ≠ .archived)
  return (page, rule, row)

/-- Note on the pages that the object is touched. -/
def State.touching (state : State Instance) (touches : Page → Bool) : State Instance :=
  { state with
    pages sweeper := (state.pages sweeper).map fun page =>
      { page with touched := page.touched || touches page } }

def step (state : State Instance) : Event Instance → State Instance
  | .waits time => { state with clock := state.clock + time }
  | .reads sweeper rules =>
    { state with
      pages := Function.update state.pages sweeper (state.row.map fun row =>
        ⟨rules, row, state.clock, false⟩) }
  | .marks sweeper now =>
    match state.marked sweeper now with
    | none => state
    | some (_, _, row) => { state with row := some (row.archived now) }
  | .archiveObject now =>
    { state with
      row := state.row.map fun row =>
        if row.object.lifecycleState ≠ .archived then row.archived now else row }
  | .restoreObject count now =>
    { state.touching fun _ => state.row.any (·.object.lifecycleState = .archived) with
      row := state.row.map (·.restored count now) }
  | .recordObjectAccess used =>
    { state.touching fun _ => true with
      row := state.row.map fun row => { row with lastAccessed := some used } }
  | .replaced row => { state.touching fun page => row.IsFileOf page.row with row := some row }
  | .deleted => { state with row := none }

/-! ### What a sweep does not archive -/

/-- An object whose grace period is not over, or that was used too short a time ago, is not
marked. -/
def Spared (state : State Instance) (event : Event Instance) : Prop :=
  ∀ sweeper now page rule row, event = .marks sweeper now →
    state.marked sweeper now = some (page, rule, row) →
    (∀ restoredUntil, row.object.restoredUntil = some restoredUntil →
      restoredUntil ≤ state.clock) ∧
    ∀ used, row.lastAccessed = some used → used + days rule.archiveAfterDays ≤ state.clock

/-- An object goes back into the archive when its grace period is over, however short a time ago it
was used: it has a use, and was restored after it. -/
def Row.GoesBack (row : Row) : Prop :=
  row.lastAccessed.isSome ∧ row.object.restoredUntil.isSome ∧
    usedSinceRestore row.lastAccessed row.object.restoredAt = false

instance (row : Row) : Decidable row.GoesBack := inferInstanceAs (Decidable (_ ∧ _))

/-- An object that is marked was not restored, used or written since the page was read, and is none
that goes back. -/
def Undisturbed (state : State Instance) : Event Instance → Prop
  | .marks sweeper now => ∀ found ∈ state.marked sweeper now,
    found.1.touched = false ∧ ¬found.2.2.GoesBack
  | _ => True

instance (state : State Instance) : (event : Event Instance) → Decidable (Undisturbed state event)
  | .marks sweeper now =>
    inferInstanceAs (Decidable (∀ found ∈ state.marked sweeper now, _ ∧ ¬_))
  | .waits _ | .reads _ _ | .archiveObject _ | .restoreObject _ _ | .recordObjectAccess _
  | .replaced _ | .deleted => .isTrue trivial

theorem of_shouldArchive {row : Row} {rule : LifecycleRule} {now : Int}
    (should : shouldArchive row.facts rule now = true) :
    (∀ restoredUntil, row.object.restoredUntil = some restoredUntil → restoredUntil ≤ now) ∧
    ∀ used, row.lastAccessed = some used →
      (row.object.restoredUntil = none ∨
        usedSinceRestore row.lastAccessed row.object.restoredAt = true) →
      used + days rule.archiveAfterDays ≤ now := by
  unfold shouldArchive Row.facts at should
  split at should
  · nomatch should
  · dsimp only at should
    cases grace : row.object.restoredUntil with
    | none =>
      rw [grace] at should
      refine ⟨nofun, fun used accessed _ => ?_⟩
      have unused := of_decide_eq_true should
      rw [accessed, getD_some] at unused
      omega
    | some restoredUntil =>
      rw [grace] at should
      dsimp only at should
      split at should
      · nomatch should
      · rename_i ended
        refine ⟨fun _ same => some.inj same ▸ not_lt.mp ended, fun used accessed since => ?_⟩
        have since := since.resolve_left (by simp)
        rw [if_neg (by simp [since])] at should
        have unused := of_decide_eq_true should
        rw [accessed, getD_some] at unused
        omega

/-! ### What a page says -/

/-- A row has the times that a page says it has. -/
def Page.Tells (page : Page) (row : Row) : Prop :=
  row.lastAccessed = page.row.lastAccessed ∧
    row.object.restoredAt = page.row.object.restoredAt ∧
    row.object.restoredUntil = page.row.object.restoredUntil

/-- The pages on which nothing is noted tell the times of an object that is online and still the
same file. -/
def PagesTell (state : State Instance) : Prop :=
  ∀ sweeper page row, state.pages sweeper = some page → page.touched = false →
    state.row = some row → row.IsFileOf page.row → row.object.lifecycleState ≠ .archived →
    page.Tells row

variable {state : State Instance}

omit [DecidableEq Instance] in
/-- Where the pages are as they were, the row may stay as it is, be archived, or go. -/
theorem PagesTell.frame (tell : PagesTell state) {next : State Instance}
    (pages : next.pages = state.pages)
    (row : ∀ row, next.row = some row →
      state.row = some row ∨ row.object.lifecycleState = .archived) : PagesTell next := by
  intro sweeper page found read untouched there same online
  rcases row found there with old | archived
  · exact tell sweeper page found (pages ▸ read) untouched old same online
  · exact absurd archived online

omit [DecidableEq Instance] in
/-- Where an event is noted, the other pages still tell the times if the row is the same. -/
theorem PagesTell.touching (tell : PagesTell state) {touches : Page → Bool} {next : Option Row}
    (row : ∀ page row, touches page = false → next = some row → row.IsFileOf page.row →
      row.object.lifecycleState ≠ .archived → state.row = some row) :
    PagesTell { state.touching touches with row := next } := by
  intro sweeper page found read untouched there same online
  obtain ⟨old, before, rfl⟩ := map_eq_some_iff.mp read
  obtain ⟨unseen, still⟩ := Bool.or_eq_false_iff.mp untouched
  exact tell sweeper old found before unseen (row _ found still there same online) same online

/-- Every event leaves the pages telling the times. -/
theorem PagesTell.step (tell : PagesTell state) (event : Event Instance) :
    PagesTell (step state event) := by
  cases event with
  | waits => exact tell.frame rfl fun row there => .inl there
  | reads reader rules =>
    intro sweeper page row read untouched there same online
    by_cases own : sweeper = reader
    · subst own
      change Function.update state.pages sweeper _ sweeper = some page at read
      rw [Function.update_self] at read
      obtain ⟨seen, found, rfl⟩ := map_eq_some_iff.mp read
      obtain rfl := some.inj (found.symm.trans there)
      exact ⟨rfl, rfl, rfl⟩
    · change Function.update state.pages reader _ sweeper = some page at read
      rw [Function.update_of_ne own] at read
      exact tell sweeper page row read untouched there same online
  | marks sweeper now =>
    unfold Sweep.step
    dsimp only
    split
    · exact tell
    · exact tell.frame rfl fun row there => .inr (some.inj there ▸ rfl)
  | archiveObject =>
    refine tell.frame rfl fun row there => ?_
    obtain ⟨old, found, rfl⟩ := map_eq_some_iff.mp there
    split
    · exact .inr rfl
    · exact .inl found
  | restoreObject count now =>
    refine tell.touching fun page row unnoted there _ _ => ?_
    obtain ⟨old, found, rfl⟩ := map_eq_some_iff.mp there
    rw [found] at unnoted
    have online : old.object.lifecycleState ≠ .archived := by simpa using unnoted
    rw [Row.restored, if_neg online]
    exact found
  | recordObjectAccess => exact tell.touching fun _ _ noted => nomatch noted
  | replaced row =>
    refine tell.touching fun page other unnoted there same _ => ?_
    obtain rfl := some.inj there
    exact absurd same (of_decide_eq_false unnoted)
  | deleted => exact tell.frame rfl fun _ there => nomatch there

omit [DecidableEq Instance] in
/-- What a page tells that has nothing noted is what the mark goes by. -/
theorem PagesTell.spares (tell : PagesTell state) {event : Event Instance}
    (undisturbed : Undisturbed state event) : Spared state event := by
  rintro sweeper now page rule row rfl marked
  obtain ⟨untouched, stays⟩ := undisturbed _ marked
  simp only [State.marked, bind_eq_bind, bind_eq_some_iff, guard_eq_some'] at marked
  obtain ⟨_, read, -, ⟨-, past⟩, _, -, -, should, _, there, -, ⟨file, online⟩, same⟩ :=
    marked
  obtain ⟨rfl, rfl, rfl⟩ := Prod.mk.injEq .. ▸ some.inj same
  obtain ⟨accessed, restored, grace⟩ := tell sweeper _ _ read untouched there file online
  obtain ⟨ended, unused⟩ := of_shouldArchive should
  refine ⟨fun restoredUntil until_ => ?_, fun used uses => ?_⟩
  · exact (ended restoredUntil (grace ▸ until_)).trans past
  · refine (unused used (accessed ▸ uses) ?_).trans past
    rw [← accessed, ← restored, ← grace]
    by_contra neither
    rw [not_or] at neither
    exact stays ⟨by rw [uses]; rfl, ne_none_iff_isSome.mp neither.1, by simpa using neither.2⟩

namespace TwoSweeps

def rule : LifecycleRule := ⟨"old", [], 30, 7, true⟩

/-- Used on the tenth day. -/
def row : Row where
  object := { Object.blank with
    bucketErn := "ern:esm:bucket:files"
    key := "letters.txt".toList
    internalName := "6f1d2c3a-0b4e-4a7d-9c58-1e2f3a4b5c6d"
    ern := "ern:esm:object:files/letters.txt"
    status := .completed }
  modified := 0
  lastAccessed := some (days 10)

def start : State ℕ where
  clock := days 41
  row := some row
  pages _ := none

/-- Two instances read a page, and one archives the object. -/
def archived : List (Event ℕ) :=
  [.reads 0 [rule], .reads 1 [rule], .waits 1000, .marks 0 (days 41)]

end TwoSweeps

open TwoSweeps

end Euclid.Esm.Sweep
