/-
This file translates the waiters that are woken when there may be something for them, and proves
that no wake-up is lost.

Everything happens under one lock, so one section of it is one action. A waiter that finds nothing
new sleeps: it gives up the lock until it is notified, its time runs out, or it stirs for no reason,
and then it looks again. The map is of names of entries: an entry that the map has forgotten lives
as long as a waiter holds it.
-/

import Mathlib.Data.Finset.Card
import Mathlib.Algebra.Order.Group.Int

namespace Euclid.Database

open Option Function

/-! ### Entries and waiters -/

/-- `ChangeWaiters::Entry`, but for the sleepers. -/
structure Entry where
  generation : ℕ
  waiters : Int

inductive Status (Key : Type) where
  | fresh
  | awake (key : Key) (entry : ℕ)
  | asleep (key : Key) (entry seen : ℕ)
  | notified (key : Key) (entry seen : ℕ)
  | released

open Status

/-- The key and the entry of a waiter that is enrolled. -/
def Status.place {Key : Type} : Status Key → Option (Key × ℕ)
  | .awake key entry => some (key, entry)
  | .asleep key entry _ => some (key, entry)
  | .notified key entry _ => some (key, entry)
  | _ => none

/-- `cv.notify_all` on the condition of an entry. -/
def Status.notify {Key : Type} (woken : ℕ) : Status Key → Status Key
  | .asleep key entry seen =>
    if entry = woken then .notified key entry seen else .asleep key entry seen
  | status => status

@[simp] theorem Status.notify_place {Key : Type} (woken : ℕ) (status : Status Key) :
    (status.notify woken).place = status.place := by
  cases status with
  | asleep key entry seen =>
    rw [notify]
    split <;> rfl
  | _ => rfl

/-- `ChangeWaiters`: the map, the entries by name, the first name that is free, and the waiters. -/
structure ChangeWaiters (Waiter Key : Type) where
  entries : Key → Option ℕ
  heap : ℕ → Entry
  free : ℕ
  status : Waiter → Status Key

open ChangeWaiters

/-- What happens under the lock. -/
inductive Action (Waiter Key : Type) where
  | enroll (waiter : Waiter) (key : Key)
  | generation (waiter : Waiter) (value : ℕ)
  | wait (waiter : Waiter) (seen : ℕ)
  | wake (key : Key)
  | stir (waiter : Waiter)
  | recheck (waiter : Waiter)
  | timeout (waiter : Waiter)
  | release (waiter : Waiter)

namespace ChangeWaiters

variable {Waiter Key : Type} [DecidableEq Waiter] [DecidableEq Key]

def start : ChangeWaiters Waiter Key :=
  ⟨fun _ => none, fun _ => ⟨0, 0⟩, 0, fun _ => .fresh⟩

section

variable (waiters : ChangeWaiters Waiter Key)

def put (waiter : Waiter) (status : Status Key) : ChangeWaiters Waiter Key :=
  { waiters with status := Function.update waiters.status waiter status }

/-- The entry of a key, and one that is made for it if it has none. -/
def entryOf (key : Key) : ℕ × ChangeWaiters Waiter Key :=
  match waiters.entries key with
  | some entry => (entry, waiters)
  | none =>
    (waiters.free,
      { waiters with
        entries := Function.update waiters.entries key (some waiters.free)
        heap := Function.update waiters.heap waiters.free ⟨0, 0⟩
        free := waiters.free + 1 })

def edit (entry : ℕ) (change : Entry → Entry) : ChangeWaiters Waiter Key :=
  { waiters with heap := Function.update waiters.heap entry (change (waiters.heap entry)) }

def enroll (waiter : Waiter) (key : Key) : ChangeWaiters Waiter Key :=
  let found := waiters.entryOf key
  (found.2.edit found.1 fun entry => { entry with waiters := entry.waiters + 1 }).put waiter
    (.awake key found.1)

def wake (key : Key) : ChangeWaiters Waiter Key :=
  match waiters.entries key with
  | some entry =>
    { waiters.edit entry fun entry => { entry with generation := entry.generation + 1 } with
      status := fun waiter => (waiters.status waiter).notify entry }
  | none => waiters

/-- `release`, by a waiter that goes. -/
def release (waiter : Waiter) (key : Key) : ChangeWaiters Waiter Key :=
  match waiters.entries key with
  | some entry =>
    let counted := waiters.edit entry fun entry => { entry with waiters := entry.waiters - 1 }
    ({ counted with
      entries :=
        if (counted.heap entry).waiters = 0 then Function.update counted.entries key none
        else counted.entries }).put waiter .released
  | none => waiters.put waiter .released

/-- The condition of `Wait`: return if the generation has moved on, or else sleep. -/
def check (waiter : Waiter) (key : Key) (entry seen : ℕ) : ChangeWaiters Waiter Key :=
  waiters.put waiter
    (if (waiters.heap entry).generation ≠ seen then .awake key entry else .asleep key entry seen)

def step : Action Waiter Key → Option (ChangeWaiters Waiter Key)
  | .enroll waiter key =>
    match waiters.status waiter with
    | .fresh => some (waiters.enroll waiter key)
    | _ => none
  | .generation waiter value =>
    match waiters.status waiter with
    | .awake _ entry => if (waiters.heap entry).generation = value then some waiters else none
    | _ => none
  | .wait waiter seen =>
    match waiters.status waiter with
    | .awake key entry => some (waiters.check waiter key entry seen)
    | _ => none
  | .wake key => some (waiters.wake key)
  | .stir waiter =>
    match waiters.status waiter with
    | .asleep key entry seen => some (waiters.put waiter (.notified key entry seen))
    | _ => none
  | .recheck waiter =>
    match waiters.status waiter with
    | .notified key entry seen => some (waiters.check waiter key entry seen)
    | _ => none
  | .timeout waiter =>
    match waiters.status waiter with
    | .asleep key entry _ => some (waiters.put waiter (.awake key entry))
    | _ => none
  | .release waiter =>
    match waiters.status waiter with
    | .awake key _ => some (waiters.release waiter key)
    | _ => none

end

/-- The actions of a list, one after the other. -/
def run : ChangeWaiters Waiter Key → List (Action Waiter Key) → Option (ChangeWaiters Waiter Key)
  | waiters, [] => some waiters
  | waiters, action :: rest => (waiters.step action).bind fun next => next.run rest

/-! ### What one action does -/

variable {waiter : Waiter}

section Step

variable {waiters next : ChangeWaiters Waiter Key} {action : Action Waiter Key}

/-- A waiter moves and stays where it is enrolled. It sleeps only on the generation of its entry. -/
def Moves (waiters next : ChangeWaiters Waiter Key) : Prop :=
  ∃ waiter key entry status, (waiters.status waiter).place = some (key, entry) ∧
    status.place = some (key, entry) ∧
    (∀ key' entry' seen, status = .asleep key' entry' seen →
      seen = (waiters.heap entry).generation) ∧
    next = waiters.put waiter status

omit [DecidableEq Key] in
theorem check_moves {key : Key} {entry : ℕ} {seen : ℕ}
    (placed : (waiters.status waiter).place = some (key, entry)) :
    Moves waiters (waiters.check waiter key entry seen) := by
  refine ⟨waiter, key, entry, _, placed, ?_, ?_, rfl⟩
  · split <;> rfl
  · intro key' entry' seen' same
    split at same
    · nomatch same
    · rename_i current
      obtain ⟨-, -, rfl⟩ := asleep.inj same
      exact (not_not.mp current).symm

/-- An action enrolls a waiter, wakes a key, lets a waiter go, moves a waiter that stays where it is
enrolled, or does nothing at all. -/
theorem step_cases (steps : waiters.step action = some next) :
    (∃ waiter key, waiters.status waiter = .fresh ∧ next = waiters.enroll waiter key) ∨
      (∃ key, next = waiters.wake key) ∨
      (∃ waiter key entry, waiters.status waiter = .awake key entry ∧
        next = waiters.release waiter key) ∨ next = waiters ∨ Moves waiters next := by
  cases action with
  | enroll waiter key =>
    simp only [step] at steps
    split at steps
    · rename_i fresh
      exact .inl ⟨waiter, key, fresh, (some.inj steps).symm⟩
    · nomatch steps
  | generation waiter value =>
    simp only [step] at steps
    split at steps
    · split at steps
      · exact .inr (.inr (.inr (.inl (some.inj steps).symm)))
      · nomatch steps
    · nomatch steps
  | wait waiter seen =>
    simp only [step] at steps
    split at steps
    · rename_i key entry awake
      obtain rfl := some.inj steps
      exact .inr (.inr (.inr (.inr (check_moves (by rw [awake]; rfl)))))
    · nomatch steps
  | wake key => exact .inr (.inl ⟨key, (some.inj steps).symm⟩)
  | stir waiter =>
    simp only [step] at steps
    split at steps
    · rename_i key entry seen asleep
      obtain rfl := some.inj steps
      exact .inr (.inr (.inr (.inr ⟨waiter, key, entry, _, by rw [asleep]; rfl, rfl,
        fun _ _ _ same => absurd same (by simp), rfl⟩)))
    · exact absurd steps (by simp)
  | recheck waiter =>
    simp only [step] at steps
    split at steps
    · rename_i key entry seen notified
      obtain rfl := some.inj steps
      exact .inr (.inr (.inr (.inr (check_moves (by rw [notified]; rfl)))))
    · nomatch steps
  | timeout waiter =>
    simp only [step] at steps
    split at steps
    · rename_i key entry seen asleep
      obtain rfl := some.inj steps
      exact .inr (.inr (.inr (.inr ⟨waiter, key, entry, _, by rw [asleep]; rfl, rfl,
        fun _ _ _ same => absurd same (by simp), rfl⟩)))
    · exact absurd steps (by simp)
  | release waiter =>
    simp only [step] at steps
    split at steps
    · rename_i key entry awake
      exact .inr (.inr (.inl ⟨waiter, key, entry, awake, (some.inj steps).symm⟩))
    · nomatch steps

end Step

/-! ### The map and the waiters agree -/

/-- Every waiter that is enrolled is enrolled under the entry that the map has for its key, every
entry counts its waiters, and no two keys have one entry. -/
structure Sound (waiters : ChangeWaiters Waiter Key) : Prop where
  held : ∀ waiter key entry, (waiters.status waiter).place = some (key, entry) →
    waiters.entries key = some entry
  counted : ∀ key entry, waiters.entries key = some entry → ∃ enrolled : Finset Waiter,
    (∀ waiter, waiter ∈ enrolled ↔ (waiters.status waiter).place = some (key, entry)) ∧
      (enrolled.card : Int) = (waiters.heap entry).waiters
  apart : ∀ key other entry, waiters.entries key = some entry →
    waiters.entries other = some entry → key = other
  known : ∀ key entry, waiters.entries key = some entry → entry < waiters.free

omit [DecidableEq Waiter] [DecidableEq Key] in
theorem Sound.start : Sound (start : ChangeWaiters Waiter Key) where
  held _ _ _ placed := absurd placed (by simp [ChangeWaiters.start, place])
  counted _ _ found := absurd found (by simp [ChangeWaiters.start])
  apart _ _ _ found := absurd found (by simp [ChangeWaiters.start])
  known _ _ found := absurd found (by simp [ChangeWaiters.start])

variable {action : Action Waiter Key}

section Sound

variable {waiters next : ChangeWaiters Waiter Key} (sound : Sound waiters)

include sound

omit [DecidableEq Waiter] [DecidableEq Key] in
theorem Sound.of_same (entries : next.entries = waiters.entries) (free : next.free = waiters.free)
    (counts : ∀ entry, (next.heap entry).waiters = (waiters.heap entry).waiters)
    (places : ∀ waiter, (next.status waiter).place = (waiters.status waiter).place) :
      Sound next where
  held waiter key entry placed := by
    rw [places] at placed
    rw [entries]
    exact sound.held waiter key entry placed
  counted key entry found := by
    rw [entries] at found
    obtain ⟨enrolled, members, card⟩ := sound.counted key entry found
    exact ⟨enrolled, fun waiter => by rw [members, places], by rw [card, counts]⟩
  apart key other entry left right := by
    rw [entries] at left right
    exact sound.apart key other entry left right
  known key entry found := by
    rw [entries] at found
    rw [free]
    exact sound.known key entry found

omit [DecidableEq Key] in
theorem Sound.moves (moves : Moves waiters next) : Sound next := by
  obtain ⟨waiter, key, entry, status, placed, stays, -, rfl⟩ := moves
  refine sound.of_same rfl rfl (fun _ => rfl) fun other => ?_
  simp only [put, update_apply]
  split
  · rename_i same
    rw [same, stays, placed]
  · rfl

omit [DecidableEq Waiter] [DecidableEq Key] in
theorem Sound.wake (key : Key) : Sound (waiters.wake key) := by
  unfold ChangeWaiters.wake
  split
  · refine sound.of_same rfl rfl (fun entry => ?_) fun waiter => notify_place ..
    simp only [edit, update_apply]
    split
    · rename_i same
      rw [same]
    · rfl
  · exact sound

omit [DecidableEq Waiter] in
theorem Sound.entryOf (key : Key) : Sound (waiters.entryOf key).2 ∧
      (waiters.entryOf key).2.entries key = some (waiters.entryOf key).1 := by
  unfold ChangeWaiters.entryOf
  split
  · rename_i entry found
    exact ⟨sound, found⟩
  rename_i missing
  refine ⟨⟨?_, ?_, ?_, ?_⟩, update_self ..⟩
  · intro waiter other entry placed
    have found := sound.held waiter other entry placed
    have different : other ≠ key := fun same => by simp [← same, found] at missing
    simpa only [update_of_ne different] using found
  · intro other entry found
    simp only [update_apply] at found
    split at found
    · rename_i same
      obtain rfl := some.inj found
      refine ⟨∅, fun waiter => ?_, by simp⟩
      refine iff_of_false (Finset.notMem_empty _) fun placed => ?_
      have earlier := sound.held waiter other _ placed
      rw [same, missing] at earlier
      nomatch earlier
    · have older := (sound.known other entry found).ne
      obtain ⟨enrolled, members, card⟩ := sound.counted other entry found
      exact ⟨enrolled, members, by simpa only [update_of_ne older] using card⟩
  · intro first second entry left right
    simp only [update_apply] at left right
    split at left <;> split at right
    · rename_i same also
      rw [same, also]
    · obtain rfl := some.inj left
      exact absurd (sound.known second _ right) (lt_irrefl _)
    · obtain rfl := some.inj right
      exact absurd (sound.known first _ left) (lt_irrefl _)
    · exact sound.apart first second entry left right
  · intro other entry found
    simp only [update_apply] at found
    split at found
    · obtain rfl := some.inj found
      exact Nat.lt_succ_self _
    · exact (sound.known other entry found).trans (Nat.lt_succ_self _)

variable {key : Key}

omit [DecidableEq Key] in
theorem Sound.enrolled {entry : ℕ}
    (found : waiters.entries key = some entry) (fresh : (waiters.status waiter).place = none) :
    Sound ((waiters.edit entry fun entry => { entry with waiters := entry.waiters + 1 }).put waiter
      (.awake key entry)) where
  held other key' entry' placed := by
    simp only [put, edit, update_apply] at placed ⊢
    split at placed
    · obtain ⟨rfl, rfl⟩ := Prod.mk.inj (some.inj placed)
      exact found
    · exact sound.held other key' entry' placed
  counted key' entry' known := by
    obtain ⟨enrolled, members, card⟩ := sound.counted key' entry' known
    by_cases same : entry' = entry
    · subst same
      obtain rfl := sound.apart key key' entry' found known
      have outside : waiter ∉ enrolled := fun mem => by
        rw [members, fresh] at mem
        nomatch mem
      refine ⟨insert waiter enrolled, fun other => ?_, ?_⟩
      · simp only [put, edit, update_apply, Finset.mem_insert, members]
        split
        · rename_i own
          exact iff_of_true (.inl own) rfl
        · rename_i apart
          exact or_iff_right apart
      · rw [Finset.card_insert_of_notMem outside]
        simp [put, edit, card]
    · refine ⟨enrolled, fun other => ?_, ?_⟩
      · simp only [put, edit, update_apply, members]
        split
        · rename_i own
          rw [own, fresh]
          refine iff_of_false (by simp) fun placed => same ?_
          exact (Prod.mk.inj (some.inj placed)).2.symm
        · exact Iff.rfl
      · simpa only [put, edit, update_of_ne same] using card
  apart := sound.apart
  known := sound.known

omit sound

omit [DecidableEq Waiter] in
theorem entryOf_status : (waiters.entryOf key).2.status = waiters.status := by
  unfold entryOf
  split <;> rfl

include sound in
theorem Sound.enroll
    (fresh : waiters.status waiter = .fresh) (key : Key) : Sound (waiters.enroll waiter key) := by
  obtain ⟨made, found⟩ := sound.entryOf key
  exact made.enrolled found (by rw [entryOf_status, fresh]; rfl)

section Release

variable {waiter : Waiter} {key : Key} {entry : ℕ} (found : waiters.entries key = some entry)

include found

theorem release_entries (other : Key) :
    (waiters.release waiter key).entries other =
      if (waiters.heap entry).waiters - 1 = 0 ∧
        other = key then none else waiters.entries other := by
  simp only [release, found, put, edit, update_self]
  split
  · rename_i last
    simp only [last, true_and, update_apply]
  · rename_i more
    rw [if_neg fun both => more both.1]

theorem release_status (other : Waiter) :
    (waiters.release waiter key).status other =
      if other = waiter then .released else waiters.status other := by
  simp only [release, found, put, edit, update_apply]

theorem release_heap (other : ℕ) :
    (waiters.release waiter key).heap other =
      if other = entry then { waiters.heap entry with waiters := (waiters.heap entry).waiters - 1 }
      else waiters.heap other := by
  simp only [release, found, put, edit, update_apply]

end Release

include sound

/-- A waiter that goes is counted no longer, and the last one takes the entry out of the map. -/
theorem Sound.release {entry : ℕ}
    (awake : waiters.status waiter = .awake key entry) : Sound (waiters.release waiter key) := by
  have placed : (waiters.status waiter).place = some (key, entry) := by rw [awake]; rfl
  have found := sound.held waiter key entry placed
  obtain ⟨enrolled, members, card⟩ := sound.counted key entry found
  have mem : waiter ∈ enrolled := (members waiter).mpr placed
  have left : ((enrolled.erase waiter).card : Int) = (waiters.heap entry).waiters - 1 := by
    rw [← card, Finset.card_erase_of_mem mem]
    have := Finset.card_pos.mpr ⟨waiter, mem⟩
    omega
  have earlier : ∀ key' entry', (waiters.release waiter key).entries key' = some entry' →
      waiters.entries key' = some entry' := by
    intro key' entry' known
    rw [release_entries found] at known
    split at known
    · nomatch known
    · exact known
  refine ⟨?_, ?_, fun first second shared one two => ?_, fun key' entry' known => ?_⟩
  · intro other key' entry' stays
    rw [release_status found] at stays
    split at stays
    · exact absurd stays (by simp [place])
    rename_i apart
    have known := sound.held other key' entry' stays
    rw [release_entries found, if_neg]
    · exact known
    · rintro ⟨last, rfl⟩
      obtain rfl := some.inj (found.symm.trans known)
      have within : other ∈ enrolled.erase waiter :=
        Finset.mem_erase.mpr ⟨apart, (members other).mpr stays⟩
      have := Finset.card_pos.mpr ⟨other, within⟩
      omega
  · intro key' entry' known
    have known := earlier key' entry' known
    by_cases same : entry' = entry
    · subst same
      obtain rfl := sound.apart key key' entry' found known
      refine ⟨enrolled.erase waiter, fun other => ?_, ?_⟩
      · rw [Finset.mem_erase, members, release_status found]
        split
        · rename_i own
          exact iff_of_false (fun both => both.1 own) (by simp [place])
        · rename_i apart
          exact and_iff_right apart
      · rw [left, release_heap found, if_pos rfl]
    · obtain ⟨others, within, count⟩ := sound.counted key' entry' known
      refine ⟨others, fun other => ?_, ?_⟩
      · rw [within, release_status found]
        split
        · rename_i own
          rw [own, placed]
          refine iff_of_false (fun also => same ?_) (by simp [place])
          exact (Prod.mk.inj (some.inj also)).2.symm
        · exact Iff.rfl
      · rw [count, release_heap found, if_neg same]
  · exact sound.apart first second shared (earlier first shared one) (earlier second shared two)
  · have same : (waiters.release waiter key).free = waiters.free := by
      simp only [ChangeWaiters.release, found, put, edit]
    rw [same]
    exact sound.known key' entry' (earlier key' entry' known)

theorem Sound.step (steps : waiters.step action = some next) : Sound next := by
  rcases step_cases steps with ⟨waiter, key, fresh, rfl⟩ | ⟨key, rfl⟩ | ⟨waiter, key,
    entry, awake, rfl⟩ |
    rfl | moves
  · exact sound.enroll fresh key
  · exact sound.wake key
  · exact sound.release awake
  · exact sound
  · exact sound.moves moves

theorem Sound.run {actions : List (Action Waiter Key)}
    (runs : waiters.run actions = some next) : Sound next := by
  induction actions generalizing waiters with
  | nil => exact some.inj runs ▸ sound
  | cons action rest ih =>
    obtain ⟨between, steps, runs⟩ := bind_eq_some_iff.mp runs
    exact ih (sound.step steps) runs

end Sound

/-! ### A wake-up is not lost -/

section Wake

variable {waiters next : ChangeWaiters Waiter Key} {waiter : Waiter} {key : Key} {entry seen : ℕ}

omit [DecidableEq Key] in
theorem put_status_of_ne {other : Waiter} (apart : waiter ≠ other) {status : Status Key} :
    (waiters.put other status).status waiter = waiters.status waiter :=
  update_of_ne apart _ _

theorem enroll_status_of_ne {other : Waiter} (apart : waiter ≠ other) (key : Key) :
    (waiters.enroll other key).status waiter = waiters.status waiter :=
  (put_status_of_ne apart).trans (congrFun entryOf_status waiter)

theorem enroll_generation {other : ℕ} (known : other < waiters.free) {waiter : Waiter} {key : Key} :
    ((waiters.enroll waiter key).heap other).generation = (waiters.heap other).generation := by
  have made : (waiters.entryOf key).2.heap other = waiters.heap other := by
    unfold entryOf
    split
    · rfl
    · exact update_of_ne known.ne _ _
  simp only [enroll, put, edit, update_apply]
  split
  · rename_i same
    rw [← same, made]
  · rw [made]

omit [DecidableEq Waiter] [DecidableEq Key] in
theorem wake_generation {key : Key} {other : ℕ} :
    (waiters.heap other).generation ≤ ((waiters.wake key).heap other).generation := by
  unfold wake
  split
  · simp only [edit, update_apply]
    split
    · rename_i same
      rw [same]
      exact Nat.le_succ _
    · exact le_rfl
  · exact le_rfl

omit [DecidableEq Waiter] [DecidableEq Key] in
theorem asleep_of_wake {awoken key' : Key} {entry' seen' : ℕ}
    (asleep : (waiters.wake awoken).status waiter = .asleep key' entry' seen') :
    waiters.status waiter = .asleep key' entry' seen' := by
  unfold wake at asleep
  split at asleep
  · simp only at asleep
    generalize waiters.status waiter = status at asleep ⊢
    cases status with
    | asleep key entry seen =>
      rw [notify] at asleep
      split at asleep
      · nomatch asleep
      · exact asleep
    | _ => exact absurd asleep (by simp [notify])
  · exact asleep

/-- What an action does to a waiter that is enrolled: it goes, or it stays where it is, its entry's
generation goes back by nothing, and if it falls asleep it is on the generation of its entry. -/
theorem Sound.step_waiter (sound : Sound waiters) (steps : waiters.step action = some next)
    (placed : (waiters.status waiter).place = some (key, entry)) :
    next.status waiter = .released ∨
      (next.status waiter).place = some (key, entry) ∧
        (waiters.heap entry).generation ≤ (next.heap entry).generation ∧
        ∀ key' entry' seen, next.status waiter = .asleep key' entry' seen →
          waiters.status waiter = .asleep key' entry' seen ∨
            seen = (waiters.heap entry).generation := by
  have found := sound.held waiter key entry placed
  rcases step_cases steps with ⟨other, key', fresh, rfl⟩ | ⟨key', rfl⟩ |
    ⟨other, key', entry', awake, rfl⟩ | rfl | ⟨other, key', entry', status, was, stays, asleep, rfl⟩
  · have apart : waiter ≠ other := fun same => by
      rw [same, fresh] at placed
      exact absurd placed (by simp [place])
    rw [enroll_status_of_ne apart]
    exact .inr ⟨placed, (enroll_generation (sound.known key entry found)).ge,
      fun _ _ _ => .inl⟩
  · refine .inr ⟨?_, wake_generation, fun _ _ _ asleep => .inl (asleep_of_wake asleep)⟩
    unfold ChangeWaiters.wake
    split
    · exact (notify_place ..).trans placed
    · exact placed
  · have held := sound.held other key' entry' (by rw [awake]; rfl)
    rw [release_status held, release_heap held]
    split
    · exact .inl rfl
    · refine .inr ⟨placed, ?_, fun _ _ _ => .inl⟩
      split
      · rename_i same
        rw [same]
      · exact le_rfl
  · exact .inr ⟨placed, le_rfl, fun _ _ _ => .inl⟩
  · simp only [put, update_apply]
    split
    · rename_i own
      rw [← own, placed] at was
      obtain ⟨rfl, rfl⟩ := Prod.mk.inj (some.inj was)
      exact .inr ⟨stays, le_rfl, fun key' entry' seen same => .inr (asleep key' entry' seen same)⟩
    · exact .inr ⟨placed, le_rfl, fun _ _ _ => .inl⟩

section

variable (waiter : Waiter) (key : Key) (entry seen : ℕ) (waiters : ChangeWaiters Waiter Key)

/-- A waiter has gone, or its entry has come to a generation. -/
def Reached : Prop :=
  waiters.status waiter = .released ∨
    (waiters.status waiter).place = some (key, entry) ∧ seen ≤ (waiters.heap entry).generation

/-- A waiter has gone, or its entry is past a generation and the waiter does not sleep on that. -/
def Past : Prop :=
  waiters.status waiter = .released ∨
    (waiters.status waiter).place = some (key, entry) ∧ seen < (waiters.heap entry).generation ∧
      ∀ key' entry', waiters.status waiter ≠ .asleep key' entry' seen

end

theorem step_released (steps : waiters.step action = some next)
    (gone : waiters.status waiter = .released) : next.status waiter = .released := by
  rcases step_cases steps with ⟨other, key', fresh, rfl⟩ | ⟨key', rfl⟩ |
    ⟨other, key', entry', awake, rfl⟩ | rfl | ⟨other, key', entry', status, was, stays, asleep, rfl⟩
  · have apart : waiter ≠ other := fun same => by simp [same, fresh] at gone
    rw [enroll_status_of_ne apart]
    exact gone
  · unfold wake
    split
    · simp only [gone, notify]
    · exact gone
  · unfold release
    split <;> simp only [put, edit, update_apply] <;> split <;> first | rfl | exact gone
  · exact gone
  · have apart : waiter ≠ other := fun same => by
      rw [← same, gone] at was
      exact absurd was (by simp [place])
    rw [put_status_of_ne apart]
    exact gone

theorem Reached.step (sound : Sound waiters)
    (steps : waiters.step action = some next) (reached : Reached waiter key entry seen waiters) :
    Reached waiter key entry seen next := by
  rcases reached with gone | ⟨placed, known⟩
  · exact .inl (step_released steps gone)
  · refine (sound.step_waiter steps placed).imp_right ?_
    rintro ⟨stays, grows, -⟩
    exact ⟨stays, known.trans grows⟩

theorem Past.step (sound : Sound waiters)
    (steps : waiters.step action = some next) (past : Past waiter key entry seen waiters) :
    Past waiter key entry seen next := by
  rcases past with gone | ⟨placed, moved, up⟩
  · exact .inl (step_released steps gone)
  · refine (sound.step_waiter steps placed).imp_right ?_
    rintro ⟨stays, grows, asleep⟩
    refine ⟨stays, moved.trans_le grows, fun key' entry' sleeps => ?_⟩
    rcases asleep key' entry' seen sleeps with before | current
    · exact up key' entry' before
    · exact moved.ne current

theorem Reached.wake (sound : Sound waiters) (reached : Reached waiter key entry seen waiters) :
    Past waiter key entry seen (waiters.wake key) := by
  have woken : waiters.step (.wake key) = some (waiters.wake key) := rfl
  rcases reached with gone | ⟨placed, known⟩
  · exact .inl (step_released woken gone)
  · have found := sound.held waiter key entry placed
    right
    unfold ChangeWaiters.wake
    rw [found]
    refine ⟨(notify_place ..).trans placed, ?_, fun key' entry' asleep => ?_⟩
    · simp only [edit, update_self]
      exact Nat.lt_succ_of_le known
    · simp only at asleep
      generalize waiters.status waiter = status at asleep placed
      cases status with
      | asleep key'' entry'' seen'' =>
        obtain ⟨rfl, rfl⟩ := Prod.mk.inj (some.inj placed)
        rw [notify, if_pos rfl] at asleep
        nomatch asleep
      | _ => exact absurd asleep (by simp [notify])

theorem run_keeps {holds : ChangeWaiters Waiter Key → Prop}
    (kept : ∀ {waiters next : ChangeWaiters Waiter Key} {action : Action Waiter Key},
      Sound waiters → waiters.step action = some next → holds waiters → holds next)
    (sound : Sound waiters) (start : holds waiters) {actions : List (Action Waiter Key)}
    (runs : waiters.run actions = some next) : holds next := by
  induction actions generalizing waiters with
  | nil => exact some.inj runs ▸ start
  | cons action rest ih =>
    obtain ⟨between, steps, runs⟩ := bind_eq_some_iff.mp runs
    exact ih (sound.step steps) (kept sound steps start) runs

/-- Every entry of the map has a waiter. -/
def Peopled (waiters : ChangeWaiters Waiter Key) : Prop :=
  ∀ key entry, waiters.entries key = some entry →
    ∃ waiter, (waiters.status waiter).place = some (key, entry)

theorem Peopled.step (sound : Sound waiters) (steps : waiters.step action = some next)
    (peopled : Peopled waiters) : Peopled next := by
  intro key entry found
  rcases step_cases steps with ⟨waiter, other, fresh, rfl⟩ | ⟨other, rfl⟩ |
    ⟨waiter, other, entry', awake, rfl⟩ | rfl | ⟨waiter, other, entry', status, was, stays, -, rfl⟩
  · by_cases own : key = other
    · subst own
      obtain rfl := some.inj ((sound.entryOf key).2.symm.trans found)
      exact ⟨waiter, by simp [enroll, put, place]⟩
    · have earlier : waiters.entries key = some entry := by
        simp only [enroll, put, edit, entryOf] at found
        split at found
        · exact found
        · simpa only [update_of_ne own] using found
      obtain ⟨holder, placed⟩ := peopled key entry earlier
      have apart : holder ≠ waiter := fun same => by simp [same, fresh, place] at placed
      exact ⟨holder, by rw [enroll_status_of_ne apart, placed]⟩
  · unfold wake at found ⊢
    split at found
    · obtain ⟨holder, placed⟩ := peopled key entry found
      exact ⟨holder, (notify_place ..).trans placed⟩
    · exact peopled key entry found
  · have held := sound.held waiter other entry' (by rw [awake]; rfl)
    have remains {holder : Waiter} (placed : (waiters.status holder).place = some (key, entry))
        (apart : holder ≠ waiter) :
        ((waiters.release waiter other).status holder).place = some (key, entry) := by
      rw [release_status held, if_neg apart, placed]
    rw [release_entries held] at found
    split at found
    · nomatch found
    rename_i more
    by_cases own : key = other
    · -- the one that goes was not the last
      subst own
      obtain rfl := some.inj (held.symm.trans found)
      obtain ⟨enrolled, members, card⟩ := sound.counted key entry' held
      have mem : waiter ∈ enrolled := (members waiter).mpr (by rw [awake]; rfl)
      have others : 1 < enrolled.card := by
        have := Finset.card_pos.mpr ⟨waiter, mem⟩
        have : (waiters.heap entry').waiters - 1 ≠ 0 := fun last => more ⟨last, rfl⟩
        omega
      obtain ⟨holder, inside, apart⟩ := Finset.exists_mem_ne others waiter
      exact ⟨holder, remains ((members holder).mp inside) apart⟩
    · obtain ⟨holder, placed⟩ := peopled key entry found
      refine ⟨holder, remains placed fun same => own ?_⟩
      rw [same, awake] at placed
      exact (Prod.mk.inj (some.inj placed)).1.symm
  · exact peopled key entry found
  · obtain ⟨holder, placed⟩ := peopled key entry found
    refine ⟨holder, ?_⟩
    simp only [put, update_apply]
    split
    · rename_i same
      rw [stays, ← was, ← same, placed]
    · exact placed

/-- In every run, the map has an entry for a key exactly while a waiter is enrolled under it, and
the entry counts those. -/
theorem entries_as_enrolled {actions : List (Action Waiter Key)}
    {last : ChangeWaiters Waiter Key} (runs : start.run actions = some last)
      (key : Key) (entry : ℕ) :
    (last.entries key = some entry ↔ ∃ waiter, (last.status waiter).place = some (key, entry)) ∧
      (last.entries key = some entry → ∃ enrolled : Finset Waiter,
        (∀ waiter, waiter ∈ enrolled ↔ (last.status waiter).place = some (key, entry)) ∧
          (enrolled.card : Int) = (last.heap entry).waiters) := by
  have sound : Sound last := Sound.start.run runs
  have empty : Peopled (start : ChangeWaiters Waiter Key) :=
    fun _ _ found => absurd found (by simp [start])
  have peopled : Peopled last := run_keeps Peopled.step Sound.start empty runs
  exact ⟨⟨peopled key entry, fun ⟨waiter, placed⟩ => sound.held waiter key entry placed⟩,
    sound.counted key entry⟩

/-- The second of two waiters keeps the entry that the first has left. -/
theorem entry_outlives_first : ∃ last : ChangeWaiters ℕ ℕ,
    start.run [.enroll 1 7, .enroll 2 7, .release 1] = some last ∧ last.entries 7 = some 0 :=
  have runs : (start : ChangeWaiters ℕ ℕ).run [.enroll 1 7, .enroll 2 7, .release 1] = some _ := rfl
  ⟨_, runs, (entries_as_enrolled runs 7 0).1.mpr ⟨2, rfl⟩⟩

omit [DecidableEq Key] in
theorem run_append {first second : List (Action Waiter Key)} [DecidableEq Key] :
    waiters.run (first ++ second) = (waiters.run first).bind fun between => between.run second := by
  induction first generalizing waiters with
  | nil => rfl
  | cons action rest ih =>
    simp only [List.cons_append, run, bind_assoc, ih]

/-- A waiter that is enrolled when a waiter of its key reads a generation, and whose key is woken
after that, never sleeps on this generation again: it is woken if it was asleep, it does not fall
asleep if it waits, and if it was notified it returns, whoever else has come and gone since. -/
theorem woken_after_reading {waiter reader : Waiter} {key : Key} {seen : ℕ}
    {before middle after : List (Action Waiter Key)} {reading last : ChangeWaiters Waiter Key}
    (reached : start.run before = some reading)
    (waiting : (reading.status waiter).place.map (·.1) = some key)
    (reads : (reading.status reader).place.map (·.1) = some key)
    (runs : reading.run (.generation reader seen :: middle ++ .wake key :: after) = some last) :
    (∀ key' entry, last.status waiter ≠ .asleep key' entry seen) ∧
      (∀ next, last.step (.wait waiter seen) = some next →
        ∃ entry, next.status waiter = .awake key entry) ∧
      ∀ key' entry, last.status waiter = .notified key' entry seen →
        ∃ next, last.step (.recheck waiter) = some next ∧
          next.status waiter = .awake key entry := by
  have sound : Sound reading := Sound.start.run reached
  obtain ⟨⟨_, entry⟩, placed, rfl⟩ := map_eq_some_iff.mp waiting
  obtain ⟨⟨key, other⟩, also, rfl⟩ := map_eq_some_iff.mp reads
  obtain rfl : entry = other := by
    have := (sound.held waiter key entry placed).symm.trans (sound.held reader key other also)
    exact some.inj this
  -- what was read is the generation of the entry
  obtain ⟨same, steps, runs⟩ := bind_eq_some_iff.mp runs
  have told : same = reading ∧ (reading.heap entry).generation = seen := by
    simp only [step] at steps
    split at steps
    · rename_i key' entry' awake
      rw [awake] at also
      obtain ⟨-, rfl⟩ := Prod.mk.inj (some.inj also)
      split at steps
      · exact ⟨(some.inj steps).symm, ‹_›⟩
      · nomatch steps
    · nomatch steps
  obtain ⟨rfl, read⟩ := told
  rw [run_append] at runs
  obtain ⟨woken, between, runs⟩ := bind_eq_some_iff.mp runs
  have upTo : Reached waiter key entry seen woken :=
    run_keeps (fun sound steps => Reached.step sound steps) sound (.inr ⟨placed, read.ge⟩) between
  have soundThen : Sound woken := sound.run between
  have past : Past waiter key entry seen last :=
    run_keeps (fun sound steps => Past.step sound steps) (soundThen.wake key)
      (upTo.wake soundThen) runs
  rcases past with gone | ⟨enrolled, moved, up⟩
  · refine ⟨fun _ _ asleep => ?_, fun next steps => ?_, fun _ _ notified => ?_⟩
    · exact absurd (gone.symm.trans asleep) (by simp)
    · simp only [step, gone] at steps
      nomatch steps
    · exact absurd (gone.symm.trans notified) (by simp)
  · refine ⟨up, fun next steps => ?_, fun key' entry' notified => ?_⟩
    · simp only [step] at steps
      split at steps
      · rename_i key' entry' awake
        rw [awake] at enrolled
        obtain ⟨rfl, rfl⟩ := Prod.mk.inj (some.inj enrolled)
        obtain rfl := some.inj steps
        exact ⟨entry', by simp [check, put, moved.ne']⟩
      · nomatch steps
    · rw [notified] at enrolled
      obtain ⟨rfl, rfl⟩ := Prod.mk.inj (some.inj enrolled)
      exact ⟨last.check waiter key' entry' seen, by simp [step, notified],
        by simp [check, put, moved.ne']⟩

/-- A waiter that sleeps is woken, though another has come and gone meanwhile. -/
theorem sleeper_returns : ∃ last : ChangeWaiters ℕ ℕ,
      start.run [.enroll 1 7, .generation 1 0, .enroll 2 7, .wait 1 0, .release 2, .wake 7] =
          some last ∧
        ∃ next, last.step (.recheck 1) = some next ∧ next.status 1 = .awake 7 0 :=
  have between : start.run [.enroll 1 7] = some (start.enroll (1 : ℕ) (7 : ℕ)) := rfl
  have runs : (start.enroll (1 : ℕ) (7 : ℕ)).run
      (.generation 1 0 :: [.enroll 2 7, .wait 1 0, .release 2] ++ .wake 7 :: []) = some _ := rfl
  ⟨_, rfl, (woken_after_reading between rfl rfl runs).2.2 7 0 rfl⟩

end Wake

end ChangeWaiters

end Euclid.Database
