/-
This file translates the lock of an archive, and proves when it keeps the changes of one archive
apart.

A task is one call of `Append` or of `Remove` by a thread of some process. It takes the mutex of its
process, creates the lock file if it is not there, opens it, locks what it opened, changes the
archive and unlocks. A `Remove` then deletes the lock file, and by then it holds no lock. So a task
may lock a file that the path no longer names while another task creates a new one and locks that.
As long as the lock file is only ever created when no task has an older one open, all open lock
files are one file, and the archive is what its appends and removals make of it one after the other.
-/

import Mathlib.Data.Fin.VecNotation
import Mathlib.Data.Fintype.Basic

namespace Euclid.Core.ArchiveLock

open Option Function

/-! ### Tasks -/

inductive Call (Member : Type) where
  | append (member : Member)
  | remove

/-- How far a task has come. An inode is the lock file it has open. -/
inductive Stage (Member : Type) where
  | idle
  | entered
  | touched
  | opened (inode : ℕ)
  | locked (inode : ℕ)
  | read (inode : ℕ) (seen : List Member)
  | changed (inode : ℕ) (succeeded : Bool)
  | released (succeeded : Bool)
  | left (succeeded : Bool)
  | finished (succeeded : Bool)
deriving DecidableEq

namespace Stage

variable {Member : Type}

/-- The task has the mutex of its process. -/
def Inside : Stage Member → Prop
  | entered | touched | opened _ | locked _ | read _ _ | changed _ _ | released _ => True
  | idle | left _ | finished _ => False

/-- The lock file that the task has open. -/
def inode : Stage Member → Option ℕ
  | opened inode | locked inode | read inode _ | changed inode _ => some inode
  | _ => none

def Holds : Stage Member → Prop
  | locked _ | read _ _ | changed _ _ => True
  | _ => False

/-- The members that the task has found in the archive and will write its own behind. -/
def seen : Stage Member → Option (List Member)
  | read _ seen => some seen
  | _ => none

/-- The task has changed the archive. -/
def succeeded : Stage Member → Bool
  | changed _ succeeded | released succeeded | left succeeded | finished succeeded => succeeded
  | _ => false

end Stage

/-- The lock path and its inode, which inode which process has locked, the mutex of each process,
the archive, the tasks, and the tasks that have changed the archive, the latest first. -/
structure World (Process Task Member : Type) where
  directory : Option ℕ
  inodes : ℕ
  holder : ℕ → Option Process
  mutex : Process → Option Task
  archive : Option (List Member)
  stage : Task → Stage Member
  log : List Task

instance Stage.decidableHolds {Member : Type} : (stage : Stage Member) → Decidable stage.Holds
  | .locked _ | .read _ _ | .changed _ _ => .isTrue trivial
  | .idle | .entered | .touched | .opened _ | .released _ | .left _ | .finished _ => .isFalse id

section Stages

variable {Member : Type} {stage : Stage Member}

theorem Stage.Holds.inside (holds : stage.Holds) : stage.Inside := by
  cases stage <;> trivial

theorem Stage.Holds.open (holds : stage.Holds) : stage.inode ≠ none := by
  cases stage <;> simp_all [Stage.Holds, Stage.inode]

theorem Stage.holds_of_seen {seen : List Member} (found : stage.seen = some seen) :
    stage.Holds := by
  cases stage <;> simp_all [Stage.Holds, Stage.seen]

end Stages

namespace World

variable {Process Task Member : Type} [DecidableEq Process] [DecidableEq Task]

/-- Nothing is there and nobody has begun. -/
def start : World Process Task Member :=
  ⟨none, 0, fun _ => none, fun _ => none, none, fun _ => .idle, []⟩

variable (process : Task → Process) (call : Task → Call Member)
  (world : World Process Task Member) (task : Task)

def go (stage : Stage Member) : World Process Task Member :=
  { world with stage := Function.update world.stage task stage }

/-- A process drops its lock of a file: it unlocks it, or closes it. -/
def drop (inode : ℕ) : World Process Task Member :=
  if world.holder inode = some (process task) then
    { world with holder := Function.update world.holder inode none }
  else world

/-- The task gives the mutex of its process back. -/
def leave : World Process Task Member :=
  { world with mutex := Function.update world.mutex (process task) none }

/-- `mutexFor` and the lock of `_local`. -/
def enter : World Process Task Member :=
  match world.mutex (process task) with
  | none =>
    { world with mutex := Function.update world.mutex (process task) (some task) }.go task .entered
  | some _ => world

/-- The lock file is opened for appending, which creates it if it is not there, and closed again. -/
def touch (fails : Bool) : World Process Task Member :=
  match world.directory with
  | some inode => (world.drop process task inode).go task .touched
  | none =>
    if fails then world.go task .touched
    else { world with directory := some world.inodes, inodes := world.inodes + 1 }.go task .touched

/-- The lock file is opened to be locked. It has to be there. -/
def openFile (fails : Bool) : World Process Task Member :=
  match world.directory, fails with
  | some inode, false => world.go task (.opened inode)
  | _, _ => (world.leave process task).go task (.finished false)

/-- `_file.lock()` waits until no other process holds a lock of the file. -/
def lock (inode : ℕ) (fails : Bool) : World Process Task Member :=
  if fails then
    ((world.drop process task inode).leave process task).go task (.finished false)
  else if world.holder inode = none ∨ world.holder inode = some (process task) then
    { world with
      holder := Function.update world.holder inode (some (process task)) }.go task (.locked inode)
  else world

/-- Under the lock: an `Append` begins with `layoutOf`, and a `Remove` removes the archive. -/
def begin (inode : ℕ) (fails : Bool) : World Process Task Member :=
  if fails then world.go task (.changed inode false)
  else match call task with
    | .append _ => world.go task (.read inode (world.archive.getD []))
    | .remove =>
      { world with archive := none, log := task :: world.log }.go task (.changed inode true)

/-- Under the lock: an `Append` writes its member behind those it has found. -/
def write (inode : ℕ) (seen : List Member) (fails : Bool) : World Process Task Member :=
  match call task, fails with
  | .append member, false =>
    { world with
      archive := some (seen ++ [member])
      log := task :: world.log }.go task (.changed inode true)
  | _, _ => world.go task (.changed inode false)

/-- `~AppendLock` unlocks the file and closes it. -/
def unlock (inode : ℕ) (succeeded : Bool) : World Process Task Member :=
  (world.drop process task inode).go task (.released succeeded)

/-- The mutex is unlocked last. An `Append` is over then. -/
def release (succeeded : Bool) : World Process Task Member :=
  match call task with
  | .append _ => (world.leave process task).go task (.finished succeeded)
  | .remove => (world.leave process task).go task (.left succeeded)

/-- The end of `Remove`: the lock file is deleted. -/
def unlink (succeeded fails : Bool) : World Process Task Member :=
  if fails then world.go task (.finished succeeded)
  else { world with directory := none }.go task (.finished succeeded)

/-- The next step of a task, which may fail. A task that has to wait, or has ended, does nothing. -/
def step (fails : Bool) : World Process Task Member :=
  match world.stage task with
  | .idle => world.enter process task
  | .entered => world.touch process task fails
  | .touched => world.openFile process task fails
  | .opened inode => world.lock process task inode fails
  | .locked inode => world.begin call task inode fails
  | .read inode seen => world.write call task inode seen fails
  | .changed inode succeeded => world.unlock process task inode succeeded
  | .released succeeded => world.release process call task succeeded
  | .left succeeded => world.unlink task succeeded fails
  | .finished _ => world

/-- The tasks take their steps as a schedule lets them. -/
def run (world : World Process Task Member) (schedule : List (Task × Bool)) :
    World Process Task Member :=
  schedule.foldl (fun world move => world.step process call move.1 move.2) world

/-! ### The archive as one task after the other makes it -/

/-- What a task makes of the archive when nothing comes between. -/
def apply : Call Member → Option (List Member) → Option (List Member)
  | .append member, archive => some (archive.getD [] ++ [member])
  | .remove, _ => none

/-- What tasks make of the archive one after the other, the latest first. -/
def replay (log : List Task) : Option (List Member) :=
  log.foldr (fun task archive => apply (call task) archive) none

/-- At most one task holds the lock of the archive. -/
def Exclusive : Prop :=
  ∀ task other, (world.stage task).Holds → (world.stage other).Holds → task = other

/-- The archive is what the tasks that have changed it make of it one after the other, none of them
is counted twice, and all that have succeeded are among them. -/
structure Intact : Prop where
  serial : world.archive = replay call world.log
  once : world.log.Nodup
  kept : ∀ task, (world.stage task).succeeded = true → task ∈ world.log

/-- The task does not create a lock file while another has an older one open. -/
def Fresh (fails : Bool) : Prop :=
  world.stage task = .entered → fails = false → world.directory = none →
    ∀ other, (world.stage other).inode = none

/-- No task of a run creates a lock file while another has an older one open. -/
def RunsFresh (world : World Process Task Member) : List (Task × Bool) → Prop
  | [] => True
  | move :: rest =>
    world.Fresh move.1 move.2 ∧ RunsFresh (world.step process call move.1 move.2) rest

instance decidableFresh [DecidableEq Member] [Fintype Task] (fails : Bool) :
    Decidable (world.Fresh task fails) :=
  inferInstanceAs (Decidable (_ → _))

instance decidableRunsFresh [DecidableEq Member] [Fintype Task] :
    (world : World Process Task Member) → (schedule : List (Task × Bool)) →
      Decidable (RunsFresh process call world schedule)
  | _, [] => .isTrue trivial
  | world, move :: rest =>
    have := decidableRunsFresh (world.step process call move.1 move.2) rest
    inferInstanceAs (Decidable (_ ∧ _))

/-! ### What the lock file keeps -/

/-- What a stage of a task agrees with: inside it has the mutex, the lock file it has open is the
one that is current, when it holds a lock its process does, what it has seen is what the archive
holds, and it has succeeded exactly if it is counted. -/
structure Agrees (current : ℕ) (world : World Process Task Member) (task : Task)
    (stage : Stage Member) : Prop where
  guarded : stage.Inside → world.mutex (process task) = some task
  named : ∀ inode, stage.inode = some inode → inode = current
  held : stage.Holds → world.holder current = some (process task)
  seeing : ∀ seen, stage.seen = some seen → world.archive.getD [] = seen
  counted : stage.succeeded = true ↔ task ∈ world.log

/-- Every task agrees with the world, and one lock file is the only one that anybody has open. -/
structure Sound (current : ℕ) (world : World Process Task Member) : Prop where
  named : ∀ inode, world.directory = some inode → inode = current
  serial : world.archive = replay call world.log
  once : world.log.Nodup
  agrees : ∀ task, Agrees process current world task (world.stage task)

def OthersAgree (current : ℕ) (world : World Process Task Member) (task : Task) : Prop :=
  ∀ other, other ≠ task → Agrees process current world other (world.stage other)

variable {process call world task} {current : ℕ} {changed : World Process Task Member}
variable {stage : Stage Member}

section Going

omit [DecidableEq Process]

theorem go_stage_self (stage : Stage Member) : (world.go task stage).stage task = stage :=
  update_self ..

theorem go_stage_of_ne {stage : Stage Member} {other : Task} (differ : other ≠ task) :
    (world.go task stage).stage other = world.stage other :=
  update_of_ne differ ..

omit [DecidableEq Task] in
theorem Agrees.frame (agrees : Agrees process current world task stage)
    (mutex : stage.Inside → changed.mutex (process task) = world.mutex (process task))
    (holder : stage.Holds → changed.holder current = world.holder current)
    (archive : stage.Holds → changed.archive = world.archive)
    (log : task ∈ changed.log ↔ task ∈ world.log) : Agrees process current changed task stage := by
  refine ⟨fun inside => (mutex inside).trans (agrees.guarded inside), agrees.named,
    fun holds => (holder holds).trans (agrees.held holds), fun seen found => ?_,
    agrees.counted.trans log.symm⟩
  rw [archive (Stage.holds_of_seen found)]
  exact agrees.seeing seen found

theorem Sound.go (named : ∀ inode, changed.directory = some inode → inode = current)
    (serial : changed.archive = replay call changed.log) (once : changed.log.Nodup)
    (own : Agrees process current changed task stage)
    (others : ∀ other, other ≠ task → Agrees process current changed other (changed.stage other)) :
    Sound process call current (changed.go task stage) := by
  refine ⟨named, serial, once, fun other => ?_⟩
  by_cases same : other = task
  · subst same
    rw [go_stage_self]
    exact own.frame (fun _ => rfl) (fun _ => rfl) (fun _ => rfl) Iff.rfl
  · rw [go_stage_of_ne same]
    exact (others other same).frame (fun _ => rfl) (fun _ => rfl) (fun _ => rfl) Iff.rfl

omit [DecidableEq Task]

variable (sound : Sound process call current world)

include sound

theorem Sound.alone {other : Task}
    (inside : (world.stage task).Inside) (too : (world.stage other).Inside)
    (same : process other = process task) : other = task := by
  have mine := (sound.agrees task).guarded inside
  have theirs := (sound.agrees other).guarded too
  rw [same, mine] at theirs
  exact (some.inj theirs).symm

theorem Sound.exclusive : world.Exclusive := by
  intro task other holds too
  have mine := (sound.agrees task).held holds
  have theirs := (sound.agrees other).held too
  rw [mine] at theirs
  exact sound.alone too.inside holds.inside (some.inj theirs)

theorem Sound.intact : world.Intact call :=
  ⟨sound.serial, sound.once, fun task => (sound.agrees task).counted.mp⟩

end Going

/-! ### What each step keeps -/

section Steps

variable {inode : ℕ}

omit [DecidableEq Task] in
theorem drop_holder (other : world.holder current ≠ some (process task)) :
    (world.drop process task inode).holder current = world.holder current := by
  unfold drop
  split
  · rename_i own
    refine update_of_ne (fun same => other ?_) ..
    rw [same, own]
  · rfl

variable (world) in
omit [DecidableEq Task] in
theorem drop_fields {inode : ℕ} : (world.drop process task inode).directory = world.directory ∧
      (world.drop process task inode).mutex = world.mutex ∧
      (world.drop process task inode).archive = world.archive ∧
      (world.drop process task inode).stage = world.stage ∧
      (world.drop process task inode).log = world.log := by
  unfold drop
  split <;> exact ⟨rfl, rfl, rfl, rfl, rfl⟩

variable (sound : Sound process call current world)

include sound in
omit [DecidableEq Process] [DecidableEq Task] in
theorem Sound.others : OthersAgree process current world task := fun other _ => sound.agrees other

variable (others : OthersAgree process current world task)
  (mine : world.mutex (process task) = some task)

include mine others

omit [DecidableEq Process] [DecidableEq Task] in
theorem OthersAgree.apart {other : Task} (differ : other ≠ task)
    (inside : (world.stage other).Inside) : process other ≠ process task := by
  intro same
  have theirs := (others other differ).guarded inside
  rw [same, mine] at theirs
  exact differ (some.inj theirs).symm

omit [DecidableEq Task] in
theorem OthersAgree.leave : OthersAgree process current (world.leave process task) task := by
  intro other differ
  exact (others other differ).frame
    (fun inside => update_of_ne (others.apart mine differ inside) ..)
    (fun _ => rfl) (fun _ => rfl) Iff.rfl

omit [DecidableEq Task] in
theorem OthersAgree.drop (inode : ℕ) :
    OthersAgree process current (world.drop process task inode) task := by
  intro other differ
  obtain ⟨_, mutex, archive, stage, log⟩ := drop_fields world
  rw [stage]
  refine (others other differ).frame (fun _ => by rw [mutex]) (fun holds => drop_holder ?_)
    (fun _ => archive) (by rw [log])
  rw [(others other differ).held holds]
  exact fun same => others.apart mine differ holds.inside (some.inj same)

omit mine others

include sound in
theorem Sound.enter (stands : world.stage task = .idle) :
    Sound process call current (world.enter process task) := by
  have own := sound.agrees task
  rw [stands] at own
  unfold World.enter
  split
  · rename_i free
    refine .go sound.named sound.serial sound.once
      ⟨fun _ => update_self .., fun _ none => absurd none (by simp [Stage.inode]),
        fun holds => holds.elim, fun _ none => absurd none (by simp [Stage.seen]), own.counted⟩
      fun other differ => (sound.agrees other).frame (fun inside => ?_) (fun _ => rfl)
        (fun _ => rfl) Iff.rfl
    refine update_of_ne (fun same => ?_) ..
    have theirs := (sound.agrees other).guarded inside
    rw [same, free] at theirs
    nomatch theirs
  · exact sound

omit [DecidableEq Process] [DecidableEq Task] in
theorem Agrees.closed {now : ℕ} {before after : Stage Member}
    (agrees : Agrees process current world task before) (closed : after.inode = none)
    (guarded : after.Inside → changed.mutex (process task) = some task)
    (succeeded : after.succeeded = before.succeeded) (log : changed.log = world.log) :
    Agrees process now changed task after := by
  refine ⟨guarded, fun inode found => absurd found (by simp [closed]),
    fun holds => absurd closed holds.open,
    fun seen found => absurd closed (Stage.holds_of_seen found).open, ?_⟩
  rw [succeeded, log]
  exact agrees.counted

variable {fails : Bool}

include sound

/-- Creating the lock file, or finding it there, keeps everything sound if nobody has an older one
open. -/
theorem Sound.touch (stands : world.stage task = .entered) (fresh : world.Fresh task fails) :
    ∃ current, Sound process call current (world.touch process task fails) := by
  have own := sound.agrees task
  rw [stands] at own
  have mine := own.guarded trivial
  unfold World.touch
  split
  · rename_i inode there
    obtain ⟨directory, mutex, archive, stage, log⟩ := drop_fields world
    refine ⟨current, .go ?_ ?_ ?_ ?_ (sound.others.drop mine inode)⟩
    · rw [directory]
      exact sound.named
    · rw [archive, log]
      exact sound.serial
    · rw [log]
      exact sound.once
    · exact own.closed rfl (fun _ => by rw [mutex, mine]) rfl log
  · rename_i absent
    split
    · exact ⟨current, .go sound.named sound.serial sound.once
        (own.closed rfl (fun _ => mine) rfl rfl) sound.others⟩
    · rename_i created
      have unopened := fresh stands (by simpa using created) absent
      refine ⟨world.inodes, .go (fun inode same => (some.inj same).symm) sound.serial
        sound.once ?_ fun other differ => ?_⟩
      · exact own.closed rfl (fun _ => mine) rfl rfl
      · exact (sound.agrees other).closed (unopened other) (sound.agrees other).guarded rfl rfl

theorem Sound.openFile (stands : world.stage task = .touched) :
    Sound process call current (world.openFile process task fails) := by
  have own := sound.agrees task
  rw [stands] at own
  have mine := own.guarded trivial
  unfold World.openFile
  split
  · rename_i inode there
    refine .go sound.named sound.serial sound.once ⟨fun _ => mine, fun opened same => ?_,
      fun holds => holds.elim, fun _ none => absurd none (by simp [Stage.seen]), own.counted⟩
      sound.others
    rw [← some.inj same]
    exact sound.named inode there
  · exact .go sound.named sound.serial sound.once
      (own.closed rfl (fun inside => inside.elim) rfl rfl) (sound.others.leave mine)

theorem Sound.lock (stands : world.stage task = .opened inode) :
    Sound process call current (world.lock process task inode fails) := by
  have own := sound.agrees task
  rw [stands] at own
  have mine := own.guarded trivial
  obtain rfl : inode = current := own.named inode rfl
  unfold World.lock
  split
  · obtain ⟨directory, mutex, archive, stage, log⟩ := drop_fields world
    refine .go ?_ ?_ ?_ ?_ ((sound.others.drop mine inode).leave (by rw [mutex, mine]))
    · rw [leave, directory]
      exact sound.named
    · rw [leave, archive, log]
      exact sound.serial
    · rw [leave, log]
      exact sound.once
    · exact own.closed rfl (fun inside => inside.elim) rfl log
  · split
    · rename_i free
      refine .go sound.named sound.serial sound.once ⟨fun _ => mine, own.named,
        fun _ => update_self .., fun _ none => absurd none (by simp [Stage.seen]),
        own.counted⟩ fun other differ => (sound.agrees other).frame (fun _ => rfl)
          (fun holds => ?_) (fun _ => rfl) Iff.rfl
      have theirs := (sound.agrees other).held holds
      have taken : some (process other) = some (process task) := by
        rcases free with unheld | ours
        · exact absurd (unheld.symm.trans theirs) (by simp)
        · exact theirs.symm.trans ours
      exact absurd (some.inj taken) (sound.others.apart mine differ holds.inside)
    · exact sound

omit [DecidableEq Process] in
theorem Sound.change (holds : (world.stage task).Holds)
    (directory : changed.directory = world.directory) (mutex : changed.mutex = world.mutex)
    (holder : changed.holder = world.holder) (stages : changed.stage = world.stage)
    (serial : changed.archive = replay call changed.log) (once : changed.log.Nodup)
    (log : ∀ other, other ≠ task → (other ∈ changed.log ↔ other ∈ world.log))
    (own : Agrees process current changed task stage) :
    Sound process call current (changed.go task stage) := by
  refine .go (by rw [directory]; exact sound.named) serial once own fun other differ => ?_
  rw [stages]
  exact (sound.agrees other).frame (fun _ => by rw [mutex]) (fun _ => by rw [holder])
    (fun too => absurd (sound.exclusive _ _ too holds) differ) (log other differ)

omit [DecidableEq Process] in
theorem Sound.begin (stands : world.stage task = .locked inode) :
    Sound process call current (world.begin call task inode fails) := by
  have own := sound.agrees task
  have holds : (world.stage task).Holds := by rw [stands]; trivial
  rw [stands] at own
  have uncounted : task ∉ world.log := fun counted =>
    absurd (own.counted.mpr counted) (by simp [Stage.succeeded])
  unfold World.begin
  split
  · exact sound.change holds rfl rfl rfl rfl sound.serial sound.once (fun _ _ => Iff.rfl)
      ⟨own.guarded, own.named, own.held, fun _ none => absurd none (by simp [Stage.seen]),
        own.counted⟩
  · split
    · exact sound.change holds rfl rfl rfl rfl sound.serial sound.once (fun _ _ => Iff.rfl)
        ⟨own.guarded, own.named, own.held, fun _ same => some.inj same, own.counted⟩
    · rename_i removes
      refine sound.change holds rfl rfl rfl rfl ?_ (sound.once.cons uncounted)
        (fun other differ => by simp [differ])
        ⟨own.guarded, own.named, own.held, fun _ none => absurd none (by simp [Stage.seen]),
          by simp [Stage.succeeded]⟩
      simp [replay, removes, World.apply]

omit [DecidableEq Process] in
theorem Sound.write {seen : List Member} (stands : world.stage task = .read inode seen) :
    Sound process call current (world.write call task inode seen fails) := by
  have own := sound.agrees task
  have holds : (world.stage task).Holds := by rw [stands]; trivial
  rw [stands] at own
  have uncounted : task ∉ world.log := fun counted =>
    absurd (own.counted.mpr counted) (by simp [Stage.succeeded])
  unfold World.write
  split
  · rename_i member appends
    refine sound.change holds rfl rfl rfl rfl ?_ (sound.once.cons uncounted)
      (fun other differ => by simp [differ])
      ⟨own.guarded, own.named, own.held, fun _ none => absurd none (by simp [Stage.seen]),
        by simp [Stage.succeeded]⟩
    -- What the task has seen is still what the archive holds.
    calc some (seen ++ [member])
        = World.apply (call task) world.archive := by
          rw [appends, World.apply, own.seeing seen rfl]
      _ = replay call (task :: world.log) := by rw [sound.serial, replay, replay, List.foldr_cons]
  · exact sound.change holds rfl rfl rfl rfl sound.serial sound.once (fun _ _ => Iff.rfl)
      ⟨own.guarded, own.named, own.held, fun _ none => absurd none (by simp [Stage.seen]),
        own.counted⟩

variable {succeeded : Bool}

theorem Sound.unlock (stands : world.stage task = .changed inode succeeded) :
    Sound process call current (world.unlock process task inode succeeded) := by
  have own := sound.agrees task
  rw [stands] at own
  have mine := own.guarded trivial
  obtain ⟨directory, mutex, archive, stage, log⟩ := drop_fields world
  refine .go ?_ ?_ ?_ ?_ (sound.others.drop mine inode)
  · rw [directory]
    exact sound.named
  · rw [archive, log]
    exact sound.serial
  · rw [log]
    exact sound.once
  · exact own.closed rfl (fun _ => by rw [mutex, mine]) rfl log

theorem Sound.release (stands : world.stage task = .released succeeded) :
    Sound process call current (world.release process call task succeeded) := by
  have own := sound.agrees task
  rw [stands] at own
  have mine := own.guarded trivial
  unfold World.release
  split
  · exact .go sound.named sound.serial sound.once
      (own.closed rfl (fun inside => inside.elim) rfl rfl) (sound.others.leave mine)
  · exact .go sound.named sound.serial sound.once
      (own.closed rfl (fun inside => inside.elim) rfl rfl) (sound.others.leave mine)

omit [DecidableEq Process] in
theorem Sound.unlink (stands : world.stage task = .left succeeded) :
    Sound process call current (world.unlink task succeeded fails) := by
  have own := sound.agrees task
  rw [stands] at own
  unfold World.unlink
  split
  · exact .go sound.named sound.serial sound.once
      (own.closed rfl (fun inside => inside.elim) rfl rfl) sound.others
  · exact .go (nofun) sound.serial sound.once
      (own.closed rfl (fun inside => inside.elim) rfl rfl) fun other _ =>
        (sound.agrees other).frame (fun _ => rfl) (fun _ => rfl) (fun _ => rfl) Iff.rfl

theorem Sound.step (fresh : world.Fresh task fails) :
    ∃ current, Sound process call current (world.step process call task fails) := by
  unfold World.step
  split
  · rename_i stands
    exact ⟨current, sound.enter stands⟩
  · rename_i stands
    exact sound.touch stands fresh
  · rename_i stands
    exact ⟨current, sound.openFile stands⟩
  · rename_i stands
    exact ⟨current, sound.lock stands⟩
  · rename_i stands
    exact ⟨current, sound.begin stands⟩
  · rename_i stands
    exact ⟨current, sound.write stands⟩
  · rename_i stands
    exact ⟨current, sound.unlock stands⟩
  · rename_i stands
    exact ⟨current, sound.release stands⟩
  · rename_i stands
    exact ⟨current, sound.unlink stands⟩
  · exact ⟨current, sound⟩

/-- A step leaves the archive as it is, or writes a member behind what is there, or removes it. -/
theorem Sound.step_archive (task : Task) (fails : Bool) :
    (world.step process call task fails).archive = world.archive ∨
      (∃ inode member, world.stage task = .read inode (world.archive.getD []) ∧ fails = false ∧
        call task = .append member ∧
        (world.step process call task fails).archive =
          some (world.archive.getD [] ++ [member])) ∨
      ∃ inode, world.stage task = .locked inode ∧ fails = false ∧ call task = .remove ∧
        (world.step process call task fails).archive = none := by
  have own := sound.agrees task
  unfold World.step
  split
  · left
    unfold World.enter
    split <;> rfl
  · left
    unfold World.touch
    split
    · exact (drop_fields world).2.2.1
    · split <;> rfl
  · left
    unfold World.openFile
    split <;> rfl
  · left
    unfold World.lock
    split
    · exact (drop_fields world).2.2.1
    · split <;> rfl
  · rename_i inode stands
    unfold World.begin
    split
    · exact .inl rfl
    case isFalse succeeds =>
      split
      · exact .inl rfl
      case h_2 removes =>
        exact .inr (.inr ⟨inode, stands, by simpa using succeeds, removes, rfl⟩)
  · rename_i inode seen stands
    unfold World.write
    split
    case h_1 member appends =>
      rw [stands] at own
      have same := own.seeing seen rfl
      exact .inr (.inl ⟨inode, member, same ▸ stands, rfl, appends, same ▸ rfl⟩)
    · exact .inl rfl
  · left
    exact (drop_fields world).2.2.1
  · left
    unfold World.release
    split <;> rfl
  · left
    unfold World.unlink
    split <;> rfl
  · exact .inl rfl

end Steps

/-! ### Whole runs -/

omit [DecidableEq Process] [DecidableEq Task] in
theorem sound_start : Sound process call 0 (start : World Process Task Member) := by
  refine ⟨fun _ none => absurd none (by simp [start]), rfl, .nil, fun task => ?_⟩
  exact ⟨fun inside => inside.elim, fun _ none => absurd none (by simp [start, Stage.inode]),
    fun holds => holds.elim, fun _ none => absurd none (by simp [start, Stage.seen]),
    by simp [start, Stage.succeeded]⟩

theorem Sound.run {schedule : List (Task × Bool)} (sound : Sound process call current world)
    (fresh : RunsFresh process call world schedule) :
    ∃ current, Sound process call current (world.run process call schedule) := by
  induction schedule generalizing world current with
  | nil => exact ⟨current, sound⟩
  | cons move rest ih =>
    obtain ⟨next, kept⟩ := sound.step fresh.1
    exact ih kept fresh.2

/-- However the steps of any number of appends and removals of an archive are interleaved: as long
as none creates the lock file while another has an older one open, no two of them hold the lock at
once, and the archive is what those that have changed it make of it one after the other, among them
all that have succeeded. -/
theorem holds_alone (process : Task → Process) (call : Task → Call Member)
    (schedule : List (Task × Bool)) (fresh : RunsFresh process call start schedule) :
    (start.run process call schedule).Exclusive ∧
      (start.run process call schedule).Intact call := by
  obtain ⟨current, sound⟩ := sound_start.run fresh
  exact ⟨sound.exclusive, sound.intact⟩

/-- Two appends of two processes, the second of which has to wait. -/
theorem one_behind_the_other :
    ((start : World (Fin 2) (Fin 2) String).run id ![.append "a", .append "b"]
      ([0, 0, 1, 1, 0, 1, 0, 1, 0, 0, 0, 0, 1, 1, 1, 1, 1].map (·, false))).archive =
      some ["a", "b"] := by
  rw [(holds_alone id ![.append "a", .append "b"]
    ([0, 0, 1, 1, 0, 1, 0, 1, 0, 0, 0, 0, 1, 1, 1, 1, 1].map (·, false))
    (by decide)).2.serial]
  decide

/-- A removal deletes the lock file while an append holds it, and another append creates a new one
and holds that. They write over each other. -/
theorem holds_a_deleted_lock :
    ¬((start : World (Fin 3) (Fin 3) String).run id ![.remove, .append "a", .append "b"]
        ([0, 0, 0, 0, 0, 0, 0, 1, 1, 1, 1, 0, 2, 2, 2, 2].map (·, false))).Exclusive ∧
      ¬((start : World (Fin 3) (Fin 3) String).run id ![.remove, .append "a", .append "b"]
        ([0, 0, 0, 0, 0, 0, 0, 1, 1, 1, 1, 0, 2, 2, 2, 2, 1, 2, 1, 1, 1, 2].map
          (·, false))).Intact ![.remove, .append "a", .append "b"] := by
  refine ⟨fun exclusive => ?_, fun intact => ?_⟩
  · exact absurd (exclusive 1 2 (by decide) (by decide)) (by decide)
  · exact absurd intact.serial (by decide)

end World

end Euclid.Core.ArchiveLock
