/-
This file follows the archives of the object store while objects are archived, restored,
overwritten, kept as versions and taken away, and the archives that nobody uses are removed.

The bytes of an object are those of its file, and a file is written once. A member of an archive is
named by the number of members before it, as its offset names it. Each archive has its lock, and a
task is one call of `archiveObject`, or one turn of `reclaimArchives`: it makes its steps under the
lock of the archive as the code does, and the other statements of the store come in between. A put
writes the row of a key first, which keeps the archive that the row names, and clears that
afterwards.
-/

import Euclid.Bytes
import Euclid.Core.ArchiveLock
import Euclid.Interleaving

namespace Euclid.Esm.Reclaim

open List Function
open Core.ArchiveLock

/-- The row of an object or of a version: the name of its file, and where it is archived. -/
structure Row where
  id : String
  internalName : String
  archive : Option (String × ℕ)
  deriving DecidableEq

/-- What a task does: archive an object as it was read, or remove an archive that nobody uses. -/
inductive Job where
  | archive (row : Row) (archiveFile : String)
  | reclaim (archiveFile : String)

def Job.archiveFile : Job → String
  | .archive _ archiveFile => archiveFile
  | .reclaim archiveFile => archiveFile

variable {Process Task : Type} [DecidableEq Process] [DecidableEq Task]

/-- The archives with their lock files, when each was written last, in hours, what the tasks know,
and the rows. -/
structure State (Process Task : Type) where
  clock : ℕ
  zips : String → World Process Task Bytes
  written : String → ℕ
  /-- Where the member is that a task has appended and not recorded yet. -/
  appended : Task → Option ℕ
  /-- The task has found its archive old. -/
  aged : Task → Bool
  /-- The task has found its archive old, and no row that names it. -/
  unused : Task → Bool
  rows : List Row
  /-- The rows that handlers have read. -/
  copied : ℕ → Option Row

inductive Event (Task : Type) where
  | waits (hours : ℕ)
  /-- `upsertObject`. -/
  | stores (id internalName : String)
  /-- `clearObjectLifecycle`. -/
  | clears (id internalName : String)
  | deletes (id : String)
  | restores (id : String)
  | reads (reader : ℕ) (row : Row)
  /-- `insertObjectVersion`, of a row that was read. -/
  | keeps (reader : ℕ) (id : String)
  /-- `setObjectLifecycle` of a version that becomes the object. -/
  | promotes (reader : ℕ) (id : String)
  /-- `last_write_time`. -/
  | ages (task : Task)
  /-- `archiveInUse`. -/
  | asks (task : Task)
  /-- The next step of `ArchiveZip::Append` or `ArchiveZip::Remove`. -/
  | goes (task : Task) (fails : Bool)
  /-- `setObjectLifecycle`, after an append. -/
  | marks (task : Task)
  /-- The task ends without recording what it has appended. -/
  | ends (task : Task)

def archiveInUse (rows : List Row) (archiveFile : String) : Bool :=
  rows.any fun row => row.archive.map Prod.fst = some archiveFile

/-- Where the row of an ID is archived. -/
def archiveOf (rows : List Row) (id : String) : Option (String × ℕ) :=
  (rows.find? fun row => row.id = id).bind Row.archive

/-- Set where a row is archived, if it is still the row of a file and not archived. -/
def setArchive (rows : List Row) (id internalName : String) (archive : Option (String × ℕ)) :
    List Row :=
  rows.map fun row =>
    if row.id = id ∧ row.internalName = internalName ∧ row.archive = none then
      { row with archive := archive }
    else row

section Steps

variable (content : String → Bytes) (process : Task → Process) (jobs : Task → Job)

/-- What a task calls. -/
def call (task : Task) : Core.ArchiveLock.Call Bytes :=
  match jobs task with
  | .archive row _ => .append (content row.internalName)
  | .reclaim _ => .remove

/-- An archive is removed only once it was found unused. -/
def State.mayGo (state : State Process Task) (task : Task) : Bool :=
  match jobs task with
  | .archive _ _ => true
  | .reclaim _ => state.unused task

/-- The archive of a task, with its lock. -/
def State.zipOf (state : State Process Task) (task : Task) : World Process Task Bytes :=
  state.zips (jobs task).archiveFile

/-- The next step of a task under the lock. -/
def State.moved (state : State Process Task) (task : Task) (fails : Bool) : State Process Task :=
  { state with
    zips := Function.update state.zips (jobs task).archiveFile
      ((state.zipOf jobs task).step process (call content jobs) task fails) }

/-- A step under the lock. An append writes its member behind those it has seen. -/
def State.go (state : State Process Task) (task : Task) (fails : Bool) : State Process Task :=
  match jobs task, (state.zipOf jobs task).stage task, fails with
  | .archive _ archiveFile, .read _ seen, false =>
    { state.moved content process jobs task fails with
      written := Function.update state.written archiveFile state.clock
      appended := Function.update state.appended task (some seen.length) }
  | _, _, _ => state.moved content process jobs task fails

def step (state : State Process Task) : Event Task → State Process Task
  | .waits hours => { state with clock := state.clock + hours }
  | .stores id internalName =>
    { state with
      rows := ⟨id, internalName, archiveOf state.rows id⟩ :: state.rows.filter (·.id ≠ id) }
  | .clears id internalName =>
    { state with
      rows := state.rows.map fun row =>
        if row.id = id ∧ row.internalName = internalName then { row with archive := none }
        else row }
  | .deletes id => { state with rows := state.rows.filter (·.id ≠ id) }
  | .restores id =>
    { state with
      rows := state.rows.map fun row => if row.id = id then { row with archive := none } else row }
  | .reads reader row =>
    if row ∈ state.rows then
      { state with copied := Function.update state.copied reader (some row) }
    else state
  | .keeps reader id =>
    match state.copied reader with
    | none => state
    | some row => { state with rows := { row with id := id } :: state.rows }
  | .promotes reader id =>
    match state.copied reader with
    | none => state
    | some row => { state with rows := setArchive state.rows id row.internalName row.archive }
  | .ages task =>
    -- an append that failed may have left an archive without members
    if state.written (jobs task).archiveFile + 24 ≤ state.clock then
      { state with aged := Function.update state.aged task true }
    else state
  | .asks task =>
    { state with
      unused := Function.update state.unused task
        (state.aged task && !archiveInUse state.rows (jobs task).archiveFile) }
  | .goes task fails =>
    if state.mayGo jobs task then state.go content process jobs task fails else state
  | .marks task =>
    match jobs task, (state.zipOf jobs task).stage task, state.appended task with
    | .archive row archiveFile, .finished true, some offset =>
      { state with
        rows := setArchive state.rows row.id row.internalName (some (archiveFile, offset))
        appended := Function.update state.appended task none }
    | _, _, _ => state
  | .ends task => { state with appended := Function.update state.appended task none }

/-- Nothing is stored and nobody has begun. -/
def State.empty : State Process Task :=
  ⟨0, fun _ => World.start, fun _ => 0, fun _ => none, fun _ => false, fun _ => false, [],
    fun _ => none⟩

/-! ### Archives that stay -/

/-- The archive is there, and the member at an offset is the bytes of a file. -/
def Has (zips : String → World Process Task Bytes) (internalName archiveFile : String)
    (offset : ℕ) : Prop :=
  ∃ members, (zips archiveFile).archive = some members ∧
    members[offset]? = some (content internalName)

/-- Where a file is archived, if it is archived, its member is there. -/
def Keeps (zips : String → World Process Task Bytes) (internalName : String)
    (archive : Option (String × ℕ)) : Prop :=
  ∀ archiveFile offset, archive = some (archiveFile, offset) →
    Has content zips internalName archiveFile offset

/-- Every archived object is where its row says. -/
def ArchivesStay (state : State Process Task) : Prop :=
  ∀ row ∈ state.rows, Keeps content state.zips row.internalName row.archive

/-- The next step of a task removes its archive. -/
def State.removes (state : State Process Task) (task : Task) (fails : Bool) : Bool :=
  match jobs task, (state.zipOf jobs task).stage task, fails with
  | .reclaim _, .locked _, false => true
  | _, _, _ => false

/-- The step of a task under the lock does no harm: it creates no lock file while another task has
an older one open, and when it removes the archive, no row names it and nothing is appended to it
that is not recorded yet. -/
structure Mindful (state : State Process Task) (task : Task) (fails : Bool) : Prop where
  fresh : (state.zipOf jobs task).Fresh task fails
  free : state.removes jobs task fails = true →
    archiveInUse state.rows (jobs task).archiveFile = false ∧
      ∀ other, (state.appended other).isSome = true →
        (jobs other).archiveFile ≠ (jobs task).archiveFile

/-- What an event must meet: nothing is stored over an archived row but the very bytes, what is
recorded from an earlier read is still in its archive, and the steps under the lock do no harm. -/
def Careful (state : State Process Task) : Event Task → Prop
  | .stores id internalName => Keeps content state.zips internalName (archiveOf state.rows id)
  | .keeps reader _ => ∀ row, state.copied reader = some row →
    Keeps content state.zips row.internalName row.archive
  | .promotes reader _ => ∀ row, state.copied reader = some row →
    Keeps content state.zips row.internalName row.archive
  | .goes task fails => state.mayGo jobs task = true → Mindful jobs state task fails
  | _ => True

/-- Every archive is sound under its lock, every archived object is where its row says, and so is
what is appended and not recorded yet. -/
structure Sound (state : State Process Task) : Prop where
  locked : ∀ file, ∃ current, World.Sound process (call content jobs) current (state.zips file)
  stay : ArchivesStay content state
  appended : ∀ task row file offset, jobs task = .archive row file →
    state.appended task = some offset → Has content state.zips row.internalName file offset

end Steps

section Sounds

variable {content : String → Bytes} {process : Task → Process} {jobs : Task → Job}
variable {state : State Process Task} {internalName archiveFile : String} {offset : ℕ}
variable {task : Task} {fails : Bool}

section

variable {zips : String → World Process Task Bytes}
variable (has : Has content zips internalName archiveFile offset)

include has

omit [DecidableEq Process] [DecidableEq Task] in
theorem Has.grows {file : String} {world : World Process Task Bytes}
    (grows : ∀ members, (zips file).archive = some members →
      ∃ more, world.archive = some (members ++ more)) :
    Has content (update zips file world) internalName archiveFile offset := by
  obtain ⟨members, found, member⟩ := has
  by_cases same : archiveFile = file
  · subst same
    obtain ⟨more, grown⟩ := grows members found
    refine ⟨members ++ more, by rw [update_self, grown], ?_⟩
    rw [List.getElem?_append_left (List.getElem?_eq_some_iff.mp member).1, member]
  · exact ⟨members, by rw [update_of_ne same, found], member⟩

omit [DecidableEq Process] [DecidableEq Task] in
theorem Has.apart {file : String} {world : World Process Task Bytes} (apart : archiveFile ≠ file) :
    Has content (update zips file world) internalName archiveFile offset := by
  obtain ⟨members, found, member⟩ := has
  exact ⟨members, by rw [update_of_ne apart, found], member⟩

end

theorem go_fields :
    (state.go content process jobs task fails).zips =
        update state.zips (jobs task).archiveFile
          ((state.zipOf jobs task).step process (call content jobs) task fails) ∧
      (state.go content process jobs task fails).rows = state.rows := by
  unfold State.go
  split
  · exact ⟨rfl, rfl⟩
  · exact ⟨rfl, rfl⟩

/-- What a task has appended after a step is what it had, or what it has just written. -/
theorem go_appended {other : Task}
    (found : (state.go content process jobs task fails).appended other = some offset) :
    state.appended other = some offset ∨
      ∃ row archiveFile inode seen, other = task ∧ jobs task = .archive row archiveFile ∧
        fails = false ∧ (state.zipOf jobs task).stage task = .read inode seen ∧
        offset = seen.length := by
  unfold State.go at found
  split at found
  case h_1 row file inode seen job stands =>
    change update state.appended task (some seen.length) other = some offset at found
    by_cases same : other = task
    · subst same
      rw [update_self] at found
      exact .inr ⟨row, file, inode, seen, rfl, job, rfl, stands, (Option.some.inj found).symm⟩
    · rw [update_of_ne same] at found
      exact .inl found
  · exact .inl found

section

variable (sound : Sound content process jobs state)

include sound

omit [DecidableEq Process] [DecidableEq Task] in
/-- The rows may change, if what they name is in the archives. -/
theorem Sound.rows {rows : List Row}
    (each : ∀ row ∈ rows, Keeps content state.zips row.internalName row.archive) :
    Sound content process jobs { state with rows := rows } :=
  ⟨sound.locked, each, sound.appended⟩

/-- The step of a task that removes nothing keeps what the archives have. -/
theorem Sound.keeps (has : Has content state.zips internalName archiveFile offset)
    (remains : archiveFile = (jobs task).archiveFile → ∀ inode,
      (state.zipOf jobs task).stage task = .locked inode → fails = false →
        call content jobs task ≠ .remove) :
    Has content (state.go content process jobs task fails).zips internalName archiveFile
      offset := by
  rw [go_fields.1]
  by_cases same : archiveFile = (jobs task).archiveFile
  · refine has.grows fun members found => ?_
    obtain ⟨current, locked⟩ := sound.locked (jobs task).archiveFile
    have there : (state.zipOf jobs task).archive = some members := found
    rcases locked.step_archive task fails with
      still | ⟨_, member, _, _, _, written⟩ | ⟨inode, stands, succeeds, removes, _⟩
    · exact ⟨[], by rw [List.append_nil, ← there]; exact still⟩
    · exact ⟨[member], written.trans (by rw [found]; rfl)⟩
    · exact absurd removes (remains same inode stands succeeds)
  · exact has.apart same

/-- What a task has just written is in the archive. -/
theorem Sound.writes {row : Row} {inode : ℕ} {seen : List Bytes}
    (job : jobs task = .archive row archiveFile)
    (stands : (state.zipOf jobs task).stage task = .read inode seen) :
    Has content (state.go content process jobs task false).zips row.internalName archiveFile
      seen.length := by
  have file : (jobs task).archiveFile = archiveFile := by rw [job]; rfl
  have calls : call content jobs task = .append (content row.internalName) := by
    rw [call, job]
  obtain ⟨current, locked⟩ := sound.locked (jobs task).archiveFile
  have seeing : (state.zipOf jobs task).archive.getD [] = seen :=
    (locked.agrees task).seeing seen (by
      show ((state.zipOf jobs task).stage task).seen = _
      rw [stands]; rfl)
  have written : ((state.zipOf jobs task).step process (call content jobs) task false).archive =
      some (seen ++ [content row.internalName]) := by
    unfold World.step
    rw [stands]
    dsimp only
    unfold World.write
    rw [calls]
    rfl
  rw [go_fields.1, file]
  refine ⟨seen ++ [content row.internalName], ?_, List.getElem?_concat_length⟩
  rw [update_self]
  exact written

omit [DecidableEq Process] [DecidableEq Task] sound in
theorem removes_of_locked {inode : ℕ} (stands : (state.zipOf jobs task).stage task = .locked inode)
    (succeeds : fails = false) (removes : call content jobs task = .remove) :
    state.removes jobs task fails = true := by
  cases job : jobs task with
  | archive row file => simp [call, job] at removes
  | reclaim file =>
    unfold State.removes
    rw [job, stands, succeeds]

theorem Sound.goes (mindful : Mindful jobs state task fails) :
    Sound content process jobs (state.go content process jobs task fails) := by
  refine ⟨fun file => ?_, fun row mem archiveFile offset archived => ?_,
    fun other row file offset job found => ?_⟩
  · rw [go_fields.1]
    by_cases same : file = (jobs task).archiveFile
    · subst same
      rw [update_self]
      obtain ⟨current, locked⟩ := sound.locked (jobs task).archiveFile
      exact locked.step mindful.fresh
    · rw [update_of_ne same]
      exact sound.locked file
  · -- no row names an archive that is removed
    rw [go_fields.2] at mem
    refine sound.keeps (sound.stay row mem archiveFile offset archived) ?_
    rintro rfl inode stands succeeds removes
    have free := (mindful.free (removes_of_locked stands succeeds removes)).1
    exact any_eq_false.mp free row mem (by simp [archived])
  · rcases go_appended found with old | ⟨row, file, inode, seen, rfl, does, rfl, stands, rfl⟩
    · -- nothing waits to be recorded in an archive that is removed
      refine sound.keeps (sound.appended other row file offset job old) ?_
      rintro rfl inode stands succeeds removes
      have apart := (mindful.free (removes_of_locked stands succeeds removes)).2 other
      rw [old, job] at apart
      exact apart rfl rfl
    · rw [does] at job
      obtain ⟨rfl, rfl⟩ := Job.archive.inj job
      exact sound.writes does stands

omit [DecidableEq Process] [DecidableEq Task] in
theorem Sound.setArchive {id : String} {archive : Option (String × ℕ)}
    (keeps : Keeps content state.zips internalName archive) :
    Sound content process jobs
      { state with rows := Reclaim.setArchive state.rows id internalName archive } := by
  refine sound.rows fun row mem => ?_
  obtain ⟨old, there, rfl⟩ := mem_map.mp mem
  split
  case isTrue same => exact same.2.1 ▸ keeps
  · exact sound.stay old there

omit [DecidableEq Process] in
/-- What is recorded, or given up, need not be kept as appended. -/
theorem Sound.forgets (task : Task) :
    Sound content process jobs { state with appended := update state.appended task none } := by
  refine ⟨sound.locked, sound.stay, fun other row file offset job found => ?_⟩
  change update state.appended task none other = some offset at found
  by_cases same : other = task
  · rw [same, update_self] at found
    nomatch found
  · rw [update_of_ne same] at found
    exact sound.appended other row file offset job found

omit [DecidableEq Process] [DecidableEq Task] in
theorem Sound.unarchives (rows : List Row)
    (each : ∀ row ∈ rows, row.archive = none ∨ row ∈ state.rows) :
    Sound content process jobs { state with rows := rows } := by
  refine sound.rows fun row mem file offset archived => ?_
  rcases each row mem with online | old
  · exact absurd (online.symm.trans archived) (by simp)
  · exact sound.stay row old file offset archived

theorem Sound.step (event : Event Task) (careful : Careful content jobs state event) :
    Sound content process jobs (step content process jobs state event) := by
  cases event with
  | waits => exact ⟨sound.locked, sound.stay, sound.appended⟩
  | stores id internalName =>
    refine sound.rows fun row mem => ?_
    rcases mem_cons.mp mem with rfl | old
    · exact careful
    · exact sound.stay row (mem_filter.mp old).1
  | clears id internalName =>
    refine sound.unarchives _ fun row mem => ?_
    obtain ⟨old, there, rfl⟩ := mem_map.mp mem
    split
    · exact .inl rfl
    · exact .inr there
  | deletes => exact sound.unarchives _ fun row mem => .inr (mem_filter.mp mem).1
  | restores id =>
    refine sound.unarchives _ fun row mem => ?_
    obtain ⟨old, there, rfl⟩ := mem_map.mp mem
    split
    · exact .inl rfl
    · exact .inr there
  | reads =>
    unfold Reclaim.step
    dsimp only
    split
    · exact ⟨sound.locked, sound.stay, sound.appended⟩
    · exact sound
  | keeps reader id =>
    unfold Reclaim.step
    dsimp only
    split
    · exact sound
    case h_2 copy copied =>
      refine sound.rows fun row mem => ?_
      rcases mem_cons.mp mem with rfl | old
      · exact careful copy copied
      · exact sound.stay row old
  | promotes reader id =>
    unfold Reclaim.step
    dsimp only
    split
    · exact sound
    case h_2 copy copied => exact sound.setArchive (careful copy copied)
  | ages =>
    unfold Reclaim.step
    dsimp only
    split
    · exact ⟨sound.locked, sound.stay, sound.appended⟩
    · exact sound
  | asks => exact ⟨sound.locked, sound.stay, sound.appended⟩
  | goes task fails =>
    unfold Reclaim.step
    dsimp only
    split
    case isTrue may => exact sound.goes (careful may)
    · exact sound
  | marks task =>
    unfold Reclaim.step
    dsimp only
    split
    case h_1 row file offset job stands appended =>
      refine (sound.setArchive fun archiveFile at_ same => ?_).forgets task
      obtain ⟨rfl, rfl⟩ := Prod.mk.inj (Option.some.inj same)
      exact sound.appended task row file offset job appended
    · exact sound
  | ends task => exact sound.forgets task

end

end Sounds

/-! ### Whole runs -/

omit [DecidableEq Process] [DecidableEq Task] in
theorem sound_empty (content : String → Bytes) (process : Task → Process) (jobs : Task → Job) :
    Sound content process jobs State.empty :=
  ⟨fun _ => ⟨0, World.sound_start⟩, fun _ mem => (nomatch mem),
    fun _ _ _ _ _ none => (nomatch none)⟩

section Month

instance decidableHas (content : String → Bytes) (zips : String → World Process Task Bytes)
    (internalName archiveFile : String) (offset : ℕ) :
    Decidable (Has content zips internalName archiveFile offset) :=
  decidable_of_iff
    (((zips archiveFile).archive.bind fun members => members[offset]?) = some
      (content internalName))
    Option.bind_eq_some_iff

instance decidableKeeps (content : String → Bytes) (zips : String → World Process Task Bytes)
    (internalName : String) : (archive : Option (String × ℕ)) →
      Decidable (Keeps content zips internalName archive)
  | none => .isTrue fun _ _ none => nomatch none
  | some (archiveFile, offset) =>
    decidable_of_iff (Has content zips internalName archiveFile offset)
      ⟨fun has _ _ same => by obtain ⟨rfl, rfl⟩ := Prod.mk.inj (Option.some.inj same); exact has,
        fun keeps => keeps archiveFile offset rfl⟩

instance decidableMindful [Fintype Task] (jobs : Task → Job) (state : State Process Task)
    (task : Task) (fails : Bool) : Decidable (Mindful jobs state task fails) :=
  decidable_of_iff (_ ∧ (_ → _ ∧ _))
    ⟨fun ⟨fresh, free⟩ => ⟨fresh, free⟩, fun mindful => ⟨mindful.fresh, mindful.free⟩⟩

instance decidableCareful [Fintype Task] (content : String → Bytes) (jobs : Task → Job)
    (state : State Process Task) : (event : Event Task) →
      Decidable (Careful content jobs state event)
  | .stores _ _ => decidableKeeps ..
  | .keeps reader _ =>
    inferInstanceAs (Decidable (∀ row ∈ state.copied reader,
      Keeps content state.zips row.internalName row.archive))
  | .promotes reader _ =>
    inferInstanceAs (Decidable (∀ row ∈ state.copied reader,
      Keeps content state.zips row.internalName row.archive))
  | .goes task fails =>
    inferInstanceAs (Decidable (state.mayGo jobs task = true → Mindful jobs state task fails))
  | .waits _ | .clears _ _ | .deletes _ | .restores _ | .reads _ _ | .ages _ | .asks _ | .marks _
  | .ends _ => .isTrue trivial

/-- What two files hold. -/
def named (internalName : String) : Bytes := if internalName = "a.dat" then [97] else [98, 98]

/-- Two objects are archived in one month by two processes, and a third removes the archive. -/
inductive MonthTask where
  | archiveA
  | archiveB
  | removal
  deriving DecidableEq

instance : Fintype MonthTask where
  elems := {.archiveA, .archiveB, .removal}
  complete task := by cases task <;> decide

def monthly : MonthTask → Job
  | .archiveA => .archive ⟨"a", "a.dat", none⟩ "may.zip"
  | .archiveB => .archive ⟨"b", "b.dat", none⟩ "may.zip"
  | .removal => .reclaim "may.zip"

/-- A task goes on until it has ended. -/
def whole (task : MonthTask) : List (Event MonthTask) := replicate 9 (.goes task false)

/-- The one object of an archive goes, and a day later the archive; then another is archived. -/
def monthAfter : List (Event MonthTask) :=
  [.stores "a" "a.dat"] ++ whole .archiveA ++
    [.marks .archiveA, .deletes "a", .waits 24, .ages .removal, .asks .removal] ++
    whole .removal ++ [.stores "b" "b.dat"] ++ whole .archiveB ++ [.marks .archiveB]

/-- The same, but the other is archived between the look that finds the archive unused and its
removal. -/
def monthEnds : List (Event MonthTask) :=
  [.stores "a" "a.dat"] ++ whole .archiveA ++
    [.marks .archiveA, .deletes "a", .waits 24, .ages .removal, .asks .removal] ++
    [.stores "b" "b.dat"] ++ whole .archiveB ++ [.marks .archiveB] ++ whole .removal

instance decidableArchivesStay (content : String → Bytes) (state : State Process Task) :
    Decidable (ArchivesStay content state) :=
  inferInstanceAs
    (Decidable (∀ row ∈ state.rows, Keeps content state.zips row.internalName row.archive))

end Month

end Euclid.Esm.Reclaim
