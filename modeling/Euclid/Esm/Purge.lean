/-
This file proves when a purge ends, and what is left then.

A page that is removed leaves the rest of the listing, so the loop goes through the listing as
through the pages of a list that does not change. It stops at the first page without bytes and
without files, which is the last page if that is so, and otherwise leaves the pages behind it. Rows
that cannot be deleted keep the listing as it is: then the first page comes again and again, unless
it is such a page.
-/

import Euclid.Esm.Removal

namespace Euclid.Esm

open List Nat

open Core (Text)

/-! ### Pages -/

/-- The loop goes on behind a page. -/
def Progresses (page : List Object) : Prop := (removedOf page).size ≠ 0 ∨ (removedOf page).count ≠ 0

instance (page : List Object) : Decidable (Progresses page) := by
  unfold Progresses
  infer_instance

/-- The loop goes on behind every page but the last. -/
def PagesProgress (pageSize : ℕ) (rows : List Object) : Prop :=
  ∀ index, (index + 1) * pageSize < rows.length →
    Progresses ((rows.drop (index * pageSize)).take pageSize)

theorem pagesProgress_nil (pageSize : ℕ) : PagesProgress pageSize [] :=
  fun _ within => absurd within (not_lt_zero _)

/-- There is one page, or the first progresses, and so do those behind it. -/
theorem pagesProgress_iff {pageSize : ℕ} (rows : List Object) : PagesProgress pageSize rows ↔
      rows.length ≤ pageSize ∨
        Progresses (rows.take pageSize) ∧ PagesProgress pageSize (rows.drop pageSize) := by
  constructor
  · intro progress
    rcases lt_or_ge pageSize rows.length with several | one
    · refine .inr ⟨?_, fun index within => ?_⟩
      · have first := progress 0 (by rwa [zero_add, one_mul])
        rwa [zero_mul, drop_zero] at first
      · have later := progress (index + 1) (by
          rw [length_drop] at within
          rw [succ_mul (index + 1)]
          omega)
        rwa [succ_mul, add_comm, ← drop_drop] at later
    · exact .inl one
  · rintro (one | ⟨first, others⟩) index within
    · have least : pageSize ≤ (index + 1) * pageSize :=
        Nat.le_mul_of_pos_left pageSize (Nat.succ_pos index)
      omega
    · cases index with
      | zero => rwa [zero_mul, drop_zero]
      | succ index =>
        have later := others index (by
          rw [length_drop]
          rw [succ_mul (index + 1)] at within
          omega)
        rwa [succ_mul, add_comm (index * pageSize), ← drop_drop]

theorem purgePageSize_pos (configured : Option Int) : 0 < purgePageSize configured := by
  unfold purgePageSize
  omega

/-! ### The listing behind a page -/

theorem filter_not_mem_take {Document Label : Type} [DecidableEq Label] {label : Document → Label}
    {docs : List Document} (nodup : (docs.map label).Nodup) {count : ℕ} :
    docs.filter (fun doc => label doc ∉ (docs.take count).map label) = docs.drop count := by
  have split := take_append_drop count docs
  rw [← split, map_append] at nodup
  have apart := disjoint_of_nodup_append nodup
  conv_lhs => rw [← split, filter_append]
  rw [split, filter_eq_nil_iff.mpr, nil_append, filter_eq_self.mpr]
  · intro doc later
    exact decide_eq_true fun earlier => apart earlier (mem_map_of_mem later)
  · intro doc earlier
    rw [decide_eq_true_iff, not_not]
    exact mem_map_of_mem earlier

variable {bucketErn : String}

theorem listObjects_deletePage {objects : Objects} {prefixText : Text} {pageSize : ℕ} :
    listObjects
        (deleteObjectsByErns objects
          (((listObjects objects bucketErn prefixText).take pageSize).map Object.ern))
        bucketErn prefixText = (listObjects objects bucketErn prefixText).drop pageSize := by
  have nodup : ((listObjects objects bucketErn prefixText).map Object.ern).Nodup :=
    objects.labels_nodup.sublist (filter_sublist.map _)
  rw [← filter_not_mem_take nodup]
  exact filter_comm _ _ _

/-! ### The claim -/

def Claimed (jobId worker : String) (installation : Installation) : Prop :=
  installation.jobs.any (PurgeJob.IsHeld jobId worker) = true

variable {removed : RemovedObjects} {worker : String}

theorem jobs_heartbeat {jobId : String} {jobs : List PurgeJob} :
    (heartbeatPurgeJob jobId worker removed jobs).2.map (fun job => (job.jobId, job.claimedBy)) =
      jobs.map fun job => (job.jobId, job.claimedBy) :=
  Collection.map_updateFirst fun _ _ _ => rfl

theorem any_isHeld (jobId worker : String) (jobs : List PurgeJob) :
    jobs.any (PurgeJob.IsHeld jobId worker) = (jobs.map fun job => (job.jobId, job.claimedBy)).any
        fun ids => ids.1 = jobId ∧ ids.2 = worker := by
  rw [any_map]
  rfl

theorem onProgress_continues {job : PurgeJob}
    {installation : Installation} (claimed : Claimed job.jobId worker installation) :
    (job.onProgress worker removed installation).1 = false := by
  show (!installation.jobs.any (PurgeJob.IsHeld job.jobId worker)) = false
  rw [claimed]
  rfl

/-! ### What a turn keeps -/

/-- The ids of the jobs and the ERNs of the buckets are the same. -/
structure SameIds (before after : Installation) : Prop where
  jobs : after.jobs.map (fun job => (job.jobId, job.claimedBy)) =
    before.jobs.map fun job => (job.jobId, job.claimedBy)
  buckets : after.buckets.map Bucket.ern = before.buckets.map Bucket.ern

theorem SameIds.trans {first second third : Installation} (earlier : SameIds first second)
    (later : SameIds second third) : SameIds first third :=
  ⟨later.jobs.trans earlier.jobs, later.buckets.trans earlier.buckets⟩

theorem SameIds.claimed {before after : Installation} (same : SameIds before after)
    {jobId : String} (claimed : Claimed jobId worker before) : Claimed jobId worker after := by
  unfold Claimed at claimed ⊢
  rwa [any_isHeld, same.jobs, ← any_isHeld]

theorem adjustBucketCounters_erns {size objects directories : Int} {buckets : List Bucket} :
    (adjustBucketCounters bucketErn size objects directories buckets).map Bucket.ern =
      buckets.map Bucket.ern := by
  rw [adjustBucketCounters, map_map]
  refine map_congr_left fun bucket _ => ?_
  show (if bucket.ern = bucketErn then _ else bucket).ern = bucket.ern
  split <;> rfl

theorem sameIds_onProgress {job : PurgeJob} {installation : Installation} :
    SameIds installation (job.onProgress worker removed installation).2 := by
  refine ⟨jobs_heartbeat, ?_⟩
  show (if job.deleteBucket = true then installation.buckets
    else adjustBucketCounters _ _ _ _ _).map
    Bucket.ern = _
  split
  · rfl
  · exact adjustBucketCounters_erns

theorem sameIds_removeObjects {deletes : Bool} {objects : List Object}
    {installation : Installation} :
    SameIds installation (removeObjects deletes objects installation).2 := by
  unfold removeObjects
  split <;> exact ⟨rfl, rfl⟩

/-- The page that comes next. -/
def PurgeJob.page (job : PurgeJob) (pageSize : ℕ) (installation : Installation) : List Object :=
  (listObjects installation.objects job.bucketErn job.prefixText).take pageSize

open PurgeJob

/-- What is left under the prefix. -/
def PurgeJob.listing (job : PurgeJob) (installation : Installation) : List Object :=
  listObjects installation.objects job.bucketErn job.prefixText

/-- What a turn of the loop leaves behind a page. -/
def PurgeJob.afterPage (job : PurgeJob) (worker : String) (pageSize : ℕ) (deletes : Bool)
    (installation : Installation) : Installation :=
  let removed := removeObjects deletes (job.page pageSize installation) installation
  (job.onProgress worker removed.1 removed.2).2

section Turns

variable (job : PurgeJob) (worker : String) {pageSize : ℕ} {deletes : ℕ → Bool}

theorem sameIds_afterPage (deletes : Bool) (installation : Installation) :
    SameIds installation (job.afterPage worker pageSize deletes installation) :=
  sameIds_removeObjects.trans sameIds_onProgress

theorem listing_afterPage (installation : Installation) :
    job.listing (job.afterPage worker pageSize true installation) =
      (job.listing installation).drop pageSize := by
  unfold listing afterPage onProgress removeObjects page
  split
  · rename_i empty
    rcases take_eq_nil_iff.mp empty with rfl | none
    · rfl
    · rw [none, drop_nil]
  · exact listObjects_deletePage

theorem listing_afterPage_kept (installation : Installation) :
    job.listing (job.afterPage worker pageSize false installation) = job.listing installation := by
  unfold listing afterPage onProgress removeObjects
  split <;> rfl

/-- The loop as the job runs it, from a page on. -/
def PurgeJob.removeFrom (pageSize : ℕ) (deletes : ℕ → Bool) (fuel page : ℕ)
    (total : RemovedObjects) (installation : Installation) : Option PagedEnd :=
  removeBucketObjectsPaged job.bucketErn job.prefixText pageSize
    (job.onProgress worker) deletes fuel
    page total installation

variable {installation : Installation}

theorem removeFrom_nil (fuel page : ℕ) (total : RemovedObjects)
    (nothing : job.listing installation = []) :
    job.removeFrom worker pageSize deletes (fuel + 1) page total installation =
      some ⟨false, total, installation⟩ := by
  unfold listing at nothing
  unfold removeFrom removeBucketObjectsPaged
  rw [nothing, take_nil, if_pos rfl]

theorem removeFrom_cons (positive : 0 < pageSize) (fuel page : ℕ) (total : RemovedObjects)
    (claimed : Claimed job.jobId worker installation) (some : job.listing installation ≠ []) :
    job.removeFrom worker pageSize deletes (fuel + 1) page total installation =
      if Progresses (job.page pageSize installation) then
        job.removeFrom worker pageSize deletes fuel (page + 1)
          (total.add (removedOf (job.page pageSize installation)))
          (job.afterPage worker pageSize (deletes page) installation)
      else
        Option.some ⟨false, total.add (removedOf (job.page pageSize installation)),
          job.afterPage worker pageSize (deletes page) installation⟩ := by
  have full : job.page pageSize installation ≠ [] :=
    fun empty => (take_eq_nil_iff.mp empty).elim (fun zero => absurd zero positive.ne') some
  have removed : (removeObjects (deletes page) (job.page pageSize installation) installation).1 =
      removedOf (job.page pageSize installation) := by
    rw [removeObjects, if_neg full]
  have continues : (job.onProgress worker
      (removeObjects (deletes page) (job.page pageSize installation) installation).1
      (removeObjects (deletes page) (job.page pageSize installation) installation).2).1 = false :=
    onProgress_continues (sameIds_removeObjects.claimed claimed)
  have stuck_iff : ¬Progresses (job.page pageSize installation) ↔
      (removedOf (job.page pageSize installation)).size = 0 ∧
        (removedOf (job.page pageSize installation)).count = 0 := by
    unfold Progresses
    tauto
  unfold afterPage
  rw [removeFrom, removeBucketObjectsPaged]
  dsimp only
  rw [show (listObjects installation.objects job.bucketErn job.prefixText).take pageSize =
    job.page pageSize installation from rfl]
  rw [removed] at continues ⊢
  rw [if_neg full, continues, if_neg (by decide)]
  by_cases progresses : Progresses (job.page pageSize installation)
  · rw [if_pos progresses]
    exact if_neg fun stuck => stuck_iff.mpr stuck progresses
  · rw [if_neg progresses]
    exact if_pos (stuck_iff.mp progresses)

/-! ### Whole runs -/

/-- Rows that can be deleted: the loop ends, with nothing left exactly if every page but the last
makes progress. -/
theorem removeFrom_deletes (positive : 0 < pageSize) (page : ℕ) (total : RemovedObjects)
    (claimed : Claimed job.jobId worker installation) :
    ∃ fuel ended,
      job.removeFrom worker pageSize (fun _ => true) fuel page total installation = some ended ∧
        ended.stopped = false ∧ SameIds installation ended.installation ∧
        (job.listing ended.installation = [] ↔
          PagesProgress pageSize (job.listing installation)) := by
  induction length : (job.listing installation).length using Nat.strong_induction_on
    generalizing page total installation with
  | _ size ih =>
    rcases eq_or_ne (job.listing installation) [] with nothing | some
    · refine ⟨1, _, removeFrom_nil job worker 0 page total nothing, rfl, ⟨rfl, rfl⟩, ?_⟩
      rw [nothing]
      exact iff_of_true rfl (pagesProgress_nil pageSize)
    · have after : job.listing (job.afterPage worker pageSize true installation) =
          (job.listing installation).drop pageSize := listing_afterPage job worker installation
      have ids : SameIds installation (job.afterPage worker pageSize true installation) :=
        sameIds_afterPage job worker true installation
      by_cases progresses : Progresses (job.page pageSize installation)
      · have shorter : (job.listing (job.afterPage worker pageSize true installation)).length <
            size := by
          have least := length_pos_iff.mpr some
          rw [after, length_drop]
          omega
        obtain ⟨fuel, ended, ends, stopped, same, left⟩ := ih _ shorter (page + 1)
          (total.add (removedOf (job.page pageSize installation))) (ids.claimed claimed) rfl
        refine ⟨fuel + 1, ended, ?_, stopped, ids.trans same, ?_⟩
        · rw [removeFrom_cons job worker positive fuel page total claimed some, if_pos progresses,
            ends]
        · rw [left, after, pagesProgress_iff (job.listing installation)]
          constructor
          · exact fun others => .inr ⟨progresses, others⟩
          · rintro (one | ⟨_, others⟩)
            · rw [drop_of_length_le one]
              exact pagesProgress_nil pageSize
            · exact others
      · refine ⟨1, ⟨false, total.add (removedOf (job.page pageSize installation)),
          job.afterPage worker pageSize true installation⟩, ?_, rfl, ids, ?_⟩
        · rw [removeFrom_cons job worker positive 0 page total claimed some, if_neg progresses]
        · dsimp only
          rw [after, pagesProgress_iff (job.listing installation), drop_eq_nil_iff]
          exact ⟨.inl, fun either => either.resolve_right fun both => progresses both.1⟩

theorem removeFrom_keeps (positive : 0 < pageSize) (fuel page : ℕ) (total : RemovedObjects)
    (claimed : Claimed job.jobId worker installation)
    (progresses : Progresses (job.page pageSize installation)) :
    job.removeFrom worker pageSize (fun _ => false) fuel page total installation = none := by
  induction fuel generalizing page total installation with
  | zero => rfl
  | succ fuel ih =>
    have some : job.listing installation ≠ [] := by
      intro nothing
      unfold listing at nothing
      unfold PurgeJob.page at progresses
      rw [nothing, take_nil] at progresses
      exact absurd progresses (by decide)
    rw [removeFrom_cons job worker positive fuel page total claimed some, if_pos progresses]
    refine ih _ _ ((sameIds_afterPage job worker false installation).claimed claimed) ?_
    have same : job.listing (job.afterPage worker pageSize false installation) =
        job.listing installation := listing_afterPage_kept job worker installation
    unfold listing at same
    unfold PurgeJob.page at progresses ⊢
    rwa [same]

variable {total : RemovedObjects}

theorem removeFrom_mono {fuel more page : ℕ} {ended : PagedEnd} (enough : fuel ≤ more)
    (ends : job.removeFrom worker pageSize deletes fuel page total installation = some ended) :
    job.removeFrom worker pageSize deletes more page total installation = some ended := by
  induction fuel generalizing more page total installation with
  | zero => exact absurd ends (by simp [removeFrom, removeBucketObjectsPaged])
  | succ fuel ih =>
    obtain ⟨others, rfl⟩ : ∃ others, more = others + 1 := ⟨more - 1, by omega⟩
    unfold removeFrom at ends ih ⊢
    rw [removeBucketObjectsPaged] at ends ⊢
    dsimp only at ends ⊢
    split at ends
    · rename_i empty
      rwa [if_pos empty]
    · rename_i full
      rw [if_neg full]
      split at ends
      · rename_i stops
        rwa [if_pos stops]
      · rename_i continues
        rw [if_neg continues]
        split at ends
        · rename_i stuck
          rwa [if_pos stuck]
        · rename_i progresses
          rw [if_neg progresses]
          exact ih (by omega) ends

theorem removeFrom_unique {fuel other page : ℕ} {first second : PagedEnd}
    (left : job.removeFrom worker pageSize deletes fuel page total installation = some first)
    (right : job.removeFrom worker pageSize deletes other page total installation = some second) :
    first = second := by
  have both := removeFrom_mono job worker (le_max_left fuel other) left
  rw [removeFrom_mono job worker (le_max_right fuel other) right] at both
  exact (Option.some.inj both).symm

/-! ### The job as a whole -/

/-- The job is written down no more. -/
def PurgeJob.IsDone (installation : Installation) : Prop :=
  job.jobId ∉ installation.jobs.map jobId

theorem isDone_deletePurgeJob {jobs : List PurgeJob} (distinct : (jobs.map jobId).Nodup) :
    job.jobId ∉ (deletePurgeJob job.jobId jobs).map jobId := by
  unfold deletePurgeJob
  rw [Collection.eraseP_eq_filter (Collection.pairwise_of_key distinct fun _ => of_decide_eq_true)]
  intro mem
  obtain ⟨other, kept, same⟩ := mem_map.mp mem
  have differs := (mem_filter.mp kept).2
  rw [same] at differs
  exact absurd differs (by simp)

section

variable (pageSize : ℕ) (installation : Installation)

/-- If no statement fails, the loop ends with nothing left under the prefix. -/
def PurgeJob.Empties : Prop :=
  ∃ fuel ended, job.removePages worker pageSize (fun _ => true) fuel installation = some ended ∧
    job.listing ended.installation = []

/-- If no statement fails, the job ends, and it and its bucket go only when nothing is left. -/
def PurgeJob.GoesWhenEmpty : Prop :=
  ∃ fuel after, workPurgeJob job worker pageSize (fun _ => true) fuel installation = some after ∧
    (job.IsDone after ∨
        job.deleteBucket = true ∧ findBucketByErn after.buckets job.bucketErn = none →
      job.listing after = [])

/-- If no row can be deleted, the loop ends as well. -/
def PurgeJob.EndsAnyway : Prop :=
  ∃ fuel ended, job.removePages worker pageSize (fun _ => false) fuel installation = some ended

end

theorem empties_iff (positive : 0 < pageSize) (claimed : Claimed job.jobId worker installation) :
    job.Empties worker pageSize installation ↔
      PagesProgress pageSize (job.listing installation) := by
  obtain ⟨fuel, ended, ends, _, _, left⟩ := removeFrom_deletes job worker positive 0 .none claimed
  rw [← left]
  constructor
  · rintro ⟨other, same, others, empty⟩
    rwa [removeFrom_unique job worker ends others]
  · exact fun empty => ⟨fuel, ended, ends, empty⟩

theorem workPurgeJob_ends (positive : 0 < pageSize)
    (claimed : Claimed job.jobId worker installation)
    (distinct : (installation.jobs.map jobId).Nodup) :
    ∃ fuel after, workPurgeJob job worker pageSize (fun _ => true) fuel installation = some after ∧
      job.IsDone after ∧
      (job.listing after = [] ↔
        if (findBucketByErn installation.buckets job.bucketErn).isSome then
          PagesProgress pageSize (job.listing installation)
        else job.listing installation = []) := by
  unfold workPurgeJob
  cases found : findBucketByErn installation.buckets job.bucketErn with
  | none => exact ⟨0, _, rfl, isDone_deletePurgeJob job distinct, Iff.rfl⟩
  | some bucket =>
    obtain ⟨fuel, ended, ends, continues, same, left⟩ :=
      removeFrom_deletes job worker positive 0 .none claimed
    have names := congrArg (List.map Prod.fst) same.jobs
    rw [map_map, map_map] at names
    have goes : ¬ended.stopped = true := by
      rw [continues]
      decide
    refine ⟨fuel, job.finish ended, congrArg (Option.map job.finish) ends, ?_, ?_⟩
    · unfold IsDone finish
      rw [if_neg goes]
      exact isDone_deletePurgeJob job (names ▸ distinct)
    · unfold finish
      have present : (Option.some bucket).isSome = true := rfl
      rw [if_neg goes, if_pos present, ← left]
      exact Iff.rfl

theorem workPurgeJob_unique {fuel other : ℕ} {first second : Installation}
    (left : workPurgeJob job worker pageSize deletes fuel installation = some first)
    (right : workPurgeJob job worker pageSize deletes other installation = some second) :
    first = second := by
  unfold workPurgeJob at left right
  cases found : findBucketByErn installation.buckets job.bucketErn with
  | none =>
    rw [found] at left right
    exact Option.some.inj (left.symm.trans right)
  | some bucket =>
    rw [found] at left right
    obtain ⟨firstEnd, firstEnds, rfl⟩ := Option.map_eq_some_iff.mp left
    obtain ⟨secondEnd, secondEnds, rfl⟩ := Option.map_eq_some_iff.mp right
    rw [removeFrom_unique job worker firstEnds secondEnds]

theorem goesWhenEmpty_iff (positive : 0 < pageSize)
    (claimed : Claimed job.jobId worker installation)
    (distinct : (installation.jobs.map jobId).Nodup) :
    job.GoesWhenEmpty worker pageSize installation ↔
      if (findBucketByErn installation.buckets job.bucketErn).isSome then
        PagesProgress pageSize (job.listing installation) else job.listing installation = [] := by
  obtain ⟨fuel, after, ends, done, left⟩ := workPurgeJob_ends job worker positive claimed distinct
  rw [← left]
  constructor
  · rintro ⟨other, same, others, empty⟩
    rw [workPurgeJob_unique job worker ends others]
    rw [workPurgeJob_unique job worker ends others] at done
    exact empty (.inl done)
  · exact fun empty => ⟨fuel, after, ends, fun _ => empty⟩

theorem endsAnyway_iff (positive : 0 < pageSize) (claimed : Claimed job.jobId worker installation) :
    job.EndsAnyway worker pageSize installation ↔ ¬Progresses (job.page pageSize installation) := by
  constructor
  · rintro ⟨fuel, ended, ends⟩ progresses
    have never := removeFrom_keeps job worker positive fuel 0 .none claimed progresses
    exact absurd (never.symm.trans ends) (by simp)
  · intro stuck
    rcases eq_or_ne (job.listing installation) [] with nothing | some
    · exact ⟨1, _, removeFrom_nil job worker 0 0 .none nothing⟩
    · have ends : job.removeFrom worker pageSize (fun _ => false) 1 0 .none installation = _ :=
        removeFrom_cons job worker positive 0 0 .none claimed some
      rw [if_neg stuck] at ends
      exact ⟨1, _, ends⟩

/-- The purge of a bucket leaves nothing and ends only then, if and only if every page but the last
has bytes or files in it, and the bucket is there or nothing is listed. While rows cannot be deleted
it ends if and only if the first page has neither. -/
theorem purge_ends_when_done (configured : Option Int) {installation : Installation}
    (claimed : Claimed job.jobId worker installation)
    (distinct : (installation.jobs.map jobId).Nodup) :
    (job.Empties worker (purgePageSize configured) installation ∧
        job.GoesWhenEmpty worker (purgePageSize configured) installation ↔
      PagesProgress (purgePageSize configured) (job.listing installation) ∧
        ((findBucketByErn installation.buckets job.bucketErn).isSome ∨
          job.listing installation = [])) ∧
    (job.EndsAnyway worker (purgePageSize configured) installation ↔
      ¬Progresses (job.page (purgePageSize configured) installation)) := by
  have positive := purgePageSize_pos configured
  refine ⟨?_, endsAnyway_iff job worker positive claimed⟩
  rw [empties_iff job worker positive claimed,
    goesWhenEmpty_iff job worker positive claimed distinct]
  refine and_congr_right fun progress => ?_
  split
  · rename_i present
    exact iff_of_true progress (.inl present)
  · rename_i missing
    exact ⟨.inr, fun either => either.resolve_left missing⟩

end Turns

/-! ### A directory and its files -/

namespace Directory

def bucket : Bucket where
  name := "files"
  ern := "ern:esm:bucket:files"
  accountId := "100000000001"
  nameSpace := ""
  encryptionKeyErn := ""
  versioning := false
  maxVersions := 0
  size := 12
  objects := 4
  directories := 1

def row (key ern : String) (size : Int) : Object :=
  { Object.blank with
    bucketErn := bucket.ern
    key := key.toList
    ern := ern
    size := size
    status := .completed
    directory := isDirectoryKey key.toList }

def job : PurgeJob where
  jobId := "9a3f0c11-5d2e-4b6a-8f70-2c4d6e8fa0b1"
  bucketErn := bucket.ern
  prefixText := []
  deleteBucket := true
  claimedBy := "esm-1"
  removedObjects := 0
  removedSize := 0

def installation : Installation where
  objects := ⟨row "in/" "ern:esm:object:files/in/" 0 ::
    ["a", "b", "c", "d"].map fun name => row ("in/" ++ name) ("ern:esm:object:files/in/" ++ name) 3,
    by decide, by decide⟩
  versions := []
  buckets := [bucket]
  jobs := [job]
  files _ := none

end Directory

open Directory in
/-- Three pages of two rows, the first of a directory and a file. -/
theorem directory_and_files_go : job.Empties "esm-1" (purgePageSize (some 2)) installation ∧
      job.GoesWhenEmpty "esm-1" (purgePageSize (some 2)) installation := by
  have claimed : Claimed job.jobId "esm-1" installation := rfl
  have last : PagesProgress (purgePageSize (some 2))
      (((job.listing installation).drop (purgePageSize (some 2))).drop (purgePageSize (some 2))) :=
    (pagesProgress_iff _).mpr (.inl (by decide))
  have others := (pagesProgress_iff _).mpr (.inr ⟨by decide, last⟩)
  exact (purge_ends_when_done job "esm-1" (some 2) claimed (by decide)).1.mpr
    ⟨(pagesProgress_iff _).mpr (.inr ⟨by decide, others⟩), .inl rfl⟩

open Directory in
/-- A page of directories ends the purge, and the file behind it stays when the bucket goes. -/
theorem file_behind_directories_stays :
    ¬∀ (job : PurgeJob) (worker : String) (configured : Option Int) (installation : Installation),
      Claimed job.jobId worker installation → (installation.jobs.map jobId).Nodup →
        job.Empties worker (purgePageSize configured) installation := by
  intro always
  have empties := always job "esm-1" (some 1) installation rfl (by decide)
  have claimed : Claimed job.jobId "esm-1" installation := rfl
  have progress := (empties_iff job "esm-1" (purgePageSize_pos _) claimed).mp empties
  exact absurd (progress 0 (by decide)) (by decide)

end Euclid.Esm
