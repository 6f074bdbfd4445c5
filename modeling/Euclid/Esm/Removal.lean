/-
This file translates the removal of many objects, and the job that removes the objects of a bucket
page by page.

A page is always the first of the listing, since the objects of the page before are gone. The loop
has no bound of its own: it is given fuel here, and it ends if some fuel is enough.
-/

import Euclid.Collection
import Euclid.Esm.Repository

namespace Euclid.Esm

open Core (Text)

/-! ### Removing objects -/

structure RemovedObjects where
  size : Int
  count : Int
  directories : Int

namespace RemovedObjects

def none : RemovedObjects := ⟨0, 0, 0⟩

def add (first second : RemovedObjects) : RemovedObjects :=
  ⟨first.size + second.size, first.count + second.count, first.directories + second.directories⟩

def withObject (removed : RemovedObjects) (object : Object) : RemovedObjects :=
  if isDirectoryKey object.key then
    ⟨removed.size + object.size, removed.count, removed.directories + 1⟩
  else ⟨removed.size + object.size, removed.count + 1, removed.directories⟩

end RemovedObjects

/-- What `removeObjects` counts. -/
def removedOf (objects : List Object) : RemovedObjects :=
  objects.foldl RemovedObjects.withObject .none

/-- `removeObjects`. The rows stay if their deletion fails, and it is counted all the same. -/
def removeObjects (deletes : Bool) (objects : List Object) (installation : Installation) :
    RemovedObjects × Installation :=
  if objects = [] then (.none, installation)
  else
    let erns := objects.map Object.ern
    (removedOf objects,
      { installation with
        objects :=
          if deletes then deleteObjectsByErns installation.objects erns else installation.objects
        versions := deleteObjectVersionsByErns installation.versions erns
        files := removeObjectFiles (removeObjectFiles installation.files objects)
          (listObjectVersionsByErns installation.versions erns) })

/-! ### Page by page -/

/-- `PurgePageSize`, from what is configured. -/
def purgePageSize (configured : Option Int) : ℕ := (max 1 (configured.getD 1000)).toNat

/-- How the loop ends: whether it was told to stop, what it removed, and what it left. -/
structure PagedEnd where
  stopped : Bool
  total : RemovedObjects
  installation : Installation

/-- `removeBucketObjectsPaged`. After a page `onProgress` says whether to stop; `deletes` says of
which pages the rows can be deleted. -/
def removeBucketObjectsPaged (bucketErn : String) (prefixText : Text) (pageSize : ℕ)
    (onProgress : RemovedObjects → Installation → Bool × Installation) (deletes : ℕ → Bool) :
    (fuel page : ℕ) → RemovedObjects → Installation → Option PagedEnd
  | 0, _, _, _ => none
  | fuel + 1, page, total, installation =>
    let objects := (listObjects installation.objects bucketErn prefixText).take pageSize
    if objects = [] then some ⟨false, total, installation⟩
    else
      let removed := removeObjects (deletes page) objects installation
      let total := total.add removed.1
      let progress := onProgress removed.1 removed.2
      if progress.1 then some ⟨true, total, progress.2⟩
      else if removed.1.size = 0 ∧ removed.1.count = 0 then some ⟨false, total, progress.2⟩
      else
        removeBucketObjectsPaged bucketErn prefixText pageSize onProgress deletes fuel (page + 1)
          total progress.2

/-! ### The job -/

def PurgeJob.IsHeld (jobId instanceId : String) (job : PurgeJob) : Bool :=
  job.jobId = jobId ∧ job.claimedBy = instanceId

/-- `heartbeatPurgeJob`: whether the claim is still there. -/
def heartbeatPurgeJob (jobId instanceId : String) (removed : RemovedObjects)
    (jobs : List PurgeJob) :
    Bool × List PurgeJob :=
  (jobs.any (PurgeJob.IsHeld jobId instanceId),
    Collection.updateFirst (PurgeJob.IsHeld jobId instanceId)
      (fun job =>
        { job with
          removedObjects := job.removedObjects + removed.count
          removedSize := job.removedSize + removed.size })
      jobs)

def deletePurgeJob (jobId : String) (jobs : List PurgeJob) : List PurgeJob :=
  jobs.eraseP (·.jobId = jobId)

/-- The counters are moved and the claim is renewed; the loop stops when the claim is lost. -/
def PurgeJob.onProgress (job : PurgeJob) (worker : String) (removed : RemovedObjects)
    (installation : Installation) : Bool × Installation :=
  let heartbeat := heartbeatPurgeJob job.jobId worker removed installation.jobs
  (!heartbeat.1,
    { installation with
      buckets :=
        if job.deleteBucket then installation.buckets
        else adjustBucketCounters job.bucketErn (-removed.size) (-removed.count)
          (-removed.directories) installation.buckets
      jobs := heartbeat.2 })

/-- The loop as the job runs it. -/
def PurgeJob.removePages (job : PurgeJob) (worker : String) (pageSize : ℕ) (deletes : ℕ → Bool)
    (fuel : ℕ) (installation : Installation) : Option PagedEnd :=
  removeBucketObjectsPaged job.bucketErn job.prefixText pageSize
    (job.onProgress worker) deletes fuel 0
    .none installation

/-- What comes behind the loop: the bucket goes if it has to, and then the job, unless it was handed
over. -/
def PurgeJob.finish (job : PurgeJob) (ended : PagedEnd) : Installation :=
  if ended.stopped then ended.installation
  else
    { ended.installation with
      buckets :=
        if job.deleteBucket then deleteBucketByErn ended.installation.buckets job.bucketErn
        else ended.installation.buckets
      jobs := deletePurgeJob job.jobId ended.installation.jobs }

def workPurgeJob (job : PurgeJob) (worker : String) (pageSize : ℕ) (deletes : ℕ → Bool) (fuel : ℕ)
    (installation : Installation) : Option Installation :=
  match findBucketByErn installation.buckets job.bucketErn with
  | none => some { installation with jobs := deletePurgeJob job.jobId installation.jobs }
  | some _ => (job.removePages worker pageSize deletes fuel installation).map job.finish

end Euclid.Esm
