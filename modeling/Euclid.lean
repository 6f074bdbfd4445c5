import Euclid.Eqs.ExclusiveClaim
import Euclid.Eqs.Lease
import Euclid.Eqs.DeadLetter
import Euclid.Eqs.Deletion
import Euclid.Eqs.Coalescing
import Euclid.Eqs.Definition
import Euclid.Bus.Delivery
import Euclid.Bus.Attempts
import Euclid.Bus.Lease
import Euclid.Bus.Holding
import Euclid.Emd.Identity
import Euclid.Eag.Uniqueness
import Euclid.Eag.Coherence
import Euclid.Emm.Independence
import Euclid.Ens.Overlap
import Euclid.Manager.Limits
import Euclid.Worker.Revision
import Euclid.Core.Staleness
import Euclid.Database.ChangeWaiters
import Euclid.Database.PeriodicClaim
import Euclid.Eap.EgressRate
import Euclid.Eap.EgressStore
import Euclid.Eap.Ownership
import Euclid.Eam.Inheritance
import Euclid.Core.ArchiveLock
import Euclid.Core.ObjectTampering
import Euclid.Ekm.Lifecycle
import Euclid.Eam.Registration
import Euclid.Eam.Replay
import Euclid.Eam.Updates
import Euclid.Core.SignatureBinding
import Euclid.Core.ArchiveCrash
import Euclid.Ess.Readability
import Euclid.Transfer.Parts
import Euclid.Transfer.Permissions
import Euclid.Transfer.Renaming
import Euclid.Transfer.RenamingRuns
import Euclid.Emm.BackupPartition
import Euclid.Esm.Purge
import Euclid.Esm.Transfer
import Euclid.Esm.Reupload
import Euclid.Esm.WriteBack
import Euclid.Esm.Sweep
import Euclid.Ekv.Items
import Euclid.Esm.Reclaim
import Euclid.Esm.Download
import Euclid.Emd.Containment
import Euclid.Emd.Positional
import Euclid.Eap.Drain
import Euclid.Worker.Carrying
import Euclid.Manager.Choosing
import Euclid.Manager.BacklogTarget
import Euclid.Core.CanonicalQuery
import Euclid.Emo.AlertEvaluator
import Euclid.Manager.StartOrder
import Euclid.Eag.UploadTarget
