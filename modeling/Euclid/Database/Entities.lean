/-
This file is the readers of the entities that are exported, and the collections they are read
from.

Each table lists the fields in the order the entity's `fromDocument` asks for them. A member that
is an enumeration is read as the name of its value.
-/

import Euclid.Database.Restoring

namespace Euclid.Database

/-! ### Enumerations -/

/-- A reader of names: a text that is none of them becomes the last resort. -/
def fromNames (names : List String) (otherwise text : String) : String :=
  if text ∈ names then text else otherwise

def queueStatusFromString : String → String :=
  fromNames ["AVAILABLE", "STOPPED", "UNKNOWN"] "AVAILABLE"

def messageStatusFromString : String → String :=
  fromNames ["AVAILABLE", "DELAYED", "INVISIBLE", "UNKNOWN"] "UNKNOWN"

/-- `MessagePriorityFromString`: any case, and the former name of the middle one. -/
def messagePriorityFromString (priority : String) : String :=
  let upper := priority.toUpper
  if upper = "MIDDLE" then "MEDIUM" else fromNames ["LOW", "MEDIUM", "HIGH"] "MEDIUM" upper

def objectStatusFromString : String → String :=
  fromNames ["CREATED", "UPLOADING", "UPLOADED", "COMPLETED", "UNKNOWN"] "UNKNOWN"

def lifecycleStateFromString (state : String) : String :=
  if state = "ARCHIVED" then "ARCHIVED" else "STANDARD"

def moduleStateFromString : String → String :=
  fromNames ["STOPPED", "STARTING", "RUNNING", "STOPPING", "CRASHED", "PENDING_RESTART",
    "RESTARTING", "COMPLETED", "OOM_KILLED", "UNKNOWN"] "UNKNOWN"

def resolutionFromString : String → String :=
  fromNames ["RAW", "HOUR", "DAY", "UNKNOWN"] "UNKNOWN"

def metricTypeFromString : String → String := fromNames ["GAUGE", "RATE", "UNKNOWN"] "UNKNOWN"

def alertStatisticFromString : String → String := fromNames ["value", "max", "min"] "unknown"

def alertComparisonFromString : String → String := fromNames ["above", "below"] "unknown"

def alertLevelFromString : String → String :=
  fromNames ["OK", "WARNING", "CRITICAL", "NO_DATA"] "UNKNOWN"

def runtimeFromString : String → String :=
  fromNames ["JAVA", "JAVA21", "JAVA25", "PYTHON", "NODEJS", "BINARY", "RUST", "UNKNOWN"] "UNKNOWN"

def applicationStateFromString : String → String :=
  fromNames ["RUNNING", "STOPPED", "UNKNOWN"] "UNKNOWN"

def applicationTypeFromString : String → String :=
  fromNames ["PROCESS", "JOB", "UNKNOWN"] "UNKNOWN"

/-- `TransferProtocolFromString`: any case. -/
def transferProtocolFromString (protocol : String) : String :=
  fromNames ["FTP", "SFTP", "UNKNOWN"] "UNKNOWN" protocol.toUpper

def transferServerStateFromString : String → String :=
  fromNames ["RUNNING", "STOPPED", "UNKNOWN"] "UNKNOWN"

def keyStatusFromString : String → String :=
  fromNames ["AVAILABLE", "REVOKED", "PENDING_DELETION", "UNKNOWN"] "UNKNOWN"

/-! ### Fields -/

namespace Field

/-- A field read by `get_string`, which throws for another type. -/
def string (name : String) : String × Kind := (name, .scalar (.string id))

/-- The same, for a field that is an enumeration. -/
def named (name : String) (meaning : String → String) : String × Kind :=
  (name, .scalar (.string meaning))

def text (name : String) : String × Kind := (name, .scalar (.lenientString id))

/-- A field that another type leaves with what the empty text means. -/
def lenient (name : String) (meaning : String → String) : String × Kind :=
  (name, .scalar (.lenientString meaning))

def scalar (kind : Scalar) (name : String) : String × Kind := (name, .scalar kind)

end Field

open Database.Field in
/-- What is common to most: the id, and where the entity belongs. -/
def ownerFields : List (String × Kind) :=
  [scalar .oid "_id", string "region", string "accountId", string "namespace", string "owner"]

open Database.Field in
def dateFields : List (String × Kind) := [scalar .date "created", scalar .date "modified"]

/-! ### Queues and topics -/

namespace Eqs

open Database.Field

def queueReader : Reader where
  fields := ownerFields ++
    [string "name", scalar .bool "internal", string "ern", scalar .long "size",
      scalar .long "delay", scalar .long "available", scalar .long "delayed",
      scalar .long "invisible", scalar .long "visibility", scalar .long "maxMessageLength",
      scalar .long "maxReceiveCount", scalar .long "retentionPeriod", string "deadLetterQueueErn",
      named "priority" messagePriorityFromString, named "status" queueStatusFromString] ++
    dateFields ++ [("tags", .stringMap)]

def messageReader : Reader where
  fields :=
    [scalar .oid "_id", string "ern", string "queueErn", string "sourceQueueErn", string "body",
      named "status" messageStatusFromString, named "priority" messagePriorityFromString,
      scalar .long "receivedCount", scalar .long "size", scalar .int "visibilityTimeout",
      scalar .lenientBool "visibilityPinned", string "messageId", string "receiptHandle",
      string "contentType", scalar .date "reset", scalar .date "delayUntil",
      scalar .date "lastReceived", scalar .date "expiresAt"] ++ dateFields ++
    [("systemAttributes", .variants), ("attributes", .variants)]

end Eqs

namespace Ens

open Database.Field

def topicReader : Reader where
  fields := ownerFields ++
    [string "name", string "ern", scalar .long "size", scalar .long "available",
      scalar .long "send", scalar .long "resend", scalar .long "maxMessageLength",
      scalar .long "retentionPeriod", scalar .bool "delivering",
      scalar .lenientBool "deleteAfterDelivery"] ++ dateFields ++ [("tags", .stringMap)]

def subscriptionReader : Reader where
  fields := ownerFields ++
    [string "ern", string "sourceErn", string "type", string "targetErn"] ++ dateFields

def messageReader : Reader where
  fields :=
    [scalar .oid "_id", string "ern", string "topicErn", string "body", scalar .long "size",
      string "messageId", string "receiptHandle", string "contentType", string "status",
      string "priority", scalar .date "lastReceived", scalar .date "expiresAt"] ++ dateFields ++
    [("systemAttributes", .variants), ("attributes", .variants)]

end Ens

/-! ### Buckets -/

namespace Esm

open Database.Field

/-- The rules of a bucket are documents in an array. -/
def lifecycleRuleFields : List (String × Scalar) :=
  [("id", .optionalString id), ("prefix", .optionalString id), ("archiveAfterDays", .long),
    ("restoreDays", .long), ("enabled", .optionalBool)]

def bucketReader : Reader where
  fields := ownerFields ++
    [string "name", string "ern", string "encryptionKeyErn", scalar .bool "internal",
      string "priority", scalar .optionalBool "stopped", scalar .optionalBool "versioning",
      scalar .optionalLong "maxVersions", ("lifecycleRules", .lenientDocuments lifecycleRuleFields),
      scalar .long "size", scalar .long "objects", scalar .long "directories"] ++ dateFields ++
    [("tags", .stringMap)]

def subscriptionReader : Reader where
  fields := ownerFields ++
    [string "ern", string "sourceErn", string "type", string "targetErn",
      ("eventTypes", .strings), string "prefix", scalar .bool "directories"] ++ dateFields

def objectReader : Reader where
  fields := ownerFields ++
    [string "bucketErn", string "key", string "internalName", string "internalDir", string "ern",
      string "encryptionKeyErn", scalar .long "size", named "status" objectStatusFromString,
      scalar .bool "directory", string "parent", string "contentType", string "md5Sum",
      scalar (.optionalString id) "versionId"] ++ dateFields ++
    [scalar .optionalDate "lastAccessed",
      scalar (.optionalString lifecycleStateFromString) "lifecycleState",
      scalar .optionalDate "archivedAt", scalar .optionalDate "restoredAt",
      scalar .optionalDate "restoredUntil", scalar (.optionalString id) "archiveFile",
      ("archiveOffset", .unsigned 64), ("archiveCompressedSize", .unsigned 64),
      ("archiveSize", .unsigned 64), ("archiveCrc", .unsigned 32), ("archiveMethod", .short),
      ("systemAttributes", .variants), ("attributes", .variants)]

end Esm

/-! ### Users and what they may do -/

namespace Eam

open Database.Field

def accessKeyFields : List (String × Scalar) :=
  [("accessKeyId", .string id), ("secretAccessKey", .string id), ("active", .bool),
    ("createdAt", .string id)]

def sessionFields : List (String × Scalar) := [("createdAt", .string id), ("expiresAt", .string id)]

def seenAssertionFields : List (String × Scalar) :=
  [("assertionId", .string id), ("expiresAt", .string id)]

def userReader : Reader where
  fields :=
    [scalar .oid "_id", string "userId", string "ern", string "password", string "email",
      string "accountId", string "region", scalar .bool "loginEnabled", string "federatedProvider",
      string "federatedSubject", ("seenAssertions", .documents seenAssertionFields),
      ("accessKeys", .documents accessKeyFields), ("sessions", .documents sessionFields)] ++
    dateFields

def userGroupReader : Reader where
  fields :=
    [scalar .oid "_id", string "name", string "ern", string "accountId", string "region",
      string "description", ("userIds", .strings)] ++ dateFields

def accountReader : Reader where
  fields :=
    [scalar .oid "_id", string "accountId", string "name", string "ern", string "description"] ++
    dateFields

def namespaceReader : Reader where
  fields :=
    [scalar .oid "_id", string "accountId", string "name", string "ern", string "description"] ++
    dateFields

def roleReader : Reader where
  fields :=
    [scalar .oid "_id", string "name", string "ern", string "accountId", string "region",
      string "description", ("permissions", .strings)] ++ dateFields

def grantReader : Reader where
  fields :=
    [scalar .oid "_id", string "role", string "principal", string "accountId",
      ("namespaces", .strings), ("resources", .strings), scalar .date "granted",
      string "grantedBy"]

end Eam

/-! ### Modules -/

namespace Emm

open Database.Field

/-- The instances of a module, which the module holds in an array. -/
def moduleInstanceFields : List (String × Scalar) :=
  [("instanceId", .lenientString id), ("pid", .int), ("host", .lenientString id),
    ("assignedTo", .lenientString id), ("leaseExpiresAt", .lenientDate),
    ("state", .lenientString moduleStateFromString), ("socketPath", .lenientString id),
    ("httpPort", .int), ("restartCount", .int), ("backgroundTasks", .long),
    ("utilisation", .doubleOrLong), ("backlog", .long), ("loadReportedAt", .lenientDate),
    ("started", .lenientDate), ("created", .lenientDate), ("modified", .lenientDate)]

def moduleReader : Reader where
  fields :=
    [text "name", text "executable", text "socketPath", scalar .lenientBool "active",
      scalar .lenientBool "autoRestart", scalar .int "maxRestarts", scalar .int "minInstances",
      scalar .int "maxInstances", scalar .int "desiredMinInstances",
      scalar .int "desiredMaxInstances", scalar .int "desiredThreads", text "logLevel",
      scalar .lenientBool "core", scalar .lenientBool "desiredStopped",
      scalar .lenientDate "restartRequestedAt", ("args", .lenientStrings),
      ("instances", .lenientDocuments moduleInstanceFields), scalar .lenientDate "created",
      scalar .lenientDate "modified", scalar .lenientDate "lastStartTime",
      scalar .lenientOid "_id"]

end Emm

/-! ### Monitoring -/

namespace Emo

open Database.Field

def alertRuleReader : Reader where
  fields :=
    [scalar .lenientOid "_id", text "accountId", text "namespace", text "ruleId", text "name",
      ("labels", .lenientStringMap), lenient "resolution" resolutionFromString,
      lenient "statistic" alertStatisticFromString, lenient "comparison" alertComparisonFromString,
      scalar .optionalNumber "warning", scalar .optionalNumber "critical",
      scalar .truncatedNumber "forPeriods", scalar .truncatedNumber "clearPeriods",
      scalar .truncatedNumber "noDataAfterPeriods", scalar .optionalBool "enabled",
      text "description", scalar .lenientDate "created", scalar .lenientDate "modified"]

def alertTransitionReader : Reader where
  fields :=
    [scalar .lenientOid "_id", text "accountId", text "namespace", text "ruleId", text "name",
      ("labels", .lenientStringMap), text "labelKey", lenient "previous" alertLevelFromString,
      lenient "state" alertLevelFromString, scalar .number "value",
      scalar .optionalNumber "threshold", lenient "statistic" alertStatisticFromString,
      text "reason", scalar .lenientDate "timestamp", scalar .lenientDate "expiresAt"]

def dashboardReader : Reader where
  fields :=
    [string "userId", string "name", string "document"] ++ dateFields ++ [scalar .oid "_id"]

def monitoringDataReader : Reader where
  fields :=
    [string "name", ("labels", .optionalStringMap), scalar (.optionalString id) "labelName",
      scalar (.optionalString id) "labelValue", scalar .double "value", scalar .double "minValue",
      scalar .double "maxValue", ("samples", .strictLong), named "type" metricTypeFromString,
      named "resolution" resolutionFromString, scalar .date "timestamp", scalar .date "expiresAt",
      scalar .oid "_id"]
  legacyLabels := true

end Emo

/-! ### Applications, transfer servers, keys and secrets -/

namespace Eap

open Database.Field

def applicationReader : Reader where
  fields :=
    [scalar .oid "_id", string "applicationId", string "runtimeName", string "ern",
      string "accountId", string "region", string "namespace", named "runtime" runtimeFromString,
      string "bucketErn", string "artifactKey", string "version", string "md5Sum",
      scalar .long "artifactSize", string "command", ("arguments", .strings),
      ("environment", .stringMap), ("resources", .strings), ("nodes", .strings),
      ("nodeLabels", .stringMap), ("infrastructure", .strings), string "userId",
      scalar .long "minInstances", scalar .long "maxInstances", scalar .long "readyTimeoutMs",
      scalar .long "memoryLimitMb", scalar .doubleOrLong "cpuLimit",
      named "desiredState" applicationStateFromString, named "type" applicationTypeFromString,
      string "schedule", scalar .date "nextRunAt", string "logLevel",
      scalar .date "rebalanceRequested"] ++ dateFields

end Eap

namespace Ets

open Database.Field

def transferServerReader : Reader where
  fields :=
    [scalar .oid "_id", string "serverId", string "runtimeName", string "ern", string "accountId",
      string "namespace", string "region", named "protocol" transferProtocolFromString,
      string "address", scalar .long "port", string "bucketErn", string "bucketName",
      string "homeDirectory", ("userIds", .strings), ("userGroups", .strings),
      ("directories", .strings), named "desiredState" transferServerStateFromString,
      string "hostKey", scalar .long "pasvMin", scalar .long "pasvMax"] ++ dateFields

end Ets

namespace Ekm

open Database.Field

def keyReader : Reader where
  fields :=
    [scalar .oid "_id", string "region", string "accountId", string "namespace", string "ern",
      string "name", string "description", string "algorithm", scalar .long "length",
      string "keyMaterial"] ++ dateFields ++
    [scalar .date "deletionDate", named "status" keyStatusFromString, ("tags", .stringMap)]

end Ekm

namespace Ess

open Database.Field

def secretReader : Reader where
  fields :=
    [scalar .oid "_id", string "region", string "accountId", string "namespace", string "ern",
      string "name", string "description", string "value", string "encryptionKeyErn",
      scalar .long "version", scalar .date "rotated"] ++ dateFields ++ [("tags", .stringMap)]

end Ess

/-! ### Collections -/

/-- The collections that an export writes, each with its entity. -/
inductive ExportedCollection where
  | eqsQueue
  | eqsMessage
  | ensTopic
  | ensSubscription
  | ensMessage
  | esmBucket
  | esmSubscription
  | esmObject
  | esmObjectVersion
  | eamUser
  | eamUsergroup
  | eamAccount
  | eamNamespace
  | eamRole
  | eamGrant
  | emmModule
  | emoAlertRule
  | emoDashboard
  | emoData
  | emoAlertHistory
  | eapApplication
  | etsServer
  | ekmKey
  | essSecret

namespace ExportedCollection

/-- The reader of the entity a collection holds. -/
def reader : ExportedCollection → Reader
  | eqsQueue => Eqs.queueReader
  | eqsMessage => Eqs.messageReader
  | ensTopic => Ens.topicReader
  | ensSubscription => Ens.subscriptionReader
  | ensMessage => Ens.messageReader
  | esmBucket => Esm.bucketReader
  | esmSubscription => Esm.subscriptionReader
  | esmObject => Esm.objectReader
  | esmObjectVersion => Esm.objectReader
  | eamUser => Eam.userReader
  | eamUsergroup => Eam.userGroupReader
  | eamAccount => Eam.accountReader
  | eamNamespace => Eam.namespaceReader
  | eamRole => Eam.roleReader
  | eamGrant => Eam.grantReader
  | emmModule => Emm.moduleReader
  | emoAlertRule => Emo.alertRuleReader
  | emoDashboard => Emo.dashboardReader
  | emoData => Emo.monitoringDataReader
  | emoAlertHistory => Emo.alertTransitionReader
  | eapApplication => Eap.applicationReader
  | etsServer => Ets.transferServerReader
  | ekmKey => Ekm.keyReader
  | essSecret => Ess.secretReader

end ExportedCollection

/-- A field that is looked up is one of the fields. -/
theorem mem_of_lookup {Kind : Type} {fields : List (String × Kind)} {name : String} {kind : Kind}
    (found : fields.lookup name = some kind) : (name, kind) ∈ fields := by
  induction fields with
  | nil => nomatch found
  | cons entry rest ih =>
    rw [List.lookup_cons] at found
    split at found
    · rename_i same
      rw [← Option.some.inj found, eq_of_beq same]
      exact .head _
    · exact .tail _ (ih found)

end Euclid.Database
