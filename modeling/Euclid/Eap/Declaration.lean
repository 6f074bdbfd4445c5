/-
This file is what an application or a platform declares: the objects it owns, with their settings,
and those it reaches, with its access to them.
-/

import Euclid.Eag.Infrastructure

namespace Euclid.Eap.Infrastructure

open Eag (Fields)

/-! ### Resources -/

/-- The kinds of resource a declaration can name. -/
inductive Kind where
  | queues
  | topics
  | buckets
  | secrets
  | tables
  | routes
  deriving DecidableEq

def Kind.toText : Kind → String
  | .queues => "queues"
  | .topics => "topics"
  | .buckets => "buckets"
  | .secrets => "secrets"
  | .tables => "tables"
  | .routes => "routes"

def Kind.singular : Kind → String
  | .queues => "queue"
  | .topics => "topic"
  | .buckets => "bucket"
  | .secrets => "secret"
  | .tables => "table"
  | .routes => "route"

/-- The module that keeps a kind. -/
def Kind.service : Kind → String
  | .queues => "eqs"
  | .topics => "ens"
  | .buckets => "esm"
  | .secrets => "ess"
  | .tables => "ekv"
  | .routes => "eag"

/-- A resource the application owns, with its settings, or one it only reaches, with its access. Who
owns the latter is not acted on, and left out. -/
structure Resource where
  kind : Kind
  name : String
  access : List String
  settings : Fields

/-- A whole declaration. Its version is checked when it is read. -/
structure Declaration where
  applicationId : String
  creates : List Resource
  uses : List Resource

/-- `Belongs`: nothing, or why a declaration may not be applied to an application. -/
def Declaration.belongs (decl : Declaration) (applicationId : String) : Option String :=
  if decl.applicationId = "" ∨ decl.applicationId = applicationId then none
  else some ("declaration belongs to \"" ++ decl.applicationId ++ "\", not to \"" ++
    applicationId ++ "\"")

/-! ### Access -/

/-- What owning an object is called among the levels of access. -/
def kOwnAccess : String := "own"

/-- The permissions of each level of access. -/
def permissionTable : List ((Kind × String) × List String) := [
  ((.queues, "produce"), ["eqs:get-queue-ern", "eqs:send-message", "eqs:send-message-batch"]),
  ((.queues, "consume"), ["eqs:get-queue-ern", "eqs:receive-messages", "eqs:delete-message",
    "eqs:set-message-visibility", "eqs:get-message-count"]),
  ((.topics, "produce"), ["ens:get-topic-ern", "ens:publish-message"]),
  ((.topics, "subscribe"), ["ens:get-topic-ern", "ens:subscribe", "ens:unsubscribe",
    "ens:list-subscriptions"]),
  ((.buckets, "read"), ["esm:get-bucket-ern", "esm:get-object", "esm:get-object-size",
    "esm:list-objects", "esm:list-object-attributes", "esm:list-object-versions",
    "esm:create-download", "esm:download-part", "esm:complete-download"]),
  ((.buckets, "write"), ["esm:get-bucket-ern", "esm:put-object", "esm:create-upload",
    "esm:upload-part", "esm:complete-upload", "esm:abort-upload", "esm:set-object-attribute",
    "esm:add-object-attribute"]),
  ((.buckets, "subscribe"), ["esm:get-bucket-ern", "esm:subscribe", "esm:unsubscribe",
    "esm:list-subscriptions"]),
  ((.buckets, "delete"), ["esm:get-bucket-ern", "esm:delete-object", "esm:delete-objects"]),
  ((.buckets, "move"), ["esm:get-bucket-ern", "esm:copy-object", "esm:move-object"]),
  ((.buckets, "rename"), ["esm:get-bucket-ern", "esm:rename-object"]),
  ((.queues, "control"), ["eqs:get-queue-ern", "eqs:stop-queue", "eqs:start-queue"]),
  ((.secrets, "read"), ["ess:get-secret"]),
  ((.tables, "read"), ["ekv:get-table", "ekv:get-item", "ekv:query", "ekv:scan"]),
  ((.tables, "write"), ["ekv:get-table", "ekv:put-item", "ekv:delete-item"])]

/-- `PermissionsFor`: those of one level of access to a kind, or those of all its levels where it is
owned. -/
def permissionsFor (kind : Kind) (access : String) : List String :=
  if access = kOwnAccess then
    ((permissionTable.filter fun entry => entry.1.1 = kind ∧ entry.1.1 ≠ .secrets).flatMap
      Prod.snd).dedup.insertionSort (· ≤ ·)
  else ((permissionTable.find? fun entry => entry.1 = (kind, access)).map Prod.snd).getD []

/-- The role one level of access is granted through. -/
def roleName (kind : Kind) (access : String) : String :=
  "access-" ++ kind.singular ++ "-" ++ access

/-- What names a role that is written from declarations. -/
def isAccessRole (role : String) : Bool := "access-".toList.isPrefixOf role.toList

end Euclid.Eap.Infrastructure
