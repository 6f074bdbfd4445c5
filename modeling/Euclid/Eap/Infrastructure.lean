/-
This file translates the part of `EapServer` that makes an installation match a declaration.

What is declared is made, adopted or updated first, then what is owned and no longer declared is
removed when it is empty, then access is granted and revoked. A dry run goes the same way and writes
nothing.

Queues, topics, buckets, tables and routes are kept in one list, each under its kind. Dates, and
tags other than the one that says whose an object is, play no part and are left out where the
entities have them.
-/

import Euclid.Eap.Declaration
import Euclid.Ens.Entity

namespace Euclid.Eap.Infrastructure

open Bus (Json)
open Eag (Fields Claim claimOn mayRemove InfrastructureOwner ApplyOptions createErn Route)

/-! ### Objects -/

/-- `kOwnerTag`: the tag that says which application owns an object. -/
def kOwnerTag : String := "euclid:application"

abbrev Tags := List (String × String)

def ownerOf (tags : Tags) : Option String := (tags.find? fun tag => tag.1 = kOwnerTag).map Prod.snd

def ownedBy (owner : String) (tags : Tags) : Tags :=
  (kOwnerTag, owner) :: tags.filter fun tag => tag.1 ≠ kOwnerTag

/-- A bucket, as far as a declaration has a part in it. -/
structure Bucket where
  region : String
  accountId : String
  nameSpace : String
  owner : String
  name : String
  ern : String
  tags : Tags
  deriving DecidableEq

inductive KeyType where
  | string
  | number
  | binary
  deriving DecidableEq

/-- `KeyTypeFromString`: any case, or the first letter. -/
def keyTypeFromString (name : String) : Option KeyType :=
  match name.toLower with
  | "string" | "s" => some .string
  | "number" | "n" => some .number
  | "binary" | "b" => some .binary
  | _ => none

def KeyType.toText : KeyType → String
  | .string => "string"
  | .number => "number"
  | .binary => "binary"

/-- One half of a table's key. -/
structure KeySchema where
  name : String
  type : KeyType
  deriving DecidableEq

structure Table where
  region : String
  accountId : String
  nameSpace : String
  name : String
  ern : String
  partitionKey : KeySchema
  sortKey : Option KeySchema
  tags : Tags
  deriving DecidableEq

/-- An object a declaration can create. -/
inductive Object where
  | queue (queue : Eqs.Queue)
  | topic (topic : Ens.Topic)
  | bucket (bucket : Bucket)
  | table (table : Table)
  | route (route : Route)
  deriving DecidableEq

namespace Object

def kind : Object → Kind
  | .queue _ => .queues
  | .topic _ => .topics
  | .bucket _ => .buckets
  | .table _ => .tables
  | .route _ => .routes

def accountId : Object → String
  | .queue stored => stored.accountId
  | .topic stored => stored.accountId
  | .bucket stored => stored.accountId
  | .table stored => stored.accountId
  | .route stored => stored.accountId

def nameSpace : Object → String
  | .queue stored => stored.nameSpace
  | .topic stored => stored.nameSpace
  | .bucket stored => stored.nameSpace
  | .table stored => stored.nameSpace
  | .route stored => stored.nameSpace

def name : Object → String
  | .queue stored => stored.name
  | .topic stored => stored.name
  | .bucket stored => stored.name
  | .table stored => stored.name
  | .route stored => stored.routeId

def ern : Object → String
  | .queue stored => stored.ern
  | .topic stored => stored.ern
  | .bucket stored => stored.ern
  | .table stored => stored.ern
  | .route stored => stored.ern

/-- Whose an object is when a declaration names it. Whose a route is, is where it sends. -/
def ownerTag : Object → Option String
  | .queue stored => ownerOf stored.tags
  | .topic stored => ownerOf stored.tags
  | .bucket stored => ownerOf stored.tags
  | .table stored => ownerOf stored.tags
  | .route stored => some stored.target

/-- Whose an object is when nothing names it any more. A route that sends to no application is
nobody's. -/
def remnantTag : Object → Option String
  | .route stored =>
    if stored.type = .proxy ∧ stored.moduleTarget = "" then some stored.applicationId else none
  | object => object.ownerTag

def own (owner : String) : Object → Object
  | .queue stored => .queue { stored with tags := ownedBy owner stored.tags }
  | .topic stored => .topic { stored with tags := ownedBy owner stored.tags }
  | .bucket stored => .bucket { stored with tags := ownedBy owner stored.tags }
  | .table stored => .table { stored with tags := ownedBy owner stored.tags }
  | .route stored => .route stored

end Object

/-- What holds objects apart: their kind, account, namespace and name. -/
structure Key where
  kind : Kind
  accountId : String
  nameSpace : String
  name : String
  deriving DecidableEq

def Object.key (object : Object) : Key :=
  ⟨object.kind, object.accountId, object.nameSpace, object.name⟩

/-- The ERN every module gives an object of a key. -/
def Key.ern (region : String) (key : Key) : String :=
  createErn region key.kind.service key.accountId key.nameSpace
    (key.kind.singular ++ ":" ++ key.name)

/-! ### The collections -/

def findObject (objects : List Object) (key : Key) : Option Object :=
  objects.find? fun object => object.key = key

def findByErn (objects : List Object) (kind : Kind) (ern : String) : Option Object :=
  objects.find? fun object => object.kind = kind ∧ object.ern = ern

/-- An object in the place of the one of its key, or after the others. -/
def put (object : Object) : List Object → List Object
  | [] => [object]
  | stored :: rest => if stored.key = object.key then object :: rest else stored :: put object rest

/-- `upsertQueue` and its like. Nothing where the unique index on ERNs refuses it. -/
def upsertObject (objects : List Object) (object : Object) : Option (List Object) :=
  if objects.any fun other =>
      decide (other.kind = object.kind ∧ other.ern = object.ern ∧ other.key ≠ object.key) then none
  else some (put object objects)

/-! ### ERNs -/

def fieldsOf (ern : String) : List String := (ern.toList.splitOn ':').map String.ofList

def serviceFromErn (ern : String) : String :=
  match fieldsOf ern with
  | _ :: service :: _ :: _ => service
  | _ => ""

def accountIdFromErn (ern : String) : String := (fieldsOf ern).getD 3 ""

def namespaceOfErn (ern : String) : String :=
  match fieldsOf ern with
  | _ :: _ :: _ :: _ :: nameSpace :: _ :: _ => nameSpace
  | _ => ""

/-- What follows the last place where a text stands. -/
def afterLast (text : List Char) : List Char → Option (List Char)
  | [] => none
  | character :: rest => (afterLast text rest).orElse fun _ =>
      if text.isPrefixOf (character :: rest) then some ((character :: rest).drop text.length)
      else none

/-- The name of a table is what follows the last `:table:` of its ERN. Where there is none the
position that was not found has wrapped around. -/
def tableNameOfErn (ern : String) : String :=
  String.ofList ((afterLast ":table:".toList ern.toList).getD (ern.toList.drop 6))

def tableKeyOfErn (ern : String) : Key :=
  ⟨.tables, accountIdFromErn ern, namespaceOfErn ern, tableNameOfErn ern⟩

def objectOfErn (objects : List Object) (ern : String) : Option Object :=
  match serviceFromErn ern with
  | "eqs" => findByErn objects .queues ern
  | "ens" => findByErn objects .topics ern
  | "ekv" => findObject objects (tableKeyOfErn ern)
  | "eag" => findByErn objects .routes ern
  | "esm" => findByErn objects .buckets ern
  | _ => none

/-! ### Settings -/

/-- `setLong`: the value a number has then, and what is said of it. -/
def setLong (field : Int) (settings : Fields) (key label : String) : Int × List String :=
  match Json.ifContains key settings with
  | some (.int64 wanted) =>
    if field = wanted then (field, [])
    else (wanted, [label ++ " " ++ toString field ++ " -> " ++ toString wanted])
  | _ => (field, [])

/-- `TryMessagePriorityFromString`: any case, and the former name of the middle one. -/
def tryMessagePriorityFromString (name : String) : Option Eqs.MessagePriority :=
  match name.toUpper with
  | "LOW" => some .low
  | "MEDIUM" | "MIDDLE" => some .medium
  | "HIGH" => some .high
  | _ => none

def messagePriorityToString : Eqs.MessagePriority → String
  | .low => "LOW"
  | .medium => "MEDIUM"
  | .high => "HIGH"

def setPriority (field : Eqs.MessagePriority) (settings : Fields) :
    Eqs.MessagePriority × List String :=
  match Json.ifContains "priority" settings with
  | some (.string text) =>
    match tryMessagePriorityFromString text with
    | some wanted =>
      if field = wanted then (field, [])
      else (wanted, ["priority " ++ messagePriorityToString field ++ " -> " ++
        messagePriorityToString wanted])
    | none => (field, [])
  | _ => (field, [])

def setDeadLetterQueue (field : String) (settings : Fields) (deadLetterQueueErn : String) :
    String × List String :=
  if Eag.contains settings "deadLetterQueue" ∧ deadLetterQueueErn ≠ "" ∧ field ≠ deadLetterQueueErn
  then (deadLetterQueueErn,
    ["deadLetterQueue " ++ (if field = "" then "none" else field) ++ " -> " ++
    deadLetterQueueErn])
  else (field, [])

def applyQueueSettings (queue : Eqs.Queue) (settings : Fields) (deadLetterQueueErn : String) :
    Eqs.Queue × List String :=
  let visibility := setLong queue.visibility settings "visibility" "visibility"
  let maxReceiveCount := setLong queue.maxReceiveCount settings "maxRetries" "maxRetries"
  let maxMessageLength :=
    setLong queue.maxMessageLength settings "maxMessageLength" "maxMessageLength"
  let delay := setLong queue.delay settings "delay" "delay"
  let retention := setLong queue.retentionPeriod settings "retention" "retention"
  let priority := setPriority queue.priority settings
  let deadLetterQueue := setDeadLetterQueue queue.deadLetterQueueErn settings deadLetterQueueErn
  ({ queue with
    visibility := visibility.1
    maxReceiveCount := maxReceiveCount.1
    maxMessageLength := maxMessageLength.1
    delay := delay.1
    retentionPeriod := retention.1
    priority := priority.1
    deadLetterQueueErn := deadLetterQueue.1 },
    visibility.2 ++ maxReceiveCount.2 ++ maxMessageLength.2 ++ delay.2 ++ retention.2 ++
      priority.2 ++ deadLetterQueue.2)

def applyTopicSettings (topic : Ens.Topic) (settings : Fields) : Ens.Topic × List String :=
  let maxMessageLength :=
    setLong topic.maxMessageLength settings "maxMessageLength" "maxMessageLength"
  let retention := setLong topic.retentionPeriod settings "retention" "retention"
  ({ topic with maxMessageLength := maxMessageLength.1, retentionPeriod := retention.1 },
    maxMessageLength.2 ++ retention.2)

/-- `keyOf`: one half of the key that settings name. -/
def keyOf (settings : Fields) (name type : String) : Option KeySchema :=
  match Json.ifContains name settings with
  | some named =>
    some ⟨match named with | .string text => text | _ => "",
      (keyTypeFromString (Eag.stringField settings type "string")).getD .string⟩
  | none => none

def describeKey : Option KeySchema → String
  | some key => key.name ++ " (" ++ key.type.toText ++ ")"
  | none => "none"

/-! ### What is around -/

/-- What the objects hold, each under its ERN, and a table's items under its key. A negative count
could not be taken. -/
structure Contents where
  messages : String → Int
  pendingDeliveries : String → Int
  subscriptions : String → Nat
  items : Key → Int
  objects : String → Int

/-- The rest of the installation: the region ERNs are made in, what objects hold, the secrets, and
what the store says of an ERN that is taken. -/
structure Surroundings where
  region : String
  contents : Contents
  findSecret : String → String → String → Option String
  duplicateKey : String → String

/-- A role bound to a principal, for some resources. -/
structure Grant where
  role : String
  principal : String
  accountId : String
  namespaces : List String
  resources : List String
  grantedBy : String

structure Role where
  name : String
  accountId : String
  region : String
  description : String
  permissions : List String

/-- What applying a declaration reads and writes. -/
structure State where
  objects : List Object
  grants : List Grant
  roles : List Role

/-- What applying a declaration did, or would do. -/
structure InfrastructurePlan where
  created : List String
  adopted : List String
  updated : List (String × List String)
  deleted : List String
  kept : List (String × String)
  granted : List String
  revoked : List String
  owned : List String
  error : Option String

def InfrastructurePlan.blank : InfrastructurePlan := ⟨[], [], [], [], [], [], [], [], none⟩

/-! ### One declared object -/

/-- What a `creates` entry comes to: the claim on the object of its name, its ERN, what is said to
change, what stands in the way after that, and what is to be stored. -/
structure Proposal where
  claim : Claim
  ern : String
  changes : List String
  problem : Option String
  write : Option Object

section Proposals

variable (outside : Surroundings) (owner : InfrastructureOwner)

/-- Where an owner's object of a kind and a name is. -/
def keyOfOwned (kind : Kind) (name : String) : Key := ⟨kind, owner.accountId, owner.nameSpace, name⟩

/-- The object that a resource names. -/
def Resource.key (res : Resource) : Key := keyOfOwned owner res.kind res.name

/-- `decide`: make it, keep it, adopt it, or refuse. -/
def decideOn (res : Resource) (exists_ : Bool) (ownerTag : Option String) : Except String Claim :=
  match claimOn exists_ ownerTag owner.id with
  | .clash => .error (res.kind.singular ++ " '" ++ res.name ++ "' is owned by '" ++
      ownerTag.getD "" ++
      "'; an application owns an object or uses it, and this one is somebody else's")
  | claim => .ok claim

/-- What every kind that is tagged has in common: the object is stored with its owner's tag when it
was not the owner's, or its settings change. -/
def proposeTagged (res : Resource) (found : Bool) (ern : String) (object : Object)
    (changes : List String) : Except String Proposal :=
  (decideOn owner res found object.ownerTag).map fun claim =>
    { claim
      ern
      changes := if found then changes else []
      problem := none
      write := if claim ≠ .mine ∨ changes ≠ [] then some (object.own owner.id) else none }

section

variable (objects : List Object) (name : String)

def findQueueByName : Option Eqs.Queue :=
  match findObject objects (keyOfOwned owner .queues name) with
  | some (.queue queue) => some queue
  | _ => none

def findTopicByName : Option Ens.Topic :=
  match findObject objects (keyOfOwned owner .topics name) with
  | some (.topic topic) => some topic
  | _ => none

def findBucketByName : Option Bucket :=
  match findObject objects (keyOfOwned owner .buckets name) with
  | some (.bucket bucket) => some bucket
  | _ => none

def findTable : Option Table :=
  match findObject objects (keyOfOwned owner .tables name) with
  | some (.table table) => some table
  | _ => none

def findRouteByRouteId : Option Route :=
  match findObject objects (keyOfOwned owner .routes name) with
  | some (.route route) => some route
  | _ => none

end

/-- The ERN of the dead letter queue that a queue names. One of this declaration has its ERN before
it exists, and any other has to be there. -/
def resolveDeadLetterQueue (decl : Declaration) (res : Resource)
    (objects : List Object) : Except String String :=
  match Json.ifContains "deadLetterQueue" res.settings with
  | some (.string name) =>
    if decl.creates.any fun other => decide (other.kind = .queues ∧ other.name = name) then
      .ok ((keyOfOwned owner .queues name).ern outside.region)
    else
      match findQueueByName owner objects name with
      | some queue => .ok queue.ern
      | none => .error ("queue '" ++ res.name ++ "' names a dead letter queue '" ++ name ++
          "' that is neither declared here nor exists")
  | _ => .ok ""

def newQueue (name : String) : Eqs.Queue :=
  { Eqs.Queue.blank with
    name
    ern := (keyOfOwned owner .queues name).ern outside.region
    region := owner.region
    accountId := owner.accountId
    nameSpace := owner.nameSpace
    owner := "eap" }

def proposeQueue (decl : Declaration) (res : Resource) (objects : List Object) :
    Except String Proposal :=
  match resolveDeadLetterQueue outside owner decl res objects with
  | .error error => .error error
  | .ok deadLetterQueueErn =>
    let found := findQueueByName owner objects res.name
    let (queue, changes) := applyQueueSettings
      (found.getD (newQueue outside owner res.name)) res.settings deadLetterQueueErn
    proposeTagged owner res found.isSome queue.ern (.queue queue) changes

def newTopic (name : String) : Ens.Topic :=
  { Ens.Topic.blank with
    name
    ern := (keyOfOwned owner .topics name).ern outside.region
    region := owner.region
    accountId := owner.accountId
    nameSpace := owner.nameSpace
    owner := "eap" }

def proposeTopic (res : Resource) (objects : List Object) : Except String Proposal :=
  let found := findTopicByName owner objects res.name
  let (topic, changes) := applyTopicSettings
    (found.getD (newTopic outside owner res.name)) res.settings
  proposeTagged owner res found.isSome topic.ern (.topic topic) changes

def newBucket (name : String) : Bucket where
  region := owner.region
  accountId := owner.accountId
  nameSpace := owner.nameSpace
  owner := "eap"
  name
  ern := (keyOfOwned owner .buckets name).ern outside.region
  tags := []

def proposeBucket (res : Resource) (objects : List Object) : Except String Proposal :=
  let found := findBucketByName owner objects res.name
  let bucket := found.getD (newBucket outside owner res.name)
  proposeTagged owner res found.isSome bucket.ern (.bucket bucket) []

/-- A table of the declared key. One that is made always has a partition key, which is checked when
the declaration is read. -/
def newTable (name : String) (partitionKey sortKey : Option KeySchema) : Table where
  region := owner.region
  accountId := owner.accountId
  nameSpace := owner.nameSpace
  name
  ern := (keyOfOwned owner .tables name).ern outside.region
  partitionKey := partitionKey.getD ⟨"", .string⟩
  sortKey
  tags := []

/-- A key cannot change once items are keyed on it, so a declaration that disagrees with the table
is refused. -/
def proposeTable (res : Resource) (objects : List Object) : Except String Proposal :=
  let partitionKey := keyOf res.settings "partitionKey" "partitionKeyType"
  let sortKey := keyOf res.settings "sortKey" "sortKeyType"
  let found := findTable owner objects res.name
  match found.filter fun table => some table.partitionKey ≠ partitionKey ∨
    table.sortKey ≠ sortKey with
  | some table => .error ("table '" ++ res.name ++ "' is keyed on " ++
      describeKey (some table.partitionKey) ++ ", sort key " ++ describeKey table.sortKey ++
      "; the file says " ++ describeKey partitionKey ++ ", sort key " ++ describeKey sortKey ++
      ", and a table's key cannot change")
  | none => proposeTagged owner res found.isSome
      ((keyOfOwned owner .tables res.name).ern outside.region)
      (.table (found.getD (newTable outside owner res.name partitionKey sortKey))) []

def newRoute (name : String) : Route :=
  { Route.blank with
    routeId := name
    ern := (keyOfOwned owner .routes name).ern outside.region
    accountId := owner.accountId
    region := owner.region
    nameSpace := owner.nameSpace
    applicationId := owner.id }

def routesOf (objects : List Object) : List Route :=
  objects.filterMap fun object => match object with | .route route => some route | _ => none

/-- A route is stored when it is new or its settings change. Where it sends is left as it is. -/
def proposeRoute (res : Resource) (objects : List Object) : Except String Proposal :=
  if owner.isPlatform then
    .error ("route '" ++ res.name ++
      "': a route sends to the application that declares it, and a platform is not one")
  else
    let found := findRouteByRouteId owner objects res.name
    let (route, changes) := Eag.applySettings res.settings
      (found.getD (newRoute outside owner res.name))
    (decideOn owner res found.isSome (found.map Route.target)).map fun claim =>
      { claim
        ern := (keyOfOwned owner .routes res.name).ern outside.region
        changes := if found.isSome then changes else []
        problem := (Eag.overlapped (routesOf objects) owner route).map fun other =>
          "route '" ++ res.name ++ "': path " ++ route.path ++ " is already routed by '" ++
            other.routeId ++ "' for the same methods"
        write := if claim = .create ∨ changes ≠ [] then some (.route route) else none }

/-- What `ensureOwnedResource` makes of an entry, by its kind. -/
def propose (decl : Declaration) (res : Resource) (objects : List Object) :
    Except String Proposal :=
  match res.kind with
  | .queues => proposeQueue outside owner decl res objects
  | .topics => proposeTopic outside owner res objects
  | .buckets => proposeBucket outside owner res objects
  | .tables => proposeTable outside owner res objects
  | .routes => proposeRoute outside owner res objects
  | .secrets => .error ("cannot create a resource of kind '" ++ res.kind.toText ++ "'")

end Proposals

/-! ### What is owned -/

/-- How far the loop over what is created has come. -/
structure Progress where
  plan : InfrastructurePlan
  declaredOwned : List (Kind × String)
  objects : List Object

namespace Progress

def fail (error : String) (progress : Progress) : Progress :=
  { progress with plan := { progress.plan with error := some error } }

/-- The lines of the plan that say what becomes of an entry. -/
def report (proposal : Proposal) (progress : Progress) : Progress :=
  { progress with plan := { progress.plan with
      created := progress.plan.created ++ (if proposal.claim = .create then [proposal.ern] else [])
      adopted := progress.plan.adopted ++ (if proposal.claim = .adopt then [proposal.ern] else [])
      updated := progress.plan.updated ++
        (if proposal.changes = [] then [] else [(proposal.ern, proposal.changes)]) } }

/-- The object of an entry is owned. -/
def own (kind : Kind) (ern : String) (progress : Progress) : Progress :=
  { progress with
    plan := { progress.plan with owned := progress.plan.owned ++ [ern] }
    declaredOwned := progress.declaredOwned ++ [(kind, ern)] }

end Progress

section Applying

variable (outside : Surroundings) (options : ApplyOptions) (owner : InfrastructureOwner)

def ensureOwnedResource (decl : Declaration) (res : Resource) (progress : Progress) : Progress :=
  match propose outside owner decl res progress.objects with
  | .error error => progress.fail error
  | .ok proposal =>
    let reported := progress.report proposal
    match proposal.problem, proposal.write.filter fun _ => options.dryRun = false with
    | some problem, _ => reported.fail problem
    | none, none => reported.own res.kind proposal.ern
    | none, some object =>
      match upsertObject progress.objects object with
      | none => reported.fail (outside.duplicateKey object.ern)
      | some objects => { reported.own res.kind proposal.ern with objects }

/-- The loop over what is created. It ends at the first error. -/
def ensureOwned (decl : Declaration) : List Resource → Progress → Progress
  | [], progress => progress
  | res :: rest, progress =>
    let next := ensureOwnedResource outside options owner decl res progress
    if next.plan.error.isSome then next else ensureOwned decl rest next

/-! ### What is no longer declared -/

def Object.holds (contents : Contents) : Object → String
  | .queue stored =>
    let msgs := contents.messages stored.ern
    let pending := contents.pendingDeliveries stored.ern
    if msgs ≠ 0 then
      if msgs < 0 then "its messages could not be counted"
      else "it still holds " ++ toString msgs ++ " message(s)"
    else if pending ≠ 0 then
      if pending < 0 then "its pending deliveries could not be counted"
      else toString pending ++ " delivery(ies) are on their way to it"
    else ""
  | .topic stored =>
    if contents.subscriptions stored.ern = 0 then ""
    else "it still has " ++ toString (contents.subscriptions stored.ern) ++ " subscription(s)"
  | .table stored =>
    let items := contents.items ⟨.tables, stored.accountId, stored.nameSpace, stored.name⟩
    if items = 0 then ""
    else if items < 0 then "its items could not be counted"
    else "it still holds " ++ toString items ++ " item(s)"
  | .route _ => ""
  | .bucket stored =>
    let objects := contents.objects stored.ern
    if objects = 0 then ""
    else if objects < 0 then "its objects could not be counted"
    else "it still holds " ++ toString objects ++ " object(s)"

/-- `deleteOwnedResource`. A queue, a topic or a bucket goes by its ERN, a table and a route by
where they are. -/
def deleteOwnedResource (objects : List Object) (ern : String) : List Object :=
  let byErn :=
    fun kind : Kind => objects.filter fun object => ¬(object.kind = kind ∧ object.ern = ern)
  match serviceFromErn ern with
  | "eqs" => byErn .queues
  | "ens" => byErn .topics
  | "esm" => byErn .buckets
  | "ekv" => objects.filter fun object => object.key ≠ tableKeyOfErn ern
  | "eag" =>
    match findByErn objects .routes ern with
    | some route => objects.filter fun object => object.key ≠ route.key
    | none => objects
  | _ => objects

/-- `taggedAsOwned`. A listing of an empty namespace is one of the whole account, except for
tables. -/
def taggedAsOwned (objects : List Object) : List String :=
  (objects.filter fun object =>
    object.kind ≠ .routes ∧ object.accountId = owner.accountId ∧
      (object.nameSpace = owner.nameSpace ∨ (owner.nameSpace = "" ∧ object.kind ≠ .tables)) ∧
      object.ownerTag = some owner.id).map Object.ern

/-- What a prune considers: what is recorded and what is tagged. -/
def candidates (objects : List Object) : List String :=
  (owner.recorded ++ taggedAsOwned owner objects).dedup.insertionSort (· ≤ ·)

/-- What the plan says of an object that is not removed. It stays owned. -/
def InfrastructurePlan.keep (ern reason : String) (plan : InfrastructurePlan) :
    InfrastructurePlan :=
  { plan with kept := plan.kept ++ [(ern, reason)], owned := plan.owned ++ [ern] }

/-- One turn of the loop over what may no longer be declared. -/
def pruneOne (ern : String) (plan : InfrastructurePlan) (objects : List Object) :
    InfrastructurePlan × List Object :=
  if ern ∈ plan.owned then (plan, objects)
  else
    match objectOfErn objects ern with
    | none => (plan, objects)
    | some object =>
      if ¬mayRemove object.remnantTag owner.id (decide (ern ∈ owner.recorded)) then (plan, objects)
      else if options.prune = false then
        (plan.keep ern "no longer declared, and pruning is off", objects)
      else if object.holds outside.contents ≠ "" then
        (plan.keep ern ("no longer declared, but " ++ object.holds outside.contents), objects)
      else ({ plan with deleted := plan.deleted ++ [ern] },
        if options.dryRun then objects else deleteOwnedResource objects ern)

/-- The loop over what may no longer be declared. -/
def pruneAll (erns : List String) (plan : InfrastructurePlan) (objects : List Object) :
    InfrastructurePlan × List Object :=
  erns.foldl (fun state ern => pruneOne outside options owner ern state.1 state.2) (plan, objects)

/-! ### What is reached -/

/-- One level of access to one object. -/
structure Wanted where
  kind : Kind
  access : String
  ern : String

/-- The ERN of a resource that is used, or the error. -/
def resolveUsed (objects : List Object) (res : Resource) : Except String String :=
  let found := if res.kind = .secrets then
      outside.findSecret owner.accountId owner.nameSpace res.name
    else if res.kind = .routes then none
    else (findObject objects (res.key owner)).map Object.ern
  match found with
  | some ern => .ok ern
  | none =>
    if res.kind = .routes then
      .error ("uses a kind of resource this server does not know: '" ++ res.kind.toText ++ "'")
    else .error ("uses a " ++ res.kind.singular ++ " '" ++ res.name ++ "' that does not exist")

/-- The access that is asked for to what is used, or the first error. -/
def wantedOf (objects : List Object) : List Resource → Except String (List Wanted)
  | [] => .ok []
  | res :: rest =>
    match resolveUsed outside owner objects res with
    | .error error => .error error
    | .ok ern => (wantedOf objects rest).map fun wanted =>
        res.access.map (fun access => ⟨res.kind, access, ern⟩) ++ wanted

/-- Everything on what is owned, for the kinds that are reached through a permission. -/
def ownAccess (declaredOwned : List (Kind × String)) : List Wanted :=
  (declaredOwned.filter fun owned => permissionsFor owned.1 kOwnAccess ≠ []).map fun owned =>
    ⟨owned.1, kOwnAccess, owned.2⟩

def Wanted.isGranted (wanted : Wanted) (grant : Grant) : Bool :=
  decide (roleName wanted.kind wanted.access = grant.role ∧ grant.resources = [wanted.ern])

/-- `accessRole`: the role of one level of access, with its permissions written again. -/
def accessRole (kind : Kind) (access : String) (roles : List Role) : List Role :=
  let role : Role := {
    name := roleName kind access
    accountId := owner.accountId
    region := owner.region
    description := (if access = kOwnAccess then
        "Everything on a " ++ kind.singular ++ " the application owns"
      else "Reach a " ++ kind.singular ++ " somebody else owns, to " ++ access ++ " it") ++
        " - written by eap from an application's declaration"
    permissions := permissionsFor kind access }
  role :: roles.filter fun other => (other.accountId, other.name) ≠ (role.accountId, role.name)

section

variable (principalErn : String)

/-- The grant that a wanted access is given by. -/
def grantOf (wanted : Wanted) : Grant where
  role := roleName wanted.kind wanted.access
  principal := principalErn
  accountId := owner.accountId
  namespaces := if owner.nameSpace = "" then ["*"] else [owner.nameSpace]
  resources := [wanted.ern]
  grantedBy := "eap"

/-- A grant of a principal that a declaration does not ask for any more. Grants through other roles
are left alone. -/
def isObsolete (wanted : List Wanted) (grant : Grant) : Bool :=
  decide (grant.principal = principalErn) && isAccessRole grant.role &&
    !wanted.any fun wanted => wanted.isGranted grant

/-- The access that has to be granted yet. -/
def missing (wanted : List Wanted) (grants : List Grant) : List Wanted :=
  wanted.filter fun wanted => !(grants.filter fun grant => grant.principal = principalErn).any
    fun grant => wanted.isGranted grant

/-- The part of `applyInfrastructure` that makes the grants of a principal those that are asked for.
What is granted already is what was granted before anything is revoked. -/
def applyGrants (wanted : List Wanted) (plan : InfrastructurePlan) (state : State) :
    InfrastructurePlan × State :=
  let obsolete := state.grants.filter (isObsolete principalErn wanted)
  let granting := missing principalErn wanted state.grants
  ({ plan with
      revoked := plan.revoked ++ obsolete.map fun grant =>
        grant.role ++ match grant.resources with | [] => "" | ern :: _ => " on " ++ ern
      granted := plan.granted ++ granting.map fun wanted =>
        roleName wanted.kind wanted.access ++ " on " ++ wanted.ern },
    if options.dryRun then state
    else { state with
      grants := state.grants.filter (fun grant => ¬isObsolete principalErn wanted grant) ++
        granting.map (grantOf owner principalErn)
      roles := granting.foldl (fun roles wanted => accessRole owner wanted.kind wanted.access roles)
        state.roles })

end

/-! ### A whole declaration -/

def applyInfrastructure (decl : Declaration) (principalErn : String) (state : State) :
    InfrastructurePlan × State :=
  let ensured := ensureOwned outside options owner decl decl.creates ⟨.blank, [], state.objects⟩
  if ensured.plan.error.isSome then (ensured.plan, { state with objects := ensured.objects })
  else
    let (plan, objects) := pruneAll outside options owner (candidates owner ensured.objects)
      ensured.plan ensured.objects
    let state := { state with objects }
    if principalErn = "" then (plan, state)
    else
      match wantedOf outside owner objects decl.uses with
      | .error error => ({ plan with error := some error }, state)
      | .ok wanted => applyGrants options owner principalErn
          (wanted ++ ownAccess ensured.declaredOwned) plan state

end Applying

end Euclid.Eap.Infrastructure
