/-
This file is about the objects of an installation: how they are found, stored and removed by their
keys and their ERNs, and what a declaration makes of one of them.
-/

import Euclid.Eap.Infrastructure

namespace Euclid.Eap.Infrastructure

open List Option

open Bus (Json)
open Eag (Fields Claim claimOn mayRemove InfrastructureOwner ApplyOptions createErn Route)

/-! ### What is stored -/

/-- What the indexes of the collections and the modules that write them keep: keys and ERNs are
unique, and an object has the ERN of its key. -/
structure Sound (region : String) (objects : List Object) : Prop where
  named : (objects.map Object.key).Nodup
  addressed : ∀ object ∈ objects, object.ern = object.key.ern region
  distinct : ∀ object ∈ objects, ∀ other ∈ objects, object.kind = other.kind →
    object.ern = other.ern → object.key = other.key

variable {object : Object}

section Stored

variable {region : String} {objects : List Object}

theorem findObject_mem {key : Key} (found : findObject objects key = some object) :
    object ∈ objects ∧ object.key = key :=
  ⟨mem_of_find?_eq_some found, by simpa using List.find?_some found⟩

theorem findObject_none {key : Key} :
    findObject objects key = none ↔ ∀ object ∈ objects, object.key ≠ key := by
  unfold findObject
  simp

variable (named : (objects.map Object.key).Nodup)

include named in
theorem key_injective_on {other : Object}
    (first : object ∈ objects) (second : other ∈ objects) (same : object.key = other.key) :
    object = other :=
  inj_on_of_nodup_map named first second same

include named in
theorem findObject_eq (mem : object ∈ objects) : findObject objects object.key = some object := by
  cases found : findObject objects object.key with
  | none => exact absurd rfl (findObject_none.mp found object mem)
  | some other =>
    rw [key_injective_on named (findObject_mem found).1 mem (findObject_mem found).2]

theorem findObject_put (object : Object) (objects : List Object) (key : Key) :
    findObject (put object objects) key =
      if object.key = key then some object else findObject objects key := by
  induction objects with
  | nil => simp [put, findObject]
  | cons stored rest ih =>
    unfold put
    unfold findObject at ih ⊢
    split
    · rename_i replaced
      by_cases own : object.key = key
      · simp [own]
      · simp [own, replaced]
    · rename_i other
      rw [List.find?_cons, List.find?_cons, ih]
      by_cases own : object.key = key
      · have apart : stored.key ≠ key := fun same => other (same.trans own.symm)
        simp [own, apart]
      · simp [own]

theorem put_keys {object : Object} {objects : List Object} :
    (put object objects).map Object.key = objects.map Object.key ∨
      (object.key ∉ objects.map Object.key ∧
        (put object objects).map Object.key = objects.map Object.key ++ [object.key]) := by
  induction objects with
  | nil => exact .inr ⟨not_mem_nil, rfl⟩
  | cons stored rest ih =>
    unfold put
    split
    · rename_i replaced
      left
      rw [map_cons, map_cons, replaced]
    · rename_i other
      rcases ih with same | ⟨new, appended⟩
      · left
        rw [map_cons, map_cons, same]
      · right
        refine ⟨?_, ?_⟩
        · rw [map_cons, mem_cons, not_or]
          exact ⟨fun same => other same.symm, new⟩
        · rw [map_cons, map_cons, appended, cons_append]

include named in
theorem put_named : ((put object objects).map Object.key).Nodup := by
  rcases put_keys with same | ⟨new, appended⟩
  · rw [same]
    exact named
  · rw [appended]
    exact List.Nodup.append named (nodup_singleton _) (disjoint_singleton.mpr new)

include named in
theorem mem_put {other : Object} :
    other ∈ put object objects ↔ other = object ∨ other ∈ objects ∧ other.key ≠ object.key := by
  constructor
  · intro mem
    have found := findObject_eq (put_named named) mem
    rw [findObject_put] at found
    split at found
    · exact .inl (some.inj found).symm
    · rename_i apart
      exact .inr ⟨(findObject_mem found).1, fun same => apart same.symm⟩
  · intro holds
    have found : findObject (put object objects) other.key = some other := by
      rw [findObject_put]
      rcases holds with rfl | ⟨mem, apart⟩
      · rw [if_pos rfl]
      · rw [if_neg fun same => apart same.symm]
        exact findObject_eq named mem
    exact (findObject_mem found).1

variable {after : List Object}

theorem upsertObject_some (stored : upsertObject objects object = some after) :
    after = put object objects ∧ ∀ other ∈ objects, other.kind = object.kind →
      other.ern = object.ern → other.key = object.key := by
  unfold upsertObject at stored
  split at stored
  · cases stored
  · rename_i free
    refine ⟨(some.inj stored).symm, fun other mem kind ern => ?_⟩
    by_contra apart
    exact free (any_eq_true.mpr ⟨other, mem, decide_eq_true ⟨kind, ern, apart⟩⟩)

theorem Sound.upsert (sound : Sound region objects) (own : object.ern = object.key.ern region)
    (stored : upsertObject objects object = some after) : Sound region after := by
  obtain ⟨rfl, free⟩ := upsertObject_some stored
  refine ⟨put_named sound.named, fun other mem => ?_, fun first firstMember second secondMember
    kind ern => ?_⟩
  · rcases (mem_put sound.named).mp mem with rfl | ⟨mem, -⟩
    · exact own
    · exact sound.addressed other mem
  · rcases (mem_put sound.named).mp firstMember with rfl | ⟨firstIn, -⟩
    · rcases (mem_put sound.named).mp secondMember with rfl | ⟨secondIn, -⟩
      · rfl
      · exact (free second secondIn kind.symm ern.symm).symm
    · rcases (mem_put sound.named).mp secondMember with rfl | ⟨secondIn, -⟩
      · exact free first firstIn kind ern
      · exact sound.distinct first firstIn second secondIn kind ern

theorem Sound.filter (sound : Sound region objects) (kept : Object → Bool) :
    Sound region (objects.filter kept) :=
  ⟨sound.named.sublist (filter_sublist.map _),
    fun object mem => sound.addressed object (mem_of_mem_filter mem),
    fun first firstMember second secondMember => sound.distinct first
      (mem_of_mem_filter firstMember) second (mem_of_mem_filter secondMember)⟩

end Stored

/-! ### The parts of an ERN -/

theorem fieldsOf_append {first rest : String} (plain : ':' ∉ first.toList) :
    fieldsOf (first ++ ":" ++ rest) = first :: fieldsOf rest := by
  have parts : (first ++ ":" ++ rest).toList = first.toList ++ ':' :: rest.toList := by
    rw [String.toList_append, String.toList_append, append_assoc]
    rfl
  have undivided : first.toList.splitOnP (· == ':') = [first.toList] :=
    splitOnP_eq_singleton fun character mem => by
      simpa using fun same : character = ':' => plain (same ▸ mem)
  unfold fieldsOf List.splitOn
  rw [parts, splitOnP_append_cons _ _ (by simp), undivided, singleton_append,
    map_cons, String.ofList_toList]

theorem Key.ern_eq (region : String) (key : Key) : key.ern region = "ern" ++ ":" ++
    (key.kind.service ++ ":" ++ (region ++ ":" ++ key.accountId ++ ":" ++ key.nameSpace ++ ":" ++
      (key.kind.singular ++ ":" ++ key.name))) := by
  have start : "ern:" = "ern" ++ ":" := rfl
  unfold Key.ern createErn
  rw [start]
  simp only [String.append_assoc]

variable {region : String}

theorem serviceFromErn_ern {key : Key} :
    serviceFromErn (key.ern region) = key.kind.service := by
  have plain : ':' ∉ key.kind.service.toList := by
    cases key.kind <;> decide
  unfold serviceFromErn
  rw [Key.ern_eq, fieldsOf_append (by decide), fieldsOf_append plain]
  have more : ∀ text : String, ∃ field rest, fieldsOf text = field :: rest := fun text =>
    exists_cons_of_ne_nil (by
      unfold fieldsOf List.splitOn
      simp [splitOnP_ne_nil])
  obtain ⟨field, rest, fields⟩ := more
    (region ++ ":" ++ key.accountId ++ ":" ++ key.nameSpace ++ ":" ++
      (key.kind.singular ++ ":" ++ key.name))
  rw [fields]

variable {kind : Kind}

theorem ern_injective {accountId nameSpace : String} {other : Kind} {name text : String}
    (same : Key.ern region ⟨kind, accountId, nameSpace, name⟩ =
      Key.ern region ⟨other, accountId, nameSpace, text⟩) : kind = other ∧ name = text := by
  have kinds : kind.service = other.service := by
    have services := congrArg serviceFromErn same
    rwa [serviceFromErn_ern, serviceFromErn_ern] at services
  have own : kind = other := by
    revert kinds
    cases kind <;> cases other <;> decide
  subst own
  refine ⟨rfl, ?_⟩
  unfold Key.ern createErn at same
  have texts := congrArg String.toList same
  simp only [String.toList_append, append_assoc] at texts
  exact String.toList_injective (by simpa using texts)

/-! ### Objects by ERN -/

variable {ern : String}

section ByErn

variable {region : String} {objects : List Object}

theorem findByErn_mem (found : findByErn objects kind ern = some object) :
    object ∈ objects ∧ object.kind = kind ∧ object.ern = ern :=
  ⟨mem_of_find?_eq_some found, by simpa using List.find?_some found⟩

def ReadAs (ern : String) (object : Object) : Prop :=
  object.kind = .tables ∧ serviceFromErn ern = "ekv" ∧ object.key = tableKeyOfErn ern ∨
    object.kind ≠ .tables ∧ serviceFromErn ern = object.kind.service ∧ object.ern = ern

theorem findByErn_readAs (plain : kind ≠ .tables)
    (service : serviceFromErn ern = kind.service)
      (found : findByErn objects kind ern = some object) :
    object ∈ objects ∧ ReadAs ern object := by
  obtain ⟨mem, rfl, own⟩ := findByErn_mem found
  exact ⟨mem, .inr ⟨plain, service, own⟩⟩

theorem objectOfErn_spec
    (found : objectOfErn objects ern = some object) : object ∈ objects ∧ ReadAs ern object := by
  unfold objectOfErn at found
  split at found
  · exact findByErn_readAs (by simp) ‹_› found
  · exact findByErn_readAs (by simp) ‹_› found
  · rename_i service
    obtain ⟨mem, key⟩ := findObject_mem found
    exact ⟨mem, .inl ⟨congrArg Key.kind key, service, key⟩⟩
  · exact findByErn_readAs (by simp) ‹_› found
  · exact findByErn_readAs (by simp) ‹_› found
  · cases found

section

variable (sound : Sound region objects)

include sound

theorem Sound.findByErn_eq
    (mem : object ∈ objects) : findByErn objects object.kind object.ern = some object := by
  cases found : findByErn objects object.kind object.ern with
  | none =>
    have absent := List.find?_eq_none.mp found object mem
    simp at absent
  | some other =>
    obtain ⟨otherMember, kind, own⟩ := findByErn_mem found
    rw [key_injective_on sound.named otherMember mem
      (sound.distinct other otherMember object mem kind own)]

theorem Sound.objectOfErn_iff :
    objectOfErn objects ern = some object ↔ object ∈ objects ∧ ReadAs ern object := by
  refine ⟨objectOfErn_spec, fun ⟨mem, read⟩ => ?_⟩
  unfold objectOfErn
  rcases read with ⟨-, service, key⟩ | ⟨kind, service, own⟩
  · rw [service, ← key]
    exact findObject_eq sound.named mem
  · have byErn := sound.findByErn_eq mem
    rw [own] at byErn
    rw [service]
    cases object with
    | table => exact absurd rfl kind
    | queue => exact byErn
    | topic => exact byErn
    | bucket => exact byErn
    | route => exact byErn

theorem Sound.objectOfErn_eq (mem : object ∈ objects)
    (readable : object.kind = .tables → tableKeyOfErn object.ern = object.key) :
    objectOfErn objects object.ern = some object := by
  have service : serviceFromErn object.ern = object.kind.service := by
    rw [sound.addressed object mem]
    exact serviceFromErn_ern
  refine sound.objectOfErn_iff.mpr ⟨mem, ?_⟩
  by_cases table : object.kind = .tables
  · rw [table] at service
    exact .inl ⟨table, service, (readable table).symm⟩
  · exact .inr ⟨table, service, rfl⟩

/-- What is removed under an ERN is the object it is read as, and nothing else. -/
theorem Sound.deleteOwnedResource_eq (found : objectOfErn objects ern = some object) :
    deleteOwnedResource objects ern = objects.filter fun other => other.key ≠ object.key := by
  obtain ⟨mem, read⟩ := objectOfErn_spec found
  have byErn : object.ern = ern → (objects.filter fun other =>
      ¬(other.kind = object.kind ∧ other.ern = ern)) =
        objects.filter fun other => other.key ≠ object.key := by
    intro own
    refine filter_congr fun other otherMember => ?_
    refine decide_eq_decide.mpr (not_congr ⟨fun same => ?_, fun same => ?_⟩)
    · exact sound.distinct other otherMember object mem same.1 (same.2.trans own.symm)
    · rw [key_injective_on sound.named otherMember mem same]
      exact ⟨rfl, own⟩
  unfold deleteOwnedResource
  rcases read with ⟨-, service, key⟩ | ⟨kind, service, own⟩
  · rw [service, key]
    rfl
  · rw [service]
    have route := sound.findByErn_eq mem
    rw [own] at route
    cases object with
    | table => exact absurd rfl kind
    | queue => exact byErn own
    | topic => exact byErn own
    | bucket => exact byErn own
    | route stored =>
      dsimp only
      rw [show findByErn objects .routes ern = some (.route stored) from route]
      rfl

end

end ByErn

/-! ### What an entry makes of an object -/

/-- The settings of an entry, applied to an object, and what they change. -/
def Object.apply (settings : Fields) (deadLetterQueueErn : String) : Object → Object × List String
  | .queue stored =>
    ((.queue (applyQueueSettings stored settings deadLetterQueueErn).1),
      (applyQueueSettings stored settings deadLetterQueueErn).2)
  | .topic stored =>
    (.topic (applyTopicSettings stored settings).1, (applyTopicSettings stored settings).2)
  | .bucket stored => (.bucket stored, [])
  | .table stored => (.table stored, [])
  | .route stored => (.route (Eag.applySettings settings stored).1,
      (Eag.applySettings settings stored).2)

open Object

/-- The object an entry starts from where there is none. -/
def newObject (outside : Surroundings) (owner : InfrastructureOwner) (res : Resource) :
    Option Object :=
  match res.kind with
  | .queues => some (.queue (newQueue outside owner res.name))
  | .topics => some (.topic (newTopic outside owner res.name))
  | .buckets => some (.bucket (newBucket outside owner res.name))
  | .tables => some (.table (newTable outside owner res.name
      (keyOf res.settings "partitionKey" "partitionKeyType")
      (keyOf res.settings "sortKey" "sortKeyType")))
  | .routes => some (.route (newRoute outside owner res.name))
  | .secrets => none

section Entries

variable {outside : Surroundings} {owner : InfrastructureOwner} {res : Resource}
  {objects : List Object}

theorem newObject_key {fresh : Object} (new : newObject outside owner res = some fresh) :
    fresh.key = res.key owner ∧ fresh.ern = (res.key owner).ern outside.region := by
  unfold newObject at new
  unfold Resource.key
  cases kind : res.kind <;> rw [kind] at new <;> cases new <;> exact ⟨rfl, rfl⟩

theorem Object.apply_keeps (settings : Fields) (deadLetterQueueErn : String) (object : Object) :
    (object.apply settings deadLetterQueueErn).1.key = object.key ∧
      (object.apply settings deadLetterQueueErn).1.ern = object.ern ∧
      (object.apply settings deadLetterQueueErn).1.ownerTag = object.ownerTag ∧
      (object.apply settings deadLetterQueueErn).1.remnantTag = object.remnantTag := by
  cases object with
  | queue => exact ⟨rfl, rfl, rfl, rfl⟩
  | topic => exact ⟨rfl, rfl, rfl, rfl⟩
  | bucket => exact ⟨rfl, rfl, rfl, rfl⟩
  | table => exact ⟨rfl, rfl, rfl, rfl⟩
  | route stored =>
    unfold apply
    dsimp only
    rw [Eag.applySettings_fst]
    exact ⟨rfl, rfl, rfl, rfl⟩

theorem ownerOf_ownedBy (id : String) (tags : Tags) : ownerOf (ownedBy id tags) = some id := by
  unfold ownerOf ownedBy
  rw [List.find?_cons_of_pos (by simp)]
  rfl

theorem Object.own_keeps {id : String} {object : Object} :
    (object.own id).key = object.key ∧ (object.own id).ern = object.ern := by
  cases object <;> exact ⟨rfl, rfl⟩

theorem Object.own_tagged {id : String} (tagged : object.kind ≠ .routes) :
    (object.own id).ownerTag = some id ∧ (object.own id).remnantTag = some id := by
  cases object with
  | route => exact absurd rfl tagged
  | queue stored => exact ⟨ownerOf_ownedBy id stored.tags, ownerOf_ownedBy id stored.tags⟩
  | topic stored => exact ⟨ownerOf_ownedBy id stored.tags, ownerOf_ownedBy id stored.tags⟩
  | bucket stored => exact ⟨ownerOf_ownedBy id stored.tags, ownerOf_ownedBy id stored.tags⟩
  | table stored => exact ⟨ownerOf_ownedBy id stored.tags, ownerOf_ownedBy id stored.tags⟩

@[elab_as_elim]
theorem findObject_kind {key : Key} {holds : Option Object → Prop} (missing : holds none)
    (stored : ∀ object, object.key.kind = key.kind → holds (some object)) :
    holds (findObject objects key) := by
  cases found : findObject objects key with
  | none => exact missing
  | some object => exact stored object (congrArg Key.kind (findObject_mem found).2)

section Named

variable (owner : InfrastructureOwner) (objects : List Object) (name : String)

theorem findQueueByName_eq :
    (findQueueByName owner objects name).map queue =
      findObject objects (keyOfOwned owner .queues name) := by
  unfold findQueueByName
  refine findObject_kind rfl fun object kind => ?_
  cases object <;> first | rfl | cases kind

theorem findTopicByName_eq :
    (findTopicByName owner objects name).map topic =
      findObject objects (keyOfOwned owner .topics name) := by
  unfold findTopicByName
  refine findObject_kind rfl fun object kind => ?_
  cases object <;> first | rfl | cases kind

theorem findBucketByName_eq :
    (findBucketByName owner objects name).map bucket =
      findObject objects (keyOfOwned owner .buckets name) := by
  unfold findBucketByName
  refine findObject_kind rfl fun object kind => ?_
  cases object <;> first | rfl | cases kind

theorem findTable_eq :
    (findTable owner objects name).map table =
      findObject objects (keyOfOwned owner .tables name) := by
  unfold findTable
  refine findObject_kind rfl fun object kind => ?_
  cases object <;> first | rfl | cases kind

theorem findRouteByRouteId_eq :
    (findRouteByRouteId owner objects name).map route =
      findObject objects (keyOfOwned owner .routes name) := by
  unfold findRouteByRouteId
  refine findObject_kind rfl fun object kind => ?_
  cases object <;> first | rfl | cases kind

end Named

theorem claimOn_found (ownerTag : Option String) (id : String) : claimOn true ownerTag id =
    if ownerTag.getD "" = "" then .adopt else if ownerTag.getD "" = id then .mine else .clash := by
  simp [claimOn]

theorem decideOn_ok {exists_ : Bool} {ownerTag : Option String} {claim : Claim}
    (decided : decideOn owner res exists_ ownerTag = .ok claim) :
    claim = claimOn exists_ ownerTag owner.id ∧ claim ≠ .clash := by
  unfold decideOn at decided
  split at decided
  · cases decided
  · rename_i open_
    have own := Except.ok.inj decided
    subst own
    exact ⟨rfl, open_⟩

/-- A claim for which an object is stored, whether or not its settings change. A route is left where
it sends. -/
def isStored (kind : Kind) (claim : Claim) : Bool :=
  if kind = .routes then decide (claim = .create) else decide (claim ≠ .mine)

/-- What a proposal for an entry says, from the object that is found and the ERN of the dead letter
queue. -/
structure Proposes (outside : Surroundings) (owner : InfrastructureOwner) (res : Resource)
    (objects : List Object) (deadLetterQueueErn : String) (fresh : Object) (proposal : Proposal) :
    Prop where
  new : newObject outside owner res = some fresh
  claim : proposal.claim = claimOn (findObject objects (res.key owner)).isSome
    ((findObject objects (res.key owner)).getD fresh).ownerTag owner.id
  open_ : proposal.claim ≠ .clash
  named : proposal.ern = (((findObject objects (res.key owner)).getD fresh).ern) ∨
    proposal.ern = (res.key owner).ern outside.region
  changes : proposal.changes = if (findObject objects (res.key owner)).isSome then
    (((findObject objects (res.key owner)).getD fresh).apply res.settings
      deadLetterQueueErn).2 else []
  write : proposal.write =
    if isStored res.kind proposal.claim ∨
        (((findObject objects (res.key owner)).getD fresh).apply res.settings
          deadLetterQueueErn).2 ≠ [] then
      some ((((findObject objects (res.key owner)).getD fresh).apply res.settings
        deadLetterQueueErn).1.own owner.id)
    else none
  problem : res.kind ≠ .routes → proposal.problem = none
  application : res.kind = .routes → owner.isPlatform = false
  keyed : ∀ table, findObject objects (res.key owner) = some (.table table) →
    some table.partitionKey = keyOf res.settings "partitionKey" "partitionKeyType" ∧
      table.sortKey = keyOf res.settings "sortKey" "sortKeyType"

variable {proposal : Proposal} {deadLetterQueueErn : String}

theorem proposeTagged_ok {found : Option Object} {fresh : Object}
    (proposed : proposeTagged owner res found.isSome ern
      ((found.getD fresh).apply res.settings deadLetterQueueErn).1
      ((found.getD fresh).apply res.settings deadLetterQueueErn).2 = .ok proposal) :
    proposal.claim = claimOn found.isSome (found.getD fresh).ownerTag owner.id ∧
      proposal.claim ≠ .clash ∧ proposal.ern = ern ∧
      proposal.changes = (if found.isSome then
        ((found.getD fresh).apply res.settings deadLetterQueueErn).2 else []) ∧
      proposal.write = (if proposal.claim ≠ .mine ∨
          ((found.getD fresh).apply res.settings deadLetterQueueErn).2 ≠ [] then
        some (((found.getD fresh).apply res.settings deadLetterQueueErn).1.own owner.id)
        else none) ∧ proposal.problem = none := by
  unfold proposeTagged at proposed
  cases decided : decideOn owner res found.isSome
    ((found.getD fresh).apply res.settings deadLetterQueueErn).1.ownerTag with
  | error => rw [decided] at proposed; cases proposed
  | ok claim =>
    rw [decided] at proposed
    have own := Except.ok.inj proposed
    subst own
    obtain ⟨own, open_⟩ := decideOn_ok decided
    rw [(apply_keeps _ _ _).2.2.1] at own
    exact ⟨own, open_, rfl, rfl, rfl, rfl⟩

section Stored

variable {Stored : Type} {wrap : Stored → Object} {stored : Option Stored}

theorem found_getD {key : Key} (found : stored.map wrap = findObject objects key) {blank : Stored} :
    (findObject objects key).getD (wrap blank) = wrap (stored.getD blank) ∧
      (findObject objects key).isSome = stored.isSome := by
  rw [← found]
  exact ⟨getD_map .., isSome_map ..⟩

theorem proposes_of_tagged {blank : Stored}
    (found : stored.map wrap = findObject objects (res.key owner))
    (new : newObject outside owner res = some (wrap blank)) (tagged : res.kind ≠ .routes)
    (named : ern = ((wrap (stored.getD blank)).apply res.settings deadLetterQueueErn).1.ern ∨
      ern = (res.key owner).ern outside.region)
    (keyed : res.kind = .tables → ∀ table, stored.map wrap = some (.table table) →
      some table.partitionKey = keyOf res.settings "partitionKey" "partitionKeyType" ∧
        table.sortKey = keyOf res.settings "sortKey" "sortKeyType")
    (proposed : proposeTagged owner res stored.isSome ern
      ((wrap (stored.getD blank)).apply res.settings deadLetterQueueErn).1
      ((wrap (stored.getD blank)).apply res.settings deadLetterQueueErn).2 = .ok proposal) :
    Proposes outside owner res objects deadLetterQueueErn (wrap blank) proposal := by
  obtain ⟨start, isFound⟩ := found_getD found
  rw [← start, ← isFound] at proposed
  rw [← start, (apply_keeps _ _ _).2.1] at named
  rw [found] at keyed
  obtain ⟨claim, open_, ernIs, changes, write, problem⟩ := proposeTagged_ok proposed
  exact ⟨new, claim, open_, by rw [ernIs]; exact named, changes,
    by simpa [isStored, tagged] using write, fun _ => problem, fun route => absurd route tagged,
    fun table own => keyed (congrArg Key.kind (findObject_mem own).2).symm table own⟩

end Stored

/-- The ERN of the dead letter queue an entry names, or nothing. -/
def deadLetterQueueOf (outside : Surroundings) (owner : InfrastructureOwner)
    (decl : Declaration) (objects : List Object) (res : Resource) : String :=
  match resolveDeadLetterQueue outside owner decl res objects with
  | .ok ern => ern
  | .error _ => ""

variable {decl : Declaration}

theorem propose_resolved
    (proposed : propose outside owner decl res objects = .ok proposal) :
    ∃ fresh, Proposes outside owner res objects
      (deadLetterQueueOf outside owner decl objects res) fresh proposal := by
  unfold propose at proposed
  have key : ∀ kind, res.kind = kind →
      keyOfOwned owner kind res.name = res.key owner := fun kind own => by
    unfold Resource.key
    rw [own]
  cases kind : res.kind with
  | queues =>
    rw [kind] at proposed
    have found := findQueueByName_eq owner objects res.name
    rw [key _ kind] at found
    change proposeQueue outside owner decl res objects = .ok proposal at proposed
    unfold proposeQueue at proposed
    split at proposed
    · cases proposed
    · rename_i deadLetterQueueErn resolved
      rw [deadLetterQueueOf, resolved]
      exact ⟨_, proposes_of_tagged found (by rw [newObject, kind]) (by rw [kind]; decide) (.inl rfl)
        (fun table => by rw [kind] at table; cases table) proposed⟩
  | topics =>
    rw [kind] at proposed
    have found := findTopicByName_eq owner objects res.name
    rw [key _ kind] at found
    exact ⟨_, proposes_of_tagged found (by rw [newObject, kind]) (by rw [kind]; decide) (.inl rfl)
      (fun table => by rw [kind] at table; cases table) proposed⟩
  | buckets =>
    rw [kind] at proposed
    have found := findBucketByName_eq owner objects res.name
    rw [key _ kind] at found
    exact ⟨_, proposes_of_tagged found (by rw [newObject, kind]) (by rw [kind]; decide) (.inl rfl)
      (fun table => by rw [kind] at table; cases table) proposed⟩
  | tables =>
    rw [kind] at proposed
    have found := findTable_eq owner objects res.name
    rw [key _ kind] at found
    change proposeTable outside owner res objects = .ok proposal at proposed
    unfold proposeTable at proposed
    dsimp only at proposed
    rw [key _ kind] at proposed
    split at proposed
    · cases proposed
    · rename_i unchanged
      refine ⟨_,
        proposes_of_tagged found (by rw [newObject, kind]) (by rw [kind]; decide) (.inr rfl)
        (fun _ table own => ?_) proposed⟩
      obtain ⟨same, stored, is⟩ := map_eq_some_iff.mp own
      cases is
      rw [stored] at unchanged
      simpa [Option.filter] using unchanged
  | routes =>
    rw [kind] at proposed
    have found := findRouteByRouteId_eq owner objects res.name
    rw [key _ kind] at found
    change proposeRoute outside owner res objects = .ok proposal at proposed
    unfold proposeRoute at proposed
    split at proposed
    · cases proposed
    · rename_i app
      dsimp only at proposed
      cases decided : decideOn owner res (findRouteByRouteId owner objects res.name).isSome
        ((findRouteByRouteId owner objects res.name).map Route.target) with
      | error => rw [decided] at proposed; cases proposed
      | ok claim =>
        rw [decided] at proposed
        obtain rfl := Except.ok.inj proposed
        obtain ⟨own, open_⟩ := decideOn_ok decided
        obtain ⟨start, isFound⟩ := found_getD found
        refine ⟨.route (newRoute outside owner res.name), by rw [newObject, kind], ?_, open_,
          .inr (by rw [key _ kind]),
            by rw [start, isFound]; rfl, ?_, fun other => absurd kind other,
          fun _ => by simpa using app, fun _ other => ?_⟩
        · rw [start, isFound, own]
          cases findRouteByRouteId owner objects res.name <;> rfl
        · rw [start, kind]
          dsimp only [isStored, if_true, Object.apply, Object.own]
          simp
        · cases (congrArg Key.kind (findObject_mem other).2).trans kind
  | secrets =>
    rw [kind] at proposed
    cases proposed

/-! ### Routes alone -/

theorem findRouteByRouteId_routesOf (name : String) :
    Eag.findRouteByRouteId (routesOf objects) owner.accountId owner.nameSpace name =
      findRouteByRouteId owner objects name := by
  unfold Eag.findRouteByRouteId findRouteByRouteId findObject routesOf
  induction objects with
  | nil => rfl
  | cons object rest ih =>
    cases object with
    | route route =>
      have same : (route.key = (owner.accountId, owner.nameSpace, name)) ↔
          (Object.route route).key = keyOfOwned owner .routes name := by
        simp [Object.key, keyOfOwned, Object.kind, Object.accountId, Object.nameSpace, Object.name,
          Route.key]
      show (route :: filterMap _ rest).find? _ = _
      by_cases own : route.key = (owner.accountId, owner.nameSpace, name)
      · rw [find?_cons_of_pos (by simpa using own), find?_cons_of_pos (by simpa using same.mp own)]
      · rw [find?_cons_of_neg (by simpa using own),
          find?_cons_of_neg (by simpa using fun other => own (same.mpr other))]
        exact ih
    | _ =>
      rw [find?_cons_of_neg (by simp [Object.key, keyOfOwned, Object.kind])]
      exact ih

/-- What the gateway's routes alone make of a declared route is what is proposed for it here. -/
theorem ensureOwnedRoute_eq_proposeRoute (kind : res.kind = .routes) (gateway : Eag.Surroundings)
    (here : gateway.region = outside.region) (options : ApplyOptions)
    (plan : Eag.InfrastructurePlan) :
    Eag.ensureOwnedRoute gateway options owner ⟨res.name, res.settings⟩ plan (routesOf objects) =
      match proposeRoute outside owner res objects with
      | .error error => (none, { plan with error }, routesOf objects)
      | .ok proposal =>
        let plan := { plan with
          created :=
            if proposal.claim = .create then plan.created ++ [proposal.ern] else plan.created
          adopted :=
            if proposal.claim = .adopt then plan.adopted ++ [proposal.ern] else plan.adopted
          updated :=
            if proposal.changes ≠ [] then plan.updated ++ [(proposal.ern, proposal.changes)]
            else plan.updated }
        match proposal.problem, proposal.write.filter fun _ => options.dryRun = false with
        | some error, _ => (none, { plan with error }, routesOf objects)
        | none, some (.route own) =>
          (some proposal.ern, plan, (Eag.upsertRoute (routesOf objects) own).2)
        | none, _ => (some proposal.ern, plan, routesOf objects) := by
  have ern : createErn gateway.region "eag" owner.accountId owner.nameSpace ("route:" ++ res.name) =
      (keyOfOwned owner .routes res.name).ern outside.region := by
    rw [here]
    rfl
  have start : ∀ found, Eag.startOf gateway owner res.name found =
      found.getD (newRoute outside owner res.name) := by
    intro found
    unfold Eag.startOf newRoute
    rw [ern]
  unfold Eag.ensureOwnedRoute proposeRoute decideOn
  dsimp only
  rw [findRouteByRouteId_routesOf, start, ern, kind]
  split
  · rfl
  generalize (findRouteByRouteId owner objects res.name).getD
    (newRoute outside owner res.name) = own
  have changed : ∀ (entries : List (String × List String)) (changes : List String),
      (if (findRouteByRouteId owner objects res.name).isSome ∧ changes ≠ [] then
        entries ++ [((keyOfOwned owner .routes res.name).ern outside.region, changes)]
      else entries) =
      if (if (findRouteByRouteId owner objects res.name).isSome then changes else []) ≠ [] then
        entries ++ [((keyOfOwned owner .routes res.name).ern outside.region,
          if (findRouteByRouteId owner objects res.name).isSome then changes else [])]
      else entries := by
    intro entries changes
    cases (findRouteByRouteId owner objects res.name).isSome <;> simp
  cases claimOn (findRouteByRouteId owner objects res.name).isSome
    ((findRouteByRouteId owner objects res.name).map Route.target) owner.id with
  | clash => rfl
  | _ =>
    dsimp only [Except.map]
    rw [← changed]
    cases Eag.overlapped (routesOf objects) owner (Eag.applySettings res.settings own).1 with
    | some other => rfl
    | none =>
      by_cases same : (Eag.applySettings res.settings own).2 = [] <;>
        cases options.dryRun <;> simp [same, Option.filter]

theorem propose_ok
    (proposed : propose outside owner decl res objects = .ok proposal) :
    ∃ deadLetterQueueErn fresh,
      Proposes outside owner res objects deadLetterQueueErn fresh proposal :=
  ⟨_, propose_resolved proposed⟩

namespace Proposes

variable {deadLetterQueueErn : String} {fresh : Object} {proposal : Proposal}
  (proposes : Proposes outside owner res objects deadLetterQueueErn fresh proposal)

include proposes

theorem start_key : ((findObject objects (res.key owner)).getD fresh).key = res.key owner := by
  cases found : findObject objects (res.key owner) with
  | none => exact (newObject_key proposes.new).1
  | some object => exact (findObject_mem found).2

theorem start_ern (sound : Sound outside.region objects) :
    ((findObject objects (res.key owner)).getD fresh).ern = (res.key owner).ern outside.region := by
  cases found : findObject objects (res.key owner) with
  | none => exact (newObject_key proposes.new).2
  | some object =>
    obtain ⟨mem, key⟩ := findObject_mem found
    rw [getD_some, sound.addressed object mem, key]

theorem ern_eq (sound : Sound outside.region objects) :
    proposal.ern = (res.key owner).ern outside.region := by
  rcases proposes.named with stored | computed
  · rw [stored, proposes.start_ern sound]
  · exact computed

theorem created_iff : proposal.claim = .create ↔ findObject objects (res.key owner) = none := by
  rw [proposes.claim]
  cases findObject objects (res.key owner) with
  | none => simp [claimOn]
  | some object =>
    rw [isSome_some, claimOn_found]
    split_ifs <;> simp

theorem adopted (adopt : proposal.claim = .adopt) : ∃ object,
    findObject objects (res.key owner) = some object ∧ object.ownerTag.getD "" = "" := by
  rw [proposes.claim] at adopt
  cases found : findObject objects (res.key owner) with
  | none => rw [found] at adopt; simp [claimOn] at adopt
  | some object =>
    rw [found, isSome_some, getD_some, claimOn_found] at adopt
    refine ⟨object, rfl, ?_⟩
    by_contra somebody
    rw [if_neg somebody] at adopt
    split at adopt <;> cases adopt

theorem mine (id : owner.id ≠ "") (create : proposal.claim ≠ .create)
    (adopt : proposal.claim ≠ .adopt) :
    ∃ object, findObject objects (res.key owner) = some object ∧
      object.ownerTag = some owner.id := by
  have is := proposes.claim
  cases found : findObject objects (res.key owner) with
  | none => exact absurd (proposes.created_iff.mpr found) create
  | some object =>
    rw [found, isSome_some, getD_some, claimOn_found] at is
    refine ⟨object, rfl, ?_⟩
    split_ifs at is with nobody own
    · exact absurd is adopt
    · cases tag : object.ownerTag with
      | none => rw [tag] at own; exact absurd own.symm id
      | some text => rw [tag] at own; exact congrArg some own
    · exact absurd is proposes.open_

/-- Where nothing is stored, the object is the owner's already and nothing changes. -/
theorem unwritten (silent : proposal.write = none) :
    isStored res.kind proposal.claim = false ∧
      (((findObject objects (res.key owner)).getD fresh).apply res.settings
        deadLetterQueueErn).2 = [] := by
  have write := proposes.write
  rw [silent] at write
  split at write
  · cases write
  · rename_i kept
    push Not at kept
    exact ⟨by simpa using kept.1, kept.2⟩

/-- What is stored is at the entry's key, and its owner's unless it is a route that sends
nowhere. -/
theorem stored (write : proposal.write = some object) :
    object.key = res.key owner ∧
      object.ern = ((findObject objects (res.key owner)).getD fresh).ern ∧
      (res.kind ≠ .routes → object.ownerTag = some owner.id ∧ object.remnantTag = some owner.id) ∧
      (res.kind = .routes →
        object.ownerTag = ((findObject objects (res.key owner)).getD fresh).ownerTag ∧
        object.remnantTag = ((findObject objects (res.key owner)).getD fresh).remnantTag) := by
  have is := proposes.write
  rw [write] at is
  split at is
  · have own := some.inj is
    obtain ⟨key, ern, ownerTag, remnantTag⟩ := apply_keeps res.settings
      deadLetterQueueErn ((findObject objects (res.key owner)).getD fresh)
    have atKey := proposes.start_key
    have kind : (((findObject objects (res.key owner)).getD fresh).apply res.settings
        deadLetterQueueErn).1.kind = res.kind := by
      have kinds := congrArg Key.kind (key.trans atKey)
      exact kinds
    subst own
    refine ⟨by rw [own_keeps.1, key, atKey], by rw [own_keeps.2, ern],
      fun tagged => own_tagged (by rw [kind]; exact tagged), fun route => ?_⟩
    rw [← ownerTag, ← remnantTag]
    rw [route] at kind
    generalize (((findObject objects (res.key owner)).getD fresh).apply res.settings
      deadLetterQueueErn).1 = applied at kind ⊢
    cases applied with
    | route => exact ⟨rfl, rfl⟩
    | queue => cases kind
    | topic => cases kind
    | bucket => cases kind
    | table => cases kind
  · cases is

theorem fresh_owned (route : res.kind = .routes) :
    fresh.ownerTag = some owner.id ∧ fresh.remnantTag = some owner.id := by
  have new := proposes.new
  unfold newObject at new
  rw [route] at new
  cases new
  exact ⟨rfl, rfl⟩

end Proposes

end Entries

/-! ### One turn of the loop over what is created -/

inductive Turn (outside : Surroundings) (options : ApplyOptions) (owner : InfrastructureOwner)
    (decl : Declaration) (res : Resource) (progress : Progress) : Progress → Prop where
  | refused {error : String}
    (proposed : propose outside owner decl res progress.objects = .error error) :
    Turn outside options owner decl res progress (progress.fail error)
  | stopped {proposal : Proposal} {error : String}
    (proposed : propose outside owner decl res progress.objects = .ok proposal)
    (reason : proposal.problem = some error ∨ proposal.problem = none ∧ options.dryRun = false ∧
      ∃ object ∈ proposal.write, upsertObject progress.objects object = none) :
    Turn outside options owner decl res progress ((progress.report proposal).fail error)
  | kept {proposal : Proposal}
    (proposed : propose outside owner decl res progress.objects = .ok proposal)
    (clear : proposal.problem = none) (unwritten : proposal.write = none ∨ options.dryRun) :
    Turn outside options owner decl res progress
      ((progress.report proposal).own res.kind proposal.ern)
  | stored {proposal : Proposal} {object : Object} {objects : List Object}
    (proposed : propose outside owner decl res progress.objects = .ok proposal)
    (clear : proposal.problem = none) (real : options.dryRun = false)
    (write : proposal.write = some object)
    (upserted : upsertObject progress.objects object = some objects) :
    Turn outside options owner decl res progress
      { (progress.report proposal).own res.kind proposal.ern with objects }

section

variable (outside : Surroundings) (options : ApplyOptions) (owner : InfrastructureOwner)

theorem ensureOwnedResource_turn (decl : Declaration) (res : Resource) (progress : Progress) :
    Turn outside options owner decl res progress
      (ensureOwnedResource outside options owner decl res progress) := by
  unfold ensureOwnedResource
  split
  · rename_i error proposed
    exact .refused proposed
  · rename_i proposal proposed
    dsimp only
    split
    · rename_i problem own
      exact .stopped proposed (.inl own)
    · rename_i clear unwritten
      refine .kept proposed clear ?_
      cases written : proposal.write with
      | none => exact .inl rfl
      | some object =>
        rw [written] at unwritten
        exact .inr (by simpa [Option.filter] using unwritten)
    · rename_i object clear written
      obtain ⟨write, real⟩ := filter_eq_some_iff.mp written
      have real : options.dryRun = false := of_decide_eq_true real
      split
      · rename_i refused
        exact .stopped proposed (.inr ⟨clear, real, object, write, refused⟩)
      · rename_i objects upserted
        exact .stored proposed clear real write upserted

/-! ### One turn of the loop over what may no longer be declared -/

inductive PruneTurn (outside : Surroundings) (options : ApplyOptions)
    (owner : InfrastructureOwner) (ern : String) (plan : InfrastructurePlan)
    (objects : List Object) : InfrastructurePlan × List Object → Prop where
  | passed
    (reason : ern ∈ plan.owned ∨ ∀ object, objectOfErn objects ern = some object →
      mayRemove object.remnantTag owner.id (decide (ern ∈ owner.recorded)) = false) :
    PruneTurn outside options owner ern plan objects (plan, objects)
  | kept {object : Object} {reason : String} (unowned : ern ∉ plan.owned)
    (found : objectOfErn objects ern = some object)
    (mine : mayRemove object.remnantTag owner.id (decide (ern ∈ owner.recorded)))
    (held : options.prune = false ∧ reason = "no longer declared, and pruning is off" ∨
      object.holds outside.contents ≠ "" ∧
        reason = "no longer declared, but " ++ object.holds outside.contents) :
    PruneTurn outside options owner ern plan objects (plan.keep ern reason, objects)
  | removed {object : Object} (unowned : ern ∉ plan.owned)
    (found : objectOfErn objects ern = some object)
    (mine : mayRemove object.remnantTag owner.id (decide (ern ∈ owner.recorded)))
    (pruning : options.prune) (empty : object.holds outside.contents = "") :
    PruneTurn outside options owner ern plan objects
      ({ plan with deleted := plan.deleted ++ [ern] },
        if options.dryRun then objects else deleteOwnedResource objects ern)

theorem pruneOne_turn (ern : String) (plan : InfrastructurePlan) (objects : List Object) :
    PruneTurn outside options owner ern plan objects
      (pruneOne outside options owner ern plan objects) := by
  unfold pruneOne
  split
  · rename_i owned
    exact .passed (.inl owned)
  · rename_i unowned
    split
    · rename_i absent
      exact .passed (.inr fun object found => by rw [absent] at found; cases found)
    · rename_i object found
      split
      · rename_i others
        refine .passed (.inr fun other own => ?_)
        rw [found] at own
        cases own
        simpa using others
      · rename_i mine
        have mine : mayRemove object.remnantTag owner.id (decide (ern ∈ owner.recorded)) := by
          simpa using mine
        split
        · rename_i off
          exact .kept unowned found mine (.inl ⟨off, rfl⟩)
        · rename_i pruning
          split
          · rename_i held
            exact .kept unowned found mine (.inr ⟨held, rfl⟩)
          · rename_i empty
            exact .removed unowned found mine (by simpa using pruning) (by simpa using empty)

theorem pruneAll_cons (ern : String) (rest : List String) (plan : InfrastructurePlan)
    (objects : List Object) : pruneAll outside options owner (ern :: rest) plan objects =
      pruneAll outside options owner rest (pruneOne outside options owner ern plan objects).1
        (pruneOne outside options owner ern plan objects).2 := rfl

end

theorem Sound.objectOfErn_of_mem {objects others : List Object}
    (sound : Sound region objects)
    (found : objectOfErn others ern = some object) (there : object ∈ objects) :
    objectOfErn objects ern = some object :=
  sound.objectOfErn_iff.mpr ⟨there, (objectOfErn_spec found).2⟩

end Euclid.Eap.Infrastructure
