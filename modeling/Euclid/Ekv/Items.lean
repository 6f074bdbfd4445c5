/-
This file is the items of the key-value tables over the document store, and what a key finds.

A put writes the item it finds under its key, or a new one; a get reads the one it finds. What is
found is decided by the store's equality of values, under which two integers are one once they
become the same double. Where no stored item has such another key, the items are a map.
-/

import Euclid.Emd.UniqueIndex
import Euclid.Emm.InMemory

namespace Euclid.Ekv

open Emd Emm List Option Collection

/-- A key value of a table whose keys are strings or integers. -/
inductive Key where
  | string (text : String)
  | integer (number : Int64)
  deriving DecidableEq

def Key.value : Key → Value
  | .string text => .string text
  | .integer number => .int64 number

/-- The table of an item and its keys. -/
structure Address where
  accountId : String
  nameSpace : String
  tableName : String
  partitionKey : Key
  sortKey : Option Key
  deriving DecidableEq

open Address

structure Item where
  address : Address
  region : String
  attributes : Document
  created : Int64

def Item.toDocument (item : Item) : Document :=
  [("tableName", .string item.address.tableName), ("accountId", .string item.address.accountId),
    ("namespace", .string item.address.nameSpace), ("region", .string item.region),
    ("pk", item.address.partitionKey.value)] ++
  (item.address.sortKey.map fun key => ("sk", key.value)).toList ++
  [("item", .document item.attributes)]

def Address.keyFilter (address : Address) : Document :=
  [("accountId", .string address.accountId), ("namespace", .string address.nameSpace),
    ("tableName", .string address.tableName), ("pk", address.partitionKey.value),
    ("sk", (address.sortKey.map Key.value).getD (.document [("$exists", .bool false)]))]

/-- The collection of the items, with the index it is built on. -/
def itemCollection : Collection :=
  empty.createIndex [("accountId", .int32 1), ("namespace", .int32 1),
    ("tableName", .int32 1), ("pk", .int32 1), ("sk", .int32 1)] true

variable (env : Env)

/-- `putItem`. A put that throws leaves the collection as it was. -/
def putItem (moment : Nat) (item : Item) (target : Collection) : Collection :=
  match target.findOneAndUpdate env moment item.address.keyFilter
      [("$set", .document item.toDocument),
        ("$setOnInsert", .document [("created", .date item.created)]), stampModified] true true with
  | .ok (_, written) => written
  | .error _ => target

def attributesOf (doc : Document) : Document :=
  match doc.field "item" with
  | some (.document attributes) => attributes
  | _ => []

/-- `getItem`: the attributes of the item found, none if the store throws. -/
def getItem (address : Address) (target : Collection) : Option Document :=
  match firstMatch env address.keyFilter [] target.documents with
  | .ok (some place) => some (attributesOf place.document)
  | _ => none

def deleteItem (address : Address) (target : Collection) : Collection :=
  (target.delete env address.keyFilter true).2

inductive Op where
  | put (item : Item)
  | get (address : Address)
  | delete (address : Address)

def Op.address : Op → Address
  | .put item => item.address
  | .get address => address
  | .delete address => address

def Op.run (moment : Nat) (target : Collection) : Op → Collection
  | .put item => putItem env moment item target
  | .get _ => target
  | .delete address => deleteItem env address target

/-- The collection after operations one after another, the last one first in the list. -/
def stored : List Op → Collection
  | [] => itemCollection
  | operation :: earlier => operation.run env earlier.length (stored earlier)

/-- The attributes of the last put under a key that was not deleted since. -/
def lastPut : List Op → Address → Option Document
  | [], _ => none
  | .put item :: earlier, address =>
    if item.address = address then some item.attributes else lastPut earlier address
  | .get _ :: earlier, address => lastPut earlier address
  | .delete deleted :: earlier, address =>
    if deleted = address then none else lastPut earlier address

/-! ### What a key finds -/

/-- The store takes two key values for one. -/
def Key.same (left right : Key) : Bool := left.value.equals right.value

/-- The store finds the item of one address under another. -/
def Address.finds (item address : Address) : Bool :=
  decide (item.accountId = address.accountId) && (decide (item.nameSpace = address.nameSpace) &&
    (decide (item.tableName = address.tableName) && (item.partitionKey.same address.partitionKey &&
      match item.sortKey, address.sortKey with
      | some left, some right => left.same right
      | none, none => true
      | _, _ => false)))

/-- No item is stored under another address that the store takes for this one. -/
def Apart (items : Address → Option Document) (address : Address) : Prop :=
  ∀ other, items other ≠ none → other.finds address → other = address

/-- Every operation is made under an address apart from those stored before it. -/
def EachApart : List Op → Prop
  | [] => True
  | operation :: earlier => Apart (lastPut earlier) operation.address ∧ EachApart earlier

theorem Key.same_comm (left right : Key) : left.same right = right.same left :=
  Value.equals_comm _ _

theorem Key.same_self (key : Key) : key.same key = true := by
  cases key with
  | string text => exact (string_equals text text).trans (decide_eq_true rfl)
  | integer number =>
    unfold Key.same Value.equals Value.compare Value.sign
    simp [Key.value, Value.isNumeric, Value.rank, Binary64.below]

theorem Address.finds_self (address : Address) : address.finds address = true := by
  unfold finds
  cases address.sortKey <;> simp [Key.same_self]

theorem Address.finds_comm (left right : Address) : left.finds right = right.finds left := by
  have texts (first second : String) : decide (first = second) = decide (second = first) :=
    decide_eq_decide.mpr eq_comm
  unfold finds
  rw [Key.same_comm, texts left.accountId, texts left.nameSpace, texts left.tableName]
  cases left.sortKey <;> cases right.sortKey <;> simp only [Key.same_comm]

structure Holds (address : Address) (attributes doc : Document) : Prop where
  distinct : doc.Distinct
  accountId : doc.field "accountId" = some (.string address.accountId)
  nameSpace : doc.field "namespace" = some (.string address.nameSpace)
  tableName : doc.field "tableName" = some (.string address.tableName)
  partitionKey : doc.field "pk" = some address.partitionKey.value
  sortKey : doc.field "sk" = address.sortKey.map Key.value
  item : doc.field "item" = some (.document attributes)

variable {env} {address other : Address} {attributes doc : Document}

theorem Key.isScalar (key : Key) : key.value.IsScalar := by cases key <;> trivial

theorem matches_field {name : String} {value held : Value} (scalar : value.IsScalar)
    (plain : beginsWith "$" name = false) (topLevel : pathParts name = [name])
    (found : doc.field name = some held) :
    matchesEntry env doc (name, value) = .ok (held.equals value) := by
  rw [matchesEntry_of_scalar env scalar plain topLevel, found]
  rfl

variable (env) in
theorem Holds.matches_sortKey (holds : Holds address attributes doc) (other : Address) :
    matchesEntry env doc ("sk",
      (other.sortKey.map Key.value).getD (.document [("$exists", .bool false)])) =
      .ok (match address.sortKey, other.sortKey with
        | some left, some right => left.same right
        | none, none => true
        | _, _ => false) := by
  have path : pathParts "sk" = ["sk"] := by decide
  have field := holds.sortKey
  cases asked : other.sortKey with
  | some key =>
    rw [map_some, getD_some,
      matchesEntry_of_scalar env key.isScalar (by decide) path, field]
    cases address.sortKey <;> rfl
  | none =>
    have plain : ¬("sk" = "$and" ∨ "sk" = "$or" ∨ "sk" = "$nor") := by decide
    rw [map_none, getD_none, matchesEntry, if_neg plain]
    unfold valuesAt
    rw [path, resolve, field]
    cases address.sortKey <;> rfl

variable (env) in
/-- An item is found under an address exactly if the store takes its own for it. -/
theorem Holds.matches_keyFilter (holds : Holds address attributes doc) (other : Address) :
    matchesFilter env doc other.keyFilter = .ok (address.finds other) := by
  have partition : matchesEntry env doc ("pk", other.partitionKey.value) =
      .ok (address.partitionKey.same other.partitionKey) :=
    matches_field (Key.isScalar _) (by decide) (by decide) holds.partitionKey
  unfold Address.keyFilter Address.finds
  rw [matchesFilter, matches_field (by trivial) (by decide) (by decide) holds.accountId,
    string_equals]
  cases decide (address.accountId = other.accountId)
  · rfl
  rw [matchesFilter, matches_field (by trivial) (by decide) (by decide) holds.nameSpace,
    string_equals]
  cases decide (address.nameSpace = other.nameSpace)
  · rfl
  rw [matchesFilter, matches_field (by trivial) (by decide) (by decide) holds.tableName,
    string_equals]
  cases decide (address.tableName = other.tableName)
  · rfl
  rw [matchesFilter, partition]
  cases address.partitionKey.same other.partitionKey
  · rfl
  rw [matchesFilter, holds.matches_sortKey env]
  cases address.sortKey <;> cases other.sortKey <;> try rfl
  dsimp only
  cases Key.same _ _ <;> rfl

variable (env) in
/-- What a put leaves of a document that has a sort key only if the item has one. -/
theorem applyUpdate_holds (moment : Nat) (item : Item) (inserting : Bool) (filter : Document)
    (distinct : doc.Distinct) (unsorted : item.address.sortKey = none → doc.field "sk" = none) :
    ∃ written, applyUpdate env moment doc
      [("$set", .document item.toDocument),
        ("$setOnInsert", .document [("created", .date item.created)]), stampModified] inserting
      filter = .ok written ∧ Holds item.address item.attributes written := by
  have plain : ∀ name ∈ item.toDocument.map Prod.fst, '.' ∉ name.toList := by
    unfold Item.toDocument
    cases item.address.sortKey with
    | none => exact (by decide : ∀ name ∈
        ["tableName", "accountId", "namespace", "region", "pk", "item"], '.' ∉ name.toList)
    | some key => exact (by decide : ∀ name ∈
        ["tableName", "accountId", "namespace", "region", "pk", "sk", "item"], '.' ∉ name.toList)
  obtain ⟨first, setFields, distinctFirst, heldFirst⟩ := foldlM_plain env doc filter
    item.toDocument plain (distinct_fields doc)
  obtain ⟨second, inserted, distinctSecond, sameSecond⟩ := applyStage_setOnInsert env moment
    doc filter inserting distinctFirst (.date item.created)
  obtain ⟨written, stamped, distinctWritten, sameWritten⟩ := stampModified_ok env doc filter
    moment inserting distinctSecond
  have held : ∀ name, name ≠ "created" → name ≠ "modified" → written.field name =
      (Document.field item.toDocument.reverse name).or (doc.field name) := by
    intro name notCreated notModified
    rw [sameWritten name notModified, sameSecond name notCreated, heldFirst, field_fields distinct]
  refine ⟨written, ?_, distinctWritten, ?_, ?_, ?_, ?_, ?_, ?_⟩
  · unfold applyUpdate
    simp only [foldlM_cons, foldlM_nil, applyStage_set, setFields, inserted, stamped,
      bind, Except.bind, pure, Except.pure]
  all_goals
    rw [held _ (by decide) (by decide)]
    unfold Item.toDocument
    cases sorted : item.address.sortKey <;> simp [field_cons, unsorted, sorted]
  rfl

/-! ### The items of a collection -/

/-- A collection holds items, each in a document, and finds none of them under another's address. -/
structure Sound (items : List (Address × Document)) (target : Collection) : Prop where
  holds : List.Forall₂ (fun item doc => Holds item.1 item.2 doc) items target.documents
  apart : items.Pairwise fun first second => first.1.finds second.1 = false
  keys : target.uniqueKeys = [["accountId", "namespace", "tableName", "pk", "sk"]]

def lookup (items : List (Address × Document)) (address : Address) : Option Document :=
  (items.find? fun item => item.1 = address).map Prod.snd

variable {items : List (Address × Document)} {target : Collection}

variable (env) in
/-- The item that the store finds is the one of the address, if no other is found under it. -/
theorem firstMatch_holds {docs : List Document}
    (holds : Forall₂ (fun item doc => Holds item.1 item.2 doc) items docs)
    (apart : ∀ item ∈ items, item.1.finds address → item.1 = address) (before : List Document) :
    (lookup items address = none ∧ (∀ item ∈ items, item.1.finds address = false) ∧
        firstMatch env address.keyFilter before docs = .ok none) ∨
      ∃ earlier attributes later former doc latter,
        items = earlier ++ (address, attributes) :: later ∧ docs = former ++ doc :: latter ∧
        Forall₂ (fun item doc => Holds item.1 item.2 doc) earlier former ∧
        Holds address attributes doc ∧
        Forall₂ (fun item doc => Holds item.1 item.2 doc) later latter ∧
        lookup items address = some attributes ∧
        firstMatch env address.keyFilter before docs =
          .ok (some ⟨before ++ former, doc, latter⟩) := by
  induction holds generalizing before with
  | nil => exact .inl ⟨rfl, nofun, rfl⟩
  | @cons item doc items docs first rest ih =>
    obtain ⟨own, attributes⟩ := item
    have matched := first.matches_keyFilter env address
    unfold firstMatch lookup
    rw [matched, List.find?_cons]
    cases found : own.finds address with
    | true =>
      obtain rfl := apart _ (.head _) found
      refine .inr ⟨[], attributes, items, [], doc, docs, rfl, rfl, .nil, first, rest, ?_, ?_⟩
      · simp
      · rw [append_nil]
    | false =>
      have other : own ≠ address := fun same => by
        rw [same, finds_self] at found
        cases found
      rw [decide_eq_false other]
      rcases ih (fun item mem => apart item (.tail _ mem))
        (before ++ [doc]) with ⟨unknown, none, missed⟩ |
        ⟨earlier, held, later, former, here, latter, split, split', front, is, back, known, placed⟩
      · exact .inl ⟨unknown, forall_mem_cons.mpr ⟨found, none⟩, missed⟩
      · refine .inr ⟨(own, attributes) :: earlier, held, later, doc :: former, here, latter,
          by rw [split]; rfl, by rw [split']; rfl, .cons first front, is, back, known, ?_⟩
        rw [placed, append_assoc]
        rfl

theorem checkUnique_holds {others : List Document}
    (holds : Forall₂ (fun item doc => Holds item.1 item.2 doc) items others)
    (none : ∀ item ∈ items, item.1.finds address = false) (own : Holds address attributes doc) :
    checkUnique env others doc [["accountId", "namespace", "tableName", "pk", "sk"]] = .ok () := by
  have values : ∀ name, pathParts name = [name] → valuesAt doc name = (doc.field name).toList := by
    intro name path
    rw [valuesAt, path, resolve]
  have filter : keyFilter doc ["accountId", "namespace", "tableName", "pk", "sk"] =
      address.sortKey.map fun _ => address.keyFilter := by
    unfold Emd.keyFilter Address.keyFilter
    rw [values _ (by decide), own.accountId]
    simp only [Emd.keyFilter, values _ (by decide : pathParts "namespace" = ["namespace"]),
      values _ (by decide : pathParts "tableName" = ["tableName"]),
      values _ (by decide : pathParts "pk" = ["pk"]),
        values _ (by decide : pathParts "sk" = ["sk"]),
      own.nameSpace, own.tableName, own.partitionKey, own.sortKey]
    cases address.sortKey <;> rfl
  unfold checkUnique
  rw [filter]
  cases address.sortKey with
  | none => rfl
  | some key =>
    have unique : checkKey env ["accountId", "namespace", "tableName", "pk", "sk"] address.keyFilter
        others = .ok () := by
      clear filter values own
      induction holds with
      | nil => rfl
      | cons first rest ih =>
        rw [checkKey, first.matches_keyFilter env, none _ (.head _)]
        exact ih fun item mem => none item (.tail _ mem)
    dsimp only [map_some]
    rw [unique]
    rfl

/-! ### Operations -/

theorem deleteEach_single (env : Env) (filter : Document) (docs before : List Document)
    (deleted : Nat) : (deleteEach env filter true before docs deleted).2 =
      match firstMatch env filter before docs with
      | .ok (some place) => place.before ++ place.after
      | _ => before ++ docs := by
  induction docs generalizing before with
  | nil => exact (append_nil before).symm
  | cons doc rest ih =>
    unfold deleteEach firstMatch
    cases matchesFilter env doc filter with
    | error fault => rfl
    | ok matched =>
      cases matched with
      | true => rfl
      | false =>
        rw [ih, append_assoc]
        rfl

theorem lookup_middle {earlier later : List (Address × Document)}
    (none : ∀ item ∈ earlier, item.1 ≠ address) (attributes : Document) (other : Address) :
    lookup (earlier ++ (address, attributes) :: later) other =
      if other = address then some attributes else lookup (earlier ++ later) other := by
  unfold lookup
  rw [List.find?_append, List.find?_append, List.find?_cons]
  by_cases same : other = address
  · subst same
    rw [List.find?_eq_none.mpr fun item mem => by simpa using none item mem]
    simp
  · rw [decide_eq_false (Ne.symm same), if_neg same]

theorem ne_of_not_finds (apart : address.finds other = false) : address ≠ other := by
  rintro rfl
  rw [finds_self] at apart
  cases apart

theorem Holds.withId (holds : Holds address attributes doc) (id : Oid) :
    Holds address attributes (withId doc id) where
  distinct := withId_distinct holds.distinct id
  accountId := (withId_field _ _ (by decide)).trans holds.accountId
  nameSpace := (withId_field _ _ (by decide)).trans holds.nameSpace
  tableName := (withId_field _ _ (by decide)).trans holds.tableName
  partitionKey := (withId_field _ _ (by decide)).trans holds.partitionKey
  sortKey := (withId_field _ _ (by decide)).trans holds.sortKey
  item := (withId_field _ _ (by decide)).trans holds.item

theorem seed_keyFilter (address : Address) : (seedFromFilter address.keyFilter).Distinct ∧
    (address.sortKey = none → Document.field (seedFromFilter address.keyFilter) "sk" = none) := by
  have distinct : address.keyFilter.Distinct :=
    (by decide : ["accountId", "namespace", "tableName", "pk", "sk"].Nodup)
  refine ⟨distinct.sublist (filter_sublist.map Prod.fst), fun unsorted => ?_⟩
  refine field_eq_none.mpr fun mem => ?_
  obtain ⟨entry, kept, name⟩ := mem_map.mp mem
  obtain ⟨among, plain⟩ := mem_filter.mp kept
  simp only [Address.keyFilter, unsorted, mem_cons, not_mem_nil, or_false] at among
  rcases among with rfl | rfl | rfl | rfl | rfl
  case inr.inr.inr.inr => exact absurd plain (by decide)
  all_goals simp at name

variable (env) in
/-- An operation under an address that no other item is found under changes what is stored there as
it should, and nothing else. -/
theorem Sound.run (sound : Sound items target) (moment : Nat) (operation : Op)
    (apart : ∀ item ∈ items, item.1.finds operation.address → item.1 = operation.address) :
    ∃ after, Sound after (operation.run env moment target) ∧ ∀ other, lookup after other =
      match operation with
      | .put item => if item.address = other then some item.attributes else lookup items other
      | .get _ => lookup items other
      | .delete address => if address = other then none else lookup items other := by
  have cases := firstMatch_holds env sound.holds apart []
  cases operation with
  | get address => exact ⟨items, sound, fun _ => rfl⟩
  | put item =>
    dsimp only [Op.run, Op.address, putItem] at *
    unfold findOneAndUpdate
    rcases cases with ⟨unknown, none, missed⟩ |
      ⟨earlier, held, later, former, here, latter, rfl, split, front, is, back, known, placed⟩
    · obtain ⟨distinct, unsorted⟩ := seed_keyFilter item.address
      obtain ⟨written, applied, holds⟩ := applyUpdate_holds env moment item true []
        distinct unsorted
      have created := holds.withId (env.freshOid moment)
      refine ⟨items ++ [(item.address, item.attributes)], ?_, fun other => ?_⟩
      · simp only [missed, bind, Except.bind, upserted, applied, create, sound.keys,
          checkUnique_holds sound.holds none created, if_true]
        refine ⟨rel_append sound.holds (.cons created .nil), ?_, sound.keys⟩
        refine pairwise_append.mpr ⟨sound.apart, pairwise_singleton _ _, ?_⟩
        intro old mem new isNew
        rw [mem_singleton.mp isNew]
        exact none old mem
      · rw [lookup_middle (fun old mem => ne_of_not_finds (none old mem)), append_nil]
        simp only [eq_comm]
    · obtain ⟨before, after, across⟩ := pairwise_append.mp sound.apart
      have alone := fun old mem => across old mem _ (.head _)
      obtain ⟨written, applied, holds⟩ := applyUpdate_holds env moment item false
        item.address.keyFilter is.distinct fun unsorted => by rw [is.sortKey, unsorted]; rfl
      have none : ∀ old ∈ earlier ++ later, old.1.finds item.address = false := by
        intro old mem
        rcases mem_append.mp mem with old' | new'
        · exact alone old old'
        · rw [finds_comm]
          exact (pairwise_cons.mp after).1 old new'
      refine ⟨earlier ++ (item.address, item.attributes) :: later, ?_, fun other => ?_⟩
      · simp only [placed, bind, Except.bind, applied, rewrite, sound.keys,
          checkUnique_holds (rel_append front back) none holds, nil_append]
        refine ⟨rel_append front (.cons holds back), ?_, sound.keys⟩
        exact pairwise_append.mpr ⟨before, pairwise_cons.mpr
          (pairwise_cons.mp after), fun old mem new isNew => by
            rcases mem_cons.mp isNew with rfl | isNew
            · exact alone old mem
            · exact across old mem new (.tail _ isNew)⟩
      · rw [lookup_middle fun old mem => ne_of_not_finds (alone old mem),
          lookup_middle fun old mem => ne_of_not_finds (alone old mem)]
        by_cases same : other = item.address
        · rw [if_pos same, if_pos same.symm]
        · rw [if_neg same, if_neg (Ne.symm same), if_neg same]
  | delete address =>
    dsimp only [Op.run, Op.address, deleteItem, delete] at *
    rcases cases with ⟨unknown, none, missed⟩ |
      ⟨earlier, held, later, former, here, latter, rfl, split, front, is, back, known, placed⟩
    · refine ⟨items, ?_, fun other => ?_⟩
      · rw [deleteEach_single, missed]
        exact sound
      · split
        · rename_i same
          rw [← same, unknown]
        · rfl
    · obtain ⟨before, after, across⟩ := pairwise_append.mp sound.apart
      have alone := fun old mem => ne_of_not_finds (across old mem _ (.head _))
      refine ⟨earlier ++ later, ?_, fun other => ?_⟩
      · rw [deleteEach_single, placed]
        exact ⟨rel_append front back, sound.apart.sublist
          ((Sublist.refl _).append (sublist_cons_self _ _)), sound.keys⟩
      · rw [lookup_middle alone]
        by_cases same : other = address
        · subst same
          rw [if_pos rfl]
          refine map_eq_none_iff.mpr (List.find?_eq_none.mpr fun old mem => ?_)
          rw [decide_eq_true_eq]
          rcases mem_append.mp mem with old' | new'
          · exact alone old old'
          · exact (ne_of_not_finds ((pairwise_cons.mp after).1 old new')).symm
        · rw [if_neg same, if_neg (Ne.symm same)]

variable (env) in
theorem stored_sound : ∀ {ops : List Op}, EachApart ops →
    ∃ items, Sound items (stored env ops) ∧ ∀ address, lookup items address = lastPut ops address
  | [], _ => ⟨[], ⟨.nil, Pairwise.nil, rfl⟩, fun _ => rfl⟩
  | operation :: earlier, ⟨apart, each⟩ => by
    obtain ⟨items, sound, same⟩ := stored_sound each
    obtain ⟨after, sound', changed⟩ := sound.run env earlier.length operation
      fun item mem found => apart item.1 (fun unknown => by
        rw [← same, lookup, map_eq_none_iff, List.find?_eq_none] at unknown
        exact unknown item mem (decide_eq_true rfl)) found
    refine ⟨after, sound', fun address => ?_⟩
    rw [changed]
    cases operation <;> simp only [lastPut, same]

/-- In every run whose operations are all made under addresses apart from those stored, a get under
such an address reads what was put there last and not deleted since. -/
theorem getItem_lastPut (ops : List Op) (address : Address)
    (each : EachApart ops) (apart : Apart (lastPut ops) address) :
    getItem env address (stored env ops) = lastPut ops address := by
  obtain ⟨items, sound, same⟩ := stored_sound env each
  have own : ∀ item ∈ items, item.1.finds address → item.1 = address :=
    fun item mem => apart item.1 fun unknown => by
      rw [← same, lookup, map_eq_none_iff, List.find?_eq_none] at unknown
      exact unknown item mem (decide_eq_true rfl)
  have found := firstMatch_holds env sound.holds own []
  unfold getItem
  rcases found with ⟨unknown, _, missed⟩ |
    ⟨_, attributes, _, _, doc, _, _, _, _, is, _, known, placed⟩
  · rw [missed, ← same, unknown]
  · rw [placed, ← same, known]
    dsimp only
    rw [attributesOf, is.item]

/-- An item of a table with integer keys. -/
def numbered (number : Int64) (text : String) : Item where
  address := ⟨"a", "n", "t", .integer number, none⟩
  region := "r"
  attributes := [("v", .string text)]
  created := 0

theorem getItem_numbered : getItem countingEnvironment (numbered 2 "").address
        (stored countingEnvironment [.put (numbered 3 "third"), .put (numbered 2 "second")]) =
      lastPut [.put (numbered 3 "third"), .put (numbered 2 "second")] (numbered 2 "").address := by
  have apart : ∀ number : Int64, ∀ items, (∀ other, items other ≠ none →
      other = (numbered 2 "").address ∨ other = (numbered 3 "").address) →
      number = 2 ∨ number = 3 → Apart items (numbered number "").address := by
    rintro number items only (rfl | rfl) other there found
    · rcases only other there with rfl | rfl
      · rfl
      · exact absurd found (by decide)
    · rcases only other there with rfl | rfl
      · exact absurd found (by decide)
      · rfl
  refine getItem_lastPut _ _ ⟨apart 3 _ ?_ (.inr rfl), apart 2 _ ?_ (.inl rfl), trivial⟩
    (apart 2 _ ?_ (.inl rfl))
  · intro other there
    unfold lastPut at there
    split at there
    · rename_i same
      exact .inl same.symm
    · exact absurd rfl there
  · exact fun other there => absurd rfl there
  · intro other there
    unfold lastPut at there
    split at there
    · rename_i same
      exact .inr same.symm
    · unfold lastPut at there
      split at there
      · rename_i same
        exact .inl same.symm
      · exact absurd rfl there

/-- The second of two integers that become one double is put over the first. -/
def neighbours : List Op :=
  [.put (numbered 9007199254740993 "second"), .put (numbered 9007199254740992 "first")]

theorem neighbours_collide : ¬∀ (ops : List Op) (address : Address),
      getItem countingEnvironment address (stored countingEnvironment ops) =
        lastPut ops address := by
  intro map
  have first := map neighbours (numbered 9007199254740992 "").address
  have second : (getItem countingEnvironment (numbered 9007199254740992 "").address
      (stored countingEnvironment neighbours)).any
        (Value.sameFields [("v", .string "second")]) = true := by decide
  rw [first] at second
  exact absurd second (by decide)

end Euclid.Ekv
