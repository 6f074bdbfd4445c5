/-
This file gives the figures a topic is stored with an account to agree with: the messages of
the topic, and their bytes.

A topic is counted by differences when a message is stored, rewritten or deleted, and started
over by a purge. What a statement does to the messages and what the next does to the topic are
two steps, so the account is drawn up over the effect of a whole operation.
-/

import Mathlib.Algebra.Group.Prod
import Euclid.Ens.Reliable

namespace Euclid.Ens

open Program Collection List
open Bus (Json Time StoreError)

/-! ### What the figures count -/

def Topic.figures (topic : Topic) : Int × Int := (topic.available, topic.size)

/-- One message of a topic, and the bytes of its body. -/
def MessageDocument.bodyWeight (ern : String) (doc : MessageDocument) : Int × Int :=
  if doc.topicErn = ern then (1, doc.body.utf8ByteSize) else 0

open MessageDocument

/-- The figures of every topic are the number and the total body size of its messages. -/
def Exact (world : World) : Prop :=
  ∀ topic ∈ world.topics,
    topic.figures = (world.messages.map (bodyWeight topic.ern)).sum

theorem sum_bodyWeight (msgs : List MessageDocument) (ern : String) :
    (msgs.map (bodyWeight ern)).sum =
      (((msgs.filter fun doc => doc.topicErn = ern).length : Int),
        ((msgs.filter fun doc => doc.topicErn = ern).map
          fun doc => (doc.body.utf8ByteSize : Int)).sum) := by
  induction msgs with
  | nil => rfl
  | cons doc rest ih =>
    rw [map_cons, sum_cons, ih, bodyWeight]
    by_cases own : doc.topicErn = ern
    · rw [if_pos own, filter_cons_of_pos (by simpa using own), length_cons,
        map_cons, sum_cons, Prod.mk_add_mk, Nat.cast_succ, add_comm]
    · rw [if_neg own, filter_cons_of_neg (by simpa using own), zero_add]

/-- The figures of every topic are what a recount would make them. -/
def Balanced (topics : List Topic) (msgs : List MessageDocument) : Prop :=
  ∀ topic ∈ topics, topic.figures = tally msgs topic.ern

/-- Every topic has the name its key spells, and no other has it. -/
structure Defined (env : Env) (topics : List Topic) : Prop where
  named : ∀ topic ∈ topics,
    topic.ern = createEnsTopicErn env topic.accountId topic.nameSpace topic.name
  erns : (topics.map Topic.ern).Nodup

/-- No two messages have the same identifier. -/
def Apart (msgs : List MessageDocument) : Prop :=
  (msgs.map messageId).Nodup

/-- Every message has an identifier of its own that has been drawn, and the size of its body. -/
structure Posted (env : Env) (moment : Nat) (msgs : List MessageDocument) :
    Prop where
  apart : Apart msgs
  drawn : ∀ doc ∈ msgs, ∃ earlier < moment, doc.messageId = env.randomUuid earlier
  sized : ∀ doc ∈ msgs, doc.size = doc.body.utf8ByteSize

/-- Every message belongs to a topic that is stored. -/
def Homed (topics : List Topic) (msgs : List MessageDocument) : Prop :=
  ∀ doc ∈ msgs, doc.topicErn ∈ topics.map Topic.ern

structure Books (env : Env) (world : World) : Prop where
  defined : Defined env world.topics
  posted : Posted env world.moment world.messages
  homed : Homed world.topics world.messages
  balanced : Balanced world.topics world.messages

section Books

variable {env : Env} {before after world : World}

theorem Books.exact (books : Books env world) : Exact world := by
  intro topic stored
  rw [books.balanced topic stored, tally]
  refine congrArg List.sum (map_congr_left fun doc mem => ?_)
  simp only [weight, bodyWeight, books.posted.sized doc mem]

variable (books : Books env before)

include books in
theorem Books.untouched (untouched : Untouched before after) : Books env after where
  defined := untouched.topics ▸ books.defined
  posted := by
    rw [untouched.messages]
    refine ⟨books.posted.apart, fun doc mem => ?_, books.posted.sized⟩
    obtain ⟨earlier, less, drawn⟩ := books.posted.drawn doc mem
    exact ⟨earlier, less.trans_le untouched.moment, drawn⟩
  homed := by
    rw [untouched.topics, untouched.messages]
    exact books.homed
  balanced := by
    rw [untouched.topics, untouched.messages]
    exact books.balanced

variable {msgs : List MessageDocument} {moment : Nat} (posted : Posted env moment msgs)

include posted in
theorem Posted.unused : ∀ doc ∈ msgs, doc.messageId ≠ env.randomUuid moment := by
  intro doc mem same
  obtain ⟨earlier, less, drawn⟩ := posted.drawn doc mem
  exact less.ne (env.randomUuid_injective (drawn.symm.trans same))

/-! ### Topics -/

variable {topics : List Topic}

theorem Defined.eq_of_key (defined : Defined env topics)
    {first second : Topic} (firstStored : first ∈ topics) (secondStored : second ∈ topics)
    (same : first.key = second.key) : first = second := by
  refine inj_on_of_nodup_map defined.erns firstStored secondStored ?_
  simp only [Topic.key, Prod.mk.injEq] at same
  rw [defined.named first firstStored, defined.named second secondStored, same.1, same.2.1,
    same.2.2]

theorem Defined.update (defined : Defined env topics)
    {selects : Topic → Bool} {change : Topic → Topic}
    (kept : ∀ topic ∈ topics, selects topic →
      (change topic).ern = topic.ern ∧ (change topic).key = topic.key) :
    Defined env (updateFirst selects change topics) where
  named := by
    intro topic mem
    rcases mem_updateFirst mem with stored | ⟨old, stored, selected, rfl⟩
    · exact defined.named topic stored
    · obtain ⟨sameErn, sameKey⟩ := kept old stored selected
      simp only [Topic.key, Prod.mk.injEq] at sameKey
      obtain ⟨account, nameSpace, name⟩ := sameKey
      rw [sameErn, account, nameSpace, name]
      exact defined.named old stored
  erns := nodup_updateFirst defined.erns fun topic mem selected => (kept topic mem selected).1

theorem Homed.update (homed : Homed topics msgs) {selects : Topic → Bool} {change : Topic → Topic}
    (kept : ∀ topic ∈ topics, selects topic → (change topic).ern = topic.ern) :
    Homed (updateFirst selects change topics) msgs := by
  intro doc mem
  rw [map_updateFirst kept]
  exact homed doc mem

theorem Balanced.update
    (balanced : Balanced topics msgs) {selects : Topic → Bool} {change : Topic → Topic}
    (kept : ∀ topic ∈ topics, selects topic →
      (change topic).ern = topic.ern ∧ (change topic).figures = topic.figures) :
    Balanced (updateFirst selects change topics) msgs := by
  intro topic mem
  rcases mem_updateFirst mem with stored | ⟨old, stored, selected, rfl⟩
  · exact balanced topic stored
  · obtain ⟨sameErn, sameFigures⟩ := kept old stored selected
    rw [sameErn, sameFigures]
    exact balanced old stored

variable {others : List MessageDocument}

theorem Balanced.of_tally (balanced : Balanced topics msgs)
    (same : ∀ topic ∈ topics, tally others topic.ern = tally msgs topic.ern) :
    Balanced topics others := fun topic stored =>
  (balanced topic stored).trans (same topic stored).symm

theorem Balanced.counted (defined : Defined env topics) (balanced : Balanced topics msgs)
    (ern : String) (available size : Int)
    (moved : ∀ other, tally others other =
      tally msgs other + if other = ern then (available, size) else 0) :
    Balanced (updateFirst (fun topic => topic.ern = ern) (Topic.counted available size) topics)
      others := by
  intro topic mem
  have fixes : ∀ topic : Topic, decide (topic.ern = ern) = true → topic.ern = ern :=
    fun topic selected => of_decide_eq_true selected
  rw [updateFirst_eq_updateAll (pairwise_of_key defined.erns fixes), mem_updateAll] at mem
  obtain ⟨old, stored, rfl⟩ := mem
  by_cases own : old.ern = ern
  · rw [if_pos (decide_eq_true own)]
    show (old.figures.1 + available, old.figures.2 + size) = tally others old.ern
    rw [moved, if_pos own, ← balanced old stored]
    rfl
  · rw [if_neg (by simpa using own), moved, if_neg own, add_zero]
    exact balanced old stored

/-! ### Messages -/

theorem tally_append (msgs : List MessageDocument) (doc : MessageDocument) (ern : String) :
    tally (msgs ++ [doc]) ern = tally msgs ern + doc.weight ern := by
  simp [tally]

variable {selects : MessageDocument → Bool} {change : MessageDocument → MessageDocument}

theorem tally_update (kept : ∀ doc ∈ msgs, selects doc →
      (change doc).topicErn = doc.topicErn ∧ (change doc).size = doc.size)
    {ern : String} : tally (updateFirst selects change msgs) ern = tally msgs ern := by
  refine congrArg List.sum (map_updateFirst fun doc mem selected => ?_)
  obtain ⟨sameTopic, sameSize⟩ := kept doc mem selected
  simp only [weight, sameTopic, sameSize]

theorem tally_eraseP
    {found : MessageDocument} (found_eq : msgs.find? selects = some found) (ern : String) :
    tally (msgs.eraseP selects) ern = tally msgs ern - found.weight ern :=
  sum_eraseP _ found_eq

theorem tally_filter (msgs : List MessageDocument) (erns : List String) (ern : String) :
    tally (msgs.filter fun doc => doc.topicErn ∉ erns) ern =
      if ern ∈ erns then 0 else tally msgs ern := by
  induction msgs with
  | nil => simp [tally]
  | cons doc rest ih =>
    simp only [tally] at ih ⊢
    by_cases purged : doc.topicErn ∈ erns
    · rw [filter_cons_of_neg (by simpa using purged), ih, map_cons, sum_cons]
      by_cases own : ern ∈ erns
      · rw [if_pos own, if_pos own]
      · have different : doc.topicErn ≠ ern := fun same => own (same ▸ purged)
        rw [if_neg own, if_neg own, weight, if_neg different, zero_add]
    · rw [filter_cons_of_pos (by simpa using purged), map_cons, sum_cons,
        ih, map_cons, sum_cons]
      by_cases own : ern ∈ erns
      · have different : doc.topicErn ≠ ern := fun same => purged (same ▸ own)
        rw [if_pos own, if_pos own, weight, if_neg different, zero_add]
      · rw [if_neg own, if_neg own]

theorem tally_of_none {ern : String}
    (none : ∀ doc ∈ msgs, doc.topicErn ≠ ern) : tally msgs ern = 0 := by
  refine sum_eq_zero fun weight mem => ?_
  obtain ⟨doc, stored, rfl⟩ := mem_map.mp mem
  exact if_neg (none doc stored)

variable {later : Nat}

include posted

theorem Posted.of_kept (apart : Apart others) (passed : moment ≤ later)
    (kept : ∀ doc ∈ others, ∃ old ∈ msgs, doc.messageId = old.messageId ∧
      doc.size = doc.body.utf8ByteSize) : Posted env later others where
  apart := apart
  drawn := by
    intro doc mem
    obtain ⟨old, stored, sameId, _⟩ := kept doc mem
    obtain ⟨earlier, less, drawn⟩ := posted.drawn old stored
    exact ⟨earlier, less.trans_le passed, sameId.trans drawn⟩
  sized := by
    intro doc mem
    obtain ⟨old, stored, _, size⟩ := kept doc mem
    exact size

theorem Posted.sublist (fewer : others.Sublist msgs)
    (passed : moment ≤ later) : Posted env later others :=
  posted.of_kept (posted.apart.sublist (fewer.map _)) passed fun doc mem =>
    ⟨doc, fewer.subset mem, rfl, posted.sized doc (fewer.subset mem)⟩

theorem Posted.update (passed : moment ≤ later)
    (kept : ∀ doc ∈ msgs, selects doc →
      (change doc).messageId = doc.messageId ∧ (change doc).size = (change doc).body.utf8ByteSize) :
    Posted env later (updateFirst selects change msgs) := by
  refine posted.of_kept ?_ passed fun doc mem => ?_
  · exact nodup_updateFirst posted.apart fun doc mem selected => (kept doc mem selected).1
  · rcases mem_updateFirst mem with stored | ⟨old, stored, selected, rfl⟩
    · exact ⟨doc, stored, rfl, posted.sized doc stored⟩
    · obtain ⟨sameId, size⟩ := kept old stored selected
      exact ⟨old, stored, sameId, size⟩

omit posted

/-! ### What whole operations do -/

include books

theorem Books.posting {doc : MessageDocument} (found : doc.topicErn ∈ before.topics.map Topic.ern)
    (unused : ∀ other ∈ before.messages, other.messageId ≠ doc.messageId)
    (drawn : doc.messageId = env.randomUuid moment) (less : moment < after.moment)
    (sized : doc.size = doc.body.utf8ByteSize) (passed : before.moment ≤ after.moment)
    (topics : after.topics = updateFirst (fun topic => topic.ern = doc.topicErn)
      (Topic.counted 1 doc.size) before.topics)
    (msgs : after.messages = before.messages ++ [doc]) : Books env after where
  defined := by
    rw [topics]
    exact books.defined.update fun _ _ _ => ⟨rfl, rfl⟩
  posted := by
    rw [msgs]
    refine ⟨?_, fun other mem => ?_, fun other mem => ?_⟩
    · rw [Apart, map_append, map_singleton]
      refine books.posted.apart.append (nodup_singleton _) fun id inMessages isNew => ?_
      obtain ⟨other, stored, rfl⟩ := mem_map.mp inMessages
      exact unused other stored (mem_singleton.mp isNew)
    · rcases mem_append.mp mem with stored | new
      · obtain ⟨earlier, before, id⟩ := books.posted.drawn other stored
        exact ⟨earlier, before.trans_le passed, id⟩
      · obtain rfl := mem_singleton.mp new
        exact ⟨moment, less, drawn⟩
    · rcases mem_append.mp mem with stored | new
      · exact books.posted.sized other stored
      · obtain rfl := mem_singleton.mp new
        exact sized
  homed := by
    rw [topics, msgs]
    refine Homed.update (fun other mem => ?_) fun _ _ _ => rfl
    rcases mem_append.mp mem with stored | new
    · exact books.homed other stored
    · obtain rfl := mem_singleton.mp new
      exact found
  balanced := by
    rw [topics, msgs]
    refine books.balanced.counted books.defined _ _ _ fun other => ?_
    rw [tally_append, weight]
    by_cases own : doc.topicErn = other
    · rw [if_pos own, if_pos own.symm]
    · rw [if_neg own, if_neg (Ne.symm own)]

theorem Books.rewriting {selects : Topic → Bool} {change : Topic → Topic}
    (kept : ∀ topic ∈ before.topics, selects topic → (change topic).ern = topic.ern ∧
      (change topic).key = topic.key ∧ (change topic).figures = topic.figures)
    (topics : after.topics = updateFirst selects change before.topics)
    (msgs : after.messages = before.messages) (passed : before.moment ≤ after.moment) :
    Books env after where
  defined := by
    rw [topics]
    exact books.defined.update fun topic mem selected =>
      ⟨(kept topic mem selected).1, (kept topic mem selected).2.1⟩
  posted := by
    rw [msgs]
    exact books.posted.sublist (List.Sublist.refl _) passed
  homed := by
    rw [topics, msgs]
    exact books.homed.update fun topic mem selected => (kept topic mem selected).1
  balanced := by
    rw [topics, msgs]
    exact books.balanced.update fun topic mem selected =>
      ⟨(kept topic mem selected).1, (kept topic mem selected).2.2⟩

theorem Books.readdressing
    (kept : ∀ doc ∈ before.messages, selects doc → (change doc).messageId = doc.messageId ∧
      (change doc).topicErn = doc.topicErn ∧
      (change doc).body = doc.body ∧ (change doc).size = doc.size)
    (topics : after.topics = before.topics)
    (msgs : after.messages = updateFirst selects change before.messages)
    (passed : before.moment ≤ after.moment) : Books env after where
  defined := topics ▸ books.defined
  posted := by
    rw [msgs]
    refine books.posted.update passed fun doc mem selected => ?_
    obtain ⟨id, _, body, size⟩ := kept doc mem selected
    exact ⟨id, by rw [size, body, books.posted.sized doc mem]⟩
  homed := by
    rw [topics, msgs]
    intro doc mem
    rcases mem_updateFirst mem with stored | ⟨old, stored, selected, rfl⟩
    · exact books.homed doc stored
    · rw [(kept old stored selected).2.1]
      exact books.homed old stored
  balanced := by
    rw [topics, msgs]
    exact books.balanced.of_tally fun topic _ => tally_update (fun doc mem selected =>
      ⟨(kept doc mem selected).2.1, (kept doc mem selected).2.2.2⟩)

variable {messageId : String}

/-- A message that is deleted and taken out of the figures of its topic. -/
theorem Books.dropping {topicErn : String} {size : Int}
    (stored : ∃ doc ∈ before.messages, doc.messageId = messageId)
    (figures : ∀ doc ∈ before.messages, doc.messageId = messageId →
      doc.topicErn = topicErn ∧ doc.size = size) (passed : before.moment ≤ after.moment)
    (topics : after.topics = updateFirst (fun topic => topic.ern = topicErn)
      (Topic.counted (-1) (-size)) before.topics)
    (msgs : after.messages = before.messages.eraseP fun doc => doc.messageId = messageId) :
    Books env after where
  defined := by
    rw [topics]
    exact books.defined.update fun _ _ _ => ⟨rfl, rfl⟩
  posted := by
    rw [msgs]
    exact books.posted.sublist eraseP_sublist passed
  homed := by
    rw [topics, msgs]
    refine Homed.update (fun other mem => ?_) fun _ _ _ => rfl
    exact books.homed other (mem_of_mem_eraseP mem)
  balanced := by
    rw [topics, msgs]
    obtain ⟨doc, mem, own⟩ := stored
    have some : (before.messages.find? fun other => other.messageId = messageId).isSome :=
      List.find?_isSome.mpr ⟨doc, mem, by simpa using own⟩
    obtain ⟨found, found_eq⟩ := Option.isSome_iff_exists.mp some
    have selected : found.messageId = messageId := by simpa using List.find?_some found_eq
    obtain ⟨topicOf, sizeOf⟩ := figures found (mem_of_find?_eq_some found_eq) selected
    refine books.balanced.counted books.defined _ _ _ fun other => ?_
    rw [tally_eraseP found_eq, weight, topicOf, sizeOf]
    by_cases own : topicErn = other
    · rw [if_pos own, if_pos own.symm]
      rfl
    · rw [if_neg own, if_neg (Ne.symm own), sub_zero, add_zero]

omit books

theorem weight_rewritten (body contentType ern : String) (doc : MessageDocument) :
    (doc.rewritten body contentType).weight ern =
      if doc.topicErn = ern then (1, (body.utf8ByteSize : Int)) else 0 := rfl

variable {previous : MessageDocument}

theorem tally_rewritten (body contentType : String)
    (found : msgs.find? (fun doc => doc.messageId = messageId) = some previous) (ern : String) :
    tally (updateFirst (fun doc => doc.messageId = messageId)
        (rewritten body contentType) msgs) ern =
      tally msgs ern +
        if ern = previous.topicErn then (0, (body.utf8ByteSize : Int) - previous.size) else 0 := by
  rw [tally, sum_updateFirst _ found, tally]
  refine congrArg _ ?_
  rw [weight_rewritten, weight]
  by_cases own : previous.topicErn = ern
  · rw [if_pos own, if_pos own, if_pos own.symm, Prod.mk_sub_mk, sub_self]
  · rw [if_neg own, if_neg own, if_neg (Ne.symm own), sub_self]

include books

/-- A message is given another body, and its topic is counted for what the body is longer by. -/
theorem Books.rewording {body contentType : String}
    (found : before.messages.find? (fun doc => doc.messageId = messageId) =
      some previous) (msgs : after.messages = updateFirst (fun doc => doc.messageId = messageId)
      (rewritten body contentType) before.messages)
    (topics : ((body.utf8ByteSize : Int) - previous.size = 0 ∧ after.topics = before.topics) ∨
      after.topics = updateFirst (fun topic => topic.ern = previous.topicErn)
        (Topic.counted 0 (body.utf8ByteSize - previous.size)) before.topics)
    (passed : before.moment ≤ after.moment) : Books env after := by
  have moved := tally_rewritten body contentType found
  have posted : Posted env after.moment after.messages := by
    rw [msgs]
    exact books.posted.update passed fun _ _ _ => ⟨rfl, rfl⟩
  have homed : Homed before.topics after.messages := by
    intro doc mem
    rw [msgs] at mem
    rcases mem_updateFirst mem with stored | ⟨old, stored, _, rfl⟩
    · exact books.homed doc stored
    · exact books.homed old stored
  rcases topics with ⟨same, topics⟩ | topics
  · refine ⟨topics ▸ books.defined, posted, topics ▸ homed, ?_⟩
    rw [topics, msgs]
    refine books.balanced.of_tally fun topic _ => ?_
    rw [moved, same]
    split
    · exact add_zero _
    · exact add_zero _
  · refine ⟨?_, posted, ?_, ?_⟩
    · rw [topics]
      exact books.defined.update fun _ _ _ => ⟨rfl, rfl⟩
    · rw [topics]
      exact homed.update fun _ _ _ => rfl
    · rw [topics, msgs]
      exact books.balanced.counted books.defined _ _ _ moved

/-- The messages of some topics are deleted, and those topics are started over. -/
theorem Books.purging (erns : List String) (topics : after.topics =
      updateAll (fun topic => topic.ern ∈ erns) Topic.zeroed before.topics) (msgs : after.messages =
      before.messages.filter fun doc => doc.topicErn ∉ erns)
    (passed : before.moment ≤ after.moment) : Books env after := by
  have sameErns : after.topics.map Topic.ern = before.topics.map Topic.ern := by
    rw [topics]
    exact map_updateAll fun _ _ _ => rfl
  refine ⟨⟨fun topic mem => ?_, sameErns ▸ books.defined.erns⟩, ?_, fun other mem => ?_,
    fun topic mem => ?_⟩
  · rw [topics] at mem
    obtain ⟨old, stored, rfl⟩ := mem_updateAll.mp mem
    split
    · exact books.defined.named old stored
    · exact books.defined.named old stored
  · rw [msgs]
    exact books.posted.sublist filter_sublist passed
  · rw [msgs] at mem
    rw [sameErns]
    exact books.homed other (mem_of_mem_filter mem)
  · rw [topics] at mem
    obtain ⟨old, stored, rfl⟩ := mem_updateAll.mp mem
    rw [msgs]
    by_cases purged : old.ern ∈ erns
    · rw [if_pos (decide_eq_true purged), tally_filter]
      exact (if_pos purged).symm
    · rw [if_neg (by simpa using purged), tally_filter, if_neg purged]
      exact books.balanced old stored

/-- A topic is added under a name that no other has, with nothing counted for it. -/
theorem Books.adding {topic : Topic}
    (named : topic.ern = createEnsTopicErn env topic.accountId topic.nameSpace topic.name)
    (unused : ∀ other ∈ before.topics, other.ern ≠ topic.ern) (figures : topic.figures = 0)
    (topics : after.topics = before.topics ++ [topic]) (msgs : after.messages = before.messages)
    (passed : before.moment ≤ after.moment) : Books env after where
  defined := by
    rw [topics]
    refine ⟨fun other mem => ?_, ?_⟩
    · rcases mem_append.mp mem with stored | new
      · exact books.defined.named other stored
      · obtain rfl := mem_singleton.mp new
        exact named
    · rw [map_append, map_singleton]
      refine books.defined.erns.append (nodup_singleton _) fun ern inTopics isNew => ?_
      obtain ⟨other, stored, rfl⟩ := mem_map.mp inTopics
      exact unused other stored (mem_singleton.mp isNew)
  posted := by
    rw [msgs]
    exact books.posted.sublist (List.Sublist.refl _) passed
  homed := by
    rw [topics, msgs]
    intro doc mem
    rw [map_append]
    exact mem_append_left _ (books.homed doc mem)
  balanced := by
    rw [topics, msgs]
    intro other mem
    rcases mem_append.mp mem with stored | new
    · exact books.balanced other stored
    · obtain rfl := mem_singleton.mp new
      rw [figures, tally_of_none fun doc mem same => ?_]
      -- every message has a topic, and none has this name yet
      obtain ⟨owner, stored, own⟩ := mem_map.mp (books.homed doc mem)
      exact unused owner stored (own.trans same)

theorem Books.deleting (ern : String)
    (topics : after.topics = before.topics.filter fun topic => topic.ern ≠ ern)
    (msgs : after.messages = before.messages.filter fun doc => doc.topicErn ∉ [ern])
    (passed : before.moment ≤ after.moment) : Books env after where
  defined := by
    rw [topics]
    exact ⟨fun topic mem => books.defined.named topic (mem_of_mem_filter mem),
      books.defined.erns.sublist (filter_sublist.map _)⟩
  posted := by
    rw [msgs]
    exact books.posted.sublist filter_sublist passed
  homed := by
    rw [topics, msgs]
    intro doc mem
    obtain ⟨stored, other⟩ := mem_filter.mp mem
    obtain ⟨topic, storedTopic, own⟩ := mem_map.mp (books.homed doc stored)
    refine mem_map.mpr ⟨topic, mem_filter.mpr ⟨storedTopic, ?_⟩, own⟩
    rw [own]
    simpa using other
  balanced := by
    rw [topics, msgs]
    intro topic mem
    obtain ⟨stored, other⟩ := mem_filter.mp mem
    rw [tally_filter, if_neg (by simpa using other)]
    exact books.balanced topic stored

end Books

end Euclid.Ens
