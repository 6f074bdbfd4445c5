/-
This file says once what each message statement can do to a single message, so that no
invariant has to look at the list a statement works on.

A message after a statement was there before, perhaps changed in the one way that
statement changes messages, or was inserted under an identity made at that moment. A
message before a statement is there after it, perhaps changed, or was removed in the one
way that statement removes messages. Identities stay distinct and are never used again.
-/

import Euclid.Eqs.Statement

namespace Euclid.Eqs

open Collection List

variable {backend : Backend} {now : Time} {moment : Nat} {msgs : List Message}

/-- The message is what another one was, up to what a claimed message may still be given. -/
def Message.Continues (claimed msg : Message) : Prop :=
  msg = { claimed with
    body := msg.body
    size := msg.size
    contentType := msg.contentType
    modified := msg.modified
    visibilityTimeout := msg.visibilityTimeout }

open Message

section Continues

variable {claimed msg : Message} (continues : claimed.Continues msg)

include continues

theorem Message.Continues.oid : msg.oid = claimed.oid := by
  rw [Continues] at continues
  rw [continues]

theorem Message.Continues.receiptHandle : msg.receiptHandle = claimed.receiptHandle := by
  rw [Continues] at continues
  rw [continues]

theorem Message.Continues.status : msg.status = claimed.status := by
  rw [Continues] at continues
  rw [continues]

theorem Message.Continues.receivedCount : msg.receivedCount = claimed.receivedCount := by
  rw [Continues] at continues
  rw [continues]

theorem Message.Continues.lastReceived : msg.lastReceived = claimed.lastReceived := by
  rw [Continues] at continues
  rw [continues]

theorem Message.Continues.visibilityPinned : msg.visibilityPinned = claimed.visibilityPinned := by
  rw [Continues] at continues
  rw [continues]

end Continues

theorem Message.Continues.refl (msg : Message) : msg.Continues msg := rfl

variable {msg : Message}

theorem Message.Continues.trans {claimed between : Message}
    (first : claimed.Continues between) (second : between.Continues msg) :
    claimed.Continues msg := by
  rw [Continues] at first second ⊢
  rw [first] at second
  exact second

namespace MessageStatement

/-! ### The three kinds of effect -/

/-- The statement makes of a stored message another one. -/
def Changes (now : Time) (before after : Message) : MessageStatement → Prop
  | .claim oid receiptHandle =>
    (before.oid = oid ∧ before.status = .available) ∧ after = before.claimed receiptHandle now
  | .moveToDeadLetter oids deadLetterQueueErn queueErn =>
    before.oid ∈ oids ∧ after = before.deadLettered deadLetterQueueErn queueErn now
  | .setLease oids handles visibility =>
    (before.oid ∈ oids ∧ before.receiptHandle ∈ handles) ∧ after = before.leased visibility
  | .resetInvisible oid =>
    (before.oid = oid ∧ before.status = .invisible) ∧ after = before.resetFromInvisible now
  | .resetDelayed oid =>
    (before.oid = oid ∧ before.status = .delayed) ∧ after = before.resetFromDelayed now
  | .upsert written =>
    before.messageId = written.messageId ∧ after = written.replacedBy now before
  | .rewriteBody messageId body contentType =>
    before.messageId = messageId ∧ after = before.rewritten body contentType now
  | .redrive deadLetterQueueErn targetQueueErn sourceQueueErn =>
    before.isRedriven deadLetterQueueErn sourceQueueErn ∧ after = before.redriven targetQueueErn now
  | _ => False

/-- The statement can store this document as a new message. -/
def Inserts (doc : Message) : MessageStatement → Prop
  | .insert inserted => doc = inserted
  | .insertMany inserted => doc ∈ inserted
  | .upsert written => doc = written
  | _ => False

/-- The statement takes a stored message out. -/
def Removes (now : Time) (msg : Message) : MessageStatement → Prop
  | .deleteByHandle receiptHandle => msg.receiptHandle = receiptHandle
  | .deleteById messageId => msg.messageId = messageId
  | .deleteQueue queueErn => msg.queueErn = queueErn
  | .expire => msg.expiresAt ≤ now
  | _ => False

variable {stmt : MessageStatement}

theorem Changes.messageId {before after : Message}
    (changes : stmt.Changes now before after) : after.messageId = before.messageId := by
  cases stmt with
  | upsert written =>
    rw [changes.2]
    exact changes.1.symm
  | _ => first | exact absurd changes id | (rw [changes.2]; rfl)

theorem Changes.continues {before after : Message}
    (changes : stmt.Changes now before after) (partly : ∀ written, stmt ≠ .upsert written) :
    before.Continues after ∨ after.receiptHandle = "" ∨
      (before.status = .delayed ∧ after = before.resetFromDelayed now) ∨
      (stmt = .claim before.oid after.receiptHandle ∧ before.status = .available ∧
        after = before.claimed after.receiptHandle now) := by
  cases stmt with
  | claim oid receiptHandle =>
    obtain ⟨⟨rfl, available⟩, rfl⟩ := changes
    exact .inr (.inr (.inr ⟨rfl, available, rfl⟩))
  | upsert written => exact absurd rfl (partly written)
  | moveToDeadLetter _ _ _ | resetInvisible _ | redrive _ _ _ =>
    rw [changes.2]
    exact .inr (.inl rfl)
  | resetDelayed oid => exact .inr (.inr (.inl ⟨changes.1.2, changes.2⟩))
  | setLease _ _ _ | rewriteBody _ _ _ =>
    rw [changes.2]
    exact .inl rfl
  | _ => exact absurd changes id

/-- The message stored for a document: the document under a new identity, with its dates as it
carries them or as an upsert stamps them. -/
def Stores (moment : Nat) (msg : Message) (stmt : MessageStatement) : Prop :=
  msg.oid.1 = moment ∧ ∃ doc modified, stmt.Inserts doc ∧
    msg = { doc with oid := msg.oid, modified := modified }

end MessageStatement

/-! ### Batches -/

variable {docs : List Message} {refuses : Nat → Bool} {stored : List Message} {place : Nat}

theorem mem_insertAll (mem : msg ∈ (insertAll backend refuses moment place docs stored).2) :
    msg ∈ stored ∨ ∃ index ≥ place, ∃ doc ∈ docs, msg = { doc with oid := (moment, index) } := by
  induction docs generalizing place stored with
  | nil => exact .inl mem
  | cons doc rest ih =>
    rw [insertAll_cons] at mem
    split at mem
    · cases backend with
      | mongo =>
        rcases ih mem with old | ⟨index, above, other, inRest, same⟩
        · exact .inl old
        · exact .inr ⟨index, by omega, other, .tail _ inRest, same⟩
      | memory => exact .inl mem
    · rcases ih mem with old | ⟨index, above, other, inRest, same⟩
      · rcases mem_append.mp old with old | new
        · exact .inl old
        · exact .inr ⟨place, le_refl _, doc, .head _, mem_singleton.mp new⟩
      · exact .inr ⟨index, by omega, other, .tail _ inRest, same⟩

theorem subset_insertAll (refuses : Nat → Bool) (place : Nat) (docs stored : List Message) :
    stored ⊆ (insertAll backend refuses moment place docs stored).2 := by
  induction docs generalizing place stored with
  | nil => exact fun _ mem => mem
  | cons doc rest ih =>
    intro msg mem
    rw [insertAll_cons]
    split
    · cases backend with
      | mongo => exact ih _ _ mem
      | memory => exact mem
    · exact ih _ _ (mem_append_left _ mem)

theorem nodup_insertAll (distinct : (stored.map oid).Nodup)
    (free : ∀ msg ∈ stored, msg.oid.1 = moment → msg.oid.2 < place) :
    ((insertAll backend refuses moment place docs stored).2.map oid).Nodup := by
  induction docs generalizing place stored with
  | nil => exact distinct
  | cons doc rest ih =>
    rw [insertAll_cons]
    split
    · cases backend with
      | mongo =>
        exact ih distinct fun msg mem same =>
          Nat.lt_succ_of_lt (free msg mem same)
      | memory => exact distinct
    · refine ih ?_ ?_
      · rw [map_append, nodup_append]
        refine ⟨distinct, nodup_singleton _, fun first inFirst second inSecond same => ?_⟩
        obtain ⟨msg, mem, rfl⟩ := mem_map.mp inFirst
        have taken : msg.oid = (moment, place) := same.trans (mem_singleton.mp inSecond)
        have below : msg.oid.2 < place := free msg mem (by rw [taken])
        rw [taken] at below
        exact absurd below (lt_irrefl _)
      · intro msg mem same
        rcases mem_append.mp mem with old | new
        · exact Nat.lt_succ_of_lt (free msg old same)
        · rw [mem_singleton.mp new]
          exact Nat.lt_succ_self _

/-! ### Where messages come from and where they go -/

section Apply

variable (backend now moment msgs)

/-- Every message after a statement comes from one before it or was stored by it. -/
theorem MessageStatement.origin (stmt : MessageStatement)
    (mem : msg ∈ (stmt.apply backend now moment msgs).2) :
    (∃ before ∈ msgs, before.oid = msg.oid ∧ (msg = before ∨ stmt.Changes now before msg)) ∨
    stmt.Stores moment msg := by
  have unchanged : msg ∈ msgs → ∃ before ∈ msgs, before.oid = msg.oid ∧
      (msg = before ∨ stmt.Changes now before msg) :=
    fun same => ⟨msg, same, rfl, .inl rfl⟩
  cases stmt with
  | insert doc =>
    simp only [MessageStatement.apply] at mem
    split at mem
    · exact .inl (unchanged mem)
    · rcases mem_append.mp mem with old | new
      · exact .inl (unchanged old)
      · obtain rfl := mem_singleton.mp new
        exact .inr ⟨rfl, doc, doc.modified, rfl, rfl⟩
  | insertMany docs =>
    rcases mem_insertAll mem with old | ⟨index, _, doc, inBatch, rfl⟩
    · exact .inl (unchanged old)
    · exact .inr ⟨rfl, doc, doc.modified, inBatch, rfl⟩
  | upsert written =>
    simp only [MessageStatement.apply] at mem
    split at mem
    · rcases mem_updateFirst mem with old | ⟨before, stored, selected, rfl⟩
      · exact .inl (unchanged old)
      · exact .inl ⟨before, stored, rfl, .inr ⟨by simpa using selected, rfl⟩⟩
    · rcases mem_append.mp mem with old | new
      · exact .inl (unchanged old)
      · obtain rfl := mem_singleton.mp new
        exact .inr ⟨rfl, written, now, rfl, rfl⟩
  | claim _ _ | resetInvisible _ | resetDelayed _ | rewriteBody _ _ _ =>
    exact .inl (origin_updateFirst (fun _ => rfl) mem)
  | moveToDeadLetter _ _ _ | setLease _ _ _ => exact .inl (origin_updateAll (fun _ => rfl) mem)
  | redrive _ _ _ =>
    obtain ⟨before, stored, rfl⟩ := mem_updateAll.mp mem
    split
    · rename_i selected
      exact .inl ⟨before, stored, rfl, .inr ⟨selected, rfl⟩⟩
    · exact .inl ⟨before, stored, rfl, .inl rfl⟩
  | deleteByHandle _ | deleteById _ => exact .inl (unchanged (mem_of_mem_eraseP mem))
  | deleteQueue _ | expire => exact .inl (unchanged (mem_of_mem_filter mem))
  | _ => exact .inl (unchanged mem)

/-- Every message before a statement is there after it, perhaps changed, or it removed it. -/
theorem MessageStatement.fate (stmt : MessageStatement) (mem : msg ∈ msgs) :
    (∃ after ∈ (stmt.apply backend now moment msgs).2, after.oid = msg.oid ∧
      (after = msg ∨ stmt.Changes now msg after)) ∨ stmt.Removes now msg := by
  have unchanged : msg ∈ (stmt.apply backend now moment msgs).2 →
      ∃ after ∈ (stmt.apply backend now moment msgs).2, after.oid = msg.oid ∧
        (after = msg ∨ stmt.Changes now msg after) :=
    fun same => ⟨msg, same, rfl, .inl rfl⟩
  cases stmt with
  | insert doc =>
    refine .inl (unchanged ?_)
    simp only [MessageStatement.apply]
    split
    · exact mem
    · exact mem_append_left _ mem
  | insertMany docs => exact .inl (unchanged (subset_insertAll _ _ _ _ mem))
  | upsert written =>
    simp only [MessageStatement.apply] at unchanged ⊢
    split
    · rename_i stored
      rcases mem_updateFirst_of_mem (fun stored => stored.messageId = written.messageId)
        (replacedBy written now) mem with same | ⟨selected, changed⟩
      · exact .inl ⟨msg, same, rfl, .inl rfl⟩
      · exact .inl ⟨_, changed, rfl, .inr ⟨by simpa using selected, rfl⟩⟩
    · exact .inl ⟨msg, mem_append_left _ mem, rfl, .inl rfl⟩
  | claim _ _ | resetInvisible _ | resetDelayed _ | rewriteBody _ _ _ =>
    exact .inl (fate_updateFirst (fun _ => rfl) mem)
  | moveToDeadLetter _ _ _ | setLease _ _ _ => exact .inl (fate_updateAll (fun _ => rfl) mem)
  | redrive _ _ _ =>
    refine .inl ⟨_, mem_updateAll.mpr ⟨msg, mem, rfl⟩, ?_⟩
    split
    · rename_i selected
      exact ⟨rfl, .inr ⟨selected, rfl⟩⟩
    · exact ⟨rfl, .inl rfl⟩
  | deleteByHandle receiptHandle =>
    by_cases selected : msg.receiptHandle = receiptHandle
    · exact .inr selected
    · exact .inl (unchanged ((mem_eraseP_of_neg (by simpa using selected)).mpr mem))
  | deleteById messageId =>
    by_cases selected : msg.messageId = messageId
    · exact .inr selected
    · exact .inl (unchanged ((mem_eraseP_of_neg (by simpa using selected)).mpr mem))
  | deleteQueue queueErn =>
    by_cases selected : msg.queueErn = queueErn
    · exact .inr selected
    · exact .inl (unchanged (mem_filter.mpr ⟨mem, by simpa using selected⟩))
  | expire =>
    by_cases selected : msg.expiresAt ≤ now
    · exact .inr selected
    · exact .inl (unchanged (mem_filter.mpr ⟨mem, by simpa using selected⟩))
  | _ => exact .inl (unchanged mem)

end Apply

theorem claim_answer (backend : Backend) (now : Time) (moment : Nat) (stored : msg ∈ msgs)
    (available : msg.status = .available) (receiptHandle : String) :
    (MessageStatement.apply backend now moment msgs (.claim msg.oid receiptHandle)).1 = .ok 1 := by
  have selected : ∃ found, msgs.find? (fun other =>
      other.oid = msg.oid ∧ other.status = .available) = some found := by
    refine Option.isSome_iff_exists.mp (List.find?_isSome.mpr ⟨msg, stored, ?_⟩)
    simp [available]
  obtain ⟨found, first⟩ := selected
  have was : found.oid = msg.oid ∧ found.status = .available := by
    simpa using List.find?_some first
  have differs : found.claimed receiptHandle now ≠ found := by
    intro same
    have status : MessageStatus.invisible = found.status := congrArg status same
    rw [was.2] at status
    cases status
  show Except.ok (modifiedByFirst _ _ msgs) = _
  unfold modifiedByFirst
  rw [first]
  exact congrArg _ (if_neg differs)

/-! ### Identities -/

/-- Identities are distinct and none of them is still to be made. -/
structure Identified (msgs : List Message) (moment : Nat) : Prop where
  distinct : (msgs.map oid).Nodup
  made : ∀ msg ∈ msgs, msg.oid.1 < moment

theorem Identified.unique (identified : Identified msgs moment) {first second : Message}
    (left : first ∈ msgs) (right : second ∈ msgs) (same : first.oid = second.oid) :
    first = second :=
  inj_on_of_nodup_map identified.distinct left right same

theorem Identified.later (identified : Identified msgs moment) : Identified msgs (moment + 1) :=
  ⟨identified.distinct, fun msg mem => Nat.lt_succ_of_lt (identified.made msg mem)⟩

theorem Identified.apply (identified : Identified msgs moment) (stmt : MessageStatement) :
    Identified (stmt.apply backend now moment msgs).2 (moment + 1) := by
  refine ⟨?_, fun msg mem => ?_⟩
  · have appended : ∀ doc : Message, ((msgs ++ [{ doc with oid := (moment, 0) }]).map
        oid).Nodup := by
      intro doc
      rw [map_append, nodup_append]
      refine ⟨identified.distinct, nodup_singleton _, fun first old second new same => ?_⟩
      obtain ⟨msg, mem, rfl⟩ := mem_map.mp old
      have taken : msg.oid = (moment, 0) := same.trans (mem_singleton.mp new)
      exact absurd (identified.made msg mem) (by rw [taken]; exact lt_irrefl _)
    cases stmt with
    | insert doc =>
      simp only [MessageStatement.apply]
      split
      · exact identified.distinct
      · exact appended doc
    | insertMany docs =>
      exact nodup_insertAll identified.distinct fun msg mem same =>
        absurd (identified.made msg mem) (by rw [same]; exact lt_irrefl _)
    | upsert written =>
      simp only [MessageStatement.apply]
      split
      · exact nodup_updateFirst identified.distinct fun _ _ _ => rfl
      · exact appended { written with modified := now }
    | claim _ _ | resetInvisible _ | resetDelayed _ | rewriteBody _ _ _ =>
      exact nodup_updateFirst identified.distinct fun _ _ _ => rfl
    | moveToDeadLetter _ _ _ | setLease _ _ _ | redrive _ _ _ =>
      exact nodup_updateAll identified.distinct fun _ _ _ => rfl
    | deleteByHandle _ | deleteById _ =>
      exact identified.distinct.sublist (eraseP_sublist.map _)
    | deleteQueue _ | expire => exact identified.distinct.sublist (filter_sublist.map _)
    | _ => exact identified.distinct
  · rcases stmt.origin backend now moment msgs mem with
      ⟨before, stored, same, _⟩ | ⟨fresh, _⟩
    · rw [← same]
      exact Nat.lt_succ_of_lt (identified.made before stored)
    · rw [fresh]
      exact Nat.lt_succ_self _

theorem Identified.step {env : Env} {proc : Nat} {req : Req}
    {world : World} (identified : Identified world.messages world.moment) :
    Identified (machine env proc req world).2.messages (machine env proc req world).2.moment := by
  cases req with
  | message stmt => exact identified.apply stmt
  | _ => exact identified.later

/-! ### Message identifiers -/

/-- No two stored messages have the same identifier. -/
def Distinguished (msgs : List Message) : Prop := (msgs.map messageId).Nodup

theorem Distinguished.append (distinguished : Distinguished msgs) {doc : Message}
    (unused : (msgs.any fun other => other.messageId = doc.messageId) = false) :
    Distinguished (msgs ++ [doc]) := by
  unfold Distinguished
  rw [map_append, nodup_append]
  refine ⟨distinguished, nodup_singleton _, fun first old second new same => ?_⟩
  obtain ⟨msg, mem, rfl⟩ := mem_map.mp old
  have absent := any_eq_false.mp unused msg mem
  rw [mem_singleton.mp new] at same
  exact absent (decide_eq_true same)

theorem Distinguished.insertAll (distinguished : Distinguished stored) :
    Distinguished (Eqs.insertAll backend refuses moment place docs stored).2 := by
  induction docs generalizing place stored with
  | nil => exact distinguished
  | cons doc rest ih =>
    rw [insertAll_cons]
    split
    · cases backend with
      | mongo => exact ih distinguished
      | memory => exact distinguished
    · rename_i accepted
      have unused : (stored.any fun other => other.messageId = doc.messageId) = false := by
        rw [Bool.or_eq_true, not_or] at accepted
        exact Bool.not_eq_true _ ▸ accepted.2
      exact ih (distinguished.append unused)

theorem Distinguished.apply (distinguished : Distinguished msgs) (stmt : MessageStatement) :
    Distinguished (stmt.apply backend now moment msgs).2 := by
  cases stmt with
  | insert doc =>
    simp only [MessageStatement.apply]
    split
    · exact distinguished
    · rename_i unused
      exact distinguished.append (by simpa using unused)
  | insertMany docs => exact distinguished.insertAll
  | upsert written =>
    simp only [MessageStatement.apply]
    split
    · exact nodup_updateFirst distinguished fun msg _ selected => (of_decide_eq_true selected).symm
    · rename_i unused
      exact distinguished.append (by simpa using unused)
  | claim _ _ | resetInvisible _ | resetDelayed _ | rewriteBody _ _ _ =>
    exact nodup_updateFirst distinguished fun _ _ _ => rfl
  | moveToDeadLetter _ _ _ | setLease _ _ _ | redrive _ _ _ =>
    exact nodup_updateAll distinguished fun _ _ _ => rfl
  | deleteByHandle _ | deleteById _ => exact distinguished.sublist (eraseP_sublist.map _)
  | deleteQueue _ | expire => exact distinguished.sublist (filter_sublist.map _)
  | _ => exact distinguished

theorem Distinguished.step {env : Env} {proc : Nat} {req : Req}
    {world : World} (distinguished : Distinguished world.messages) :
    Distinguished (machine env proc req world).2.messages := by
  cases req with
  | message stmt => exact distinguished.apply stmt
  | _ => exact distinguished

theorem Distinguished.unique (distinguished : Distinguished msgs) {first second : Message}
    (left : first ∈ msgs) (right : second ∈ msgs)
    (same : first.messageId = second.messageId) : first = second :=
  inj_on_of_nodup_map distinguished left right same

theorem Distinguished.filter_eq (distinguished : Distinguished msgs) (stored : msg ∈ msgs) :
    (msgs.filter fun other => other.messageId = msg.messageId) = [msg] := by
  induction msgs with
  | nil => nomatch stored
  | cons first rest ih =>
    obtain ⟨apart, distinguished⟩ := nodup_cons.mp distinguished
    rcases mem_cons.mp stored with rfl | inRest
    · have none : (rest.filter fun other => other.messageId = msg.messageId) = [] := by
        refine filter_eq_nil_iff.mpr fun other mem same => apart ?_
        exact mem_map.mpr ⟨other, mem, of_decide_eq_true same⟩
      rw [filter_cons_of_pos (by simp), none]
    · have different : first.messageId ≠ msg.messageId := by
        intro same
        exact apart (mem_map.mpr ⟨msg, inRest, same.symm⟩)
      rw [filter_cons_of_neg (by simpa using different)]
      exact ih distinguished inRest

end Euclid.Eqs
