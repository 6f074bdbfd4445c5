/-
This file proves when a deleted message stays deleted, and a change of one field of a message
changes nothing else.

Setting the visibility of a message, or one of its attributes, reads the message, changes the
copy and writes the whole of it back under its identifier, inserting it where it is gone. What
the store holds of the message may have moved on in between. The handler puts back what it
read, so it does no harm exactly where nothing it puts back has changed.
-/

import Euclid.Eqs.Claim
import Euclid.Eqs.Scope

namespace Euclid.Eqs

open Program Discipline

/-! ### Traffic and handlers -/

/-- What one thread does to messages: an operation on them, or a handler. -/
inductive Upkeep where
  | traffic (operation : Traffic)
  | setVisibility (caller : Option Caller) (messageId : String) (visibility : Int)
  | setMessageAttribute (caller : Option Caller) (messageId key : String) (value : Variant)
  | deleteMessage (caller : Option Caller) (receiptHandle messageId : String)

open Upkeep

/-- The program of a thread, for its effects alone. -/
def Upkeep.program (env : Env) : Upkeep → Op StoreError Unit
  | .traffic operation => do
    let _ ← operation.program env
    pure ()
  | .setVisibility caller messageId visibility => do
    let _ ← handleSetVisibility caller messageId visibility
    pure ()
  | .setMessageAttribute caller messageId key value => do
    let _ ← handleSetMessageAttribute caller messageId key value
    pure ()
  | .deleteMessage caller receiptHandle messageId => do
    let _ ← handleDeleteMessage caller receiptHandle messageId
    pure ()

/-- The handlers that change one field of a message. -/
def Upkeep.ChangesOne : Upkeep → Prop
  | .setVisibility _ _ _ | .setMessageAttribute _ _ _ _ => True
  | .traffic _ | .deleteMessage _ _ _ => False

instance : (upkeep : Upkeep) → Decidable upkeep.ChangesOne
  | .setVisibility _ _ _ | .setMessageAttribute _ _ _ _ => .isTrue trivial
  | .traffic _ | .deleteMessage _ _ _ => .isFalse id

/-- What a change of one field has no business with. -/
structure Message.Agrees (first second : Message) : Prop where
  status : first.status = second.status
  receiptHandle : first.receiptHandle = second.receiptHandle
  body : first.body = second.body
  receivedCount : first.receivedCount = second.receivedCount

theorem Message.Agrees.refl (msg : Message) : msg.Agrees msg := ⟨rfl, rfl, rfl, rfl⟩

theorem Message.Agrees.symm {first second : Message} (agrees : first.Agrees second) :
    second.Agrees first :=
  ⟨agrees.1.symm, agrees.2.symm, agrees.3.symm, agrees.4.symm⟩

theorem Message.Agrees.trans {first second third : Message} (left : first.Agrees second)
    (right : second.Agrees third) : first.Agrees third :=
  ⟨left.1.trans right.1, left.2.trans right.2, left.3.trans right.3, left.4.trans right.4⟩

instance (first second : Message) : Decidable (first.Agrees second) :=
  decidable_of_iff (first.status = second.status ∧ first.receiptHandle = second.receiptHandle ∧
      first.body = second.body ∧ first.receivedCount = second.receivedCount)
    ⟨fun same => ⟨same.1, same.2.1, same.2.2.1, same.2.2.2⟩, fun same =>
      ⟨same.1, same.2, same.3, same.4⟩⟩

/-! ### The discipline -/

/-- What a thread is for, and the copy of a message it has read. -/
structure Reading where
  upkeep : Upkeep
  copy : Option Message

/-- A whole message is written only by a handler, over the copy it read. -/
def Reading.allows (reading : Reading) : Req → Prop
  | .message (.upsert written) => ∃ copy ∈ reading.copy,
      written.messageId = copy.messageId ∧ copy.Agrees written
  | .systemClock | .message (.findById _) => True
  | request => request.IsPartial ∧ ¬reading.upkeep.ChangesOne

def Reading.after (reading : Reading) : (request : Req) → request.Answer → Reading
  | .message (.findById _), .ok found => { reading with copy := found }
  | _, _ => reading

/-- The discipline of traffic and handlers. Any answer may come. -/
def upkeeping : Discipline Req Req.Answer Reading where
  allows := Reading.allows
  expects := fun _ _ _ => True
  after := Reading.after

theorem Reading.after_upkeep (reading : Reading) (request : Req) (answer : request.Answer) :
    (reading.after request answer).upkeep = reading.upkeep := by
  cases request with
  | message statement => cases statement <;> cases answer <;> rfl
  | systemClock | steadyClock | randomUuid | process _ | queue _ => rfl

variable {upkeep : Upkeep}

theorem follows_isPartial {program : Op StoreError Unit}
    (asks : program.Asks Req.IsPartial) (whole : ¬upkeep.ChangesOne) :
    program.Follows upkeeping ⟨upkeep, none⟩ fun _ _ => True := by
  refine (asks.follows_keeping (·.upkeep = upkeep) rfl ?_ ?_).mono fun _ _ _ => trivial
  · rintro reading request rfl asked
    cases request with
    | message statement =>
      cases statement <;> first | exact absurd asked id | exact trivial | exact ⟨asked, whole⟩
    | systemClock => trivial
    | steadyClock | randomUuid | process _ | queue _ => exact ⟨asked, whole⟩
  · rintro reading request answer rfl asked
    exact reading.after_upkeep request answer

variable {messageId : String} {reading : Reading}

theorem findMessageByName_upkeeps {ends : Except Fault (Option Message) → Reading → Prop}
    (found : ∀ found, ends (.ok found) { reading with copy := found })
    (failed : ends (.ok none) reading) :
    (findMessageByName messageId : Op Fault (Option Message)).Follows upkeeping reading ends := by
  unfold findMessageByName orAnswer onMessages
  rw [follows_catching, follows_bind, follows_issue]
  refine ⟨trivial, fun answer _ => ?_⟩
  cases answer with
  | ok msg => exact found msg
  | error error => exact failed

variable {written : Message}

theorem upsertMessage_upkeeps {copy : Message}
    (own : reading.copy = some copy) (same : written.messageId = copy.messageId)
    (agrees : copy.Agrees written) :
    (upsertMessage written : Op Fault Unit).Follows upkeeping reading fun _ _ => True := by
  unfold upsertMessage orAnswer onMessages
  rw [follows_catching, follows_bind, follows_issue]
  refine ⟨⟨copy, own, same, agrees⟩, fun answer _ => ?_⟩
  cases answer <;> trivial

theorem Message.withVisibility_agrees (visibility : Int) (now : Time) (msg : Message) :
    msg.Agrees (msg.withVisibility visibility now) := by
  unfold Message.withVisibility
  split <;> exact ⟨rfl, rfl, rfl, rfl⟩

theorem Message.withVisibility_messageId (visibility : Int) (now : Time) (msg : Message) :
    (msg.withVisibility visibility now).messageId = msg.messageId := by
  unfold Message.withVisibility
  split <;> rfl

variable {caller : Option Caller}

theorem handleSetVisibility_upkeeps {visibility : Int} :
    (handleSetVisibility caller messageId visibility :
      Op Fault (Response Unit)).Follows upkeeping ⟨upkeep, none⟩ fun _ _ => True := by
  unfold handleSetVisibility
  cases caller with
  | none => trivial
  | some caller =>
    dsimp only
    split
    · trivial
    · split
      · trivial
      · rw [follows_bind]
        refine findMessageByName_upkeeps (fun found => ?_) trivial
        cases found with
        | none => trivial
        | some msg =>
          have written : ∀ now, (upsertMessage (msg.withVisibility visibility now) >>=
              fun _ => pure (.success ()) : Op Fault (Response Unit)).Follows upkeeping
                ⟨upkeep, some msg⟩ fun _ _ => True := by
            intro now
            exact (upsertMessage_upkeeps rfl (msg.withVisibility_messageId visibility now)
              (msg.withVisibility_agrees visibility now)).freely fun _ _ => trivial
          show (leaseRestart msg >>= _).Follows upkeeping _ _
          unfold leaseRestart
          split
          · exact ⟨trivial, fun now _ => written now⟩
          · exact written 0

theorem handleSetMessageAttribute_upkeeps {key : String} {value : Variant} :
    (handleSetMessageAttribute caller messageId key value :
      Op Fault (Response Variant)).Follows upkeeping ⟨upkeep, none⟩ fun _ _ => True := by
  unfold handleSetMessageAttribute
  cases caller with
  | none => trivial
  | some caller =>
    rw [follows_bind]
    refine findMessageByName_upkeeps (fun found => ?_) trivial
    cases found with
    | none => trivial
    | some msg =>
      show (upsertMessage _ >>= _).Follows upkeeping _ _
      exact Follows.freely (upsertMessage_upkeeps rfl rfl ⟨rfl, rfl, rfl, rfl⟩) fun _ _ => trivial

theorem handleDeleteMessage_isPartial {receiptHandle : String} :
    (handleDeleteMessage caller receiptHandle messageId :
      Op Fault (Response Unit)).Asks Req.IsPartial := by
  unfold handleDeleteMessage
  cases caller with
  | none => trivial
  | some caller =>
    dsimp only
    split
    · exact (deleted_isPartial (asks_onMessages trivial)).bind fun _ => trivial
    · split
      · exact (deleted_isPartial (asks_onMessages trivial)).bind fun _ => trivial
      · trivial

theorem Upkeep.follows (env : Env) (upkeep : Upkeep) :
    (upkeep.program env).Follows upkeeping ⟨upkeep, none⟩ fun _ _ => True := by
  have ignored : ∀ {Result : Type} {program : Op StoreError Result},
      program.Follows upkeeping ⟨upkeep, none⟩ (fun _ _ => True) →
        (program >>= fun _ => pure ()).Follows upkeeping ⟨upkeep, none⟩ fun _ _ => True := by
    intro Result program follows
    exact follows.freely fun _ _ => trivial
  cases upkeep with
  | traffic operation =>
    exact follows_isPartial ((operation.isPartial env).bind fun _ => trivial) id
  | setVisibility caller messageId visibility => exact ignored handleSetVisibility_upkeeps
  | setMessageAttribute caller messageId key value =>
    exact ignored handleSetMessageAttribute_upkeeps
  | deleteMessage caller receiptHandle messageId =>
    exact follows_isPartial (handleDeleteMessage_isPartial.bind fun _ => trivial) id

/-! ### Runs -/

section Run

variable {Thread : Type} [DecidableEq Thread] {env : Env}
variable {processOf : Thread → Nat} {upkeeps : Thread → Upkeep} {origin world : World}
variable {hist : Past Thread}

abbrev readingsOf (upkeeps : Thread → Upkeep)
    (hist : History Thread Req Req.Answer World) : Thread → Reading :=
  upkeeping.sessions (fun tid => ⟨upkeeps tid, none⟩) hist

/-- Threads that each do one thing, in the process they belong to. -/
abbrev Upkeep.pool (env : Env) (origin : World) (upkeeps : Thread → Upkeep) :
    Pool Thread Req Req.Answer StoreError Unit World :=
  Pool.start origin fun tid => (upkeeps tid).program env

abbrev Kept (env : Env) (processOf : Thread → Nat) (upkeeps : Thread → Upkeep)
    (origin : World) (hist : History Thread Req Req.Answer World) (world : World) : Prop :=
  upkeeping.Governs (machines env processOf) (fun tid => ⟨upkeeps tid, none⟩) origin hist world

theorem readingsOf_upkeep (upkeeps : Thread → Upkeep) (hist : Past Thread) (tid : Thread) :
    (readingsOf upkeeps hist tid).upkeep = upkeeps tid := by
  induction hist with
  | nil => rfl
  | cons event earlier hypothesis =>
    rw [readingsOf, sessions_cons]
    split
    · exact (Reading.after_upkeep _ _ _).trans hypothesis
    · exact hypothesis

/-- A handler's write finds the message still stored, with what it has no business with as the
handler read it. -/
def WritesCurrent (upkeeps : Thread → Upkeep) (earlier : History Thread Req Req.Answer World)
    (event : Event Thread Req Req.Answer World) : Prop :=
  match event.request with
  | .message (.upsert _) => ∀ copy ∈ (readingsOf upkeeps earlier event.thread).copy,
      ∃ stored ∈ event.before.messages, stored.messageId = copy.messageId ∧ copy.Agrees stored
  | _ => True

def Req.IsDelete : Req → Prop
  | .message (.deleteByHandle _) | .message (.deleteById _) => True
  | _ => False

/-- A delete takes the message with this identifier out. -/
def Deletes (messageId : String) (event : Event Thread Req Req.Answer World) : Prop :=
  event.request.IsDelete ∧ ∃ msg ∈ event.before.messages,
    msg.messageId = messageId ∧ ∀ other ∈ event.after.messages, other.oid ≠ msg.oid

/-- A send of a message with this identifier. -/
def Sends (messageId : String) (event : Event Thread Req Req.Answer World) : Prop :=
  match event.request with
  | .message (.insert document) => document.messageId = messageId
  | .message (.insertMany documents) => ∃ document ∈ documents, document.messageId = messageId
  | _ => False

/-- A message with this identifier is stored. -/
def World.Has (world : World) (messageId : String) : Prop :=
  ∃ msg ∈ world.messages, msg.messageId = messageId

/-- Deleted messages stay deleted, unless they are sent again; and a handler that changes one
field leaves every message's status, handle, body and count as it finds them. -/
structure DeletionsKept (upkeeps : Thread → Upkeep)
    (pool : Pool Thread Req Req.Answer StoreError Unit World) : Prop where
  deleted : ∀ later event earlier, pool.history = later ++ event :: earlier →
    ∀ messageId, Deletes messageId event →
      (∃ sending ∈ later, Sends messageId sending) ∨ ¬pool.world.Has messageId
  changed : ∀ event ∈ pool.history, (upkeeps event.thread).ChangesOne →
    ∀ msg ∈ event.before.messages, ∃ after ∈ event.after.messages,
      after.oid = msg.oid ∧ msg.Agrees after

variable {asking : Thread}

theorem current_stored {hist : Past Thread}
    (allowed : (readingsOf upkeeps hist asking).allows (.message (.upsert written)))
    (current : WritesCurrent upkeeps hist
      (.made (machines env processOf) asking (.message (.upsert written)) world)) :
    ∃ stored ∈ world.messages, stored.messageId = written.messageId ∧ stored.Agrees written := by
  obtain ⟨copy, read, named, agrees⟩ := allowed
  obtain ⟨stored, mem, same, unchanged⟩ := current copy read
  exact ⟨stored, mem, same.trans named.symm, unchanged.symm.trans agrees⟩

variable {request : Req} {messageId : String}

theorem has_step (allowed : (readingsOf upkeeps hist asking).allows request)
    (current : WritesCurrent upkeeps hist (.made (machines env processOf) asking request world))
    (absent : ¬world.Has messageId)
    (present : (machines env processOf asking request world).2.Has messageId) :
    Sends messageId (.made (machines env processOf) asking request world) := by
  cases request with
  | message statement =>
    obtain ⟨msg, stored, named⟩ := present
    rcases statement.origin env.backend (env.systemClock world.moment) world.moment
      world.messages stored with ⟨before, mem, _, same | changes⟩ | ⟨_, document, _, inserts, same⟩
    · rw [same] at named
      exact absurd ⟨before, mem, named⟩ absent
    · exact absurd ⟨before, mem, changes.messageId.symm.trans named⟩ absent
    · have carried : document.messageId = messageId := by
        rw [← named, same]
      cases statement with
      | insert inserted =>
        obtain rfl : document = inserted := inserts
        exact carried
      | insertMany inserted => exact ⟨document, inserts, carried⟩
      | upsert written =>
        obtain rfl : document = written := inserts
        obtain ⟨found, mem, sameId, _⟩ := current_stored allowed current
        exact absurd ⟨found, mem, sameId.trans carried⟩ absent
      | _ => exact absurd inserts id
  | _ => exact absurd present absent

variable (kept : Kept env processOf upkeeps origin hist world)

include kept in
/-- A handler that changes one field leaves every message as it finds it, up to that field. -/
theorem changesOne_step (distinguished : Distinguished origin.messages)
    (allowed : (readingsOf upkeeps hist asking).allows request)
    (current : WritesCurrent upkeeps hist (.made (machines env processOf) asking request world))
    (changesOne : (upkeeps asking).ChangesOne) {msg : Message} (stored : msg ∈ world.messages) :
    ∃ after ∈ (machines env processOf asking request world).2.messages,
      after.oid = msg.oid ∧ msg.Agrees after := by
  have unchanged : ∃ after ∈ world.messages, after.oid = msg.oid ∧ msg.Agrees after :=
    ⟨msg, stored, rfl, .refl msg⟩
  cases request with
  | message statement =>
    cases statement with
    | upsert written =>
      rcases MessageStatement.fate env.backend (env.systemClock world.moment)
        world.moment world.messages (.upsert written) stored with
        ⟨after, mem, sameOid, same | changes⟩ | removes
      · exact ⟨after, mem, sameOid, by rw [same]; exact .refl msg⟩
      · obtain ⟨found, inWorld, sameId, agrees⟩ := current_stored allowed current
        obtain rfl : msg = found :=
          (records_distinguished kept.records distinguished).unique stored inWorld
            (changes.1.trans sameId.symm)
        refine ⟨after, mem, sameOid, ?_⟩
        rw [changes.2]
        exact ⟨agrees.status, agrees.receiptHandle, agrees.body, agrees.receivedCount⟩
      · exact absurd removes id
    | findById messageId => exact unchanged
    | _ =>
      have whole := allowed.2
      rw [readingsOf_upkeep] at whole
      exact absurd changesOne whole
  | _ => exact unchanged

include kept in
theorem deletes_gone (distinguished : Distinguished origin.messages)
    (deletes : Deletes messageId (.made (machines env processOf) asking request world)) :
    ¬(machines env processOf asking request world).2.Has messageId := by
  obtain ⟨isDelete, msg, stored, named, gone⟩ := deletes
  rintro ⟨other, present, sameId⟩
  have apart := records_distinguished kept.records distinguished
  cases request with
  | message statement =>
    rcases statement.origin env.backend (env.systemClock world.moment) world.moment
      world.messages present with ⟨before, mem, sameOid, same | changes⟩ | stores
    · obtain rfl : before = msg :=
        apart.unique mem stored ((congrArg Message.messageId same).symm.trans
          (sameId.trans named.symm))
      exact gone other present sameOid.symm
    · obtain rfl : before = msg :=
        apart.unique mem stored (changes.messageId.symm.trans (sameId.trans named.symm))
      exact gone other present sameOid.symm
    · obtain ⟨_, _, _, inserts, _⟩ := stores
      cases statement with
      | insert _ | insertMany _ | upsert _ => exact absurd isDelete id
      | _ => exact absurd inserts id
  | _ => exact gone msg stored rfl

theorem upkeep_run (env : Env) (processOf : Thread → Nat)
    (upkeeps : Thread → Upkeep) (origin : World) (schedule : List Thread) :
    Kept env processOf upkeeps origin
      ((pool env origin upkeeps).run (machines env processOf) schedule).history
      ((pool env origin upkeeps).run (machines env processOf) schedule).world :=
  (governs_run upkeeping (machines env processOf) (fun tid => ⟨upkeeps tid, none⟩)
    (fun _ _ _ => True) origin (fun tid => (upkeeps tid).program env)
    (fun tid => (upkeeps tid).follows env) (fun _ _ _ _ _ _ => trivial)
    schedule).1

/-- In every run in which each handler writes over the message as it read it, deleted messages
stay deleted and a change of one field changes nothing else. -/
theorem deletions_kept (env : Env) (processOf : Thread → Nat)
    (upkeeps : Thread → Upkeep) (origin : World) (distinguished : Distinguished origin.messages)
    (schedule : List Thread) (current : History.Meets (WritesCurrent upkeeps)
      ((pool env origin upkeeps).run (machines env processOf) schedule).history) :
    DeletionsKept upkeeps ((pool env origin upkeeps).run
      (machines env processOf) schedule) := by
  have kept := upkeep_run env processOf upkeeps origin schedule
  generalize (pool env origin upkeeps).run (machines env processOf)
    schedule = pool at current kept ⊢
  have meets := (History.meets_iff_split _ _).mp current
  constructor
  · intro later event earlier split messageId deletes
    by_cases present : pool.world.Has messageId
    · rw [split] at kept
      have gone : ¬event.after.Has messageId := by
        obtain ⟨_, made⟩ := kept.made
        rw [made] at deletes ⊢
        exact deletes_gone kept.before distinguished deletes
      obtain ⟨turning, mem, absent, back⟩ :=
        kept.records.crossing (World.Has · messageId) gone present
      obtain ⟨newer, older, rfl⟩ := List.append_of_mem mem
      have regrouped : newer ++ turning :: older ++ event :: earlier =
          newer ++ turning :: (older ++ event :: earlier) := by simp
      rw [regrouped] at split kept
      obtain ⟨allowed, made⟩ := kept.made
      have condition := meets _ _ _ split
      rw [made] at condition back
      refine .inl ⟨turning, mem, ?_⟩
      rw [made]
      exact has_step allowed condition absent back
    · exact .inr present
  · intro event mem changesOne msg stored
    obtain ⟨later, earlier, split⟩ := List.append_of_mem mem
    rw [split] at kept
    obtain ⟨allowed, made⟩ := kept.made
    have condition := meets _ _ _ split
    rw [made] at condition ⊢
    exact changesOne_step kept.before distinguished allowed condition changesOne stored

end Run

/-! ### Both outcomes -/

section Decidable

variable {Thread : Type} [DecidableEq Thread] (upkeeps : Thread → Upkeep) (messageId : String)
variable (earlier : Past Thread) (event : Event Thread Req Req.Answer World)

instance : Decidable (WritesCurrent upkeeps earlier event) := by
  unfold WritesCurrent
  generalize event.request = request
  rcases request with _ | _ | _ | _ | _ | ⟨⟨⟩⟩ <;> infer_instance

instance (request : Req) : Decidable request.IsDelete := by
  unfold Req.IsDelete
  split <;> infer_instance

instance : Decidable (Deletes messageId event) := by
  unfold Deletes
  infer_instance

instance : Decidable (Sends messageId event) := by
  unfold Sends
  generalize event.request = request
  rcases request with _ | _ | _ | _ | _ | ⟨⟨⟩⟩ <;> infer_instance

instance (world : World) : Decidable (world.Has messageId) := by
  unfold World.Has
  infer_instance

end Decidable

/-- A change of a message's visibility, and a delete of the message. -/
def changedAndDeleted : Bool → Upkeep
  | false => .setVisibility (some ⟨"someone", "1", "eu-central-1"⟩) "first" 60
  | true => .deleteMessage (some ⟨"someone", "1", "eu-central-1"⟩) "" "first"

/-- One after the other the two do no harm. -/
theorem deletions_kept_of_turns :
    DeletionsKept changedAndDeleted ((pool (.stepping .mongo 1) .oneWaiting
      changedAndDeleted).run (machines (.stepping .mongo 1) fun _ => 0)
        (List.replicate 3 false ++ List.replicate 9 true)) :=
  deletions_kept (.stepping .mongo 1) (fun _ => 0) changedAndDeleted .oneWaiting
    (List.nodup_singleton _) _ (by decide)

/-- The change has read the message when the delete takes it out, and its write stores the
message again. -/
theorem change_undoes_delete :
    ¬DeletionsKept changedAndDeleted ((pool (.stepping .mongo 1) .oneWaiting
      changedAndDeleted).run (machines (.stepping .mongo 1) fun _ => 0)
        ([false] ++ List.replicate 9 true ++ List.replicate 3 false)) := by
  intro kept
  generalize final : (pool (.stepping .mongo 1) .oneWaiting changedAndDeleted).run
    (machines (.stepping .mongo 1) fun _ => 0) _ = pool at kept
  have long : 3 < pool.history.length := by
    rw [← final]
    decide
  have split : pool.history = pool.history.take 3 ++ pool.history[3] :: pool.history.drop 4 := by
    rw [← List.drop_eq_getElem_cons long, List.take_append_drop]
  have deletes : ∀ event ∈ pool.history[3]?, Deletes "first" event := by
    rw [← final]
    decide
  rcases kept.deleted _ _ _ split "first"
    (deletes _ (List.getElem?_eq_getElem long)) with sent | absent
  · revert sent
    rw [← final]
    decide
  · revert absent
    rw [← final]
    decide

end Euclid.Eqs
