/-
This file translates a rename by a transfer server, step by step, and proves when it loses nothing.

A rename downloads the source into a spool file, uploads the file as the target, removes the file,
and removes the source. The name of the file depends only on the key of the source, so renames of
any sessions, servers and buckets can share it. An upload that is sent in parts is answered before
there is an object: a thread of the object store assembles the parts later, and may fail. A step may
fail; a call that is answered as a failure may have been carried out all the same.

What a rename has reached is read off its own steps, and an invariant says what it may then rely on:
the spool file, the source, and the target, which is stored or still to be assembled. The steps of
others keep it unless they touch these.
-/

import Euclid.Interleaving
import Euclid.Transfer.Storage

namespace Euclid.Transfer.Renaming

open Program Option Function
open Core (Text)

/-! ### Steps -/

/-- A bucket, and a key in it. -/
abbrev Address := ℕ × Text

inductive Step where
  | download (source : Address) (spool : ℕ)
  | upload (target : Address) (spool : ℕ)
  | removeSpool (spool : ℕ)
  | remove (source : Address)
  /-- The thread that `complete-upload` has started for an upload. -/
  | assemble (number : ℕ) (target : Address)
  deriving DecidableEq

open Step

def Step.Answer : Step → Type
  | .removeSpool _ => Unit
  | _ => Bool

/-- The row of a key: whether it is marked as archived, and the bytes of its file. There are none
while the row waits for an upload. -/
structure Row where
  archived : Bool
  bytes : Option Bytes
  deriving DecidableEq

/-- What `get-object` serves of a row. -/
def Row.served (row : Row) : Option Bytes := if row.archived then none else row.bytes

/-- The objects of all buckets, the uploads, in order, as far as they wait to be assembled, the
spool files of the host, and how many steps were made. -/
structure World where
  objects : Address → Option Row
  staged : List (Option (Address × Bytes))
  spools : ℕ → Option Bytes
  moment : ℕ

inductive Fate where
  | done
  | failed
  /-- Carried out, and answered as a failure. -/
  | unanswered
  deriving DecidableEq

/-- What becomes of the steps, and what is configured. -/
structure Env where
  fate : ℕ → Fate
  /-- What a download that fails leaves in its file, if it touches it. -/
  left : ℕ → Option Bytes
  /-- Whether a call that breaks off leaves a row that has no bytes. -/
  leavesRow : ℕ → Bool
  /-- Whether `clearObjectLifecycle` succeeds. -/
  clears : ℕ → Bool
  inlineMaxSize : Int
  partSize : ℕ
  /-- The names of spool files. -/
  hash : Text → ℕ

namespace World

variable (world : World)

def setObject (address : Address) (object : Option Row) : World :=
  { world with objects := Function.update world.objects address object }

def setSpool (spool : ℕ) (file : Option Bytes) : World :=
  { world with spools := Function.update world.spools spool file }

/-- Note an upload, with what is to be assembled of it. -/
def enlist (entry : Option (Address × Bytes)) : World :=
  { world with staged := world.staged ++ [entry] }

/-- What is still to be assembled of an upload. -/
def waits (number : ℕ) : Option (Address × Bytes) := world.staged[number]?.join

/-- What is served under a key. -/
def served (address : Address) : Option Bytes := (world.objects address).bind Row.served

def archived (address : Address) : Bool := (world.objects address).any Row.archived

variable (env : Env) (target : Address) (bytes : Bytes)

/-- Store an object: `upsertObject` keeps the mark of an archived row, and then
`clearObjectLifecycle`, whose result is ignored, takes it off. -/
def store : World :=
  world.setObject target
    (some ⟨world.archived target && !env.clears world.moment, some bytes⟩)

/-- `complete-upload`: the row waits until the parts are assembled. -/
def stage : World :=
  (world.setObject target (some ⟨world.archived target, none⟩)).enlist (some (target, bytes))

end World

/-- What an upload sends in parts: what `Write` of a stream no longer holds back. -/
def InParts (env : Env) (bytes : Bytes) : Prop :=
  env.inlineMaxSize < bytes.length ∧ env.partSize ≤ bytes.length

instance (env : Env) (bytes : Bytes) : Decidable (InParts env bytes) :=
  inferInstanceAs (Decidable (_ ∧ _))

section Acts

variable (env : Env) (world : World)

def actDownload (source : Address) (spool : ℕ) : Bool × World :=
  match env.fate world.moment, world.served source with
  | .done, some bytes => (true, world.setSpool spool (some bytes))
  | .done, none => (false, world)
  | _, _ =>
    match env.left world.moment with
    | some partly => (false, world.setSpool spool (some partly))
    | none => (false, world)

/-- An upload that is carried out: `put-object`, or the calls for its parts. -/
def sent (target : Address) (bytes : Bytes) : World :=
  if InParts env bytes then world.stage target bytes
  else (world.store env target bytes).enlist none

/-- An upload that breaks off. `create-upload` may have made the row of a new key. -/
def broken (target : Address) (bytes : Bytes) : World :=
  if InParts env bytes ∧ env.leavesRow world.moment ∧ world.objects target = none then
    (world.setObject target (some ⟨false, none⟩)).enlist none
  else world.enlist none

def actUpload (target : Address) (spool : ℕ) : Bool × World :=
  match env.fate world.moment, world.spools spool with
  | .done, some bytes => (true, sent env world target bytes)
  | .unanswered, some bytes => (false, sent env world target bytes)
  | .failed, some bytes => (false, broken env world target bytes)
  | _, none => (false, world.enlist none)

def actRemoveSpool (spool : ℕ) : World :=
  match env.fate world.moment with
  | .done => world.setSpool spool none
  | _ => world

/-- `delete-object` removes the file before the row, so it may break off in between. -/
def actRemove (source : Address) : Bool × World :=
  match env.fate world.moment, world.objects source with
  | .done, some _ => (true, world.setObject source none)
  | .unanswered, some row =>
    if env.leavesRow world.moment then
      (false, world.setObject source (some { row with bytes := none }))
    else (false, world.setObject source none)
  | _, _ => (false, world)

/-- The parts stay where they are if they cannot be assembled. -/
def actAssemble (number : ℕ) (target : Address) : Bool × World :=
  match env.fate world.moment, world.waits number with
  | .failed, _ => (false, world)
  | _, none => (false, world)
  | _, some (under, bytes) =>
    if under = target then
      (true, { world.store env target bytes with staged := world.staged.set number none })
    else (false, world)

end Acts

def act (env : Env) : (step : Step) → World → step.Answer × World
  | .download source spool, world => actDownload env world source spool
  | .upload target spool, world => actUpload env world target spool
  | .removeSpool spool, world => ((), actRemoveSpool env world spool)
  | .remove source, world => actRemove env world source
  | .assemble number target, world => actAssemble env world number target

def machine (env : Env) : Machine Step Answer World :=
  fun step world =>
    ((act env step world).1, { (act env step world).2 with moment := world.moment + 1 })

/-! ### Renames -/

structure Rename where
  bucket : ℕ
  fromKey : Text
  toKey : Text

namespace Rename

variable (hash : Text → ℕ) (rename : Rename)

def source : Address := (rename.bucket, stripLeadingSlash rename.fromKey)

def target : Address := (rename.bucket, stripLeadingSlash rename.toKey)

def spool : ℕ := hash rename.fromKey

end Rename

def download (source : Address) (spool : ℕ) : Program Step Answer Empty Bool :=
  issue (Step.download source spool)

def upload (target : Address) (spool : ℕ) : Program Step Answer Empty Bool :=
  issue (Step.upload target spool)

def removeSpool (spool : ℕ) : Program Step Step.Answer Empty Unit := issue (Step.removeSpool spool)

def remove (source : Address) : Program Step Step.Answer Empty Bool := issue (Step.remove source)

def assemble (number : ℕ) (target : Address) : Program Step Step.Answer Empty Bool :=
  issue (Step.assemble number target)

/-- `TransferStorage::Rename`. -/
def renameObject (hash : Text → ℕ) (rename : Rename) : Program Step Answer Empty Bool := do
  if ← download rename.source (rename.spool hash) then
    let uploaded ← upload rename.target (rename.spool hash)
    removeSpool (rename.spool hash)
    if uploaded then remove rename.source
    else return false
  else return false

/-- What a transfer server does for a step. The file that is removed is its own, and parts are
assembled elsewhere. -/
def reach (settings : Settings) : (step : Step) → Work step.Answer
  | .download source _ =>
    (Transfer.download settings source.2).bind fun file => .done file.isSome
  | .upload target _ => readFile.bind fun file => uploadFile settings target.2 file
  | .removeSpool _ => .done ()
  | .remove source => Transfer.remove source.2
  | .assemble _ _ => .done false

/-- These are the steps of the rename that a transfer server does. -/
theorem rename_eq_interpret (settings : Settings) (hash : Text → ℕ) (rename : Rename) :
    Transfer.rename settings rename.fromKey rename.toKey =
      (renameObject hash rename).interpret (reach settings) id := by
  have stripped : ∀ key, stripLeadingSlash (stripLeadingSlash key) = stripLeadingSlash key :=
    List.dropWhile_idempotent _
  have source : Transfer.download settings rename.source.2 =
      Transfer.download settings rename.fromKey := by
    unfold Transfer.download downloadInParts Rename.source
    rw [stripped]
  have target : ∀ file, uploadFile settings rename.target.2 file =
      uploadFile settings rename.toKey file := fun file => by
    unfold uploadFile Rename.target
    rw [stripped]
  have gone : Transfer.remove rename.source.2 = Transfer.remove rename.fromKey := by
    unfold Transfer.remove ernOf Rename.source
    rw [stripped]
  show (Transfer.download settings rename.fromKey).bind _ =
    ((Transfer.download settings rename.source.2).bind fun file => done file.isSome).bind _
  rw [source]
  refine Eq.trans ?_ (bind_bind _ _ _).symm
  refine congrArg (Transfer.download settings rename.fromKey).bind (funext fun file => ?_)
  cases file with
  | none => rfl
  | some bytes =>
    show readFile.bind
      _ = (readFile.bind fun file => uploadFile settings rename.target.2 file).bind _
    refine Eq.trans ?_ (bind_bind _ _ _).symm
    refine congrArg readFile.bind (funext fun file => ?_)
    rw [target]
    refine congrArg (uploadFile settings rename.toKey file).bind (funext fun uploaded => ?_)
    cases uploaded with
    | false => rfl
    | true =>
      show Transfer.remove rename.fromKey = (Transfer.remove rename.source.2).bind done
      rw [gone, bind_of_done]

/-- What a thread does: a rename of a transfer server, or an assembly of the object store. -/
inductive Task where
  | renaming (rename : Rename)
  | assembly (number : ℕ) (target : Address)

def Task.program (hash : Text → ℕ) : Task → Program Step Answer Empty Bool
  | .renaming rename => renameObject hash rename
  | .assembly number target => assemble number target

/-! ### What a rename has reached -/

inductive Phase where
  | fresh
  | downloaded
  | uploaded (stored : Bool)
  | cleaned
  | ended (result : Bool)

def Phase.program (hash : Text → ℕ) (rename : Rename) : Phase → Program Step Answer Empty Bool
  | .fresh => renameObject hash rename
  | .downloaded => do
    let uploaded ← upload rename.target (rename.spool hash)
    removeSpool (rename.spool hash)
    if uploaded then remove rename.source
    else return false
  | .uploaded stored => do
    removeSpool (rename.spool hash)
    if stored then remove rename.source
    else return false
  | .cleaned => remove rename.source
  | .ended result => return result

def Phase.after : Phase → (step : Step) → step.Answer → Phase
  | .fresh, .download _ _, true => .downloaded
  | .fresh, .download _ _, false => .ended false
  | .downloaded, .upload _ _, stored => .uploaded stored
  | .uploaded true, .removeSpool _, _ => .cleaned
  | .uploaded false, .removeSpool _, _ => .ended false
  | .cleaned, .remove _, removed => .ended removed
  | phase, _, _ => phase

section Histories

variable {Thread : Type} [DecidableEq Thread] (tid : Thread)

abbrev Past (Thread : Type) := History Thread Step Answer World

/-- What the rename of a thread has reached. -/
def phaseOf : Past Thread → Phase
  | [] => .fresh
  | event :: earlier =>
    if event.thread = tid then (phaseOf earlier).after event.request event.answer
    else phaseOf earlier

/-- The world in which the rename of a thread was begun. -/
def beginning : Past Thread → Option World
  | [] => none
  | event :: earlier =>
    (beginning earlier).or (if event.thread = tid then some event.before else none)

/-- The world that the last step of a thread has left. -/
def ending : Past Thread → Option World
  | [] => none
  | event :: earlier => if event.thread = tid then some event.after else ending earlier

def Step.sends : Step → Bool
  | .upload _ _ => true
  | _ => false

/-- The number of the upload of a thread. -/
def uploadOf : Past Thread → Option ℕ
  | [] => none
  | event :: earlier =>
    if event.thread = tid ∧ event.request.sends then some event.before.staged.length
    else uploadOf earlier

/-- Where an event stores the upload of a thread: the upload itself, or its assembly. -/
def storesAt (earlier : Past Thread) (event : Event Thread Step Answer World) : Option Address :=
  match event.request with
  | .upload target _ => if event.thread = tid then some target else none
  | .assemble number target => if uploadOf tid earlier = some number then some target else none
  | _ => none

/-! ### When nothing is lost -/

/-- What a rename that has returned should have done: the target holds what the source held, and
the source is gone; or the source is as it was. -/
def Outcome (rename : Rename) (first last : World) : Bool → Prop
  | true => ∃ bytes, first.served rename.source = some bytes ∧
      last.served rename.target = some bytes ∧
      (rename.target ≠ rename.source → last.objects rename.source = none)
  | false => last.objects rename.source = first.objects rename.source

/-- Where an event stores the upload of a rename, it stores what the source held. -/
def StoresItsSource (rename : Rename) (earlier : Past Thread)
    (event : Event Thread Step Answer World) : Prop :=
  ∀ target ∈ storesAt tid earlier event, ∀ bytes, event.after.served target = some bytes →
    event.before.served target = some bytes ∨
      ∃ first, beginning tid (event :: earlier) = some first ∧
        first.served rename.source = some bytes

/-- The rename of a thread loses nothing: it ends as it should, and stores nothing but its
source. -/
structure LosesNothing (rename : Rename) (hist : Past Thread) : Prop where
  outcome : ∀ result first last, phaseOf tid hist = .ended result →
    beginning tid hist = some first → ending tid hist = some last →
    Outcome rename first last result
  stores : History.Meets (StoresItsSource tid rename) hist

def Step.object : Step → Option Address
  | .upload target _ => some target
  | .remove source => some source
  | .assemble _ target => some target
  | _ => none

def Step.file : Step → Option ℕ
  | .download _ spool => some spool
  | .removeSpool spool => some spool
  | _ => none

/-- A step of another thread leaves alone what a rename in a phase relies on: its spool file and
its source until it has uploaded, and then its source and its target. The assembly of its own
upload is meant to touch the target. -/
def Spares (hash : Text → ℕ) (rename : Rename) (sentAs : Option ℕ) :
    Phase → Step → Prop
  | .downloaded, step => step.file ≠ some (rename.spool hash) ∧ step.object ≠ some rename.source
  | .uploaded false, step => step.object ≠ some rename.source
  | .uploaded true, step | .cleaned, step => step.object ≠ some rename.source ∧
      (step.object ≠ some rename.target ∨ ∃ number ∈ sentAs, step = .assemble number rename.target)
  | _, _ => True

instance (hash : Text → ℕ) (rename : Rename) (sentAs : Option ℕ) :
    (phase : Phase) → (step : Step) → Decidable (Spares hash rename sentAs phase step)
  | .fresh, _ => .isTrue trivial
  | .downloaded, _ => inferInstanceAs (Decidable (_ ∧ _))
  | .uploaded false, _ => inferInstanceAs (Decidable (_ ≠ _))
  | .uploaded true, _ => inferInstanceAs (Decidable (_ ∧ (_ ∨ ∃ number ∈ sentAs, _ = _)))
  | .cleaned, _ => inferInstanceAs (Decidable (_ ∧ (_ ∨ ∃ number ∈ sentAs, _ = _)))
  | .ended _, _ => .isTrue trivial

/-- What an event must meet so that the rename of a thread loses nothing. -/
structure Harmless (env : Env) (rename : Rename) (earlier : Past Thread)
    (event : Event Thread Step Answer World) : Prop where
  /-- The steps of others spare what the rename relies on. -/
  spares : event.thread ≠ tid →
    Spares env.hash rename (uploadOf tid earlier) (phaseOf tid earlier) event.request
  /-- Where its upload is stored over an archived row, the mark is taken off. -/
  clears : ∀ target ∈ storesAt tid earlier event, event.before.archived target = true →
    env.clears event.before.moment = true
  /-- When it removes its source, its upload is assembled if it was sent in parts, and the call
  is not carried out while it is answered as a failure. -/
  finished : event.thread = tid → event.request = .remove rename.source →
    (∀ number ∈ uploadOf tid earlier, event.before.waits number = none) ∧
      env.fate event.before.moment ≠ .unanswered

instance (env : Env) (rename : Rename) (earlier : Past Thread)
    (event : Event Thread Step Answer World) : Decidable (Harmless tid env rename earlier event) :=
  decidable_of_iff (_ ∧ _ ∧ _)
    ⟨fun ⟨spares, clears, finished⟩ => ⟨spares, clears, finished⟩,
      fun harmless => ⟨harmless.spares, harmless.clears, harmless.finished⟩⟩

/-- Every event of a run is harmless to the rename of a thread. -/
def Undisturbed (env : Env) (rename : Rename) (hist : Past Thread) : Prop :=
  History.Meets (Harmless tid env rename) hist

instance (env : Env) (rename : Rename) (hist : Past Thread) :
    Decidable (Undisturbed tid env rename hist) :=
  inferInstanceAs (Decidable (History.Meets _ _))

end Histories

/-! ### What a step leaves -/

theorem setObject_of_ne {world : World} {changed address : Address} (object : Option Row)
    (different : changed ≠ address) :
    (world.setObject changed object).objects address = world.objects address :=
  update_of_ne different.symm _ _

theorem sent_objects (env : Env) (world : World) (bytes : Bytes) {target address : Address}
    (different : target ≠ address) :
    (sent env world target bytes).objects address = world.objects address := by
  unfold sent
  split
  · exact setObject_of_ne _ different
  · exact setObject_of_ne _ different

theorem act_objects (env : Env) (step : Step) (address : Address) (world : World)
    (other : step.object ≠ some address) :
    (machine env step world).2.objects address = world.objects address := by
  cases step with
  | download source spool =>
    show (actDownload env world source spool).2.objects address = _
    unfold actDownload
    split
    · rfl
    · rfl
    · split
      · rfl
      · rfl
  | upload target spool =>
    have different : target ≠ address := fun same => other (congrArg some same)
    show (actUpload env world target spool).2.objects address = _
    unfold actUpload
    split
    · exact sent_objects _ _ _ different
    · exact sent_objects _ _ _ different
    · show (broken env world target _).objects address = _
      unfold broken
      split
      · exact setObject_of_ne _ different
      · rfl
    · rfl
  | removeSpool spool =>
    show (actRemoveSpool env world spool).objects address = _
    unfold actRemoveSpool
    split
    · rfl
    · rfl
  | remove source =>
    have different : source ≠ address := fun same => other (congrArg some same)
    show (actRemove env world source).2.objects address = _
    unfold actRemove
    split
    · exact setObject_of_ne _ different
    · split
      · exact setObject_of_ne _ different
      · exact setObject_of_ne _ different
    · rfl
  | assemble moment target =>
    have different : target ≠ address := fun same => other (congrArg some same)
    show (actAssemble env world moment target).2.objects address = _
    unfold actAssemble
    split
    · rfl
    · rfl
    · split
      · exact setObject_of_ne _ different
      · rfl

theorem act_served (env : Env) (step : Step) (address : Address) (world : World)
    (other : step.object ≠ some address) :
    (machine env step world).2.served address = world.served address :=
  congrArg (Option.bind · Row.served) (act_objects env step address world other)

variable {world : World} {env : Env}

theorem act_spools {step : Step} {spool : ℕ} (other : step.file ≠ some spool) :
    (machine env step world).2.spools spool = world.spools spool := by
  have keeps (changed : ℕ) (file : Option Bytes) (different : changed ≠ spool) :
      (world.setSpool changed file).spools spool = world.spools spool :=
    update_of_ne different.symm _ _
  cases step with
  | download source changed =>
    have different : changed ≠ spool := fun same => other (congrArg some same)
    show (actDownload env world source changed).2.spools spool = _
    unfold actDownload
    split
    · exact keeps _ _ different
    · rfl
    · split
      · exact keeps _ _ different
      · rfl
  | upload target changed =>
    show (actUpload env world target changed).2.spools spool = _
    unfold actUpload sent broken
    split
    · split
      · rfl
      · rfl
    · split
      · rfl
      · rfl
    · dsimp only
      split
      · rfl
      · rfl
    · rfl
  | removeSpool changed =>
    have different : changed ≠ spool := fun same => other (congrArg some same)
    show (actRemoveSpool env world changed).spools spool = _
    unfold actRemoveSpool
    split
    · exact keeps _ _ different
    · rfl
  | remove source =>
    show (actRemove env world source).2.spools spool = _
    unfold actRemove
    split
    · rfl
    · split
      · rfl
      · rfl
    · rfl
  | assemble moment target =>
    show (actAssemble env world moment target).2.spools spool = _
    unfold actAssemble
    split
    · rfl
    · rfl
    · split
      · rfl
      · rfl

section

variable {number : ℕ} {target : Address} {bytes : Bytes}

theorem enlist_waits (world : World) (entry : Option (Address × Bytes))
    (old : number < world.staged.length) :
    (world.enlist entry).waits number = world.waits number := by
  show (world.staged ++ [entry])[number]?.join = _
  rw [List.getElem?_append_left old]
  rfl

theorem enlist_waits_self (world : World) (entry : Option (Address × Bytes)) :
    (world.enlist entry).waits world.staged.length = entry := by
  show (world.staged ++ [entry])[world.staged.length]?.join = _
  rw [List.getElem?_concat_length]
  rfl

/-- An upload leaves those before it to be assembled as they were. -/
theorem upload_waits (address : Address) (spool : ℕ) (old : number < world.staged.length) :
    (machine env (.upload address spool) world).2.waits number = world.waits number := by
  have sends (stored : Bytes) :
      (sent env world address stored).waits number = world.waits number := by
    unfold sent
    split
    · exact enlist_waits (world.setObject _ _) _ old
    · exact enlist_waits (world.store _ _ _) _ old
  show (actUpload env world address spool).2.waits number = _
  unfold actUpload
  split
  · exact sends _
  · exact sends _
  · show (broken env world address _).waits number = _
    unfold broken
    split
    · exact enlist_waits (world.setObject _ _) _ old
    · exact enlist_waits _ _ old
  · exact enlist_waits _ _ old

/-- Of the uploads there are, a step stages none, and only an assembly takes away what waits. -/
theorem act_waits (env : Env) (step : Step) (old : number < world.staged.length) :
    (machine env step world).2.waits number = world.waits number ∨
      ((machine env step world).2.waits number = none ∧
        ∃ target bytes, step = .assemble number target ∧
          world.waits number = some (target, bytes)) := by
  cases step with
  | download source spool =>
    left
    show (actDownload env world source spool).2.waits number = _
    unfold actDownload
    split
    · rfl
    · rfl
    · split
      · rfl
      · rfl
  | upload address spool => exact .inl (upload_waits address spool old)
  | removeSpool spool =>
    left
    show (actRemoveSpool env world spool).waits number = _
    unfold actRemoveSpool
    split
    · rfl
    · rfl
  | remove source =>
    left
    show (actRemove env world source).2.waits number = _
    unfold actRemove
    split
    · rfl
    · split
      · rfl
      · rfl
    · rfl
  | assemble other target =>
    show (actAssemble env world other target).2.waits number = _ ∨
      (actAssemble env world other target).2.waits number = none ∧ _
    unfold actAssemble
    split
    · exact .inl rfl
    · exact .inl rfl
    case h_3 under bytes waits _ =>
      split
      case isTrue same =>
        subst same
        have set : ({ world.store env under bytes with
            staged := world.staged.set other none } : World).waits number =
            ((world.staged.set other none)[number]?).join := rfl
        by_cases this : other = number
        · subst this
          refine .inr ⟨?_, _, _, rfl, waits⟩
          rw [set, List.getElem?_set_self old]
          rfl
        · rw [set, List.getElem?_set_ne this]
          exact .inl rfl
      · exact .inl rfl

theorem waits_of_act {step : Step} (old : number < world.staged.length)
    (waits : (machine env step world).2.waits number = some (target, bytes)) :
    world.waits number = some (target, bytes) := by
  obtain same | ⟨none, _⟩ := act_waits env step old
  · exact same.symm.trans waits
  · exact nomatch waits.symm.trans none

theorem act_waits_of_ne {step : Step} (old : number < world.staged.length)
    (other : step ≠ .assemble number target) (waits : world.waits number = some (target, bytes)) :
    (machine env step world).2.waits number = some (target, bytes) := by
  obtain same | ⟨_, under, stored, rfl, held⟩ := act_waits env step old
  · exact same.trans waits
  · obtain ⟨rfl, -⟩ := Prod.mk.inj (some.inj (waits.symm.trans held))
    exact absurd rfl other

/-- What is served where an object has been stored. -/
theorem store_served (kept : world.archived target = true → env.clears world.moment = true) :
    (world.store env target bytes).served target = some bytes := by
  have clear : (world.archived target && !env.clears world.moment) = false := by
    cases archived : world.archived target with
    | false => rfl
    | true => rw [kept archived]; rfl
  show (Function.update world.objects target _ target).bind Row.served = _
  rw [update_self, clear]
  rfl

theorem served_of_store {served : Bytes}
    (serves : (world.store env target bytes).served target = some served) : served = bytes := by
  change (Function.update world.objects target _ target).bind Row.served = _ at serves
  rw [update_self] at serves
  change (if _ then none else some bytes) = some served at serves
  split at serves
  · exact nomatch serves
  · exact (some.inj serves).symm

/-- An upload that is carried out stores its bytes, or leaves them to be assembled. -/
theorem sent_stores (kept : world.archived target = true → env.clears world.moment = true) :
    (sent env world target bytes).served target = some bytes ∨
      (sent env world target bytes).waits world.staged.length = some (target, bytes) := by
  unfold sent
  split
  · exact .inr (enlist_waits_self (world.setObject _ _) _)
  · exact .inl (store_served kept)

theorem served_of_sent {served : Bytes}
    (serves : (sent env world target bytes).served target = some served) : served = bytes := by
  unfold sent at serves
  split at serves
  · change (Function.update world.objects target _ target).bind Row.served = _ at serves
    rw [update_self] at serves
    change (if _ then none else none) = some served at serves
    split at serves
    · exact nomatch serves
    · exact nomatch serves
  · exact served_of_store serves

theorem waits_of_sent {address : Address} {stored : Bytes}
    (waits : (sent env world target bytes).waits world.staged.length = some (address, stored)) :
    stored = bytes := by
  unfold sent at waits
  split at waits
  · have same := (enlist_waits_self (world.setObject _ _) _).symm.trans waits
    exact (Prod.mk.inj (some.inj same)).2.symm
  · exact nomatch (enlist_waits_self (world.store _ _ _) _).symm.trans waits

end

theorem act_upload_length (target : Address) (spool : ℕ) :
    (machine env (.upload target spool) world).2.staged.length = world.staged.length + 1 := by
  have enlists (other : World) (entry : Option (Address × Bytes))
      (same : other.staged = world.staged) :
      (other.enlist entry).staged.length = world.staged.length + 1 := by
    show (other.staged ++ [entry]).length = _
    rw [same]
    exact List.length_append
  have sends (stored : Bytes) :
      (sent env world target stored).staged.length = world.staged.length + 1 := by
    unfold sent
    split
    · exact enlists _ _ rfl
    · exact enlists _ _ rfl
  show (actUpload env world target spool).2.staged.length = _
  unfold actUpload
  split
  · exact sends _
  · exact sends _
  · show (broken env world target _).staged.length = _
    unfold broken
    split
    · exact enlists _ _ rfl
    · exact enlists _ _ rfl
  · exact enlists _ _ rfl

/-- No step forgets an upload. -/
theorem act_length (step : Step) :
    world.staged.length ≤ (machine env step world).2.staged.length := by
  cases step with
  | download source spool =>
    show _ ≤ (actDownload env world source spool).2.staged.length
    unfold actDownload
    split
    · exact le_rfl
    · exact le_rfl
    · split
      · exact le_rfl
      · exact le_rfl
  | upload target spool =>
    rw [act_upload_length]
    exact Nat.le_succ _
  | removeSpool spool =>
    show _ ≤ (actRemoveSpool env world spool).staged.length
    unfold actRemoveSpool
    split
    · exact le_rfl
    · exact le_rfl
  | remove source =>
    show _ ≤ (actRemove env world source).2.staged.length
    unfold actRemove
    split
    · exact le_rfl
    · split
      · exact le_rfl
      · exact le_rfl
    · exact le_rfl
  | assemble number target =>
    show _ ≤ (actAssemble env world number target).2.staged.length
    unfold actAssemble
    split
    · exact le_rfl
    · exact le_rfl
    · split
      · exact (List.length_set ..).ge
      · exact le_rfl

variable {source target : Address} {bytes : Bytes}

theorem act_download {spool : ℕ}
    (succeeded : (machine env (.download source spool) world).1 = true) :
    ∃ bytes, world.served source = some bytes ∧
      (machine env (.download source spool) world).2.spools spool = some bytes := by
  change (actDownload env world source spool).1 = true at succeeded
  show ∃ bytes, _ ∧ (actDownload env world source spool).2.spools spool = some bytes
  unfold actDownload at succeeded ⊢
  split at succeeded
  case h_1 bytes done found =>
    exact ⟨bytes, found, update_self _ _ _⟩
  · nomatch succeeded
  · split at succeeded
    · nomatch succeeded
    · nomatch succeeded

/-- An upload that succeeds stores the spool file, or leaves it to be assembled. -/
theorem act_upload {spool : ℕ}
    (kept : world.archived target = true → env.clears world.moment = true)
    (succeeded : (machine env (.upload target spool) world).1 = true) :
    ∃ bytes, world.spools spool = some bytes ∧
      ((machine env (.upload target spool) world).2.served target = some bytes ∨
        (machine env (.upload target spool) world).2.waits world.staged.length =
          some (target, bytes)) := by
  change (actUpload env world target spool).1 = true at succeeded
  show ∃ bytes, _ ∧ ((actUpload env world target spool).2.served target = some bytes ∨
    (actUpload env world target spool).2.waits world.staged.length = some (target, bytes))
  unfold actUpload at succeeded ⊢
  split at succeeded
  case h_1 bytes done file => exact ⟨bytes, file, sent_stores kept⟩
  · nomatch succeeded
  · nomatch succeeded
  · nomatch succeeded

/-- What is served under the target of an upload was served before, or is the spool file. -/
theorem served_of_upload {spool : ℕ}
    (serves : (machine env (.upload target spool) world).2.served target = some bytes) :
    world.served target = some bytes ∨ world.spools spool = some bytes := by
  change (actUpload env world target spool).2.served target = _ at serves
  unfold actUpload at serves
  split at serves
  case h_1 stored done file => exact .inr (served_of_sent serves ▸ file)
  case h_2 stored done file => exact .inr (served_of_sent serves ▸ file)
  case h_3 stored done file =>
    change (broken env world target stored).served target = _ at serves
    unfold broken at serves
    split at serves
    · change (Function.update world.objects target _ target).bind Row.served = _ at serves
      rw [update_self] at serves
      exact nomatch serves
    · exact .inl serves
  · exact .inl serves

/-- What an upload leaves to be assembled is the spool file. -/
theorem waits_of_upload {spool : ℕ} {address : Address}
    (waits : (machine env (.upload target spool) world).2.waits world.staged.length =
      some (address, bytes)) : world.spools spool = some bytes := by
  have nothing (other : World) (same : other.staged = world.staged)
      (waits : (other.enlist none).waits world.staged.length = some (address, bytes)) : False := by
    rw [← same, enlist_waits_self] at waits
    exact nomatch waits
  change (actUpload env world target spool).2.waits _ = _ at waits
  unfold actUpload at waits
  split at waits
  case h_1 stored done file => exact waits_of_sent waits ▸ file
  case h_2 stored done file => exact waits_of_sent waits ▸ file
  case h_3 stored done file =>
    change (broken env world target stored).waits _ = _ at waits
    unfold broken at waits
    split at waits
    · exact (nothing _ rfl waits).elim
    · exact (nothing _ rfl waits).elim
  · exact (nothing _ rfl waits).elim

variable {number : ℕ}

theorem served_of_assemble
    (serves : (machine env (.assemble number target) world).2.served target = some bytes) :
    world.served target = some bytes ∨ world.waits number = some (target, bytes) := by
  change (actAssemble env world number target).2.served target = _ at serves
  unfold actAssemble at serves
  split at serves
  · exact .inl serves
  · exact .inl serves
  case h_3 under stored waits _ =>
    split at serves
    case isTrue same =>
      subst same
      obtain rfl := served_of_store serves
      exact .inr waits
    · exact .inl serves

/-- The assembly of an upload keeps what is served or waits, if nothing else waits. -/
theorem act_assemble (kept : world.archived target = true → env.clears world.moment = true)
    (only : ∀ other, world.waits number = some (target, other) → other = bytes)
    (there : world.served target = some bytes ∨ world.waits number = some (target, bytes)) :
    (machine env (.assemble number target) world).2.served target = some bytes ∨
      (machine env (.assemble number target) world).2.waits number = some (target, bytes) := by
  show (actAssemble env world number target).2.served target = _ ∨
    (actAssemble env world number target).2.waits number = _
  unfold actAssemble
  split
  · exact there
  · exact there
  case h_3 under stored waits _ =>
    split
    case isTrue same =>
      subst same
      rw [only stored waits]
      exact .inl (store_served kept)
    · exact there

theorem act_remove (answered : env.fate world.moment ≠ .unanswered) :
    ((machine env (.remove source) world).1 = true →
      (machine env (.remove source) world).2.objects source = none) ∧
    ((machine env (.remove source) world).1 = false →
      (machine env (.remove source) world).2.objects source = world.objects source) := by
  show ((actRemove env world source).1 = true →
      (actRemove env world source).2.objects source = none) ∧
    ((actRemove env world source).1 = false →
      (actRemove env world source).2.objects source = world.objects source)
  unfold actRemove
  split
  · exact ⟨fun _ => update_self _ _ _, fun failed => absurd failed.symm Bool.false_ne_true⟩
  case h_2 lost _ => exact absurd lost answered
  · exact ⟨fun succeeded => absurd succeeded Bool.false_ne_true, fun _ => rfl⟩

end Euclid.Transfer.Renaming
