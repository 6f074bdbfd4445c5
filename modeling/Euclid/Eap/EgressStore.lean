/-
This file translates the updates of a site's document, which check its version, and its deletion,
which does not, and proves when every update is the change made to the document it writes over.

A call reads a document, decides, and writes its decision where the document still has the version
that was read. As long as a document is there its version only goes up, so the same version is the
same document. A deletion starts the versions over, and a call that read the document before may
then find the version it read on another one.
-/

import Euclid.Interleaving
import Euclid.Bus.Statement
import Euclid.Eap.Egress

namespace Euclid.Eap.Egress

open Program Discipline Option Function
open Bus (StoreError Outage underOutage)

/-! ### The store -/

/-- Whose document, and of which site: the unique index. -/
abbrev Key : Type := String × String

def SiteDocument.key (doc : SiteDocument) : Key := (doc.application, doc.site)

def Place.key (place : Place) : Key := (place.application, place.site)

/-- `siteKey` of the limits for all sites of the application of a key. -/
def Key.all (key : Key) : Key := (key.1, allSites)

/-- What a call asks of the store and the clock. A replacement names the version it writes over. -/
inductive Req where
  | find (key : Key)
  | now
  | insert (doc : SiteDocument)
  | replace (version : Int) (doc : SiteDocument)
  | delete (key : Key)
  deriving DecidableEq

open Req

@[reducible] def Req.Answer : Req → Type
  | .find _ => Except StoreError (Option SiteDocument)
  | .now => Int
  | .insert _ => Except StoreError Unit
  | .replace _ _ => Except StoreError Bool
  | .delete _ => Except StoreError Bool

/-- The documents by key, one each, and how many requests have been made. -/
structure World where
  documents : Key → Option SiteDocument
  moment : ℕ

/-- The clock of the instances, the configured limits, and which statements fail. -/
structure Env where
  clock : ℕ → Int
  defaults : Limits
  outage : ℕ → Option Outage

/-- `insert_one`. -/
def insertSite (doc : SiteDocument) (docs : Key → Option SiteDocument) :
    Except StoreError Unit × (Key → Option SiteDocument) :=
  if (docs doc.key).isSome then (.error .duplicateKey, docs)
  else (.ok (), Function.update docs doc.key (some doc))

/-- `replace_one`: whether a document matched. -/
def replaceSite (version : Int) (doc : SiteDocument) (docs : Key → Option SiteDocument) :
    Bool × (Key → Option SiteDocument) :=
  match docs doc.key with
  | some current =>
    if current.version = version then
      (true, Function.update docs doc.key (some doc))
    else (false, docs)
  | none => (false, docs)

/-- One request. Every request is a moment of its own. -/
def machine (env : Env) : Machine Req Answer World
  | .find key, world =>
    let outcome := underOutage (env.outage world.moment) world.documents
      (.ok (world.documents key), world.documents)
    (outcome.1, ⟨outcome.2, world.moment + 1⟩)
  | .now, world => (env.clock world.moment, ⟨world.documents, world.moment + 1⟩)
  | .insert doc, world =>
    let outcome := underOutage (env.outage world.moment) world.documents
      (insertSite doc world.documents)
    (outcome.1, ⟨outcome.2, world.moment + 1⟩)
  | .replace version doc, world =>
    let replaced := replaceSite version doc world.documents
    let outcome := underOutage (env.outage world.moment) world.documents
      (.ok replaced.1, replaced.2)
    (outcome.1, ⟨outcome.2, world.moment + 1⟩)
  | .delete key, world =>
    let outcome := underOutage (env.outage world.moment) world.documents
      (.ok (world.documents key).isSome, Function.update world.documents key none)
    (outcome.1, ⟨outcome.2, world.moment + 1⟩)

/-! ### The calls -/

abbrev Op (Result : Type) : Type := Program Req Answer StoreError Result

def now : Op Int := Program.issue Req.now

/-- `find_one`. -/
def find (key : Key) : Op (Option SiteDocument) := do
  let found : Except StoreError (Option SiteDocument) ← Program.issue (Req.find key)
  ofExcept found

def loadSite (key : Key) : Op (Option StoredSite) := do
  return (← find key).map parseSite

/-- The `insert_one` of `storeSite`, where any failure means that somebody else was first. -/
def insert (doc : SiteDocument) : Op Bool := do
  let inserted : Except StoreError Unit ← Program.issue (Req.insert doc)
  return inserted.isOk

/-- The `replace_one` of `storeSite`. -/
def replace (version : Int) (doc : SiteDocument) : Op Bool := do
  let replaced : Except StoreError Bool ← Program.issue (Req.replace version doc)
  ofExcept replaced

def storeSite (stored : StoredSite) (now : Int) : Op Bool :=
  if stored.version < 0 then insert (siteDocument stored 0 now)
  else replace stored.version (siteDocument stored (stored.version + 1) now)

/-- A change looks for the limits of all sites: those with a limit of their own need no other. -/
def Change.looksUp (change : Change) (stored : StoredSite) : Bool :=
  match change with
  | .acquire _ _ => stored.limits.isNone
  | .setLimit _ _ _ => stored.limits.isNone
  | .deleteLimit => true
  | .release _ => false
  | .throttled _ => false

open Change

/-- The part of `limitsFor` for a site without a limit of its own. -/
def inheritedLimits (defaults : Limits) (stored : StoredSite) : Op Limits :=
  if stored.site ≠ allSites then do
    let all ← loadSite (stored.application, allSites)
    return (all.bind (·.limits)).getD defaults
  else pure defaults

def egressAttempts : ℕ := 16

/-- `updateSite`: what came of the change, unless it kept colliding. -/
def updateSite (defaults : Limits) (place : Place) (change : Change) : ℕ → Op (Option Outcome)
  | 0 => pure none
  | attempts + 1 => do
    let stored := (← loadSite place.key).getD place.fresh
    let now ← now
    let inherited ←
      if change.looksUp stored then inheritedLimits defaults stored else pure defaults
    let applied := change.apply inherited stored now
    if ¬applied.1 then pure (some applied.2.1)
    else if ← storeSite applied.2.2 now then pure (some applied.2.1)
    else updateSite defaults place change attempts

/-- The `delete_one` of `removeSite`. -/
def delete (key : Key) : Op Bool := do
  let deleted : Except StoreError Bool ← Program.issue (Req.delete key)
  ofExcept deleted

def removeSite (key : Key) : Op Bool := (delete key).catching fun _ => pure false

inductive Call where
  | update (place : Place) (change : Change)
  | remove (key : Key)

inductive Reply where
  | updated (outcome : Option Outcome)
  | removed (removed : Bool)

def Call.program (defaults : Limits) : Call → Op Reply
  | .update place change => do return .updated (← updateSite defaults place change egressAttempts)
  | .remove key => do return .removed (← removeSite key)

/-! ### What a request does to the documents -/

/-- The documents stay, or one is inserted where there was none, replaces one of its version, or is
deleted. -/
theorem step_documents (env : Env) (req : Req) (world : World) :
    (machine env req world).2.documents = world.documents ∨
      (∃ doc, req = .insert doc ∧ world.documents doc.key = none ∧
        (machine env req world).2.documents = update world.documents doc.key (some doc)) ∨
      (∃ version doc current, req = .replace version doc ∧
        world.documents doc.key = some current ∧ current.version = version ∧
        (machine env req world).2.documents = update world.documents doc.key (some doc)) ∨
      ∃ key, req = .delete key ∧
        (machine env req world).2.documents = update world.documents key none := by
  cases req with
  | now => exact .inl rfl
  | find key =>
    left
    rcases Bus.underOutage_snd (env.outage world.moment) world.documents
      (.ok (world.documents key), world.documents) with same | same <;> exact same
  | insert doc =>
    rcases Bus.underOutage_snd (env.outage world.moment) world.documents
      (insertSite doc world.documents) with does | same
    · have applied : (machine env (.insert doc) world).2.documents =
          (insertSite doc world.documents).2 := does
      rw [insertSite] at applied
      split at applied
      · exact .inl applied
      · rename_i missing
        exact .inr (.inl ⟨doc, rfl, not_isSome_iff_eq_none.mp missing, applied⟩)
    · exact .inl same
  | replace version doc =>
    rcases Bus.underOutage_snd (env.outage world.moment) world.documents
      ((.ok (replaceSite version doc world.documents).1 : Except StoreError Bool),
        (replaceSite version doc world.documents).2) with does | same
    · have applied : (machine env (.replace version doc) world).2.documents =
          (replaceSite version doc world.documents).2 := does
      rw [replaceSite] at applied
      split at applied
      · rename_i current found
        split at applied
        · rename_i matched
          exact .inr (.inr (.inl ⟨version, doc, current, rfl, found, matched, applied⟩))
        · exact .inl applied
      · exact .inl applied
    · exact .inl same
  | delete key =>
    rcases Bus.underOutage_snd (env.outage world.moment) world.documents
      ((.ok (world.documents key).isSome : Except StoreError Bool),
        update world.documents key none) with does | same
    · exact .inr (.inr (.inr ⟨key, rfl, does⟩))
    · exact .inl same

variable {env : Env} {world : World} {key : Key}

theorem find_told {found : Option SiteDocument}
    (told : (machine env (.find key) world).1 = .ok found) : world.documents key = found := by
  have answered := Bus.underOutage_of_ok
    (show (underOutage (env.outage world.moment) world.documents
      (.ok (world.documents key), world.documents)).1 = .ok found from told)
  have same : (machine env (.find key) world).1 = .ok (world.documents key) :=
    congrArg Prod.fst answered
  exact Except.ok.inj (same.symm.trans told)

variable {doc : SiteDocument}

theorem insert_told (told : (machine env (.insert doc) world).1 = .ok ()) :
    world.documents doc.key = none ∧
      (machine env (.insert doc) world).2.documents =
        update world.documents doc.key (some doc) := by
  have answered := Bus.underOutage_of_ok
    (show (underOutage (env.outage world.moment) world.documents
      (insertSite doc world.documents)).1 = .ok () from told)
  have outcome : (insertSite doc world.documents).1 = .ok () :=
    (congrArg Prod.fst answered).symm.trans told
  have stored : (machine env (.insert doc) world).2.documents =
      (insertSite doc world.documents).2 := congrArg Prod.snd answered
  rw [stored]
  unfold insertSite at outcome ⊢
  split at outcome
  · nomatch outcome
  · rename_i missing
    exact ⟨not_isSome_iff_eq_none.mp missing, by rw [if_neg missing]⟩

variable {version : Int}

theorem replace_told
    (told : (machine env (.replace version doc) world).1 = .ok true) :
    ∃ current, world.documents doc.key = some current ∧ current.version = version ∧
      (machine env (.replace version doc) world).2.documents =
        update world.documents doc.key (some doc) := by
  have answered := Bus.underOutage_of_ok
    (show (underOutage (env.outage world.moment) world.documents
      ((.ok (replaceSite version doc world.documents).1 : Except StoreError Bool),
        (replaceSite version doc world.documents).2)).1 = .ok true from told)
  have outcome : (.ok (replaceSite version doc world.documents).1 : Except StoreError Bool) =
      .ok true := (congrArg Prod.fst answered).symm.trans told
  have matched := Except.ok.inj outcome
  have stored : (machine env (.replace version doc) world).2.documents =
      (replaceSite version doc world.documents).2 := congrArg Prod.snd answered
  rw [stored]
  unfold replaceSite at matched ⊢
  split at matched
  · rename_i current found
    split at matched
    · rename_i same
      exact ⟨current, found, same, by rw [if_pos same]⟩
    · nomatch matched
  · nomatch matched

/-! ### What a change writes -/

section Written

variable {change : Change} {inherited : Limits} {stored : StoredSite} {place : Place}
  {doc : Option SiteDocument} {new : SiteDocument} {reading : Int}

theorem Change.apply_keeps :
    (change.apply inherited stored reading).2.2.application = stored.application ∧
      (change.apply inherited stored reading).2.2.site = stored.site ∧
      (change.apply inherited stored reading).2.2.version = stored.version := by
  cases change with
  | release permitId =>
    rw [apply]
    split <;> exact ⟨rfl, rfl, rfl⟩
  | _ => exact ⟨rfl, rfl, rfl⟩

theorem Change.written_eq_some : change.written inherited place doc reading = some new ↔
      (change.apply inherited (place.read doc) reading).1 = true ∧
        siteDocument (change.apply inherited (place.read doc) reading).2.2
          (place.read doc).nextVersion reading = new := by
  unfold written
  dsimp only
  split
  · rename_i writes
    exact ⟨fun same => ⟨writes, some.inj same⟩, fun same => congrArg some same.2⟩
  · rename_i declines
    exact ⟨nofun, fun same => absurd same.1 declines⟩

/-- The documents that are stored under the key of a place. -/
def Place.Holds (place : Place) (doc : Option SiteDocument) : Prop :=
  ∀ read, doc = some read → read.key = place.key ∧ 0 ≤ read.version

theorem Place.Holds.read_key (holds : place.Holds doc) :
    ((place.read doc).application, (place.read doc).site) = place.key := by
  cases doc with
  | none => rfl
  | some read => exact (holds read rfl).1

theorem Change.written_key (holds : place.Holds doc)
    (written : change.written inherited place doc reading = some new) : new.key = place.key := by
  obtain ⟨_, rfl⟩ := written_eq_some.mp written
  obtain ⟨app, site, _⟩ := apply_keeps
  rw [← holds.read_key, ← app, ← site]
  rfl

theorem Change.written_version (written : change.written inherited place doc reading = some new) :
    new.version = (place.read doc).nextVersion := by
  obtain ⟨_, rfl⟩ := written_eq_some.mp written
  rfl

theorem StoredSite.nextVersion_nonneg : 0 ≤ stored.nextVersion := by
  unfold StoredSite.nextVersion
  split <;> omega

end Written

/-! ### What a call may ask -/

/-- How far a call is: what it found, when, and what it found of all sites if it looked. -/
inductive Phase where
  | start
  | read (copy : Option SiteDocument)
  | timed (copy : Option SiteDocument) (reading : Int) (looked : Option (Option SiteDocument))
  | written (copy : Option SiteDocument) (reading : Int) (looked : Option (Option SiteDocument))
  | ended

/-- A change of a site that looks for the limits of all sites. -/
def Change.looksFor (change : Change) (stored : StoredSite) : Prop :=
  change.looksUp stored = true ∧ stored.site ≠ allSites

/-- The limits that a site has from what was found of all sites, if anything. -/
def inheritedFrom (defaults : Limits) (looked : Option (Option SiteDocument)) : Limits :=
  (looked.join.bind (·.limits)).getD defaults

/-- A call has looked for the limits of all sites if it had to. -/
def Looked (place : Place) (change : Change) (copy : Option SiteDocument)
    (looked : Option (Option SiteDocument)) : Prop :=
  looked.isSome ↔ change.looksFor (place.read copy)

/-- A call asks for its document, and writes what its change makes of what it found. -/
def allowsCall (defaults : Limits) : Call → Phase → Req → Prop
  | .update place _, .start, .find key => key = place.key
  | .update _ _, .read _, .now => True
  | .update place change, .timed copy _ looked, .find key =>
    looked = none ∧ change.looksFor (place.read copy) ∧
      key = ((place.read copy).application, allSites)
  | .update place change, .timed copy reading looked, .insert doc =>
    Looked place change copy looked ∧ (place.read copy).version < 0 ∧
      change.written (inheritedFrom defaults looked) place copy reading = some doc
  | .update place change, .timed copy reading looked, .replace version doc =>
    Looked place change copy looked ∧ 0 ≤ (place.read copy).version ∧
      version = (place.read copy).version ∧
      change.written (inheritedFrom defaults looked) place copy reading = some doc
  | .remove key, .start, .delete other => other = key
  | _, _, _ => False

def afterFind (next : Option SiteDocument → Phase) : Except StoreError (Option SiteDocument) → Phase
  | .ok found => next found
  | .error _ => .ended

/-- What an insertion leads to. Another attempt follows any failure. -/
def afterInsert (next : Phase) : Except StoreError Unit → Phase
  | .ok () => next
  | .error _ => .start

def afterReplace (next : Phase) : Except StoreError Bool → Phase
  | .ok true => next
  | .ok false => .start
  | .error _ => .ended

def afterCall : Phase → (req : Req) → req.Answer → Phase
  | .start, .find _, answer => afterFind .read answer
  | .read copy, .now, reading => .timed copy reading none
  | .timed copy reading _, .find _, answer =>
    afterFind (fun all => .timed copy reading (some all)) answer
  | .timed copy reading looked, .insert _, answer =>
    afterInsert (.written copy reading looked) answer
  | .timed copy reading looked, .replace _ _, answer =>
    afterReplace (.written copy reading looked) answer
  | _, _, _ => .ended

/-- The discipline of calls. A session is a call and how far it is. -/
def updating (defaults : Limits) : Discipline Req Answer (Call × Phase) where
  allows := fun session req => allowsCall defaults session.1 session.2 req
  expects := fun _ _ _ => True
  after := fun session req answer => (session.1, afterCall session.2 req answer)

/-- What comes of a change is told by a call that had nothing to write, or has written it. -/
def tells (defaults : Limits) (place : Place) (change : Change) (outcome : Outcome)
    (phase : Phase) :
    Prop :=
  ∃ copy reading looked, Looked place change copy looked ∧
    outcome = (change.apply (inheritedFrom defaults looked) (place.read copy) reading).2.1 ∧
    (phase = .written copy reading looked ∨ phase = .timed copy reading looked ∧
      change.written (inheritedFrom defaults looked) place copy reading = none)

/-- An update that has told what came of it is at its end. -/
def endsAs (defaults : Limits) (place : Place) (change : Change) :
    Except StoreError (Option Outcome) → Call × Phase → Prop
  | .ok (some outcome), session =>
    session.1 = .update place change ∧ tells defaults place change outcome session.2
  | _, _ => True

section Follows

variable {defaults : Limits} {place : Place} {change : Change} {copy : Option SiteDocument}
  {reading : Int} {looked : Option (Option SiteDocument)}

/-- A change that was decided is stored in the version after the one read, or the next attempt
follows. -/
theorem store_follows {attempts : ℕ} (hasLooked : Looked place change copy looked)
    (writes : (change.apply (inheritedFrom defaults looked) (place.read copy) reading).1 = true)
    (next : (updateSite defaults place change attempts).Follows (updating defaults)
      (.update place change, .start) (endsAs defaults place change)) :
    (do
      let applied := change.apply (inheritedFrom defaults looked) (place.read copy) reading
      if ← storeSite applied.2.2 reading then pure (some applied.2.1)
      else updateSite defaults place change attempts : Op (Option Outcome)).Follows
        (updating defaults) (.update place change, .timed copy reading looked)
        (endsAs defaults place change) := by
  have kept : (change.apply (inheritedFrom defaults looked) (place.read copy) reading).2.2.version =
      (place.read copy).version := apply_keeps.2.2
  have written : change.written (inheritedFrom defaults looked) place copy reading =
      some
        (siteDocument (change.apply (inheritedFrom defaults looked) (place.read copy) reading).2.2
        (place.read copy).nextVersion reading) := written_eq_some.mpr ⟨writes, rfl⟩
  have told : tells defaults place change
      (change.apply (inheritedFrom defaults looked) (place.read copy) reading).2.1
      (.written copy reading looked) := ⟨copy, reading, looked, hasLooked, rfl, .inl rfl⟩
  dsimp only
  rw [storeSite, kept]
  split
  · rename_i missing
    rw [StoredSite.nextVersion, if_pos missing] at written
    refine ⟨⟨hasLooked, missing, written⟩, fun answer _ => ?_⟩
    cases answer with
    | error error => exact next
    | ok carried => exact ⟨rfl, told⟩
  · rename_i there
    rw [StoredSite.nextVersion, if_neg there] at written
    refine ⟨⟨hasLooked, not_lt.mp there, rfl, written⟩, fun answer _ => ?_⟩
    cases answer with
    | error error => exact trivial
    | ok matched =>
      cases matched with
      | true => exact ⟨rfl, told⟩
      | false => exact next

theorem updateSite_follows {attempts : ℕ} :
    (updateSite defaults place change attempts).Follows (updating defaults)
      (.update place change, .start) (endsAs defaults place change) := by
  induction attempts with
  | zero => exact trivial
  | succ attempts ih =>
    refine ⟨rfl, fun found _ => ?_⟩
    cases found with
    | error error => exact trivial
    | ok copy =>
      refine ⟨trivial, fun reading _ => ?_⟩
      -- what is decided once the limits are known
      have decided : ∀ looked, Looked place change copy looked →
          (do
            let applied := change.apply (inheritedFrom defaults looked) (place.read copy) reading
            if ¬applied.1 then pure (some applied.2.1)
            else if ← storeSite applied.2.2 reading then pure (some applied.2.1)
            else updateSite defaults place change attempts : Op (Option Outcome)).Follows
              (updating defaults) (.update place change, .timed copy reading looked)
              (endsAs defaults place change) := by
        intro looked hasLooked
        by_cases writes :
            (change.apply (inheritedFrom defaults looked) (place.read copy) reading).1 = true
        · rw [if_neg (not_not.mpr writes)]
          exact store_follows hasLooked writes ih
        · rw [if_pos writes]
          refine ⟨rfl, copy, reading, looked, hasLooked, rfl, .inr ⟨rfl, ?_⟩⟩
          exact if_neg writes
      by_cases looksUp : change.looksUp (place.read copy) = true
      · by_cases oneSite : (place.read copy).site ≠ allSites
        · have looks : change.looksFor (place.read copy) := ⟨looksUp, oneSite⟩
          simp only [← Place.read.eq_1, looksUp, if_true, inheritedLimits, if_pos oneSite]
          refine ⟨⟨rfl, looks, rfl⟩, fun found _ => ?_⟩
          cases found with
          | error error => exact trivial
          | ok all =>
            have hasLooked : Looked place change copy (some all) := iff_of_true rfl looks
            cases all with
            | none => exact decided (some none) hasLooked
            | some all => exact decided (some (some all)) hasLooked
        · have hasLooked : Looked place change copy none :=
            iff_of_false (by simp) fun looks => oneSite looks.2
          simp only [← Place.read.eq_1, looksUp, if_true, inheritedLimits, if_neg oneSite]
          exact decided none hasLooked
      · have hasLooked : Looked place change copy none :=
          iff_of_false (by simp) fun looks => looksUp looks.1
        simp only [← Place.read.eq_1, looksUp]
        exact decided none hasLooked

end Follows

/-- A call that has told what came of it is at its end. -/
def Call.endsAs (defaults : Limits) : Call → Except StoreError Reply → Call × Phase → Prop
  | .update place change, .ok (.updated outcome), session =>
    Egress.endsAs defaults place change (.ok outcome) session
  | _, _, _ => True

theorem Call.program_follows (defaults : Limits) (call : Call) :
    (call.program defaults).Follows (updating defaults) (call, .start) (call.endsAs defaults) := by
  cases call with
  | update place change =>
    unfold Call.program
    rw [follows_bind]
    refine updateSite_follows.mono fun outcome reached ends => ?_
    cases outcome with
    | ok outcome => exact ends
    | error error => exact trivial
  | remove key =>
    refine ⟨rfl, fun answer _ => ?_⟩
    cases answer <;> exact trivial

/-! ### What a call knows -/

section Knowledge

variable {Thread : Type} [DecidableEq Thread]

/-- The events of a run of calls. -/
abbrev Past (Thread : Type) : Type := History Thread Req Answer World

def HasRead (env : Env) (past : Past Thread) (tid : Thread) (reading : Int) : Prop :=
  ∃ event ∈ past, event.thread = tid ∧ event.request = .now ∧
    env.clock event.before.moment = reading

/-- A thread has looked for the limits of all sites, and this is what was stored. -/
def HasFound (past : Past Thread) (tid : Thread) (key : Key) (all : Option SiteDocument) : Prop :=
  ∃ event ∈ past, event.thread = tid ∧ event.request = .find key.all ∧
    event.before.documents key.all = all

/-- What was stored when a thread looked last for the document of a key. -/
def lastFound (tid : Thread) (key : Key) : Past Thread → Option SiteDocument
  | [] => none
  | event :: earlier =>
    if event.thread = tid ∧ event.request = .find key then event.before.documents key
    else lastFound tid key earlier

/-- The document of a key was deleted since a thread looked last for it. -/
def DeletedSince (tid : Thread) (key : Key) : Past Thread → Prop
  | [] => False
  | event :: earlier =>
    ¬(event.thread = tid ∧ event.request = .find key) ∧
      (event.before.documents key ≠ none ∧ event.after.documents key = none ∨
        DeletedSince tid key earlier)

/-- Wherever a replacement finds its version although the document was deleted since the call looked
for it, the one there is again the one that the call found. -/
def Undisturbed (past : Past Thread) : Prop :=
  ∀ later event earlier, past = later ++ event :: earlier →
    ∀ version doc current, event.request = .replace version doc →
      event.before.documents doc.key = some current → current.version = version →
      DeletedSince event.thread doc.key earlier →
        lastFound event.thread doc.key earlier = some current

/-- A thread's copy of a document is what it found last. Unless the document was deleted since,
there is one, of the version found or a later one, and of that version there is only the one
found. -/
structure Copied (past : Past Thread) (world : World) (tid : Thread) (key : Key)
    (copy : Option SiteDocument) : Prop where
  last : lastFound tid key past = copy
  found : ∃ event ∈ past, event.thread = tid ∧ event.before.documents key = copy
  holds : ∀ read, copy = some read → read.key = key ∧ 0 ≤ read.version
  same : DeletedSince tid key past ∨ ∀ read, copy = some read →
    ∃ current, world.documents key = some current ∧ read.version ≤ current.version ∧
      (read.version = current.version → current = read)

/-- Every document is stored under its key, in a version that is not that of a missing one. -/
def World.Sound (world : World) : Prop :=
  ∀ key doc, world.documents key = some doc → doc.key = key ∧ 0 ≤ doc.version

/-- What a call knows agrees with what has happened. -/
def Knows (env : Env) (past : Past Thread) (world : World) (tid : Thread) : Call × Phase → Prop
  | (.update place _, .read copy) => Copied past world tid place.key copy
  | (.update place _, .timed copy reading looked) =>
    Copied past world tid place.key copy ∧ HasRead env past tid reading ∧
      ∀ all, looked = some all → HasFound past tid place.key all
  | (.update place change, .written copy reading looked) =>
    HasRead env past tid reading ∧
      (∀ all, looked = some all → HasFound past tid place.key all) ∧
      ∃ event ∈ past, event.thread = tid ∧ event.before.documents place.key = copy ∧
        event.after.documents place.key =
          change.written (inheritedFrom env.defaults looked) place copy reading
  | _ => True

section Later

variable {env : Env} {past : Past Thread} {world : World} {tid : Thread}
  {event : Event Thread Req Answer World} {reading : Int} {key : Key}
  {copy all : Option SiteDocument}

omit [DecidableEq Thread] in
theorem HasRead.later (read : HasRead env past tid reading) :
    HasRead env (event :: past) tid reading :=
  List.exists_mem_cons_of_exists read

omit [DecidableEq Thread] in
theorem HasFound.later (found : HasFound past tid key all) : HasFound (event :: past) tid key all :=
  List.exists_mem_cons_of_exists found

variable {session : Call × Phase} {defaults : Limits}

theorem version_of_allowed
    (allowed : (updating defaults).allows session (.replace version doc)) :
    doc.version = version + 1 := by
  obtain ⟨call, phase⟩ := session
  cases call <;> cases phase <;> try exact allowed.elim
  obtain ⟨_, there, rfl, written⟩ := allowed
  rw [written_version written, StoredSite.nextVersion, if_neg (not_lt.mpr there)]

theorem nonneg_of_allowed
    (allowed : (updating defaults).allows session (.insert doc)) : 0 ≤ doc.version := by
  obtain ⟨call, phase⟩ := session
  cases call <;> cases phase <;> try exact allowed.elim
  obtain ⟨_, _, written⟩ := allowed
  rw [written_version written]
  exact StoredSite.nextVersion_nonneg

/-- Every allowed request keeps the documents under their keys. -/
theorem World.Sound.step {req : Req} (sound : world.Sound)
    (allowed : (updating env.defaults).allows session req) : (machine env req world).2.Sound := by
  intro key doc stored
  rcases step_documents env req world with same | ⟨new, rfl, missing, made⟩ |
    ⟨version, new, current, rfl, found, matched, replaced⟩ | ⟨other, rfl, deleted⟩
  · exact sound key doc (same ▸ stored)
  · by_cases own : new.key = key
    · subst own
      rw [made, update_self] at stored
      obtain rfl := some.inj stored
      exact ⟨rfl, nonneg_of_allowed allowed⟩
    · rw [made, update_of_ne (Ne.symm own)] at stored
      exact sound key doc stored
  · by_cases own : new.key = key
    · subst own
      rw [replaced, update_self] at stored
      obtain rfl := some.inj stored
      have before := (sound _ _ found).2
      have next := version_of_allowed allowed
      exact ⟨rfl, by omega⟩
    · rw [replaced, update_of_ne (Ne.symm own)] at stored
      exact sound key doc stored
  · by_cases own : other = key
    · subst own
      rw [deleted, update_self] at stored
      nomatch stored
    · rw [deleted, update_of_ne (Ne.symm own)] at stored
      exact sound key doc stored

/-- A thread's copy stays what it is while the thread does not look for the document again. -/
theorem Copied.later {asking : Thread} {req : Req} (copied : Copied past world tid key copy)
    (allowed : (updating env.defaults).allows session req)
    (keeps : ¬(asking = tid ∧ req = .find key)) :
    Copied (.made (fun _ => machine env) asking req world :: past)
      (machine env req world).2 tid key copy := by
  obtain ⟨last, ⟨earlier, mem, own, found⟩, holds, same⟩ := copied
  refine ⟨by rwa [lastFound, if_neg keeps], ⟨earlier, .tail _ mem, own, found⟩,
    holds, ?_⟩
  rcases same with deleted | same
  · exact .inl ⟨keeps, .inr deleted⟩
  rcases step_documents env req world with unchanged | ⟨new, rfl, missing, made⟩ |
    ⟨version, new, before, rfl, there, matched, replaced⟩ | ⟨other, rfl, deleted⟩
  · right
    rw [unchanged]
    exact same
  · right
    intro read isRead
    obtain ⟨current, stored, newer⟩ := same read isRead
    have different : key ≠ new.key := fun equal => by simp [← equal, stored] at missing
    exact ⟨current, by rw [made, update_of_ne different, stored], newer⟩
  · right
    intro read isRead
    obtain ⟨current, stored, newer, _⟩ := same read isRead
    by_cases equal : new.key = key
    · subst equal
      obtain rfl := some.inj (stored.symm.trans there)
      have next := version_of_allowed allowed
      refine ⟨new, by rw [replaced, update_self], by omega, fun again => ?_⟩
      omega
    · refine ⟨current, by rw [replaced, update_of_ne (Ne.symm equal), stored], newer, ?_⟩
      assumption
  · by_cases equal : other = key
    · subst equal
      cases stored : world.documents other with
      | none =>
        right
        intro read isRead
        obtain ⟨current, there, _⟩ := same read isRead
        exact absurd (there.symm.trans stored) (by simp)
      | some current =>
        left
        refine ⟨keeps, .inl ⟨?_, ?_⟩⟩
        · show world.documents other ≠ none
          rw [stored]
          exact some_ne_none current
        · show (machine env (.delete other) world).2.documents other = none
          rw [deleted, update_self]
    · right
      intro read isRead
      obtain ⟨current, there, newer⟩ := same read isRead
      exact ⟨current, by rw [deleted, update_of_ne (Ne.symm equal), there], newer⟩

end Later

/-! ### What a call writes over -/

section Over

variable {env : Env} {past : Past Thread} {world : World} {tid : Thread}
  {place : Place} {change : Change} {copy : Option SiteDocument} {reading : Int}
  {looked : Option (Option SiteDocument)}

section

variable (copied : Copied past world tid place.key copy)

include copied

theorem Copied.place_holds : place.Holds copy :=
  copied.holds

theorem Copied.missing (missing : (place.read copy).version < 0) : copy = none := by
  cases copy with
  | none => rfl
  | some read => exact absurd missing (not_lt.mpr (copied.holds read rfl).2)

theorem Copied.matched {current : SiteDocument}
    (there : 0 ≤ (place.read copy).version) (found : world.documents place.key = some current)
    (matched : current.version = (place.read copy).version)
    (undisturbed : DeletedSince tid place.key past →
      lastFound tid place.key past = some current) : copy = some current := by
  cases copy with
  | none => exact absurd there (not_le.mpr (show (-1 : Int) < 0 by decide))
  | some read =>
    rcases copied.same with deleted | same
    · exact copied.last.symm.trans (undisturbed deleted)
    · obtain ⟨stored, also, _, only⟩ := same read rfl
      obtain rfl := some.inj (also.symm.trans found)
      rw [only matched.symm]

end

theorem Undisturbed.earlier {event : Event Thread Req Answer World}
    (undisturbed : Undisturbed (event :: past)) : Undisturbed past :=
  fun later other earlier same => undisturbed (event :: later) other earlier (by rw [same]; rfl)

/-- The limits that a change has for a site without its own: what the call found of all sites if it
has to look, else the defaults. -/
def Inherits (env : Env) (past : Past Thread) (tid : Thread) (place : Place)
    (change : Change) (doc : Option SiteDocument) (limits : Limits) : Prop :=
  (change.looksFor (place.read doc) → ∃ all, HasFound past tid place.key all ∧
    limits = inheritedFrom env.defaults (some all)) ∧
  (¬change.looksFor (place.read doc) → limits = env.defaults)

omit [DecidableEq Thread] in
theorem Looked.inherits (hasLooked : Looked place change copy looked)
    (found : ∀ all, looked = some all → HasFound past tid place.key all) :
    Inherits env past tid place change copy (inheritedFrom env.defaults looked) := by
  constructor
  · intro looks
    obtain ⟨all, rfl⟩ := isSome_iff_exists.mp (hasLooked.mpr looks)
    exact ⟨all, found all rfl, rfl⟩
  · intro looksNot
    cases looked with
    | none => rfl
    | some all => exact absurd (hasLooked.mp rfl) looksNot

/-- What a call writes, over which document: it has looked for the limits of all sites if it had to,
and the document stored is the one it found. -/
structure WritesOver (env : Env) (world : World) (place : Place) (change : Change)
    (copy : Option SiteDocument) (reading : Int) (looked : Option (Option SiteDocument))
    (doc : SiteDocument) : Prop where
  named : doc.key = place.key
  hasLooked : Looked place change copy looked
  stored : world.documents place.key = copy
  written : change.written (inheritedFrom env.defaults looked) place copy reading = some doc

theorem Copied.inserts (copied : Copied past world tid place.key copy)
    (allowed : allowsCall env.defaults (.update place change) (.timed copy reading looked)
      (.insert doc)) (missing : world.documents doc.key = none) :
    WritesOver env world place change copy reading looked doc := by
  obtain ⟨hasLooked, absent, written⟩ := allowed
  have name := written_key copied.place_holds written
  refine ⟨name, hasLooked, ?_, written⟩
  rw [copied.missing absent, ← name, missing]

theorem Copied.replaces {current : SiteDocument}
    (copied : Copied past world tid place.key copy)
    (allowed : allowsCall env.defaults (.update place change) (.timed copy reading looked)
      (.replace version doc)) (undisturbed : Undisturbed
      (.made (fun _ => machine env) tid (.replace version doc) world :: past))
    (found : world.documents doc.key = some current) (matched : current.version = version) :
    WritesOver env world place change copy reading looked doc := by
  obtain ⟨hasLooked, there, rfl, written⟩ := allowed
  have name := written_key copied.place_holds written
  have again := undisturbed [] _ _ rfl _ doc current rfl found matched
  rw [name] at found again
  exact ⟨name, hasLooked, found.trans (copied.matched there found matched again).symm, written⟩

end Over

/-! ### What every event does -/

section Runs

variable {env : Env} {calls : Thread → Call} {past : Past Thread} {world : World}
  {tid : Thread} {req : Req}

theorem Knows.step {call : Call} {phase : Phase} (sound : world.Sound)
    (knows : Knows env past world tid (call, phase))
    (allowed : (updating env.defaults).allows (call, phase) req) (undisturbed : Undisturbed
      (.made (fun _ => machine env) tid req world :: past)) :
    Knows env (.made (fun _ => machine env) tid req world :: past) (machine env req world).2 tid
      ((updating env.defaults).after (call, phase) req (machine env req world).1) := by
  cases call with
  | remove key => exact trivial
  | update place change =>
  cases phase with
  | start =>
    cases req <;> try exact allowed.elim
    rename_i key
    obtain rfl : key = place.key := allowed
    cases told : (machine env (.find place.key) world).1 with
    | error error => exact trivial
    | ok found =>
      have stored := find_told told
      have kept : (machine env (.find place.key) world).2.documents = world.documents := by
        rcases step_documents env (.find place.key) world with same | ⟨_, other, _⟩ |
          ⟨_, _, _, other, _⟩ | ⟨_, other, _⟩
        · exact same
        all_goals exact absurd other (by simp)
      refine ⟨?_, ⟨_, .head _, rfl, stored⟩, ?_, .inr ?_⟩
      · rw [lastFound, if_pos ⟨rfl, rfl⟩]
        exact stored
      · intro read same
        exact sound place.key read (stored.trans same)
      · intro read same
        exact ⟨read, by rw [kept, stored, same], le_rfl, fun _ => rfl⟩
  | read copy =>
    cases req <;> try exact allowed.elim
    have allows : (updating env.defaults).allows (.update place change, .read copy) .now := trivial
    exact ⟨Copied.later knows allows (by simp), ⟨_, .head _, rfl, rfl, rfl⟩,
      nofun⟩
  | timed copy reading looked =>
    obtain ⟨copied, read, found⟩ := knows
    cases req with
    | find key =>
      obtain ⟨rfl, looks, rfl⟩ := allowed
      have name := copied.place_holds.read_key
      have other : (place.read copy).site = place.site := congrArg Prod.snd name
      have whose : (place.read copy).application = place.application := congrArg Prod.fst name
      rw [whose]
      cases told : (machine env (.find (place.application, allSites)) world).1 with
      | error error => exact trivial
      | ok all =>
        have allows : (updating env.defaults).allows
            (.update place change, .timed copy reading none)
            (.find (place.application, allSites)) :=
          ⟨rfl, looks, congrArg (·, allSites) whose.symm⟩
        refine ⟨copied.later allows ?_, read.later, ?_⟩
        · rintro ⟨-, same⟩
          have equal : allSites = place.site := congrArg Prod.snd (find.inj same)
          exact looks.2 (other.trans equal.symm)
        · intro found same
          obtain rfl := some.inj same
          exact ⟨_, .head _, rfl, rfl, find_told told⟩
    | now => exact allowed.elim
    | insert doc =>
      cases told : (machine env (.insert doc) world).1 with
      | error error => exact trivial
      | ok carried =>
        obtain ⟨missing, made⟩ := insert_told told
        have past := copied.inserts allowed missing
        refine ⟨read.later, fun all same => (found all same).later, _, .head _, rfl,
          past.stored, ?_⟩
        show (machine env (.insert doc) world).2.documents place.key = _
        rw [made, ← past.named, update_self, past.written]
    | replace version doc =>
      cases told : (machine env (.replace version doc) world).1 with
      | error error => exact trivial
      | ok answered =>
        cases answered with
        | false => exact trivial
        | true =>
          obtain ⟨current, there, matched, replaced⟩ := replace_told told
          have past := copied.replaces allowed undisturbed there matched
          refine ⟨read.later, fun all same => (found all same).later, _, .head _, rfl,
            past.stored, ?_⟩
          show (machine env (.replace version doc) world).2.documents place.key = _
          rw [replaced, ← past.named, update_self, past.written]
    | delete key => exact allowed.elim
  | written copy reading looked => cases req <;> exact allowed.elim
  | ended => cases req <;> exact allowed.elim

theorem Knows.later {own asks : Call × Phase} {asking : Thread}
    (knows : Knows env past world tid own)
    (allowed : (updating env.defaults).allows asks req) (other : asking ≠ tid) :
    Knows env (.made (fun _ => machine env) asking req world :: past)
      (machine env req world).2 tid own := by
  obtain ⟨call, phase⟩ := own
  cases call with
  | remove key => exact trivial
  | update place change =>
  have keeps : ¬(asking = tid ∧ req = .find place.key) := fun both => other both.1
  cases phase with
  | read copy => exact Copied.later knows allowed keeps
  | timed copy reading looked =>
    obtain ⟨copied, read, found⟩ := knows
    exact ⟨copied.later allowed keeps, read.later, fun all same => (found all same).later⟩
  | written copy reading looked =>
    obtain ⟨read, found, event, mem, wrote⟩ := knows
    exact ⟨read.later, fun all same => (found all same).later, event,
      .tail _ mem, wrote⟩
  | _ => exact trivial

/-- An event deletes what its call is to delete, or writes the change of its call over the document
stored just before it. The change was made at a reading of its call's clock, and with the limits the
call found. -/
def Serial (env : Env) (calls : Thread → Call) (earlier : Past Thread)
    (event : Event Thread Req Answer World) (key : Key) : Prop :=
  (calls event.thread = .remove key ∧ event.after.documents key = none) ∨
    ∃ place change reading limits doc, calls event.thread = .update place change ∧
      place.key = key ∧ HasRead env earlier event.thread reading ∧
      Inherits env earlier event.thread place change (event.before.documents key) limits ∧
      change.written limits place (event.before.documents key) reading = some doc ∧
      event.after.documents key = some doc

/-- Every event that changes a document is serial. -/
def Serialised (env : Env) (calls : Thread → Call) (past : Past Thread) : Prop :=
  ∀ later event earlier, past = later ++ event :: earlier →
    ∀ key, event.after.documents key ≠ event.before.documents key →
      Serial env calls earlier event key

theorem serial_of_knows {phase : Phase} (knows : Knows env past world tid (calls tid, phase))
    (allowed : (updating env.defaults).allows (calls tid, phase) req) (undisturbed : Undisturbed
      (.made (fun _ => machine env) tid req world :: past))
    (changes : (machine env req world).2.documents key ≠ world.documents key) :
    Serial env calls past (.made (fun _ => machine env) tid req world) key := by
  cases own : calls tid with
  | remove other =>
    rw [own] at allowed
    cases phase <;> cases req <;> try exact allowed.elim
    obtain rfl : _ = other := allowed
    rcases step_documents env (.delete _) world with same | ⟨_, asked, _⟩ |
      ⟨_, _, _, asked, _⟩ | ⟨deleted, asked, removed⟩
    · exact absurd (congrFun same key) changes
    · nomatch asked
    · nomatch asked
    obtain rfl := delete.inj asked
    rename_i removing
    by_cases equal : key = removing
    · subst equal
      exact .inl ⟨own, by
        show (machine env (.delete key) world).2.documents key = none
        rw [removed, update_self]⟩
    · exact absurd (by rw [removed, update_of_ne equal]) changes
  | update place change =>
    rw [own] at allowed knows
    -- an insertion or a replacement that is carried out
    have serial : ∀ {copy reading looked doc},
        Knows env past world tid (.update place change, .timed copy reading looked) →
        WritesOver env world place change copy reading looked doc →
        (machine env req world).2.documents = update world.documents doc.key (some doc) →
        Serial env calls past (.made (fun _ => machine env) tid req world) key := by
      rintro copy reading looked doc ⟨_, read, found⟩ copied wrote
      by_cases equal : key = doc.key
      · rw [copied.named] at equal wrote
        subst equal
        refine .inr ⟨place, change, reading, inheritedFrom env.defaults looked, doc, own,
          rfl, read, ?_, ?_, (congrFun wrote place.key).trans (update_self _ _ _)⟩
        · show Inherits env past tid place change (world.documents place.key) _
          rw [copied.stored]
          exact copied.hasLooked.inherits found
        · show change.written _ place (world.documents place.key) reading = some doc
          rw [copied.stored]
          exact copied.written
      · exact absurd (by rw [wrote, update_of_ne equal]) changes
    rcases step_documents env req world with same | ⟨new, rfl, missing, made⟩ |
      ⟨version, new, current, rfl, found, matched, replaced⟩ | ⟨other, rfl, deleted⟩
    · exact absurd (congrFun same key) changes
    · cases phase <;> try exact allowed.elim
      exact serial knows (knows.1.inserts allowed missing) made
    · cases phase <;> try exact allowed.elim
      exact serial knows (knows.1.replaces allowed undisturbed found matched) replaced
    · cases phase <;> exact allowed.elim

/-- The sessions are of the calls, and what they know agrees with what has happened. -/
structure Known (env : Env) (calls : Thread → Call) (past : Past Thread)
    (world : World) (sessions : Thread → Call × Phase) : Prop where
  own : ∀ tid, (sessions tid).1 = calls tid
  sound : world.Sound
  knows : ∀ tid, Knows env past world tid (sessions tid)
  serialised : Serialised env calls past

theorem Known.step {sessions : Thread → Call × Phase} (known : Known env calls past world sessions)
    (allowed : (updating env.defaults).allows (sessions tid) req) (undisturbed : Undisturbed
      (.made (fun _ => machine env) tid req world :: past)) :
    Known env calls (.made (fun _ => machine env) tid req world :: past) (machine env req world).2
      (update sessions tid
        ((updating env.defaults).after (sessions tid) req (machine env req world).1)) := by
  constructor
  · intro other
    by_cases same : other = tid
    · subst same
      rw [update_self]
      exact known.own other
    · rw [update_of_ne same]
      exact known.own other
  · exact known.sound.step allowed
  · intro other
    by_cases same : other = tid
    · subst same
      rw [update_self]
      exact (known.knows other).step known.sound allowed undisturbed
    · rw [update_of_ne same]
      exact (known.knows other).later allowed (Ne.symm same)
  · intro later event earlier same key changes
    cases later with
    | nil =>
      obtain ⟨rfl, rfl⟩ := List.cons.inj same
      have knows := known.knows tid
      have own := known.own tid
      generalize sessions tid = session at allowed knows own
      obtain ⟨call, phase⟩ := session
      obtain rfl : call = calls tid := own
      exact serial_of_knows knows allowed undisturbed changes
    | cons newest later =>
      exact known.serialised later event earlier (List.cons.inj same).2 key changes

section

variable (env : Env) (calls : Thread → Call) (origin : World) (schedule : List Thread)

/-- Every thread makes its call, one request after the other as the schedule lets it. -/
def interleave : Euclid.Pool Thread Req Answer StoreError Reply World :=
  (Euclid.Pool.start origin fun tid => (calls tid).program env.defaults).run
    (fun _ => machine env) schedule

theorem interleave_governs :
    (updating env.defaults).Governs (fun _ => machine env) (fun tid => (calls tid, .start)) origin
        (interleave env calls origin schedule).history
        (interleave env calls origin schedule).world ∧
      ∀ tid, ((interleave env calls origin schedule).programs tid).Follows (updating env.defaults)
        ((updating env.defaults).sessions (fun tid => (calls tid, .start))
          (interleave env calls origin schedule).history tid) ((calls tid).endsAs env.defaults) :=
  governs_run (updating env.defaults) (fun _ => machine env)
    (fun tid => (calls tid, .start)) (fun tid => (calls tid).endsAs env.defaults)
    origin (fun tid => (calls tid).program env.defaults)
    (fun tid => (calls tid).program_follows env.defaults)
    (fun _ _ _ _ _ _ => trivial) schedule

end

variable {origin : World}

theorem known_of_governed (sound : origin.Sound)
    (governed : (updating env.defaults).Governs (fun _ => machine env)
      (fun tid => (calls tid, .start)) origin past world) (undisturbed : Undisturbed past) :
    Known env calls past world
      ((updating env.defaults).sessions (fun tid => (calls tid, .start)) past) := by
  induction governed with
  | start =>
    refine ⟨fun _ => rfl, sound, fun tid => ?_, fun later _ _ same => absurd same (by simp)⟩
    show Knows env [] origin tid (calls tid, .start)
    cases calls tid <;> exact trivial
  | step governed tid req allowed ih =>
    exact (ih undisturbed.earlier).step allowed undisturbed

/-- Whatever changes a document deletes it as its call is to, or is the change of its call made to
the document stored just before, a missing one counting as a fresh one. And a call that tells what
came of its change had nothing to write or has written it. -/
theorem updates_serialised (env : Env) (calls : Thread → Call) (origin : World)
    (sound : origin.Sound) (schedule : List Thread)
    (undisturbed : Undisturbed (interleave env calls origin schedule).history) :
    Serialised env calls (interleave env calls origin schedule).history ∧
      ∀ tid place change outcome, calls tid = .update place change →
        (interleave env calls origin schedule).programs tid = .done (.updated (some outcome)) →
        ∃ event ∈ (interleave env calls origin schedule).history, event.thread = tid ∧
          ∃ reading limits,
            HasRead env (interleave env calls origin schedule).history tid reading ∧
            Inherits env (interleave env calls origin schedule).history tid place
              change (event.before.documents place.key) limits ∧
            outcome =
              (change.apply limits (place.read (event.before.documents place.key)) reading).2.1 ∧
            ∀ doc, change.written limits place (event.before.documents place.key) reading =
              some doc → event.after.documents place.key = some doc := by
  obtain ⟨governed, following⟩ := interleave_governs env calls origin schedule
  have known := known_of_governed sound governed undisturbed
  refine ⟨known.serialised, fun tid place change outcome asks ends => ?_⟩
  have ended := following tid
  rw [ends, asks] at ended
  obtain ⟨own, copy, reading, looked, hasLooked, rfl, either⟩ :
    endsAs env.defaults place change (.ok (some outcome)) _ := ended
  have knows := known.knows tid
  generalize (updating env.defaults).sessions (fun tid => (calls tid, Phase.start))
    _ tid = session at own either knows
  obtain ⟨call, phase⟩ := session
  obtain rfl : call = .update place change := own
  rcases either with told | ⟨told, declines⟩
  · obtain rfl : phase = _ := told
    obtain ⟨read, found, event, mem, own, rfl, wrote⟩ := knows
    exact ⟨event, mem, own, reading, inheritedFrom env.defaults looked, read,
      hasLooked.inherits found, rfl, fun doc written => wrote.trans written⟩
  · obtain rfl : phase = _ := told
    obtain ⟨copied, read, found⟩ := knows
    obtain ⟨event, mem, own, rfl⟩ := copied.found
    exact ⟨event, mem, own, reading, inheritedFrom env.defaults looked, read,
      hasLooked.inherits found, rfl, fun doc written =>
        absurd (written.symm.trans declines) (by simp)⟩

theorem not_deletedSince (updates : ∀ tid key, calls tid ≠ .remove key)
    (governed : (updating env.defaults).Governs (fun _ => machine env)
      (fun tid => (calls tid, .start)) origin past world) : ¬DeletedSince tid key past := by
  induction governed with
  | start => exact id
  | @step earlier before governed asking req allowed ih =>
    rintro ⟨_, ⟨there, gone⟩ | deleted⟩
    · replace there : before.documents key ≠ none := there
      replace gone : (machine env req before).2.documents key = none := gone
      have own := sessions_invariant (updating env.defaults)
        (fun tid => (calls tid, Phase.start)) (fun session => ∀ key, session.1 ≠ .remove key)
        updates (fun _ _ _ same => same) earlier asking
      rcases step_documents env req before with same | ⟨new, rfl, _, made⟩ |
        ⟨version, new, current, rfl, _, _, replaced⟩ | ⟨other, rfl, _⟩
      · exact there (same ▸ gone)
      · by_cases equal : key = new.key
        · simp [made, equal] at gone
        · exact there (by rwa [made, update_of_ne equal] at gone)
      · by_cases equal : key = new.key
        · simp [replaced, equal] at gone
        · exact there (by rwa [replaced, update_of_ne equal] at gone)
      · generalize (updating env.defaults).sessions (fun tid => (calls tid, Phase.start))
          earlier asking = session at allowed own
        obtain ⟨call, phase⟩ := session
        cases call with
        | remove removing => exact own removing rfl
        | update place change => cases phase <;> exact allowed.elim
    · exact ih deleted

theorem undisturbed_of_updates (updates : ∀ tid key, calls tid ≠ .remove key)
    {schedule : List Thread} : Undisturbed (interleave env calls origin schedule).history := by
  intro later event earlier same version doc current _ _ _ deleted
  have governed := (interleave_governs env calls origin schedule).1
  rw [same] at governed
  exact absurd deleted (not_deletedSince updates governed.before)

end Runs

end Knowledge

/-! ### A deletion between a read and a write -/

theorem mem_permits_acquire {permit : Permit} {state : SiteState} {limits : Limits}
    {now lease : Int}
    {permitId : String} (mem : permit ∈ state.permits) (lasts : now < permit.expiresAt) :
    permit ∈ (acquire state limits now permitId lease).2.permits := by
  have kept : permit ∈ (refresh state limits now).permits :=
    List.mem_filter.mpr ⟨mem, by simpa using lasts⟩
  unfold acquire
  dsimp only
  split
  · exact kept
  split
  · exact kept
  split
  · exact kept
  · exact List.mem_append_left _ kept

/-- A clock that stands still, and limits that grant whatever is asked for. -/
def Env.still : Env where
  clock _ := 1000000000
  defaults := ⟨0, 1, 0⟩
  outage _ := none

def World.empty : World := ⟨fun _ => none, 0⟩

theorem World.Sound.empty : World.empty.Sound :=
  fun _ _ stored => absurd stored (by simp [World.empty])

/-- A site of an application. -/
def downloads : Place := ⟨"ern:downloader", "downloader", "downloads.example.com"⟩

/-- Three calls ask for a permit, and one forgets the site. -/
def forgotten : ℕ → Call
  | 0 => .update downloads (.acquire "first" 900)
  | 1 => .update downloads (.acquire "second" 900)
  | 2 => .remove downloads.key
  | _ => .update downloads (.acquire "third" 900)

/-- The second call reads the document that the first wrote. The site is forgotten, the third call
makes its document anew, and the second writes. -/
def forgetting : List ℕ := [0, 0, 0, 0, 1, 1, 1, 2, 3, 3, 3, 3, 1]

/-- The write of the second call gives back what was forgotten, and takes the permit that the third
call was granted. -/
theorem forgotten_comes_back :
    ¬Serialised .still forgotten (interleave .still forgotten .empty forgetting).history := by
  intro serialised
  have last : ((interleave .still forgotten .empty forgetting).history.head?.map fun event =>
      (event.thread, (event.before.documents downloads.key).map (·.permits),
        (event.after.documents downloads.key).map (·.permits))) =
      some (1, some [⟨"third", 901000⟩], some [⟨"first", 901000⟩, ⟨"second", 901000⟩]) := by
    decide
  cases run : (interleave .still forgotten .empty forgetting).history with
  | nil =>
    rw [run] at last
    nomatch last
  | cons event earlier =>
    rw [run] at last
    obtain ⟨asking, before, after⟩ : event.thread = 1 ∧
        (event.before.documents downloads.key).map (·.permits) = some [⟨"third", 901000⟩] ∧
        (event.after.documents downloads.key).map (·.permits) =
          some [⟨"first", 901000⟩, ⟨"second", 901000⟩] := by simpa using last
    have changes : event.after.documents downloads.key ≠ event.before.documents downloads.key := by
      intro same
      rw [same, before] at after
      exact absurd after (by decide)
    rcases serialised [] event earlier run downloads.key changes with ⟨removes, _⟩ |
      ⟨place, change, reading, limits, doc, asks, _, ⟨_, _, _, _, rfl⟩, _, written, stored⟩
    · rw [asking] at removes
      exact absurd removes (by simp [forgotten])
    · rw [asking] at asks
      obtain ⟨rfl, rfl⟩ := Call.update.inj asks
      obtain ⟨old, found, permits⟩ := map_eq_some_iff.mp before
      rw [found] at written
      obtain ⟨_, rfl⟩ := written_eq_some.mp written
      rw [stored] at after
      have held : (⟨"third", 901000000000⟩ : Permit) ∈
          (acquire (parseSite old).state ((parseSite old).limits.getD limits) 1000000000 "second"
            900).2.permits := by
        refine mem_permits_acquire ?_ (by decide)
        show _ ∈ old.permits.map _
        rw [permits]
        exact .head _
      have kept := List.mem_map_of_mem (f := fun permit : Permit =>
        (⟨permit.id, toMillis permit.expiresAt⟩ : Permit)) held
      have same : _ = [(⟨"first", 901000⟩ : Permit), ⟨"second", 901000⟩] := some.inj after
      have listed : (⟨"third", 901000⟩ : Permit) ∈
          [(⟨"first", 901000⟩ : Permit), ⟨"second", 901000⟩] := by
        rw [← same]
        exact kept
      exact absurd listed (by decide)

/-- Two calls that ask for permits of a site at the same time. -/
def bothAsk (tid : ℕ) : Call :=
  .update downloads (.acquire (if tid = 0 then "first" else "second") 900)

/-- The first call inserts the document, the second collides with it and writes over it. -/
theorem collided_serialised : Serialised .still bothAsk
      (interleave .still bothAsk .empty [0, 0, 0, 1, 1, 1, 0, 1, 1, 1, 1, 1]).history :=
  (updates_serialised .still bothAsk .empty .empty _
    (undisturbed_of_updates (fun _ _ => by simp [bothAsk]))).1

end Euclid.Eap.Egress
