/-
This file proves whose the objects of declarants stay, over any sequence of runs that apply their
declarations.

An object is known for its owner's by its tag, a route by where it sends. What a prune considers is
what is tagged and what is recorded, and a route is only recorded: it is found again as long as no
run that created one was stopped by an error.
-/

import Euclid.Eap.Objects

namespace Euclid.Eap.Infrastructure

open List Key

open Eag (Claim claimOn mayRemove InfrastructureOwner ApplyOptions)

/-! ### What is created keeps apart from what others own -/

variable {object : Object} {objects : List Object} {region : String}

section Ensuring

variable {outside : Surroundings} {options : ApplyOptions} {owner : InfrastructureOwner}
  {decl : Declaration} {before : List Object}

def AtHome (owner : InfrastructureOwner) (object : Object) : Prop :=
  object.accountId = owner.accountId ∧ object.nameSpace = owner.nameSpace

def Declaration.Names (owner : InfrastructureOwner) (decl : Declaration) (key : Key) : Prop :=
  ∃ res ∈ decl.creates, res.key owner = key

/-- No declared route is there that sends nowhere. -/
def SendsSomewhere (owner : InfrastructureOwner) (decl : Declaration)
    (objects : List Object) : Prop :=
  ∀ object ∈ objects, object.kind = .routes → decl.Names owner object.key →
    object.ownerTag ≠ some ""

theorem Object.exists_table (table : object.kind = .tables) : ∃ stored, object = .table stored := by
  cases object <;> first | exact ⟨_, rfl⟩ | cases table

theorem Object.exists_route (route : object.kind = .routes) : ∃ stored, object = .route stored := by
  cases object <;> first | exact ⟨_, rfl⟩ | cases route

variable {res : Resource} {proposal : Proposal} {fresh : Object}

theorem SendsSomewhere.not_adopted {deadLetterQueueErn : String}
    (sends : SendsSomewhere owner decl objects)
    (proposes : Proposes outside owner res objects deadLetterQueueErn fresh proposal)
    (declared : res ∈ decl.creates) (route : res.kind = .routes) : proposal.claim ≠ .adopt := by
  intro adopt
  obtain ⟨found, own, nobody⟩ := proposes.adopted adopt
  obtain ⟨mem, key⟩ := findObject_mem own
  have kind : found.kind = .routes := (congrArg kind key).trans route
  have somewhere := sends found mem kind ⟨res, declared, key.symm⟩
  obtain ⟨stored, rfl⟩ := Object.exists_route kind
  exact somewhere (congrArg some nobody)

/-- What the loop over what is created has made of the objects. -/
structure Advanced (outside : Surroundings) (owner : InfrastructureOwner)
    (decl : Declaration) (before : List Object) (progress : Progress) : Prop where
  sound : Sound outside.region progress.objects
  owned : ∀ ern ∈ progress.plan.owned, ∃ res ∈ decl.creates,
    ern = (res.key owner).ern outside.region
  created : ∀ object ∈ progress.objects, AtHome owner object →
    object.ern ∈ progress.plan.created → object.ownerTag = some owner.id ∧
      object.remnantTag = some owner.id ∧ decl.Names owner object.key ∧
      findObject before object.key = none
  adopted : ∀ object ∈ progress.objects, AtHome owner object →
    object.ern ∈ progress.plan.adopted → object.ern ∉ progress.plan.created →
    object.ownerTag = some owner.id ∧
      object.remnantTag = some owner.id ∧ decl.Names owner object.key ∧
      ∃ first ∈ before, first.key = object.key ∧ first.ownerTag.getD "" = ""
  others : ∀ object ∈ progress.objects, (AtHome owner object →
      object.ern ∉ progress.plan.created ∧ object.ern ∉ progress.plan.adopted) →
    ∃ first ∈ before, first.key = object.key ∧ object.ownerTag = first.ownerTag ∧
      object.remnantTag = first.remnantTag ∧ (object = first ∨
        first.ownerTag = some owner.id ∧ decl.Names owner object.key)
  kept : ∀ object ∈ before, ∃ later ∈ progress.objects, later.key = object.key

theorem Object.remnantTag_eq (tagged : object.kind ≠ .routes) :
    object.remnantTag = object.ownerTag := by
  cases object <;> first | rfl | exact absurd rfl tagged

theorem Resource.atHome (key : object.key = res.key owner) : AtHome owner object :=
  ⟨congrArg accountId key, congrArg nameSpace key⟩

theorem Sound.home_key (sound : Sound region objects) (mem : object ∈ objects)
    (home : AtHome owner object) (ern : object.ern = (res.key owner).ern region) :
    object.key = res.key owner := by
  have own := sound.addressed object mem
  rw [ern] at own
  have key : object.key = ⟨object.kind, owner.accountId, owner.nameSpace, object.name⟩ := by
    unfold Object.key
    rw [home.1, home.2]
  rw [key] at own ⊢
  obtain ⟨kind, name⟩ := ern_injective own
  unfold Resource.key keyOfOwned
  rw [kind, name]

/-- How an object stands to a declaration: it was created, or adopted, or is what was there. -/
inductive Standing (owner : InfrastructureOwner) (decl : Declaration) (before : List Object)
    (plan : InfrastructurePlan) (object : Object) : Prop where
  | created (home : AtHome owner object) (made : object.ern ∈ plan.created)
    (own : object.ownerTag = some owner.id ∧ object.remnantTag = some owner.id)
    (names : decl.Names owner object.key) (new : findObject before object.key = none)
  | adopted (home : AtHome owner object) (took : object.ern ∈ plan.adopted)
    (unmade : object.ern ∉ plan.created)
    (own : object.ownerTag = some owner.id ∧ object.remnantTag = some owner.id)
    (names : decl.Names owner object.key)
    (first : ∃ first ∈ before, first.key = object.key ∧ first.ownerTag.getD "" = "")
  | other (apart : AtHome owner object → object.ern ∉ plan.created ∧ object.ern ∉ plan.adopted)
    (first : ∃ first ∈ before, first.key = object.key ∧ object.ownerTag = first.ownerTag ∧
      object.remnantTag = first.remnantTag ∧ (object = first ∨
        first.ownerTag = some owner.id ∧ decl.Names owner object.key))

theorem Standing.of_same {plan later : InfrastructurePlan}
    (standing : Standing owner decl before plan object) (same : AtHome owner object →
      (object.ern ∈ later.created ↔ object.ern ∈ plan.created) ∧
        (object.ern ∈ later.adopted ↔ object.ern ∈ plan.adopted)) :
    Standing owner decl before later object := by
  cases standing with
  | created home made own names new => exact .created home ((same home).1.mpr made) own names new
  | adopted home took unmade own names first =>
    exact .adopted home ((same home).2.mpr took) (fun made => unmade ((same home).1.mp made)) own
      names first
  | other apart first =>
    exact .other (fun home => ⟨fun made => (apart home).1 ((same home).1.mp made),
      fun took => (apart home).2 ((same home).2.mp took)⟩) first

theorem mem_reported {progress : Progress} {ern : String} :
    (ern ∈ (progress.report proposal).plan.created ↔
        ern ∈ progress.plan.created ∨ proposal.claim = .create ∧ ern = proposal.ern) ∧
      (ern ∈ (progress.report proposal).plan.adopted ↔
        ern ∈ progress.plan.adopted ∨ proposal.claim = .adopt ∧ ern = proposal.ern) := by
  simp only [Progress.report, mem_append]
  constructor <;> split_ifs with claim <;> simp [claim]

namespace Advanced

variable {res : Resource} {progress : Progress}

theorem of_standing (sound : Sound outside.region progress.objects)
    (owned : ∀ ern ∈ progress.plan.owned, ∃ res ∈ decl.creates,
      ern = (res.key owner).ern outside.region)
    (standing : ∀ object ∈ progress.objects, Standing owner decl before progress.plan object)
    (kept : ∀ object ∈ before, ∃ later ∈ progress.objects, later.key = object.key) :
    Advanced outside owner decl before progress where
  sound
  owned
  created object mem home made := by
    cases standing object mem with
    | created _ _ own names new => exact ⟨own.1, own.2, names, new⟩
    | adopted _ _ unmade => exact absurd made unmade
    | other apart => exact absurd made (apart home).1
  adopted object mem home took unmade := by
    cases standing object mem with
    | created _ made => exact absurd made unmade
    | adopted _ _ _ own names first => exact ⟨own.1, own.2, names, first⟩
    | other apart => exact absurd took (apart home).2
  others object mem apart := by
    cases standing object mem with
    | created home made => exact absurd made (apart home).1
    | adopted home took => exact absurd took (apart home).2
    | other _ first => exact first
  kept

variable (advanced : Advanced outside owner decl before progress)

include advanced

theorem standing (mem : object ∈ progress.objects) :
    Standing owner decl before progress.plan object := by
  by_cases created : AtHome owner object ∧ object.ern ∈ progress.plan.created
  · obtain ⟨ownerTag, remnantTag, names, new⟩ :=
      advanced.created object mem created.1 created.2
    exact .created created.1 created.2 ⟨ownerTag, remnantTag⟩ names new
  · by_cases adopted : AtHome owner object ∧ object.ern ∈ progress.plan.adopted
    · have unmade := fun made => created ⟨adopted.1, made⟩
      obtain ⟨ownerTag, remnantTag, names, first⟩ :=
        advanced.adopted object mem adopted.1 adopted.2 unmade
      exact .adopted adopted.1 adopted.2 unmade ⟨ownerTag, remnantTag⟩ names first
    · have apart := fun home =>
        And.intro (fun made => created ⟨home, made⟩) fun took => adopted ⟨home, took⟩
      exact .other apart (advanced.others object mem apart)

theorem somewhere (named : owner.id ≠ "") (sends : SendsSomewhere owner decl before) :
    SendsSomewhere owner decl progress.objects := by
  intro object mem route names
  have somebody : object.ownerTag = some owner.id → object.ownerTag ≠ some "" := fun own nobody =>
    named (Option.some.inj (own.symm.trans nobody))
  cases advanced.standing mem with
  | created _ _ own => exact somebody own.1
  | adopted _ _ _ own => exact somebody own.1
  | other _ first =>
    obtain ⟨first, there, key, tag, -⟩ := first
    rw [tag]
    exact sends first there ((congrArg kind key).trans route) (key ▸ names)

variable {proposal : Proposal}

theorem report_kept (named : proposal.ern = (res.key owner).ern outside.region)
    (create : proposal.claim = .create →
      findObject progress.objects (res.key owner) = none) (adopt : proposal.claim ≠ .adopt) :
    Advanced outside owner decl before (progress.report proposal) := by
  refine of_standing advanced.sound advanced.owned (fun object mem => ?_) advanced.kept
  refine (advanced.standing mem).of_same fun home => ?_
  rw [mem_reported.1, mem_reported.2]
  refine ⟨or_iff_left fun ⟨new, ern⟩ => ?_, or_iff_left fun took => adopt took.1⟩
  exact absurd (advanced.sound.home_key mem home (ern.trans named))
    (findObject_none.mp (create new) object mem)

variable {deadLetterQueueErn : String}

theorem report_stored (declared : res ∈ decl.creates) (id : owner.id ≠ "")
    (sends : SendsSomewhere owner decl before)
    (proposes : Proposes outside owner res progress.objects deadLetterQueueErn fresh
      proposal) (write : proposal.write = some object)
    (upserted : upsertObject progress.objects object = some objects) :
    Advanced outside owner decl before { progress.report proposal with objects } := by
  obtain ⟨key, ern, tagged, route⟩ := proposes.stored write
  have home := Resource.atHome key
  have named := proposes.ern_eq advanced.sound
  rw [proposes.start_ern advanced.sound, ← named] at ern
  have names : decl.Names owner object.key := ⟨res, declared, key.symm⟩
  have sound := advanced.sound.upsert (by rw [ern, named, key]) upserted
  obtain ⟨rfl, -⟩ := upsertObject_some upserted
  refine of_standing sound advanced.owned (fun other mem => ?_) fun first mem => ?_
  · rcases (mem_put advanced.sound.named).mp mem with rfl | ⟨stays, apart⟩
    · cases own : findObject progress.objects (res.key owner) with
      | none =>
        have create := proposes.created_iff.mpr own
        refine .created home (mem_reported.1.mpr (.inr ⟨create, ern⟩)) ?_ names ?_
        · by_cases kind : res.kind = .routes
          · have same := route kind
            rw [own] at same
            rw [same.1, same.2]
            exact proposes.fresh_owned kind
          · exact tagged kind
        · refine findObject_none.mpr fun first firstMember same => ?_
          obtain ⟨later, laterMember, laterKey⟩ := advanced.kept first firstMember
          exact findObject_none.mp own later laterMember (by rw [laterKey, same, key])
      | some found =>
        obtain ⟨foundMember, foundKey⟩ := findObject_mem own
        have foundErn : found.ern = other.ern := by
          rw [advanced.sound.addressed found foundMember, foundKey, ern, named]
        have sameKey : found.key = other.key := foundKey.trans key.symm
        have uncreated : proposal.claim ≠ .create := fun create => by
          rw [proposes.created_iff.mp create] at own
          cases own
        -- Its tags are the owner's where those of the object that was there are.
        have tags : found.ownerTag = some owner.id →
            other.ownerTag = found.ownerTag ∧ other.remnantTag = found.remnantTag := by
          intro mine
          by_cases kind : res.kind = .routes
          · have same := route kind
            rwa [own] at same
          · have kinds : found.kind = res.kind := congrArg Key.kind foundKey
            rw [Object.remnantTag_eq fun route => kind (kinds.symm.trans route), mine]
            exact tagged kind
        have owned : found.ownerTag = some owner.id ∧ found.remnantTag = some owner.id →
            other.ownerTag = some owner.id ∧ other.remnantTag = some owner.id := fun mine =>
          ⟨(tags mine.1).1.trans mine.1, (tags mine.1).2.trans mine.2⟩
        have adopt : proposal.claim = .adopt → found.ownerTag.getD "" = "" := fun adopt => by
          obtain ⟨_, found', nobody⟩ := proposes.adopted adopt
          cases own.symm.trans found'
          exact nobody
        have unadopted : found.ownerTag = some owner.id → proposal.claim ≠ .adopt :=
          fun mine took =>
          id (by simpa [mine] using adopt took)
        cases advanced.standing foundMember with
        | created _ made mine _ new =>
          exact .created home (mem_reported.1.mpr (.inl (foundErn ▸ made))) (owned mine) names
            (sameKey ▸ new)
        | adopted _ took unmade mine _ first =>
          refine .adopted home (mem_reported.2.mpr (.inl (foundErn ▸ took))) (fun made => ?_)
            (owned mine) names (sameKey ▸ first)
          exact (mem_reported.1.mp made).elim (foundErn ▸ unmade) fun create => uncreated create.1
        | other apart first =>
          obtain ⟨unmade, untaken⟩ := apart (Resource.atHome foundKey)
          rw [foundErn] at unmade untaken
          have unmade : other.ern ∉ (progress.report proposal).plan.created := fun made =>
            (mem_reported.1.mp made).elim unmade fun create => uncreated create.1
          obtain ⟨first, there, firstKey, ownerTag, remnantTag, -⟩ := first
          by_cases took : proposal.claim = .adopt
          · refine .adopted home (mem_reported.2.mpr (.inr ⟨took, ern⟩)) unmade
              (tagged fun kind => ?_) names ⟨first, there, firstKey.trans sameKey, ?_⟩
            · exact (advanced.somewhere id sends).not_adopted proposes declared kind took
            · rw [← ownerTag]
              exact adopt took
          · obtain ⟨_, found', mine⟩ := proposes.mine id uncreated took
            cases own.symm.trans found'
            refine .other (fun _ => ⟨unmade, fun adopted => ?_⟩)
              ⟨first, there, firstKey.trans sameKey,
              (tags mine).1.trans ownerTag, (tags mine).2.trans remnantTag,
              .inr ⟨ownerTag ▸ mine, names⟩⟩
            exact (mem_reported.2.mp adopted).elim untaken fun adopt => took adopt.1
    · refine (advanced.standing stays).of_same fun otherHome => ?_
      have differs : other.ern ≠ proposal.ern := fun same => apart (by
        rw [advanced.sound.home_key stays otherHome (same.trans named), key])
      exact ⟨mem_reported.1.trans (or_iff_left fun create => differs create.2),
        mem_reported.2.trans (or_iff_left fun adopt => differs adopt.2)⟩
  · obtain ⟨stays, laterMember, laterKey⟩ := advanced.kept first mem
    by_cases same : stays.key = object.key
    · exact ⟨object, (mem_put advanced.sound.named).mpr (.inl rfl), same.symm.trans laterKey⟩
    · exact ⟨stays, (mem_put advanced.sound.named).mpr (.inr ⟨laterMember, same⟩), laterKey⟩

theorem refused_new
    (proposes : Proposes outside owner res progress.objects deadLetterQueueErn fresh
      proposal) (write : proposal.write = some object)
    (refused : upsertObject progress.objects object = none) : proposal.claim = .create := by
  refine proposes.created_iff.mpr ?_
  cases own : findObject progress.objects (res.key owner) with
  | none => rfl
  | some found =>
    obtain ⟨key, ern, -⟩ := proposes.stored write
    obtain ⟨mem, foundKey⟩ := findObject_mem own
    rw [own, Option.getD_some] at ern
    unfold upsertObject at refused
    split at refused
    · rename_i taken
      obtain ⟨other, otherMember, same⟩ := any_eq_true.mp taken
      obtain ⟨kind, otherErn, apart⟩ := of_decide_eq_true same
      have kinds : object.kind = found.kind := congrArg Key.kind (key.trans foundKey.symm)
      refine absurd ?_ apart
      rw [advanced.sound.distinct other otherMember found mem (kind.trans kinds)
        (otherErn.trans ern), foundKey, key]
    · cases refused

theorem own (declared : res ∈ decl.creates) {ern : String}
    (named : ern = (res.key owner).ern outside.region) :
    Advanced outside owner decl before (progress.own res.kind ern) :=
  { advanced with
    owned := fun other mem => by
      rcases mem_append.mp mem with already | now
      · exact advanced.owned other already
      · rw [mem_singleton.mp now]
        exact ⟨res, declared, named⟩ }

theorem fail (error : String) : Advanced outside owner decl before (progress.fail error) :=
  { advanced with }

theorem turn (declared : res ∈ decl.creates) (id : owner.id ≠ "")
    (sends : SendsSomewhere owner decl before) (real : options.dryRun = false)
    {next : Progress} (turn : Turn outside options owner decl res progress next) :
    Advanced outside owner decl before next := by
  cases turn with
  | refused proposed => exact advanced.fail _
  | @stopped proposal error proposed reason =>
    obtain ⟨deadLetterQueueErn, fresh, proposes⟩ := propose_ok proposed
    refine (advanced.report_kept (proposes.ern_eq advanced.sound) proposes.created_iff.mp ?_).fail _
    rcases reason with problem | ⟨-, -, object, write, refused⟩
    · refine (advanced.somewhere id sends).not_adopted proposes declared ?_
      by_contra tagged
      rw [proposes.problem tagged] at problem
      cases problem
    · rw [advanced.refused_new proposes write refused]
      exact Claim.noConfusion
  | @kept proposal proposed clear unwritten =>
    obtain ⟨deadLetterQueueErn, fresh, proposes⟩ := propose_ok proposed
    refine (advanced.report_kept (proposes.ern_eq advanced.sound) proposes.created_iff.mp
      ?_).own declared (proposes.ern_eq advanced.sound)
    rcases unwritten with unwritten | dry
    · intro adopt
      by_cases route : res.kind = .routes
      · exact (advanced.somewhere id sends).not_adopted proposes declared route adopt
      · have unstored := (proposes.unwritten unwritten).1
        simp [isStored, adopt, route] at unstored
    · rw [real] at dry
      cases dry
  | @stored proposal object objects proposed clear _ write upserted =>
    obtain ⟨deadLetterQueueErn, fresh, proposes⟩ := propose_ok proposed
    exact (advanced.report_stored declared id sends proposes write upserted).own declared
      (proposes.ern_eq advanced.sound)

theorem ensureOwned (resources : List Resource) (declared : ∀ res ∈ resources, res ∈ decl.creates)
    (id : owner.id ≠ "") (sends : SendsSomewhere owner decl before)
    (real : options.dryRun = false) :
    Advanced outside owner decl before
      (Infrastructure.ensureOwned outside options owner decl resources progress) := by
  induction resources generalizing progress with
  | nil => exact advanced
  | cons res rest ih =>
    have next := advanced.turn (declared res (.head _)) id sends real
      (ensureOwnedResource_turn outside options owner decl res progress)
    unfold Infrastructure.ensureOwned
    dsimp only
    split
    · exact next
    · exact ih next fun other mem =>
        declared other (.tail _ mem)

end Advanced

theorem Sound.advanced (sound : Sound outside.region objects)
    (owner : InfrastructureOwner) (decl : Declaration) :
    Advanced outside owner decl objects ⟨.blank, [], objects⟩ where
  sound := sound
  owned := fun _ mem => absurd mem not_mem_nil
  created := fun _ _ _ mem => absurd mem not_mem_nil
  adopted := fun _ _ _ mem => absurd mem not_mem_nil
  others := fun object mem _ => ⟨object, mem, rfl, rfl, rfl, .inl rfl⟩
  kept := fun object mem => ⟨object, mem, rfl⟩

end Ensuring

/-! ### What a prune takes away and finds again -/

section Pruning

variable {outside : Surroundings} {options : ApplyOptions} {owner : InfrastructureOwner}
  {objects : List Object}

/-- A prune only adds to what is removed, kept and owned. -/
structure Grown (plan later : InfrastructurePlan) : Prop where
  owned : ∀ ern ∈ plan.owned, ern ∈ later.owned
  kept : ∀ entry ∈ plan.kept, entry ∈ later.kept
  deleted : ∀ ern ∈ plan.deleted, ern ∈ later.deleted
  created : later.created = plan.created
  adopted : later.adopted = plan.adopted
  error : later.error = plan.error

theorem Grown.refl (plan : InfrastructurePlan) : Grown plan plan :=
  ⟨fun _ => id, fun _ => id, fun _ => id, rfl, rfl, rfl⟩

theorem Grown.trans {first second third : InfrastructurePlan} (one : Grown first second)
    (two : Grown second third) : Grown first third :=
  ⟨fun ern mem => two.owned ern (one.owned ern mem),
    fun entry mem => two.kept entry (one.kept entry mem),
    fun ern mem => two.deleted ern (one.deleted ern mem),
    two.created.trans one.created, two.adopted.trans one.adopted, two.error.trans one.error⟩

variable {next : InfrastructurePlan × List Object} {plan : InfrastructurePlan}

theorem PruneTurn.grown {ern : String}
    (turn : PruneTurn outside options owner ern plan objects next) : Grown plan next.1 := by
  cases turn with
  | passed => exact .refl plan
  | kept => exact ⟨fun _ => mem_append_left _, fun _ => mem_append_left _, fun _ => id,
      rfl, rfl, rfl⟩
  | removed => exact ⟨fun _ => id, fun _ => id, fun _ => mem_append_left _, rfl, rfl, rfl⟩

theorem pruneAll_grown (outside : Surroundings) (options : ApplyOptions)
    (owner : InfrastructureOwner) (erns : List String) (plan : InfrastructurePlan)
    (objects : List Object) : Grown plan (pruneAll outside options owner erns plan objects).1 := by
  induction erns generalizing plan objects with
  | nil => exact .refl plan
  | cons ern rest ih =>
    rw [pruneAll_cons]
    exact (pruneOne_turn outside options owner ern plan objects).grown.trans (ih _ _)

theorem PruneTurn.objects_eq (sound : Sound region objects) {ern : String}
    (turn : PruneTurn outside options owner ern plan objects next) :
    next.2 = objects ∨ ∃ object, objectOfErn objects ern = some object ∧ ern ∉ plan.owned ∧
      mayRemove object.remnantTag owner.id (decide (ern ∈ owner.recorded)) ∧ options.prune ∧
      object.holds outside.contents = "" ∧ ern ∈ next.1.deleted ∧
      next.2 = objects.filter fun other => other.key ≠ object.key := by
  cases turn with
  | passed => exact .inl rfl
  | kept => exact .inl rfl
  | @removed object unowned found mine pruning empty =>
    split
    · exact .inl rfl
    · exact .inr ⟨object, found, unowned, mine, pruning, empty,
        mem_append_right _ (mem_singleton_self _), sound.deleteOwnedResource_eq found⟩

/-- What is left was there, and what is gone was the owner's to remove and empty. -/
theorem Sound.afterPrune (outside : Surroundings) (options : ApplyOptions)
    (owner : InfrastructureOwner) (sound : Sound region objects)
    (erns : List String) (plan : InfrastructurePlan) :
    Sound region (pruneAll outside options owner erns plan objects).2 ∧
      (∀ object ∈ (pruneAll outside options owner erns plan objects).2, object ∈ objects) ∧
      ∀ object ∈ objects, object ∉ (pruneAll outside options owner erns plan objects).2 →
        ∃ ern ∈ erns, ern ∈ (pruneAll outside options owner erns plan objects).1.deleted ∧
          objectOfErn objects ern = some object ∧ ern ∉ plan.owned ∧
          mayRemove object.remnantTag owner.id (decide (ern ∈ owner.recorded)) ∧ options.prune ∧
          object.holds outside.contents = "" := by
  induction erns generalizing plan objects with
  | nil => exact ⟨sound, fun _ => id, fun object mem gone => absurd mem gone⟩
  | cons ern rest ih =>
    rw [pruneAll_cons]
    have turn := (pruneOne_turn outside options owner ern plan objects).objects_eq sound
    have grown := (pruneOne_turn outside options owner ern plan objects).grown
    generalize pruneOne outside options owner ern plan objects = next at turn grown ⊢
    obtain ⟨later, fewer⟩ := next
    rcases turn with rfl | ⟨removed, found, unowned, mine, pruning, empty, deleted, rfl⟩
    · obtain ⟨soundRest, subset, gone⟩ := ih sound later
      refine ⟨soundRest, subset, fun object mem absent => ?_⟩
      obtain ⟨other, considered, otherDeleted, otherFound, otherUnowned, rest⟩ :=
        gone object mem absent
      exact ⟨other, .tail _ considered, otherDeleted, otherFound, fun owned =>
        otherUnowned (grown.owned other owned),
        rest⟩
    · obtain ⟨soundRest, subset, gone⟩ := ih (sound.filter _) later
      refine ⟨soundRest, fun object mem => mem_of_mem_filter (subset object mem),
        fun object mem absent => ?_⟩
      by_cases same : object.key = removed.key
      · obtain ⟨removedMember, -⟩ := objectOfErn_spec found
        rw [key_injective_on sound.named mem removedMember same]
        exact ⟨ern, .head _,
          (pruneAll_grown outside options owner rest later _).deleted ern deleted,
          found, unowned, mine, pruning, empty⟩
      · obtain ⟨other, considered, otherDeleted, otherFound, otherUnowned, otherMine,
          -, otherEmpty⟩ :=
          gone object (mem_filter.mpr ⟨mem, decide_eq_true same⟩) absent
        exact ⟨other, .tail _ considered, otherDeleted, sound.objectOfErn_of_mem otherFound mem,
          fun owned => otherUnowned (grown.owned other owned), otherMine, pruning, otherEmpty⟩

/-- An owner's object that a prune considers is taken away or reported as kept. -/
theorem Sound.prune_finds (sound : Sound region objects) {erns : List String}
    (once : erns.Nodup) (plan : InfrastructurePlan) (mem : object ∈ objects)
    (readable : object.kind = .tables → tableKeyOfErn object.ern = object.key)
    (considered : object.ern ∈ erns) (unowned : object.ern ∉ plan.owned)
    (mine : mayRemove object.remnantTag owner.id (decide (object.ern ∈ owner.recorded))) :
    object ∉ (pruneAll outside options owner erns plan objects).2 ∨ options.dryRun ∨
      (∃ reason, (object.ern, reason) ∈ (pruneAll outside options owner erns plan objects).1.kept) ∧
      object.ern ∈ (pruneAll outside options owner erns plan objects).1.owned ∧
      (options.prune → object.holds outside.contents ≠ "") := by
  induction erns generalizing plan objects with
  | nil => nomatch considered
  | cons ern rest ih =>
    rw [pruneAll_cons]
    have turn := pruneOne_turn outside options owner ern plan objects
    obtain ⟨absent, restOnce⟩ := nodup_cons.mp once
    by_cases own : object.ern = ern
    · subst own
      have read := sound.objectOfErn_eq mem readable
      generalize pruneOne outside options owner object.ern plan objects = next at turn ⊢
      cases turn with
      | passed reason =>
        rcases reason with owned | others
        · exact absurd owned unowned
        · rw [others object read] at mine
          cases mine
      | @kept other reason _ found _ held =>
        rw [read] at found
        cases found
        have grown := pruneAll_grown outside options owner rest
          (plan.keep object.ern reason) objects
        refine .inr (.inr ⟨⟨reason, grown.kept _ (mem_append_right _
          (mem_singleton_self _))⟩, grown.owned _ (mem_append_right _
          (mem_singleton_self _)), fun pruning => ?_⟩)
        rcases held with ⟨off, -⟩ | ⟨held, -⟩
        · rw [off] at pruning
          cases pruning
        · exact held
      | @removed other _ found _ _ _ =>
        rw [read] at found
        cases found
        split
        · rename_i dry
          exact .inr (.inl dry)
        · rw [sound.deleteOwnedResource_eq read]
          refine .inl fun stays => ?_
          have subset := ((sound.filter _).afterPrune outside options owner rest _).2.1 object stays
          simpa using (mem_filter.mp subset).2
    · have considered : object.ern ∈ rest := by
        rcases mem_cons.mp considered with same | later
        · exact absurd same own
        · exact later
      have objects_eq := turn.objects_eq sound
      have apart : object.ern ∉ (pruneOne outside options owner ern plan objects).1.owned := by
        generalize pruneOne outside options owner ern plan objects = next at turn
        cases turn with
        | passed => exact unowned
        | kept =>
          refine fun owned => ?_
          rcases mem_append.mp owned with already | now
          · exact unowned already
          · exact own (mem_singleton.mp now)
        | removed => exact unowned
      generalize pruneOne outside options owner ern plan objects = next at objects_eq apart ⊢
      obtain ⟨later, fewer⟩ := next
      dsimp only at objects_eq apart ⊢
      rcases objects_eq with rfl | ⟨removed, -, -, -, -, -, -, rfl⟩
      · exact ih sound restOnce later mem considered apart
      · by_cases same : object.key = removed.key
        · refine .inl fun stays => ?_
          have subset := ((sound.filter _).afterPrune outside options owner rest later).2.1
            object stays
          have differs := (mem_filter.mp subset).2
          rw [same] at differs
          simp at differs
        · exact ih (sound.filter _) restOnce later
            (mem_filter.mpr ⟨mem, decide_eq_true same⟩) considered apart

end Pruning

/-! ### One run -/

section Running

variable {outside : Surroundings} {options : ApplyOptions} {owner : InfrastructureOwner}
  {decl : Declaration}

/-- What the parts of a plan that concern objects have in common with another plan. -/
structure SameObjects (plan other : InfrastructurePlan) : Prop where
  created : plan.created = other.created
  adopted : plan.adopted = other.adopted
  deleted : plan.deleted = other.deleted
  kept : plan.kept = other.kept
  owned : plan.owned = other.owned

/-- A run ends with an error among what is created, or goes on to the prune. Grants leave the
objects alone. -/
theorem applyInfrastructure_objects (outside : Surroundings) (options : ApplyOptions)
    (owner : InfrastructureOwner) (decl : Declaration) (principalErn : String) (state : State) :
    let ensured := ensureOwned outside options owner decl decl.creates ⟨.blank, [], state.objects⟩
    let applied := applyInfrastructure outside options owner decl principalErn state
    ensured.plan.error ≠ none ∧ applied.1 = ensured.plan ∧ applied.2.objects = ensured.objects ∨
      ensured.plan.error = none ∧
        let pruned := pruneAll outside options owner (candidates owner ensured.objects)
          ensured.plan ensured.objects
        SameObjects applied.1 pruned.1 ∧ applied.2.objects = pruned.2 := by
  intro ensured applied
  by_cases failed : ensured.plan.error.isSome
  · have is : applied = (ensured.plan, { state with objects := ensured.objects }) := by
      change applyInfrastructure outside options owner decl principalErn state = _
      exact if_pos failed
    refine .inl ⟨fun none => ?_, by rw [is], by rw [is]⟩
    rw [none] at failed
    cases failed
  · refine .inr ⟨by simpa using failed, ?_⟩
    intro pruned
    rw [show applied = _ from if_neg failed]
    split
    · exact ⟨⟨rfl, rfl, rfl, rfl, rfl⟩, rfl⟩
    · split
      · exact ⟨⟨rfl, rfl, rfl, rfl, rfl⟩, rfl⟩
      · refine ⟨⟨rfl, rfl, rfl, rfl, rfl⟩, ?_⟩
        unfold applyGrants
        split <;> rfl

theorem Advanced.all_owned {before : List Object} {progress : Progress}
    (advanced : Advanced outside owner decl before progress)
    (resources : List Resource) (declared : ∀ res ∈ resources, res ∈ decl.creates)
    (id : owner.id ≠ "") (sends : SendsSomewhere owner decl before) (real : options.dryRun = false)
    (complete : (Infrastructure.ensureOwned outside options owner decl resources
      progress).plan.error = none) :
    (∀ ern ∈ progress.plan.owned, ern ∈ (Infrastructure.ensureOwned outside options owner
        decl resources progress).plan.owned) ∧
      ∀ res ∈ resources, (res.key owner).ern outside.region ∈
        (Infrastructure.ensureOwned outside options owner decl resources progress).plan.owned := by
  induction resources generalizing progress with
  | nil => exact ⟨fun _ mem => mem, nofun⟩
  | cons res rest ih =>
    have turn := ensureOwnedResource_turn outside options owner decl res progress
    have next := advanced.turn (declared res (.head _)) id sends real turn
    unfold Infrastructure.ensureOwned at complete ⊢
    dsimp only at complete ⊢
    generalize ensureOwnedResource outside options owner decl res progress = later
      at turn next complete ⊢
    split at complete
    · rename_i failed
      rw [complete] at failed
      cases failed
    · rename_i going
      rw [if_neg going]
      obtain ⟨grown, all⟩ := ih next
        (fun other mem => declared other (.tail _ mem)) complete
      have owned : (∀ ern ∈ progress.plan.owned, ern ∈ later.plan.owned) ∧
          (res.key owner).ern outside.region ∈ later.plan.owned := by
        cases turn with
        | refused => exact absurd rfl going
        | stopped => exact absurd rfl going
        | @kept proposal proposed =>
          obtain ⟨deadLetterQueueErn, fresh, proposes⟩ := propose_ok proposed
          rw [← proposes.ern_eq advanced.sound]
          exact ⟨fun _ => mem_append_left _,
            mem_append_right _ (mem_singleton_self _)⟩
        | @stored proposal object objects proposed =>
          obtain ⟨deadLetterQueueErn, fresh, proposes⟩ := propose_ok proposed
          rw [← proposes.ern_eq advanced.sound]
          exact ⟨fun _ => mem_append_left _,
            mem_append_right _ (mem_singleton_self _)⟩
      refine ⟨fun ern mem => grown ern (owned.1 ern mem), fun other mem => ?_⟩
      rcases mem_cons.mp mem with rfl | later
      · exact grown _ owned.2
      · exact all other later

theorem ensureOwned_dry (outside : Surroundings) (owner : InfrastructureOwner)
    (decl : Declaration) (dry : options.dryRun) (resources : List Resource) (progress : Progress) :
    (ensureOwned outside options owner decl resources progress).objects = progress.objects := by
  induction resources generalizing progress with
  | nil => rfl
  | cons res rest ih =>
    have turn := ensureOwnedResource_turn outside options owner decl res progress
    have same : (ensureOwnedResource outside options owner decl res
        progress).objects = progress.objects := by
      generalize ensureOwnedResource outside options owner decl res progress = next at turn ⊢
      cases turn with
      | refused => rfl
      | stopped => rfl
      | kept => rfl
      | stored _ _ real => rw [real] at dry; cases dry
    unfold ensureOwned
    dsimp only
    split
    · exact same
    · rw [ih, same]

theorem pruneAll_dry (dry : options.dryRun) (erns : List String) (plan : InfrastructurePlan)
    (objects : List Object) : (pruneAll outside options owner erns plan objects).2 = objects := by
  induction erns generalizing plan objects with
  | nil => rfl
  | cons ern rest ih =>
    rw [pruneAll_cons, ih]
    have turn := pruneOne_turn outside options owner ern plan objects
    generalize pruneOne outside options owner ern plan objects = next at turn ⊢
    cases turn with
    | passed => rfl
    | kept => rfl
    | removed => exact if_pos dry

theorem applyInfrastructure_dry (outside : Surroundings) (owner : InfrastructureOwner)
    (decl : Declaration) (dry : options.dryRun) (principalErn : String) (state : State) :
    (applyInfrastructure outside options owner decl principalErn state).2 = state := by
  have objects := ensureOwned_dry outside owner decl dry decl.creates ⟨.blank, [], state.objects⟩
  unfold applyInfrastructure
  dsimp only
  split
  · rw [objects]
  · rw [pruneAll_dry dry, objects]
    split
    · rfl
    · split
      · rfl
      · unfold applyGrants
        dsimp only
        rw [if_pos dry]

/-- What a run that is no dry run does: what is created, and of that what is left. -/
structure Ran (outside : Surroundings) (options : ApplyOptions) (owner : InfrastructureOwner)
    (decl : Declaration) (before : List Object) (ensured : Progress)
    (plan : InfrastructurePlan) (after : List Object) : Prop where
  advanced : Advanced outside owner decl before ensured
  created : plan.created = ensured.plan.created
  adopted : plan.adopted = ensured.plan.adopted
  sound : Sound outside.region after
  subset : ∀ object ∈ after, object ∈ ensured.objects
  gone : ∀ object ∈ ensured.objects, object ∉ after → ∃ ern ∈ plan.deleted,
    objectOfErn ensured.objects ern = some object ∧ ern ∉ ensured.plan.owned ∧
    mayRemove object.remnantTag owner.id (decide (ern ∈ owner.recorded)) ∧
    object.holds outside.contents = "" ∧ ∀ res ∈ decl.creates,
      (res.key owner).ern outside.region ∈ ensured.plan.owned
  owned : plan.error = none → (∀ ern ∈ ensured.plan.owned, ern ∈ plan.owned) ∧
    ∀ res ∈ decl.creates, (res.key owner).ern outside.region ∈ ensured.plan.owned
  finds : plan.error = none → ∀ object ∈ ensured.objects,
    (object.kind = .tables → tableKeyOfErn object.ern = object.key) →
    object.ern ∈ candidates owner ensured.objects → object.ern ∉ ensured.plan.owned →
    mayRemove object.remnantTag owner.id (decide (object.ern ∈ owner.recorded)) →
    object ∉ after ∨ (∃ reason, (object.ern, reason) ∈ plan.kept) ∧ object.ern ∈ plan.owned ∧
      (options.prune → object.holds outside.contents ≠ "")

theorem candidates_nodup (owner : InfrastructureOwner) (objects : List Object) :
    (candidates owner objects).Nodup :=
  (perm_insertionSort _ _).nodup_iff.mpr (nodup_dedup _)

theorem mem_candidates (objects : List Object) (ern : String) :
    ern ∈ candidates owner objects ↔ ern ∈ owner.recorded ∨ ern ∈ taggedAsOwned owner objects := by
  unfold candidates
  rw [(perm_insertionSort _ _).mem_iff, mem_dedup, mem_append]

theorem Sound.ran (outside : Surroundings) (principalErn : String) {state : State}
    (sound : Sound outside.region state.objects) (id : owner.id ≠ "")
    (sends : SendsSomewhere owner decl state.objects) (real : options.dryRun = false) :
    ∃ ensured, Ran outside options owner decl state.objects ensured
      (applyInfrastructure outside options owner decl principalErn state).1
      (applyInfrastructure outside options owner decl principalErn state).2.objects := by
  have start := sound.advanced owner decl
  have advanced := start.ensureOwned decl.creates (fun _ mem => mem) id sends real
  have all := start.all_owned decl.creates (fun _ mem => mem) id sends real
  have outcome := applyInfrastructure_objects outside options owner decl principalErn state
  generalize applyInfrastructure outside options owner decl principalErn state = applied
    at outcome ⊢
  generalize Infrastructure.ensureOwned outside options owner decl decl.creates
    ⟨.blank, [], state.objects⟩ = ensured at advanced all outcome
  refine ⟨ensured, ?_⟩
  rcases outcome with ⟨failed, plan, objects⟩ | ⟨complete, same, objects⟩
  · rw [plan, objects]
    exact {
      advanced
      created := rfl
      adopted := rfl
      sound := advanced.sound
      subset := fun _ mem => mem
      gone := fun object mem absent => absurd mem absent
      owned := fun complete => absurd complete failed
      finds := fun complete => absurd complete failed }
  · rw [objects]
    have grown := pruneAll_grown outside options owner (candidates owner ensured.objects)
      ensured.plan ensured.objects
    obtain ⟨after, subset, gone⟩ := advanced.sound.afterPrune outside options owner
      (candidates owner ensured.objects) ensured.plan
    refine ⟨advanced, same.created.trans grown.created, same.adopted.trans grown.adopted, after,
      subset, fun object mem absent => ?_, fun _ => ⟨fun ern mem => ?_, (all complete).2⟩,
      fun _ object mem readable considered unowned mine => ?_⟩
    · obtain ⟨ern, -, deleted, found, unowned, mine, -, empty⟩ := gone object mem absent
      exact ⟨ern, same.deleted ▸ deleted, found, unowned, mine, empty, (all complete).2⟩
    · rw [same.owned]
      exact grown.owned ern mem
    · rcases advanced.sound.prune_finds (candidates_nodup owner ensured.objects) ensured.plan mem
        readable considered unowned mine with absent | dry | ⟨⟨reason, kept⟩, owned, held⟩
      · exact .inl absent
      · rw [real] at dry
        cases dry
      · exact .inr ⟨⟨reason, same.kept ▸ kept⟩, same.owned ▸ owned, held⟩

end Running

/-! ### Declarants -/

/-- Who declares: an application, or a platform. -/
inductive Declarant where
  | application (applicationId : String)
  | platform (name : String)
  deriving DecidableEq

/-- What the owner tag says of a declarant. -/
def Declarant.tag : Declarant → String
  | .application applicationId => applicationId
  | .platform name => "platform:" ++ name

def Declarant.isPlatform : Declarant → Bool
  | .application _ => false
  | .platform _ => true

/-- The region, the account and the namespace of some declarants. -/
structure Site where
  region : String
  accountId : String
  nameSpace : String

/-- One request to apply a declaration, with what is around when it is carried out. -/
structure Run where
  declarant : Declarant
  region : String
  declaration : Declaration
  principalErn : String
  options : ApplyOptions
  contents : Contents
  findSecret : String → String → String → Option String
  duplicateKey : String → String

/-- The installation, and what each declarant owned after its last run that was complete. -/
structure World where
  state : State
  records : Declarant → List String

namespace Run

def surroundings (site : Site) (run : Run) : Surroundings :=
  ⟨site.region, run.contents, run.findSecret, run.duplicateKey⟩

def owner (site : Site) (run : Run) (world : World) : InfrastructureOwner :=
  ⟨run.declarant.tag, site.accountId, site.nameSpace, run.region, world.records run.declarant,
    run.declarant.isPlatform⟩

/-- Why a declaration is not applied at all: it is another application's, or a platform's that says
more than what it owns. -/
def refusal (run : Run) : Option String :=
  match run.declarant with
  | .application applicationId => run.declaration.belongs applicationId
  | .platform _ =>
    if run.declaration.applicationId ≠ "" then
      some ("this declaration belongs to application '" ++ run.declaration.applicationId ++
        "', not to a platform")
    else if ¬run.declaration.uses.isEmpty then
      some
        ("a platform has no principal, so it uses nothing; applications reach its objects with " ++
        "uses")
    else none

def principal (run : Run) : String :=
  if run.declarant.isPlatform then "" else run.principalErn

/-- `provisionInfrastructure`, or `applyOrPlanPlatform`: the plan, and the installation after it.
What is owned is only recorded where the whole run succeeded. -/
def serve (site : Site) (run : Run) (world : World) : InfrastructurePlan × World :=
  match run.refusal with
  | some error => ({ InfrastructurePlan.blank with error := some error }, world)
  | none =>
    let (plan, state) := applyInfrastructure (run.surroundings site) run.options
      (run.owner site world) run.declaration run.principal world.state
    (plan, {
      state
      records := if plan.error = none ∧ run.options.dryRun = false then
          Function.update world.records run.declarant plan.owned
        else world.records })

end Run

/-! ### Whose runs created what -/

/-- Whose run created or adopted the object of a key, and whether it was created. -/
abbrev Origins := Key → Option (Declarant × Bool)

/-- The origins after a run. What is gone has none. -/
def Run.origins (site : Site) (run : Run) (plan : InfrastructurePlan) (after : World)
    (origins : Origins) : Origins := fun key =>
  match findObject after.state.objects key with
  | none => none
  | some object =>
    if run.options.dryRun = false ∧ object.accountId = site.accountId ∧
        object.nameSpace = site.nameSpace ∧ object.ern ∈ plan.created then
      some (run.declarant, true)
    else if run.options.dryRun = false ∧ object.accountId = site.accountId ∧
        object.nameSpace = site.nameSpace ∧ object.ern ∈ plan.adopted then
      some (run.declarant, false)
    else origins key

/-- An object holds no messages, objects, items or subscriptions. -/
def Object.IsEmpty (contents : Contents) : Object → Prop
  | .queue stored => contents.messages stored.ern = 0
  | .topic stored => contents.messages stored.ern = 0 ∧ contents.subscriptions stored.ern = 0
  | .bucket stored => contents.objects stored.ern = 0 ∧ contents.subscriptions stored.ern = 0
  | .table stored =>
    contents.items ⟨.tables, stored.accountId, stored.nameSpace, stored.name⟩ = 0
  | .route _ => True

/-- A run leaves alone what another's run created or adopted, and takes away only what is empty. -/
structure Spares (run : Run) (origins : Origins) (before after : World) : Prop where
  others : ∀ object ∈ before.state.objects, ∀ other made,
    origins object.key = some (other, made) → other ≠ run.declarant → object ∈ after.state.objects
  held : ∀ object ∈ before.state.objects,
    (∀ later ∈ after.state.objects, later.key ≠ object.key) → object.IsEmpty run.contents

/-- A complete run that prunes finds again what the declarant's runs created and it no longer
declares: it takes it away, empty, or says that it is kept. -/
def FindsAgain (site : Site) (run : Run) (origins : Origins) (before : World)
    (plan : InfrastructurePlan) (after : World) : Prop :=
  run.options.dryRun = false → run.options.prune → plan.error = none →
    ∀ object ∈ before.state.objects, origins object.key = some (run.declarant, true) →
      ¬run.declaration.Names (run.owner site before) object.key →
        (object ∉ after.state.objects ∧
          ∃ ern ∈ plan.deleted, objectOfErn before.state.objects ern = some object) ∨
        object ∈ after.state.objects ∧ object.holds run.contents ≠ "" ∧
          ∃ reason, (object.ern, reason) ∈ plan.kept

/-- What holds of every run of a sequence, in the order they are carried out. -/
def EachRun (site : Site) (holds : Run → Origins → World → InfrastructurePlan → World → Prop) :
    List Run → Origins → World → Prop
  | [], _, _ => True
  | run :: rest, origins, world =>
    holds run origins world (run.serve site world).1 (run.serve site world).2 ∧
      EachRun site holds rest
        (run.origins site (run.serve site world).1 (run.serve site world).2 origins)
        (run.serve site world).2

/-- Ownership is exclusive and not forgotten. -/
def Keeps (site : Site) (run : Run) (origins : Origins) (before : World)
    (plan : InfrastructurePlan) (after : World) : Prop :=
  Spares run origins before after ∧ FindsAgain site run origins before plan after

/-- A run goes well. -/
structure Proper (site : Site) (run : Run) (before : World) (plan : InfrastructurePlan)
    (after : World) : Prop where
  named : run.declarant.tag ≠ ""
  sends : SendsSomewhere (run.owner site before) run.declaration before.state.objects
  readable : ∀ res ∈ run.declaration.creates, res.kind = .tables →
    findObject before.state.objects (res.key (run.owner site before)) = none →
      tableKeyOfErn ((res.key (run.owner site before)).ern site.region) =
        res.key (run.owner site before)
  complete : plan.error ≠ none → ∀ object ∈ after.state.objects, object.kind = .routes →
    findObject before.state.objects object.key ≠ none
  seen : ∀ object ∈ before.state.objects,
    mayRemove object.remnantTag run.declarant.tag true → object.holds run.contents = "" →
      ¬run.declaration.Names (run.owner site before) object.key → object.IsEmpty run.contents

/-! ### What every run keeps -/

section Keeping

variable {outside : Surroundings} {owner : InfrastructureOwner} {decl : Declaration}
  {before : List Object} {progress : Progress}

theorem Advanced.unchanged (advanced : Advanced outside owner decl before progress)
    (named : (before.map Object.key).Nodup) (mem : object ∈ before)
    (apart : ¬decl.Names owner object.key ∨
      object.ownerTag.getD "" ≠ "" ∧ object.ownerTag.getD "" ≠ owner.id) :
    object ∈ progress.objects := by
  obtain ⟨later, laterMember, key⟩ := advanced.kept object mem
  have same : ∀ first ∈ before, first.key = later.key → first = object :=
    fun first firstMember own =>
    key_injective_on named firstMember mem (own.trans key)
  have others : ∀ names : decl.Names owner later.key,
      object.ownerTag.getD "" ≠ "" ∧ object.ownerTag.getD "" ≠ owner.id := fun names =>
    apart.resolve_left fun undeclared => undeclared (key ▸ names)
  cases advanced.standing laterMember with
  | created _ _ _ _ absent => exact absurd key.symm (findObject_none.mp absent object mem)
  | adopted _ _ _ _ names first =>
    obtain ⟨first, firstMember, own, nobody⟩ := first
    rw [same first firstMember own] at nobody
    exact absurd nobody (others names).1
  | other _ first =>
    obtain ⟨first, firstMember, own, -, -, stays⟩ := first
    rw [same first firstMember own] at stays
    rcases stays with stays | ⟨mine, names⟩
    · exact stays ▸ laterMember
    · exact absurd (by rw [mine]; rfl) (others names).2

variable {recorded : Bool}

theorem mayRemove_own {id : String} (named : id ≠ "") : mayRemove (some id) id recorded := by
  simp [mayRemove, named]

theorem mayRemove_other {id other : String} (named : other ≠ "") (apart : other ≠ id)
    : mayRemove (some other) id recorded = false := by
  simp [mayRemove, named, apart]

theorem mayRemove_recorded {ownerTag : Option String} {id : String}
    (may : mayRemove ownerTag id recorded) : mayRemove ownerTag id true := by
  unfold mayRemove at may ⊢
  split
  · rfl
  · rename_i somebody
    rwa [if_neg somebody] at may

end Keeping

/-- What is known between two runs of some declarants: what is stored is sound, and what a run
created or adopted is its declarant's. A route that was created is in the record. -/
structure Remembered (site : Site) (among : Declarant → Prop) (origins : Origins) (world : World) :
    Prop where
  sound : Sound site.region world.state.objects
  origin : ∀ object ∈ world.state.objects, ∀ declarant made,
    origins object.key = some (declarant, made) → among declarant ∧ declarant.tag ≠ "" ∧
      object.accountId = site.accountId ∧ object.nameSpace = site.nameSpace ∧
      object.ownerTag = some declarant.tag ∧ object.remnantTag = some declarant.tag
  readable : ∀ object ∈ world.state.objects, ∀ declarant,
    origins object.key = some (declarant, true) → object.kind = .tables →
      tableKeyOfErn object.ern = object.key
  recorded : ∀ object ∈ world.state.objects, ∀ declarant,
    origins object.key = some (declarant, true) → object.kind = .routes →
      object.ern ∈ world.records declarant

variable {among : Declarant → Prop} {world : World} {site : Site}

theorem Remembered.still {origins later : Origins}
    (remembered : Remembered site among origins world)
    (same : ∀ object ∈ world.state.objects, later object.key = origins object.key) :
    Remembered site among later world where
  sound := remembered.sound
  origin := fun object mem declarant made own =>
    remembered.origin object mem declarant made (same object mem ▸ own)
  readable := fun object mem declarant own =>
    remembered.readable object mem declarant (same object mem ▸ own)
  recorded := fun object mem declarant own =>
    remembered.recorded object mem declarant (same object mem ▸ own)

theorem Spares.still (run : Run) (origins : Origins) {before after : World}
    (same : after.state = before.state) : Spares run origins before after where
  others := fun _ mem _ _ _ _ => same ▸ mem
  held := fun _ mem gone => absurd rfl (gone _ (same ▸ mem))

theorem Object.isEmpty_of_table {contents : Contents} (table : object.kind = .tables)
    (empty : object.holds contents = "") : object.IsEmpty contents := by
  obtain ⟨stored, rfl⟩ := Object.exists_table table
  unfold Object.holds at empty
  dsimp only at empty
  split at empty
  · assumption
  · split at empty
    · exact absurd empty (by decide)
    · have texts := congrArg String.toList empty
      simp at texts

section RealRun

variable {site : Site} {among : Declarant → Prop} {origins : Origins} {before after : World}
  {run : Run} {ensured : Progress} {plan : InfrastructurePlan}
  (remembered : Remembered site among origins before)

include remembered in
theorem Remembered.considered (there : object ∈ before.state.objects) {made : Bool}
    (origin : origins object.key = some (run.declarant, made))
    (recorded : object.kind = .routes → object.ern ∈ before.records run.declarant)
    (stays : object ∈ objects) : object.ern ∈ candidates (run.owner site before) objects := by
  obtain ⟨-, -, accountId, nameSpace, ownerTag, -⟩ :=
    remembered.origin object there run.declarant made origin
  refine (mem_candidates objects object.ern).mpr ?_
  by_cases route : object.kind = .routes
  · exact .inl (recorded route)
  · refine .inr (mem_map.mpr ⟨object, mem_filter.mpr ⟨stays, decide_eq_true ?_⟩, rfl⟩)
    exact ⟨route, accountId, .inl nameSpace, ownerTag⟩

theorem origins_eq (sound : Sound region after.state.objects)
    (mem : object ∈ after.state.objects) : run.origins site plan after origins object.key =
      if run.options.dryRun = false ∧ object.accountId = site.accountId ∧
          object.nameSpace = site.nameSpace ∧ object.ern ∈ plan.created then
        some (run.declarant, true)
      else if run.options.dryRun = false ∧ object.accountId = site.accountId ∧
          object.nameSpace = site.nameSpace ∧ object.ern ∈ plan.adopted then
        some (run.declarant, false) else origins object.key := by
  unfold Run.origins
  rw [findObject_eq sound.named mem]

inductive OriginAfter (site : Site) (run : Run) (origins : Origins) (before : World)
    (ensured : Progress) (plan : InfrastructurePlan) (object : Object) :
    Declarant → Bool → Prop where
  | created (ownerTag : object.ownerTag = some run.declarant.tag)
    (remnantTag : object.remnantTag = some run.declarant.tag)
    (home : AtHome (run.owner site before) object)
    (names : run.declaration.Names (run.owner site before) object.key)
    (new : findObject before.state.objects object.key = none) :
    OriginAfter site run origins before ensured plan object run.declarant true
  | adopted (ownerTag : object.ownerTag = some run.declarant.tag)
    (remnantTag : object.remnantTag = some run.declarant.tag)
    (home : AtHome (run.owner site before) object) :
    OriginAfter site run origins before ensured plan object run.declarant false
  | earlier {declarant : Declarant} {made : Bool} {first : Object}
    (there : first ∈ before.state.objects) (key : first.key = object.key)
    (origin : origins first.key = some (declarant, made))
    (ownerTag : object.ownerTag = first.ownerTag)
    (remnantTag : object.remnantTag = first.remnantTag) :
    OriginAfter site run origins before ensured plan object declarant made

variable (ran : Ran (run.surroundings site) run.options (run.owner site before) run.declaration
  before.state.objects ensured plan after.state.objects)

include ran

theorem Ran.undeclared (mem : object ∈ ensured.objects) {ern : String}
    (found : objectOfErn ensured.objects ern = some object) (unowned : ern ∉ ensured.plan.owned)
    (all : ∀ res ∈ run.declaration.creates,
      (res.key (run.owner site before)).ern site.region ∈ ensured.plan.owned) :
    object.kind = .tables ∨ ¬run.declaration.Names (run.owner site before) object.key := by
  rcases (objectOfErn_spec found).2 with ⟨table, -⟩ | ⟨-, -, own⟩
  · exact .inl table
  · refine .inr fun ⟨res, declared, key⟩ => unowned ?_
    rw [← own, ran.advanced.sound.addressed object mem, ← key]
    exact all res declared

theorem Ran.spares
    (apart : ∀ first second, among first → among second → first.tag = second.tag → first = second)
    (remembered : Remembered site among origins before) (mem : among run.declarant)
    (proper : Proper site run before plan after) : Spares run origins before after where
  others := by
    intro object there other made origin others
    obtain ⟨amongOther, named, -, -, ownerTag, remnantTag⟩ :=
      remembered.origin object there other made origin
    have differs : other.tag ≠ run.declarant.tag := fun same =>
      others (apart other run.declarant amongOther mem same)
    have stays := ran.advanced.unchanged remembered.sound.named there
      (.inr (by rw [ownerTag]; exact ⟨named, differs⟩))
    by_contra absent
    obtain ⟨ern, -, -, -, mine, -⟩ := ran.gone object stays absent
    rw [remnantTag] at mine
    exact absurd ((mayRemove_other named differs).symm.trans mine) Bool.false_ne_true
  held := by
    intro object there gone
    obtain ⟨later, laterMember, key⟩ := ran.advanced.kept object there
    have absent : later ∉ after.state.objects := fun stays => gone later stays key
    obtain ⟨ern, -, found, unowned, mine, empty, all⟩ := ran.gone later laterMember absent
    rcases ran.undeclared laterMember found unowned all with table | undeclared
    · have kind : object.kind = .tables := (congrArg kind key).symm.trans table
      obtain ⟨stored, rfl⟩ := Object.exists_table table
      obtain ⟨first, rfl⟩ := Object.exists_table kind
      have isEmpty : run.contents.items (Object.table stored).key = 0 :=
        Object.isEmpty_of_table table empty
      rwa [key] at isEmpty
    · have stays := ran.advanced.unchanged remembered.sound.named there (.inl (key ▸ undeclared))
      have same := key_injective_on ran.advanced.sound.named laterMember stays key
      subst same
      exact proper.seen later there (mayRemove_recorded mine) empty undeclared

include remembered in
theorem Ran.finds_own (complete : plan.error = none) (there : object ∈ before.state.objects)
    (origin : origins object.key = some (run.declarant, true))
    (undeclared : ¬run.declaration.Names (run.owner site before) object.key) :
    object ∈ ensured.objects ∧ (object ∉ after.state.objects ∨
      (∃ reason, (object.ern, reason) ∈ plan.kept) ∧ object.ern ∈ plan.owned ∧
        (run.options.prune → object.holds run.contents ≠ "")) := by
  obtain ⟨-, named, accountId, nameSpace, ownerTag, remnantTag⟩ :=
    remembered.origin object there run.declarant true origin
  have stays := ran.advanced.unchanged remembered.sound.named there (.inl undeclared)
  refine ⟨stays, ran.finds complete object stays
    (remembered.readable object there run.declarant origin)
    (remembered.considered there origin
      (remembered.recorded object there run.declarant origin) stays)
    (fun owned => undeclared ?_) ?_⟩
  · obtain ⟨res, declared, ern⟩ := ran.advanced.owned object.ern owned
    exact ⟨res, declared, (ran.advanced.sound.home_key stays ⟨accountId, nameSpace⟩ ern).symm⟩
  · rw [remnantTag]
    exact mayRemove_own named

include remembered in
theorem Ran.finds_again : FindsAgain site run origins before plan after := by
  intro _ pruning complete object there origin undeclared
  obtain ⟨stays, absent | ⟨kept, -, held⟩⟩ := ran.finds_own remembered complete there origin
    undeclared
  · obtain ⟨ern, deleted, found, -⟩ := ran.gone object stays absent
    exact .inl ⟨absent, ern, deleted, remembered.sound.objectOfErn_of_mem found there⟩
  · by_cases left : object ∈ after.state.objects
    · exact .inr ⟨left, held pruning, kept⟩
    · obtain ⟨ern, deleted, found, -⟩ := ran.gone object stays left
      exact .inl ⟨left, ern, deleted, remembered.sound.objectOfErn_of_mem found there⟩

theorem Ran.origin (real : run.options.dryRun = false)
    (mem : object ∈ after.state.objects) {declarant : Declarant} {made : Bool}
    (own : run.origins site plan after origins object.key = some (declarant, made)) :
    OriginAfter site run origins before ensured plan object declarant made := by
  have stays := ran.subset object mem
  rw [origins_eq ran.sound mem, ran.created, ran.adopted] at own
  split at own
  · rename_i created
    obtain ⟨-, accountId, nameSpace, created⟩ := created
    cases own
    obtain ⟨ownerTag, remnantTag, names, new⟩ :=
      ran.advanced.created object stays ⟨accountId, nameSpace⟩ created
    exact .created ownerTag remnantTag ⟨accountId, nameSpace⟩ names new
  · rename_i uncreated
    split at own
    · rename_i adopted
      obtain ⟨-, accountId, nameSpace, adopted⟩ := adopted
      cases own
      obtain ⟨ownerTag, remnantTag, -⟩ := ran.advanced.adopted object stays
        ⟨accountId, nameSpace⟩ adopted fun made => uncreated ⟨real, accountId, nameSpace, made⟩
      exact .adopted ownerTag remnantTag ⟨accountId, nameSpace⟩
    · rename_i unadopted
      obtain ⟨first, there, key, ownerTag, remnantTag, -⟩ := ran.advanced.others object stays
        fun home => ⟨fun made => uncreated ⟨real, home.1, home.2, made⟩,
          fun took => unadopted ⟨real, home.1, home.2, took⟩⟩
      exact .earlier there key (key ▸ own) ownerTag remnantTag

include remembered in
theorem Ran.remembers (mem : among run.declarant) (real : run.options.dryRun = false)
    (records : after.records = if plan.error = none ∧ run.options.dryRun = false then
      Function.update before.records run.declarant plan.owned else before.records)
    (proper : Proper site run before plan after) :
    Remembered site among (run.origins site plan after origins) after where
  sound := ran.sound
  origin := by
    intro object there declarant made own
    cases ran.origin real there own with
    | created ownerTag remnantTag home =>
      exact ⟨mem, proper.named, home.1, home.2, ownerTag, remnantTag⟩
    | adopted ownerTag remnantTag home =>
      exact ⟨mem, proper.named, home.1, home.2, ownerTag, remnantTag⟩
    | earlier firstThere key origin ownerTag remnantTag =>
      have old := remembered.origin _ firstThere declarant made origin
      exact ⟨old.1, old.2.1, (congrArg accountId key).symm.trans old.2.2.1,
        (congrArg nameSpace key).symm.trans old.2.2.2.1, ownerTag.trans old.2.2.2.2.1,
        remnantTag.trans old.2.2.2.2.2⟩
  readable := by
    intro object there declarant own table
    have sound : Sound site.region after.state.objects := ran.sound
    cases ran.origin real there own with
    | created _ _ _ names new =>
      obtain ⟨res, declared, key⟩ := names
      have readable := proper.readable res declared
        ((congrArg kind key).trans table) (by rw [key]; exact new)
      rwa [key, ← sound.addressed object there] at readable
    | earlier firstThere key origin =>
      have readable := remembered.readable _ firstThere declarant origin
        ((congrArg kind key).trans table)
      rw [sound.addressed object there, ← key]
      rwa [remembered.sound.addressed _ firstThere] at readable
  recorded := by
    intro object there declarant own route
    have stays := ran.subset object there
    have declared : plan.error = none →
        run.declaration.Names (run.owner site before) object.key → object.ern ∈ plan.owned := by
      rintro complete ⟨res, declared, key⟩
      obtain ⟨owned, all⟩ := ran.owned complete
      rw [ran.sound.addressed object there, ← key]
      exact owned _ (all res declared)
    rw [records]
    cases ran.origin real there own with
    | created _ _ _ names new =>
      have complete : plan.error = none := by
        by_contra failed
        exact proper.complete failed object there route new
      rw [if_pos ⟨complete, real⟩, Function.update_self]
      exact declared complete names
    | @earlier _ _ first firstThere key origin =>
      have erns : object.ern = first.ern := by
        rw [ran.sound.addressed object there, remembered.sound.addressed first firstThere, key]
        rfl
      have listed := remembered.recorded first firstThere declarant origin
        ((congrArg kind key).trans route)
      rw [← erns] at listed
      split
      · rename_i complete
        by_cases same : declarant = run.declarant
        · subst same
          rw [Function.update_self]
          by_cases names : run.declaration.Names (run.owner site before) object.key
          · exact declared complete.1 names
          · obtain ⟨firstStays, absent | ⟨-, owned, -⟩⟩ := ran.finds_own remembered complete.1
              firstThere origin (key ▸ names)
            · have same := key_injective_on ran.advanced.sound.named firstStays stays key
              exact absurd (same ▸ there) absent
            · exact erns ▸ owned
        · rw [Function.update_of_ne same]
          exact listed
      · exact listed

end RealRun

section

variable (apart : ∀ first second, among first → among second → first.tag = second.tag →
  first = second)

include apart

variable {origins : Origins}

/-- A run that goes well keeps what it should, and everything stays remembered. -/
theorem Remembered.serve
    (remembered : Remembered site among origins world)
    {run : Run} (mem : among run.declarant)
    (proper : Proper site run world (run.serve site world).1 (run.serve site world).2) :
    Keeps site run origins world (run.serve site world).1 (run.serve site world).2 ∧
      Remembered site among
        (run.origins site (run.serve site world).1 (run.serve site world).2 origins)
        (run.serve site world).2 := by
  unfold Run.serve at proper ⊢
  cases refused : run.refusal with
  | some error =>
    refine ⟨⟨.still run origins rfl, fun _ _ failed => absurd failed (by simp)⟩,
      remembered.still fun object there => ?_⟩
    rw [origins_eq remembered.sound there]
    simp [InfrastructurePlan.blank]
  | none =>
    rw [refused] at proper
    by_cases dry : run.options.dryRun
    · have kept := applyInfrastructure_dry (run.surroundings site) (run.owner site world)
        run.declaration dry run.principal world.state
      have off : ¬run.options.dryRun = false := by simp [dry]
      generalize applyInfrastructure (run.surroundings site) run.options (run.owner site world)
        run.declaration run.principal world.state = applied at kept ⊢
      obtain ⟨plan, state⟩ := applied
      dsimp only at kept ⊢
      subst kept
      rw [if_neg fun complete => off complete.2]
      refine ⟨⟨.still run origins rfl, fun real => absurd real off⟩,
        remembered.still fun object there => ?_⟩
      rw [origins_eq remembered.sound there, if_neg fun created => off created.1,
        if_neg fun adopted => off adopted.1]
    · have real : run.options.dryRun = false := by simpa using dry
      obtain ⟨ensured, ran⟩ := Sound.ran (run.surroundings site) run.principal remembered.sound
         proper.named proper.sends real
      generalize applyInfrastructure (run.surroundings site) run.options (run.owner site world)
        run.declaration run.principal world.state = applied at ran proper ⊢
      obtain ⟨plan, state⟩ := applied
      exact ⟨⟨ran.spares apart remembered mem proper, ran.finds_again remembered⟩,
        ran.remembers remembered mem real rfl proper⟩

theorem Remembered.each
    (runs : List Run) (members : ∀ run ∈ runs, among run.declarant)
    (remembered : Remembered site among origins world)
    (proper : EachRun site (fun run _ before plan after => Proper site run before plan after) runs
      origins world) : EachRun site (Keeps site) runs origins world := by
  induction runs generalizing origins world with
  | nil => trivial
  | cons run rest ih =>
    obtain ⟨keeps, later⟩ := remembered.serve apart (members run (.head _)) proper.1
    exact ⟨keeps, ih (fun other mem => members other (.tail _ mem)) later proper.2⟩

end

/-- In every sequence of runs that go well, of declarants with tags of their own, no run touches
what another's run created or adopted or takes away what holds something, and every complete run
finds again what runs of its declarant created and it no longer declares. -/
theorem declarants_keep_theirs (site : Site) (runs : List Run) (world : World)
    (sound : Sound site.region world.state.objects)
    (apart : ∀ first ∈ runs, ∀ second ∈ runs, first.declarant.tag = second.declarant.tag →
      first.declarant = second.declarant)
    (proper : EachRun site (fun run _ before plan after => Proper site run before plan after) runs
      (fun _ => none) world) :
    EachRun site (Keeps site) runs (fun _ => none) world := by
  have remembered : Remembered site (fun declarant => ∃ run ∈ runs, run.declarant = declarant)
      (fun _ => none) world := by
    refine ⟨sound, fun object there declarant made own => ?_,
      fun object there declarant own => ?_, fun object there declarant own => ?_⟩
    · cases own
    · cases own
    · cases own
  refine remembered.each ?_ runs (fun run mem => ⟨run, mem, rfl⟩) proper
  rintro _ _ ⟨first, firstMember, rfl⟩ ⟨second, secondMember, rfl⟩ same
  exact apart first firstMember second secondMember same

/-! ### Two runs of a shop -/

def shopSite : Site := ⟨"eu", "1", "dev"⟩

def Contents.nothing : Contents := ⟨fun _ => 0, fun _ => 0, fun _ => 0, fun _ => 0, fun _ => 0⟩

theorem Object.isEmpty_nothing (object : Object) : object.IsEmpty .nothing := by
  cases object with
  | queue => exact rfl
  | topic => exact ⟨rfl, rfl⟩
  | bucket => exact ⟨rfl, rfl⟩
  | table => exact rfl
  | route => trivial

/-- A shop applies a declaration, and prunes. -/
def shopRun (creates uses : List Resource) : Run where
  declarant := .application "shop"
  region := "eu"
  declaration := ⟨"shop", creates, uses⟩
  principalErn := "ern:eam:eu:1:user:shop"
  options := ⟨false, true⟩
  contents := .nothing
  findSecret := fun _ _ _ => none
  duplicateKey := fun ern => "duplicate key: " ++ ern

def emptyWorld : World := ⟨⟨[], [], []⟩, fun _ => []⟩

def shopRoute : Resource := ⟨.routes, "shop", [], [("path", .string "/shop")]⟩

def ordersQueue : Resource := ⟨.queues, "orders", [], [("visibility", .int64 60)]⟩

/-- A queue and a route that are declared no more are found again. -/
theorem shop_keeps_its_own : EachRun shopSite (Keeps shopSite)
    [shopRun [ordersQueue, shopRoute] [], shopRun [] []] (fun _ => none) emptyWorld := by
  refine declarants_keep_theirs shopSite _ emptyWorld ⟨.nil, ?_, ?_⟩ ?_ ⟨?_, ?_, trivial⟩
  · exact fun _ mem => absurd mem not_mem_nil
  · exact fun _ mem => absurd mem not_mem_nil
  · intro first firstMember second secondMember _
    have shop : ∀ run ∈ [shopRun [ordersQueue, shopRoute] [], shopRun [] []],
        run.declarant = .application "shop" := by
      simp [shopRun]
    rw [shop first firstMember, shop second secondMember]
  · exact {
      named := by decide
      sends := fun _ mem => absurd mem not_mem_nil
      readable := fun res declared table => by
        have kinds : ∀ res ∈ [ordersQueue, shopRoute], res.kind ≠ .tables := by decide
        exact absurd table (kinds res declared)
      complete := fun failed => absurd (by decide) failed
      seen := fun _ mem => absurd mem not_mem_nil }
  · exact {
      named := by decide
      sends := fun _ _ _ ⟨_, declared, _⟩ => absurd declared not_mem_nil
      readable := fun _ declared => absurd declared not_mem_nil
      complete := fun failed => absurd (by decide +kernel) failed
      seen := fun object _ _ _ _ => object.isEmpty_nothing }

/-- A route that a run created before it was stopped by an error is not found again: the next run is
complete, prunes, and says nothing of it. -/
theorem stopped_run_forgets : ¬∀ (site : Site) (runs : List Run) (world : World),
    Sound site.region world.state.objects →
    (∀ first ∈ runs, ∀ second ∈ runs, first.declarant.tag = second.declarant.tag →
      first.declarant = second.declarant) →
    EachRun site (Keeps site) runs (fun _ => none) world := by
  intro claim
  have sound : Sound shopSite.region emptyWorld.state.objects :=
    ⟨.nil, fun _ mem => absurd mem not_mem_nil,
      fun _ mem => absurd mem not_mem_nil⟩
  obtain ⟨-, ⟨-, finds⟩, -⟩ := claim shopSite
    [shopRun [shopRoute] [⟨.queues, "orders", ["consume"], []⟩], shopRun [] []] emptyWorld sound (by
      intro first firstMember second secondMember _
      have shop : ∀ run ∈ [shopRun [shopRoute] [⟨.queues, "orders", ["consume"], []⟩],
          shopRun [] []], run.declarant = .application "shop" := by
        simp [shopRun]
      rw [shop first firstMember, shop second secondMember])
  have there : (Object.route (Eag.applySettings shopRoute.settings (newRoute
      ((shopRun [] []).surroundings shopSite)
        ((shopRun [] []).owner shopSite emptyWorld) "shop")).1) ∈
      ((shopRun [shopRoute] [⟨.queues, "orders", ["consume"], []⟩]).serve shopSite
        emptyWorld).2.state.objects := by
    decide +kernel
  rcases finds rfl rfl (by decide) _ there (by decide +kernel)
    (fun ⟨_, declared, _⟩ => absurd declared not_mem_nil) with ⟨gone, -⟩ | ⟨-, held, -⟩
  · exact gone (by decide +kernel)
  · exact held (by decide)

end Euclid.Eap.Infrastructure
