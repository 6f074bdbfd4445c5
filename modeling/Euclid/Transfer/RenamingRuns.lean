/-
This file proves that a rename by a transfer server loses nothing in any run whose events are
harmless to it.

In each phase a rename relies on something: the spool file and the source, then the source, and the
target or its own upload that is still to be assembled. Its own steps lead from what one phase
relies on to what the next does, and the steps of other threads keep it. Together with what is
recorded of a rename this is an invariant of its history, and so of every interleaving of any
renames and assemblies.
-/

import Euclid.Transfer.Renaming

namespace Euclid.Transfer.Renaming

open Program Option Function
open Core (Text)
open Step

variable {world : World} {env : Env}

/-! ### What a rename relies on -/

section Relying

variable {Thread : Type} [DecidableEq Thread] {tid : Thread} {rename : Rename}

/-- The target serves the bytes, or they wait in the upload of the rename. -/
def Stores (rename : Rename) (sentAs : Option ℕ) (bytes : Bytes) (world : World) : Prop :=
  world.served rename.target = some bytes ∨
    ∃ number ∈ sentAs, world.waits number = some (rename.target, bytes)

/-- What a rename that was begun in a world may rely on. -/
def Relies (hash : Text → ℕ) (rename : Rename) (sentAs : Option ℕ) (first world : World) :
    Phase → Prop
  | .downloaded => world.objects rename.source = first.objects rename.source ∧
      ∃ bytes, first.served rename.source = some bytes ∧
        world.spools (rename.spool hash) = some bytes
  | .uploaded true | .cleaned => world.objects rename.source = first.objects rename.source ∧
      ∃ bytes, first.served rename.source = some bytes ∧ Stores rename sentAs bytes world
  | .uploaded false => world.objects rename.source = first.objects rename.source
  | _ => True

/-- The upload of a rename that was begun in a world is among those sent, and what waits of it is
what the source held. -/
def Uploads (rename : Rename) (sentAs : Option ℕ) (first world : World) : Prop :=
  ∀ number ∈ sentAs, number < world.staged.length ∧
    ∀ target bytes, world.waits number = some (target, bytes) →
      first.served rename.source = some bytes

variable {sentAs : Option ℕ} {first : World} {step : Step}

theorem Uploads.kept (uploads : Uploads rename sentAs first world) :
    Uploads rename sentAs first (machine env step world).2 := by
  intro number mine
  obtain ⟨old, only⟩ := uploads number mine
  exact ⟨old.trans_le (act_length step),
    fun target bytes waits => only target bytes (waits_of_act old waits)⟩

theorem Stores.spared {bytes : Bytes} (stores : Stores rename sentAs bytes world)
    (uploads : Uploads rename sentAs first world) (origin : first.served rename.source = some bytes)
    (spares : step.object ≠ some rename.target ∨
      ∃ number ∈ sentAs, step = .assemble number rename.target)
    (clears : ∀ number ∈ sentAs, step = .assemble number rename.target →
      world.archived rename.target = true → env.clears world.moment = true) :
    Stores rename sentAs bytes (machine env step world).2 := by
  obtain other | ⟨number, mine, rfl⟩ := spares
  · refine stores.imp (act_served env step _ world other).trans ?_
    rintro ⟨number, mine, waits⟩
    refine ⟨number, mine, act_waits_of_ne (uploads number mine).1 ?_ waits⟩
    rintro rfl
    exact other rfl
  · have only (stored : Bytes) (waits : world.waits number = some (rename.target, stored)) :
        stored = bytes :=
      some.inj (((uploads number mine).2 _ _ waits).symm.trans origin)
    have there : world.served rename.target = some bytes ∨
        world.waits number = some (rename.target, bytes) := by
      refine stores.imp_right ?_
      rintro ⟨other, too, waits⟩
      rwa [mem_unique mine too]
    exact (act_assemble (clears number mine rfl) only there).imp_right
      fun waits => ⟨number, mine, waits⟩

theorem Relies.spared {phase : Phase} (relies : Relies env.hash rename sentAs first world phase)
    (uploads : Uploads rename sentAs first world)
    (spares : Spares env.hash rename sentAs phase step)
    (clears : ∀ number ∈ sentAs, step = .assemble number rename.target →
      world.archived rename.target = true → env.clears world.moment = true) :
    Relies env.hash rename sentAs first (machine env step world).2 phase := by
  cases phase with
  | fresh => exact trivial
  | downloaded =>
    obtain ⟨source, bytes, origin, spool⟩ := relies
    exact ⟨(act_objects env _ _ world spares.2).trans source, bytes, origin,
      (act_spools spares.1).trans spool⟩
  | uploaded stored =>
    cases stored with
    | false => exact (act_objects env _ _ world spares).trans relies
    | true =>
      obtain ⟨source, bytes, origin, stores⟩ := relies
      exact ⟨(act_objects env _ _ world spares.1).trans source, bytes, origin,
        stores.spared uploads origin spares.2 clears⟩
  | cleaned =>
    obtain ⟨source, bytes, origin, stores⟩ := relies
    exact ⟨(act_objects env _ _ world spares.1).trans source, bytes, origin,
      stores.spared uploads origin spares.2 clears⟩
  | ended result => exact trivial

/-- What holds of the rename of a thread, as long as it is undisturbed. -/
structure Holds (env : Env) (rename : Rename) (tid : Thread) (world : World)
    (past : Past Thread) : Prop where
  fresh : beginning tid past = none → phaseOf tid past = .fresh ∧ uploadOf tid past = none
  begun : ∀ first, beginning tid past = some first →
    Relies env.hash rename (uploadOf tid past) first world (phaseOf tid past)
  uploads : ∀ first, beginning tid past = some first →
    Uploads rename (uploadOf tid past) first world
  loses : LosesNothing tid rename past

theorem holds_start {env : Env} {rename : Rename} {tid : Thread} {world : World} :
    Holds env rename tid world [] :=
  ⟨fun _ => ⟨rfl, rfl⟩, fun _ none => (nomatch none), fun _ none => (nomatch none),
    fun _ _ _ _ none => (nomatch none), trivial⟩

/-- What a step makes of a world, as an event. -/
def happening (env : Env) (tid : Thread) (step : Step) (world : World) :
    Event Thread Step Answer World :=
  ⟨tid, step, (machine env step world).1, world, (machine env step world).2⟩

variable {past : Past Thread}

section

variable (holds : Holds env rename tid world past)

include holds

theorem Holds.other {other : Thread} (different : other ≠ tid)
    (harmless : Harmless tid env rename past (happening env other step world)) :
    Holds env rename tid (machine env step world).2 (happening env other step world :: past) := by
  have phase : phaseOf tid (happening env other step world :: past) =
      phaseOf tid past := if_neg different
  have begins : beginning tid (happening env other step world :: past) = beginning tid past := by
    show (beginning tid past).or (if other = tid then _ else _) = _
    rw [if_neg different, or_none]
  have ends : ending tid (happening env other step world :: past) =
      ending tid past := if_neg different
  have own : uploadOf tid (happening env other step world :: past) = uploadOf tid past :=
    if_neg fun both => different both.1
  refine ⟨?_, ?_, ?_, ?_, ?_, holds.loses.stores⟩
  · rw [phase, begins, own]
    exact holds.fresh
  · rw [phase, begins, own]
    refine fun first same => (holds.begun first same).spared (holds.uploads first same)
      (harmless.spares different) ?_
    rintro number mine rfl
    exact harmless.clears _ (mem_def.mpr (if_pos mine))
  · rw [begins, own]
    exact fun first same => (holds.uploads first same).kept
  · rw [phase, begins, ends]
    exact holds.loses.outcome
  · -- another thread stores the upload of this one only by assembling it
    intro target stores bytes serves
    rw [begins]
    cases step with
    | upload address spool => exact absurd (stores.symm.trans (if_neg different)) (by simp)
    | assemble number address =>
      by_cases mine : uploadOf tid past = some number
      · obtain rfl := some.inj ((if_pos mine).symm.trans stores)
        refine (served_of_assemble serves).imp_right fun waits => ?_
        cases begun : beginning tid past with
        | none => exact nomatch (holds.fresh begun).2.symm.trans mine
        | some first => exact ⟨first, rfl, (holds.uploads first begun number mine).2 _ _ waits⟩
      · exact absurd (stores.symm.trans (if_neg mine)) (by simp)
    | download source spool => exact nomatch stores
    | removeSpool spool => exact nomatch stores
    | remove source => exact nomatch stores

/-- The step of a thread itself: it goes on in a phase that relies on what is there, and if it ends,
then as it should; and it stores only the source. -/
theorem Holds.own (begins : (beginning tid past).or (some world) = some first)
    (relies : Relies env.hash rename (uploadOf tid (happening env tid step world :: past)) first
      (machine env step world).2 ((phaseOf tid past).after step (machine env step world).1))
    (uploads : Uploads rename (uploadOf tid (happening env tid step world :: past)) first
      (machine env step world).2)
    (outcome : ∀ result, (phaseOf tid past).after step (machine env step world).1 =
      .ended result → Outcome rename first (machine env step world).2 result)
    (stores : ∀ target spool bytes, step = .upload target spool →
      (machine env step world).2.served target = some bytes →
        world.served target = some bytes ∨ first.served rename.source = some bytes)
    (assembles : ∀ number target, step ≠ .assemble number target) :
    Holds env rename tid (machine env step world).2 (happening env tid step world :: past) := by
  have phase : phaseOf tid (happening env tid step world :: past) =
      (phaseOf tid past).after step (machine env step world).1 := if_pos rfl
  have begun : beginning tid (happening env tid step world :: past) = some first := by
    show (beginning tid past).or (if tid = tid then some world else none) = _
    rw [if_pos rfl, begins]
  have ends : ending tid (happening env tid step world :: past) =
      some (machine env step world).2 := if_pos rfl
  refine ⟨?_, ?_, ?_, ?_, ?_, holds.loses.stores⟩
  · rw [begun]
    exact fun none => nomatch none
  · rw [begun, phase]
    exact fun other same => some.inj same ▸ relies
  · rw [begun]
    exact fun other same => some.inj same ▸ uploads
  · rw [begun, phase, ends]
    intro result other last ended same sameToo
    rw [← some.inj same, ← some.inj sameToo]
    exact outcome result ended
  · intro target held bytes serves
    rw [begun]
    cases step with
    | upload address spool =>
      obtain rfl := some.inj ((if_pos rfl).symm.trans held)
      exact (stores _ _ bytes rfl serves).imp_right fun origin => ⟨first, rfl, origin⟩
    | assemble number address => exact absurd rfl (assembles number address)
    | download source spool => exact nomatch held
    | removeSpool spool => exact nomatch held
    | remove source => exact nomatch held

/-- What is known of the upload of a thread is still so after a step that is no upload. -/
theorem Holds.quiet (env : Env) (step : Step)
    (begins : (beginning tid past).or (some world) = some first)
    (quiet : step.sends = false) :
    uploadOf tid (happening env tid step world :: past) = uploadOf tid past ∧
      Uploads rename (uploadOf tid past) first (machine env step world).2 := by
  refine ⟨if_neg fun both => by simp [happening, quiet] at both, ?_⟩
  cases begun : beginning tid past with
  | none =>
    rw [(holds.fresh begun).2]
    exact fun number mine => nomatch mine
  | some other =>
    rw [begun, some_or] at begins
    exact some.inj begins ▸ (holds.uploads other begun).kept

theorem Holds.downloads (phase : phaseOf tid past = .fresh) (begun : beginning tid past = none) :
    Holds env rename tid (machine env (.download rename.source (rename.spool env.hash)) world).2
      (happening env tid (.download rename.source (rename.spool env.hash)) world :: past) := by
  have kept := act_objects env (.download rename.source (rename.spool env.hash))
    rename.source world (by simp [object])
  have begins : (beginning tid past).or (some world) = some world := by rw [begun]; rfl
  obtain ⟨own, uploads⟩ := holds.quiet env
    (.download rename.source (rename.spool env.hash)) begins rfl
  cases answer : (show Bool from (machine env
      (.download rename.source (rename.spool env.hash)) world).1) with
  | true =>
    obtain ⟨bytes, found, file⟩ := act_download answer
    have leads : (phaseOf tid past).after (.download rename.source (rename.spool env.hash))
        (machine env (.download rename.source (rename.spool env.hash)) world).1 =
        .downloaded := by
      rw [phase, show (machine env (.download rename.source (rename.spool env.hash))
        world).1 = true from answer]
      rfl
    refine holds.own begins ?_ (own ▸ uploads) (fun result same => ?_)
      (fun _ _ _ same => nomatch same) (fun _ _ same => nomatch same)
    · rw [leads]
      exact ⟨kept, bytes, found, file⟩
    · rw [leads] at same
      exact nomatch same
  | false =>
    have leads : (phaseOf tid past).after (.download rename.source (rename.spool env.hash))
        (machine env (.download rename.source (rename.spool env.hash)) world).1 =
        .ended false := by
      rw [phase, show (machine env (.download rename.source (rename.spool env.hash))
        world).1 = false from answer]
      rfl
    refine holds.own begins ?_ (own ▸ uploads) (fun result same => ?_)
      (fun _ _ _ same => nomatch same) (fun _ _ same => nomatch same)
    · rw [leads]
      exact trivial
    · rw [leads] at same
      injection same with same
      rw [← same]
      exact kept

variable (different : rename.target ≠ rename.source)

include different in
theorem Holds.sends (phase : phaseOf tid past = .downloaded)
    (begun : beginning tid past = some first)
    (clears : world.archived rename.target = true → env.clears world.moment = true) :
    Holds env rename tid (machine env (.upload rename.target (rename.spool env.hash)) world).2
      (happening env tid (.upload rename.target (rename.spool env.hash)) world :: past) := by
  obtain ⟨source, bytes, origin, file⟩ := phase ▸ holds.begun first begun
  have kept := act_objects env (.upload rename.target (rename.spool env.hash))
    rename.source world fun same => different (some.inj same)
  have begins : (beginning tid past).or (some world) = some first := by rw [begun]; rfl
  have own : uploadOf tid (happening env tid (.upload rename.target (rename.spool env.hash))
      world :: past) = some world.staged.length := if_pos ⟨rfl, rfl⟩
  refine holds.own begins ?_ ?_ (fun result same => ?_) (fun target spool stored same serves => ?_)
    (fun _ _ same => nomatch same)
  · rw [phase, own]
    show Relies env.hash rename _ first _ (.uploaded (machine env
      (.upload rename.target (rename.spool env.hash)) world).1)
    cases answer : (show Bool from (machine env
        (.upload rename.target (rename.spool env.hash)) world).1) with
    | true =>
      obtain ⟨stored, held, there⟩ := act_upload clears answer
      obtain rfl := some.inj (file.symm.trans held)
      rw [show (machine env (.upload rename.target (rename.spool env.hash)) world).1 =
        true from answer]
      exact ⟨kept.trans source, bytes, origin, there.imp_right fun waits => ⟨_, rfl, waits⟩⟩
    | false =>
      rw [show (machine env (.upload rename.target (rename.spool env.hash)) world).1 =
        false from answer]
      exact kept.trans source
  · rw [own]
    rintro number ⟨⟩
    refine ⟨(act_upload_length _ _).ge, fun target stored waits => ?_⟩
    rw [origin, ← file]
    exact waits_of_upload waits
  · rw [phase] at same
    exact nomatch same
  · injection same with same sameToo
    subst same sameToo
    refine (served_of_upload serves).imp_right fun stored => ?_
    rw [origin, ← file]
    exact stored

theorem Holds.cleans {stored : Bool} (phase : phaseOf tid past = .uploaded stored)
    (begun : beginning tid past = some first) (spool : ℕ) :
    Holds env rename tid (machine env (.removeSpool spool) world).2
      (happening env tid (.removeSpool spool) world :: past) := by
  have relies := phase ▸ holds.begun first begun
  have kept (address : Address) := act_objects env (.removeSpool spool) address
    world (by simp [object])
  have begins : (beginning tid past).or (some world) = some first := by rw [begun]; rfl
  obtain ⟨own, uploads⟩ := holds.quiet env (.removeSpool spool) begins rfl
  cases stored with
  | true =>
    obtain ⟨source, bytes, origin, stores⟩ := relies
    refine holds.own begins ?_ (own ▸ uploads) (fun result same => ?_)
      (fun _ _ _ same => nomatch same) (fun _ _ same => nomatch same)
    · rw [phase, own]
      exact ⟨(kept _).trans source, bytes, origin,
        stores.spared (holds.uploads first begun) origin (.inl (by simp [object]))
          fun _ _ same => nomatch same⟩
    · rw [phase] at same
      exact nomatch same
  | false =>
    refine holds.own begins ?_ (own ▸ uploads) (fun result same => ?_)
      (fun _ _ _ same => nomatch same) (fun _ _ same => nomatch same)
    · rw [phase]
      exact trivial
    · rw [phase] at same
      injection same with same
      rw [← same]
      exact (kept _).trans relies

include different

theorem Holds.removes (phase : phaseOf tid past = .cleaned)
    (begun : beginning tid past = some first)
    (assembled : ∀ number ∈ uploadOf tid past, world.waits number = none)
    (answered : env.fate world.moment ≠ .unanswered) :
    Holds env rename tid (machine env (.remove rename.source) world).2
      (happening env tid (.remove rename.source) world :: past) := by
  obtain ⟨source, bytes, origin, stores⟩ := phase ▸ holds.begun first begun
  have target : world.served rename.target = some bytes := by
    obtain serves | ⟨number, mine, waits⟩ := stores
    · exact serves
    · exact nomatch (assembled number mine).symm.trans waits
  have kept := act_served env (.remove rename.source) rename.target world
    fun same => different (some.inj same).symm
  obtain ⟨removed, remains⟩ := act_remove answered
  have begins : (beginning tid past).or (some world) = some first := by rw [begun]; rfl
  obtain ⟨own, uploads⟩ := holds.quiet env (.remove rename.source) begins rfl
  refine holds.own begins ?_ (own ▸ uploads) (fun result same => ?_)
    (fun _ _ _ same => nomatch same) (fun _ _ same => nomatch same)
  · rw [phase]
    exact trivial
  · rw [phase] at same
    injection same with same
    rw [← same]
    cases answer : (show Bool from (machine env (.remove rename.source) world).1) with
    | true =>
      rw [show (machine env (.remove rename.source) world).1 = true from answer]
      exact ⟨bytes, origin, kept.trans target, fun _ => removed answer⟩
    | false =>
      rw [show (machine env (.remove rename.source) world).1 = false from answer]
      exact (remains answer).trans source

theorem Holds.next (fresh : phaseOf tid past = .fresh → beginning tid past = none)
    {next : step.Answer → Program Step Step.Answer Empty Bool}
    (asks : (phaseOf tid past).program env.hash rename = .ask step next)
    (harmless : Harmless tid env rename past (happening env tid step world)) :
    Holds env rename tid (machine env step world).2 (happening env tid step world :: past) := by
  have begun (other : phaseOf tid past ≠ .fresh) : ∃ first, beginning tid past = some first := by
    cases begins : beginning tid past with
    | none => exact absurd (holds.fresh begins).1 other
    | some first => exact ⟨first, rfl⟩
  cases phase : phaseOf tid past with
  | fresh =>
    rw [phase] at asks
    injection asks with asked
    subst asked
    exact holds.downloads phase (fresh phase)
  | downloaded =>
    obtain ⟨first, begins⟩ := begun (by rw [phase]; nofun)
    rw [phase] at asks
    injection asks with asked
    subst asked
    exact holds.sends different phase begins (harmless.clears _ (mem_def.mpr (if_pos rfl)))
  | uploaded stored =>
    obtain ⟨first, begins⟩ := begun (by rw [phase]; nofun)
    rw [phase] at asks
    injection asks with asked
    subst asked
    exact holds.cleans phase begins _
  | cleaned =>
    obtain ⟨first, begins⟩ := begun (by rw [phase]; nofun)
    rw [phase] at asks
    injection asks with asked
    subst asked
    obtain ⟨assembled, answered⟩ := harmless.finished rfl rfl
    exact holds.removes different phase begins assembled answered
  | ended result =>
    rw [phase] at asks
    exact nomatch asks

end

end Relying

/-! ### All runs -/

section Runs

variable {Thread : Type} [DecidableEq Thread]

/-- A program goes on as its phase does, and is never again at its beginning. -/
theorem program_after {hash : Text → ℕ} {rename : Rename} {phase : Phase} {step : Step}
    {next : step.Answer → Program Step Step.Answer Empty Bool}
    (asks : phase.program hash rename = .ask step next) (answer : step.Answer) :
    next answer = (phase.after step answer).program hash rename ∧
      phase.after step answer ≠ .fresh := by
  cases phase with
  | fresh =>
    injection asks with asked same
    subst asked
    obtain rfl := eq_of_heq same
    change Bool at answer
    cases answer with
    | true => exact ⟨rfl, nofun⟩
    | false => exact ⟨rfl, nofun⟩
  | downloaded =>
    injection asks with asked same
    subst asked
    obtain rfl := eq_of_heq same
    exact ⟨rfl, nofun⟩
  | uploaded stored =>
    injection asks with asked same
    subst asked
    obtain rfl := eq_of_heq same
    cases stored with
    | true => exact ⟨rfl, nofun⟩
    | false => exact ⟨rfl, nofun⟩
  | cleaned =>
    injection asks with asked same
    subst asked
    obtain rfl := eq_of_heq same
    exact ⟨rfl, nofun⟩
  | ended result => exact nomatch asks

section

variable (env : Env) (tasks : Thread → Task) (world : World)

def notBegun : Pool Thread Step Answer Empty Bool World :=
  Pool.start world fun tid => (tasks tid).program env.hash

/-- What the threads have come to when they were scheduled so. -/
def after (schedule : List Thread) : Pool Thread Step Answer Empty Bool World :=
  (notBegun env tasks world).run (fun _ => machine env) schedule

end

/-- What holds of a rename among the threads, and of an undisturbed one. -/
structure Inv (env : Env) (rename : Rename) (tid : Thread)
    (pool : Pool Thread Step Answer Empty Bool World) : Prop where
  program : pool.programs tid = (phaseOf tid pool.history).program env.hash rename
  fresh : phaseOf tid pool.history = .fresh → beginning tid pool.history = none
  holds : Undisturbed tid env rename pool.history →
    Holds env rename tid pool.world pool.history

variable {env : Env} {rename : Rename} {tid : Thread}
variable {pool : Pool Thread Step Answer Empty Bool World}

theorem Inv.step (inv : Inv env rename tid pool) (different : rename.target ≠ rename.source)
    (acting : Thread) : Inv env rename tid (pool.step (fun _ => machine env) acting) := by
  cases program : pool.programs acting with
  | done result =>
    rw [Pool.step_of_ended (by simp [program])]
    exact inv
  | raise fault => exact nomatch fault
  | ask step next =>
    rw [Pool.step_of_ask program]
    by_cases same : acting = tid
    · subst same
      have asks := inv.program.symm.trans program
      obtain ⟨goesOn, begun⟩ := program_after asks (machine env step pool.world).1
      have phase : phaseOf acting (happening env acting step pool.world :: pool.history) =
          (phaseOf acting pool.history).after step (machine env step pool.world).1 := if_pos rfl
      refine ⟨?_, fun fresh => absurd (phase.symm.trans fresh) begun, ?_⟩
      · dsimp only
        rw [update_self, goesOn]
        exact congrArg (Phase.program _ _) phase.symm
      · rintro ⟨harmless, before⟩
        exact (inv.holds before).next different inv.fresh asks harmless
    · have phase : phaseOf tid (happening env acting step pool.world :: pool.history) =
          phaseOf tid pool.history := if_neg same
      refine ⟨?_, fun fresh => ?_, ?_⟩
      · dsimp only
        rw [update_of_ne (Ne.symm same), inv.program]
        exact congrArg (Phase.program _ _) phase.symm
      · show (beginning tid pool.history).or (if acting = tid then _ else _) = none
        rw [if_neg same, inv.fresh (phase.symm.trans fresh)]
        rfl
      · rintro ⟨harmless, before⟩
        exact (inv.holds before).other same harmless

end Runs

/-! ### Renames that are disturbed, and one that is not -/

/-- Every step succeeds, objects of three bytes and more are sent in parts, and keys of different
lengths have different spool files. -/
def noFailures : Env where
  fate := fun _ => .done
  left := fun _ => none
  leavesRow := fun _ => false
  clears := fun _ => true
  inlineMaxSize := 2
  partSize := 2
  hash := List.length

/-- Two objects in a bucket, and one in another that has the key of the first. -/
def threeObjects : World where
  objects address :=
    if address = (0, ['a']) then some ⟨false, some [7, 7, 7]⟩
    else if address = (0, ['c', 'c']) then some ⟨false, some [8]⟩
    else if address = (1, ['a']) then some ⟨false, some [9]⟩ else none
  staged := []
  spools := fun _ => none
  moment := 0

/-- A rename of an object that is sent in parts, another of the bucket, and the assembly. -/
def threeTasks (thread : ℕ) : Task :=
  if thread = 0 then .renaming ⟨0, ['a'], ['b']⟩
  else if thread = 1 then .renaming ⟨0, ['c', 'c'], ['d']⟩
  else .assembly 1 (0, ['b'])

/-- A rename of an object that is sent in parts removes the source before the target is assembled,
and returns true. -/
example : (after noFailures threeTasks threeObjects [0, 0, 0, 0]).world.objects (0, ['a']) = none ∧
    (after noFailures threeTasks threeObjects [0, 0, 0, 0]).world.served (0, ['b']) = none := by
  decide

end Euclid.Transfer.Renaming
