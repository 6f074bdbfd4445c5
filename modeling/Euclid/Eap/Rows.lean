/-
This file follows one application through the statements on the collection: what each statement
makes of the application under a key.

The unique index on the key is an invariant of the collection, and with it a statement on one key
leaves the applications under every other as they are.
-/

import Euclid.Eap.Statement

namespace Euclid.Eap

open List Application

open Bus (Time StoreError Outage underOutage)
open Collection

/-- The row under a key. -/
def rowAt (key : Key) (applications : List Application) : Option Application :=
  applications.find? (isAt key)

/-- The unique index: no two rows have one key. -/
def Indexed (applications : List Application) : Prop := (applications.map key).Nodup

instance (applications : List Application) : Decidable (Indexed applications) :=
  inferInstanceAs (Decidable (List.Nodup _))

section Rows

variable {applications : List Application} {key other : Key} {app : Application}

theorem isAt_iff : app.isAt key ↔ app.key = key := by
  simp [isAt]

theorem rowAt_key (found : rowAt key applications = some app) :
    app.key = key := isAt_iff.mp (List.find?_some found)

theorem rowAt_mem (found : rowAt key applications = some app) :
    app ∈ applications := mem_of_find?_eq_some found

theorem rowAt_eq_none : rowAt key applications = none ↔ ∀ app ∈ applications, app.key ≠ key := by
  simp [rowAt, isAt]

variable (indexed : Indexed applications)

include indexed in
theorem rowAt_of_mem (mem : app ∈ applications) : rowAt app.key applications = some app := by
  cases found : rowAt app.key applications with
  | none => exact absurd rfl (rowAt_eq_none.mp found app mem)
  | some stored =>
    exact congrArg some (inj_on_of_nodup_map indexed (rowAt_mem found) mem (rowAt_key found))

theorem rowAt_updateFirst (change : Application → Application)
    (keeps : ∀ app, app.key = other → (change app).key = other) :
    rowAt key (updateFirst (isAt other) change applications) =
      if other = key then (rowAt key applications).map change else rowAt key applications :=
  find?_updateFirst_keyed Application.key keeps key

theorem rowAt_append {app : Application} (absent : rowAt app.key applications = none) :
    rowAt key (applications ++ [app]) =
      if app.key = key then some app else rowAt key applications :=
  find?_append_keyed Application.key absent rfl key

include indexed

theorem rowAt_eraseP :
    rowAt key (applications.eraseP (isAt other)) =
      if other = key then none else rowAt key applications := by
  unfold rowAt
  induction applications with
  | nil => simp
  | cons head rest ih =>
    obtain ⟨alone, unique⟩ := nodup_cons.mp indexed
    by_cases own : head.key = other
    · rw [eraseP_cons_of_pos (isAt_iff.mpr own)]
      by_cases same : other = key
      · rw [if_pos same]
        refine rowAt_eq_none.mpr fun app mem at_ => alone ?_
        exact mem_map.mpr ⟨app, mem, at_.trans (own.trans same).symm⟩
      · simp [isAt, own, same]
    · rw [eraseP_cons_of_neg (mt isAt_iff.mp own), List.find?_cons, List.find?_cons, ih unique]
      by_cases wanted : head.key = key
      · have different : other ≠ key := fun same => own (wanted.trans same.symm)
        simp [isAt, wanted, different]
      · simp [isAt, wanted]

theorem Indexed.updateFirst {change : Application → Application}
    (keeps : ∀ app, app.key = other → (change app).key = other) :
    Indexed (updateFirst (isAt other) change applications) := by
  unfold Indexed
  rw [map_updateFirst fun app _ selected =>
    (keeps app (isAt_iff.mp selected)).trans (isAt_iff.mp selected).symm]
  exact indexed

theorem Indexed.append (absent : rowAt app.key applications = none) :
    Indexed (applications ++ [app]) := by
  unfold Indexed
  rw [map_append]
  refine nodup_append.mpr ⟨indexed, nodup_singleton _, ?_⟩
  rintro _ inKeys _ inLast rfl
  obtain ⟨stored, mem, same⟩ := mem_map.mp inKeys
  exact rowAt_eq_none.mp absent stored mem (same.trans (mem_singleton.mp inLast))

end Rows

/-! ### What a statement does -/

/-- The key a statement writes under, and what it makes of the application there. -/
def ApplicationStatement.effect (now : Time) (applications : List Application)
    (stmt : ApplicationStatement) (key : Key) (row : Option Application) : Option Application :=
  match stmt with
  | .upsert copy =>
    if copy.key = key then
      let written := row.elim copy copy.replacedBy
      if written.clashes applications then row else some written
    else row
  | .delete other => if other = key then none else row
  | .setInstances other _ _ | .setLimits other _ _ | .setInfrastructure other _
  | .setLogLevel other _ | .touch other | .requestRebalance other =>
    if other = key then row.map (stmt.change now) else row
  | .findByKey _ | .findByRuntimeName _ | .listAll => row

@[simp] theorem change_key (now : Time) (stmt : ApplicationStatement)
    (app : Application) : (stmt.change now app).key = app.key := by
  cases stmt <;> rfl

theorem effect_upsert (now : Time) (applications : List Application) (copy : Application)
    (key : Key) (row : Option Application) :
    (ApplicationStatement.upsert copy).effect now applications key row =
      if copy.key = key then
        if (row.elim copy copy.replacedBy).clashes applications then row
        else some (row.elim copy copy.replacedBy) else row := rfl

variable {applications : List Application}

theorem upsertIn_effect (indexed : Indexed applications) {now : Time} {copy : Application} :
    Indexed (upsertIn applications copy).2 ∧ ∀ key, rowAt key (upsertIn applications copy).2 =
      (ApplicationStatement.upsert copy).effect now applications key (rowAt key applications) := by
  unfold upsertIn
  cases stored : applications.find? (isAt copy.key) with
  | none =>
    dsimp only
    have absent : rowAt copy.key applications = none := stored
    split
    · rename_i clashes
      refine ⟨indexed, fun key => ?_⟩
      rw [effect_upsert]
      split
      · rename_i same
        rw [← same, absent]
        exact (if_pos clashes).symm
      · rfl
    · rename_i fits
      refine ⟨indexed.append absent, fun key => ?_⟩
      refine (rowAt_append absent).trans ?_
      rw [effect_upsert]
      split
      · rename_i same
        rw [← same, absent]
        exact (if_neg fits).symm
      · rfl
  | some found =>
    dsimp only
    have present : rowAt copy.key applications = some found := stored
    split
    · rename_i clashes
      refine ⟨indexed, fun key => ?_⟩
      rw [effect_upsert]
      split
      · rename_i same
        rw [← same, present]
        exact (if_pos clashes).symm
      · rfl
    · rename_i fits
      refine ⟨indexed.updateFirst fun _ _ => rfl, fun key => ?_⟩
      refine (rowAt_updateFirst copy.replacedBy fun _ _ => rfl).trans ?_
      rw [effect_upsert]
      split
      · rename_i same
        rw [← same, present]
        exact (if_neg fits).symm
      · rfl

/-- A statement that names a key changes the row under it. -/
theorem targeted_effect (indexed : Indexed applications)
    (other : Key) {change : Application → Application} (keeps : ∀ app, (change app).key = app.key) :
    Indexed (targeted other change applications).2 ∧
      ∀ key, rowAt key (targeted other change applications).2 =
        if other = key then (rowAt key applications).map change else rowAt key applications :=
  ⟨indexed.updateFirst fun app at_ => (keeps app).trans at_,
    fun _ => rowAt_updateFirst change fun app at_ => (keeps app).trans at_⟩

/-- What a statement leaves under each key is its effect there. -/
theorem apply_effect (indexed : Indexed applications) {now : Time} {stmt : ApplicationStatement} :
    Indexed (stmt.apply now applications).2 ∧
      ∀ key, rowAt key (stmt.apply now applications).2 =
        stmt.effect now applications key (rowAt key applications) := by
  cases stmt with
  | upsert copy => exact upsertIn_effect indexed
  | delete other =>
    refine ⟨?_, fun key => rowAt_eraseP indexed⟩
    exact List.Nodup.sublist (List.Sublist.map _ eraseP_sublist) indexed
  | findByKey _ => exact ⟨indexed, fun _ => rfl⟩
  | findByRuntimeName _ => exact ⟨indexed, fun _ => rfl⟩
  | listAll => exact ⟨indexed, fun _ => rfl⟩
  | setInstances other _ _ => exact targeted_effect indexed other (change_key now _)
  | setLimits other _ _ => exact targeted_effect indexed other (change_key now _)
  | setInfrastructure other _ => exact targeted_effect indexed other (change_key now _)
  | setLogLevel other _ => exact targeted_effect indexed other (change_key now _)
  | touch other => exact targeted_effect indexed other (change_key now _)
  | requestRebalance other => exact targeted_effect indexed other (change_key now _)

/-! ### What a request does -/

theorem machine_applications (env : Env) (proc : Nat)
    (stmt : ApplicationStatement) (world : World) :
    (machine env proc (.application stmt) world).2.applications =
      if env.outage world.moment = some .refused then world.applications
      else (stmt.apply (env.storeClock world.moment) world.applications).2 := by
  simp only [machine]
  match env.outage world.moment with
  | none => rfl
  | some .refused => rfl
  | some .unanswered => rfl

/-- What a request makes of the application under a key. -/
def Req.effect (env : Env) (world : World) (req : Req) (key : Key)
    (row : Option Application) : Option Application :=
  match req with
  | .application stmt =>
    if env.outage world.moment = some .refused then row
    else stmt.effect (env.storeClock world.moment) world.applications key row
  | _ => row

theorem machine_effect (env : Env) (proc : Nat) (req : Req)
    {world : World} (indexed : Indexed world.applications) :
    Indexed (machine env proc req world).2.applications ∧
      ∀ key, rowAt key (machine env proc req world).2.applications =
        req.effect env world key (rowAt key world.applications) := by
  cases req with
  | application stmt =>
    rw [machine_applications]
    by_cases refused : env.outage world.moment = some .refused
    · rw [if_pos refused]
      exact ⟨indexed, fun key => (if_pos refused).symm⟩
    · obtain ⟨stays, rows⟩ := apply_effect indexed
      rw [if_neg refused]
      exact ⟨stays, fun key => (rows key).trans (if_neg refused).symm⟩
  | _ => exact ⟨indexed, fun _ => rfl⟩

end Euclid.Eap
