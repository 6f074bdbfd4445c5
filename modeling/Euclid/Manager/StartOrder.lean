/-
This file proves that modules are started after what they depend on, and stopped before it.

A visit emits a module after it has visited what the module names. It passes over a module that is
on the path it came by, so what is passed over reaches the module at hand: a cycle that is cut there
misplaces none but its own modules.
-/

import Mathlib.Data.Finset.Card
import Mathlib.Data.String.Basic

namespace Euclid.Manager.StartOrder

open List Option

/-- Modules by name, in the order of the names, each with the names it depends on. -/
structure Modules where
  entries : List (String × List String)
  sorted : (entries.map Prod.fst).Pairwise (· < ·)

namespace Modules

def names (modules : Modules) : List String := modules.entries.map Prod.fst

def at? (modules : Modules) (name : String) : Option (List String) :=
  (modules.entries.find? fun entry => entry.1 = name).map Prod.snd

variable {modules : Modules}

theorem at?_isSome {name : String} (known : name ∈ modules.names) :
    ∃ named, modules.at? name = some named := by
  rw [← isSome_iff_exists, at?, isSome_map, find?_isSome]
  simpa [names] using known

theorem mem_of_at? {name : String} {named : List String}
    (at_eq : modules.at? name = some named) : name ∈ modules.names := by
  obtain ⟨entry, found, -⟩ := map_eq_some_iff.mp at_eq
  exact mem_map.mpr ⟨entry, mem_of_find?_eq_some found, by simpa using List.find?_some found⟩

end Modules

/-- What a depth-first walk has done. -/
structure Walk where
  ordered : List String
  started : Finset String
  visiting : Finset String

/-- `visit`, with a bound on how deep it is called. -/
def visit (modules : Modules) : ℕ → String → Walk → Option Walk
  | 0, _, _ => none
  | depth + 1, name, walk =>
    if name ∈ walk.started then some walk
    else if name ∈ walk.visiting then some walk
    else do
      let named ← modules.at? name
      let walk ← named.foldlM (fun walk dependency =>
        if dependency ∈ modules.names then visit modules depth dependency walk else some walk)
        { walk with visiting := insert name walk.visiting }
      return { ordered := walk.ordered ++ [name], started := insert name walk.started,
               visiting := walk.visiting.erase name }

def topologicalStartOrder (depth : ℕ) (modules : Modules) : Option (List String) := do
  let walk ← modules.names.foldlM (fun walk name => visit modules depth name walk) ⟨[], ∅, ∅⟩
  return walk.ordered

def kApiGateway : String := "eag"

/-- The pools that are neither the gateway nor a transfer server nor an application. -/
def coreModules (services : Modules) (transferServers applications : Finset String) : Modules where
  entries := services.entries.filter fun entry =>
    entry.1 ≠ kApiGateway ∧ entry.1 ∉ transferServers ∧ entry.1 ∉ applications
  sorted := services.sorted.sublist (filter_sublist.map _)

/-- The gateway, the transfer servers and the applications. -/
def stoppedFirst (services : Modules) (transferServers applications : Finset String) :
    List String :=
  let gateway := services.names.filter (· = kApiGateway)
  let ingress := services.names.filter fun name => name ≠ kApiGateway ∧ name ∈ transferServers
  let apps := services.names.filter fun name =>
    name ≠ kApiGateway ∧ name ∉ transferServers ∧ name ∈ applications
  gateway ++ ingress ++ apps

def stopOrder (depth : ℕ) (services : Modules) (transferServers applications : Finset String) :
    Option (List String) := do
  let order := stoppedFirst services transferServers applications
  let modules ← topologicalStartOrder depth (coreModules services transferServers applications)
  return order ++ modules.reverse

/-! ### Walks -/

/-- A module depends on another that is present. -/
def Modules.Needs (modules : Modules) (name dependency : String) : Prop :=
  dependency ∈ modules.names ∧ ∃ named, modules.at? name = some named ∧ dependency ∈ named

def Modules.Reaches (modules : Modules) : String → String → Prop :=
  Relation.ReflTransGen modules.Needs

variable {modules : Modules} {walk next : Walk} {name dependency : String} {bound : ℕ}

/-- What is emitted is emitted once, and after what it needs unless that reaches it. -/
structure Walk.Sound (modules : Modules) (walk : Walk) : Prop where
  nodup : walk.ordered.Nodup
  known : ∀ name ∈ walk.ordered, name ∈ modules.names
  onPath : ∀ name ∈ walk.visiting, name ∈ modules.names ∧ name ∉ walk.ordered
  started : ∀ name, name ∈ walk.started ↔ name ∈ walk.ordered
  placed : ∀ name ∈ walk.ordered, ∀ dependency, modules.Needs name dependency →
    ¬modules.Reaches dependency name → [dependency, name] <+ walk.ordered

/-- A step comes from a walk to another, however deep it may go beyond the bound. There it has
emitted the names that are not on the path. -/
def Comes (modules : Modules) (bound : ℕ) (names : List String) (walk : Walk)
    (step : ℕ → Walk → Option Walk) : Prop :=
  ∃ next, (∀ depth > bound, step depth walk = some next) ∧ next.Sound modules ∧
    next.visiting = walk.visiting ∧ walk.ordered <+: next.ordered ∧
    ∀ name ∈ names, name ∈ modules.names → name ∈ next.ordered ∨ name ∈ walk.visiting

theorem foldlM_comes {step : ℕ → String → Walk → Option Walk} {names : List String}
    (each : ∀ name ∈ names, ∀ before : Walk, before.Sound modules →
      before.visiting = walk.visiting → Comes modules bound [name] before (step · name))
    (sound : walk.Sound modules) :
    Comes modules bound names walk fun depth walk =>
      names.foldlM (fun walk name => step depth name walk) walk := by
  induction names generalizing walk with
  | nil => exact ⟨walk, fun _ _ => rfl, sound, rfl, prefix_rfl, nofun⟩
  | cons first rest ih =>
    obtain ⟨middle, steps, kept, same, grows, has⟩ := each first (.head _) walk sound rfl
    obtain ⟨last, goes, still, alike, grown, others⟩ := ih
      (fun name mem before good like => each name (.tail _ mem) before good (like.trans same)) kept
    refine ⟨last, fun depth deep => ?_, still, alike.trans same, grows.trans grown, ?_⟩
    · have first_eq : step depth first walk = some middle := steps depth deep
      dsimp only
      rw [foldlM_cons, first_eq]
      exact goes depth deep
    · rintro name mem present
      rcases mem_cons.mp mem with rfl | mem
      · exact (has _ (.head _) present).imp_left fun there => grown.subset there
      · exact same ▸ others name mem present

/-- A module is emitted after all that it needs and that does not reach it. -/
theorem Walk.Sound.emit {named : List String} (sound : next.Sound modules)
    (visiting : next.visiting = insert name walk.visiting) (present : name ∈ modules.names)
    (fresh : name ∉ walk.visiting) (at_eq : modules.at? name = some named)
    (path : ∀ other ∈ walk.visiting, modules.Reaches other name)
    (has : ∀ other ∈ named, other ∈ modules.names →
      other ∈ next.ordered ∨ other ∈ insert name walk.visiting) :
    Walk.Sound modules ⟨next.ordered ++ [name], insert name next.started, walk.visiting⟩ := by
  have absent : name ∉ next.ordered := (sound.onPath name (by simp [visiting])).2
  refine ⟨?_, ?_, fun other mem => ?_, ?_, fun other mem dependency needs apart => ?_⟩
  · exact sound.nodup.append (nodup_singleton _) (by simpa using absent)
  · simpa [or_imp, forall_and, present] using sound.known
  · obtain ⟨known, notYet⟩ := sound.onPath other (by simp [visiting, mem])
    refine ⟨known, fun there => ?_⟩
    rcases mem_append.mp there with old | new
    · exact notYet old
    · exact fresh (mem_singleton.mp new ▸ mem)
  · simp [sound.started, or_comm]
  · rcases mem_append.mp mem with old | new
    · exact (sound.placed other old dependency needs apart).trans (sublist_append_left _ _)
    · obtain rfl := mem_singleton.mp new
      obtain ⟨known, named', same, among⟩ := needs
      obtain rfl := some.inj (at_eq.symm.trans same)
      rcases has dependency among known with there | onPath
      · exact (singleton_sublist.mpr there).append (.refl _)
      · rcases Finset.mem_insert.mp onPath with rfl | above
        · exact absurd .refl apart
        · exact absurd (path dependency above) apart

theorem visit_started {depth : ℕ} (done : name ∈ walk.started) :
    visit modules (depth + 1) name walk = some walk := by
  rw [visit, if_pos done]

theorem visit_onPath {depth : ℕ} (onPath : name ∈ walk.visiting) :
    visit modules (depth + 1) name walk = some walk := by
  rw [visit, if_pos onPath, ite_self]

/-- A visit ends once it may go deeper than there are modules off its path. -/
theorem visit_comes (sound : walk.Sound modules) (present : name ∈ modules.names)
    (path : ∀ other ∈ walk.visiting, modules.Reaches other name)
    (small : (modules.names.toFinset \ walk.visiting).card ≤ bound) :
    Comes modules bound [name] walk (visit modules · name) := by
  induction bound generalizing walk name with
  | zero =>
    have onPath : name ∈ walk.visiting := by
      by_contra off
      have empty := Finset.card_eq_zero.mp (Nat.le_zero.mp small)
      have inside : name ∈ modules.names.toFinset \ walk.visiting := by simp [present, off]
      simp [empty] at inside
    refine ⟨walk, fun depth deep => ?_, sound, rfl, prefix_rfl, by simp [onPath]⟩
    obtain ⟨depth, rfl⟩ := Nat.exists_eq_add_of_lt deep
    exact visit_onPath onPath
  | succ bound ih =>
    by_cases done : name ∈ walk.started
    · refine ⟨walk, fun depth deep => ?_, sound, rfl, prefix_rfl, ?_⟩
      · obtain ⟨depth, rfl⟩ := Nat.exists_eq_add_of_lt deep
        exact visit_started done
      · simp [(sound.started name).mp done]
    by_cases onPath : name ∈ walk.visiting
    · refine ⟨walk, fun depth deep => ?_, sound, rfl, prefix_rfl, by simp [onPath]⟩
      obtain ⟨depth, rfl⟩ := Nat.exists_eq_add_of_lt deep
      exact visit_onPath onPath
    obtain ⟨named, at_eq⟩ := Modules.at?_isSome present
    have notYet : name ∉ walk.ordered := fun there => done ((sound.started name).mpr there)
    have entered : Walk.Sound modules { walk with visiting := insert name walk.visiting } :=
      ⟨sound.nodup, sound.known, by
        simpa [present, notYet] using sound.onPath, sound.started, sound.placed⟩
    have fewer : (modules.names.toFinset \ insert name walk.visiting).card ≤ bound := by
      rw [Finset.sdiff_insert]
      have inside : name ∈ modules.names.toFinset \ walk.visiting := by simp [present, onPath]
      rw [Finset.card_erase_of_mem inside]
      omega
    have walks : Comes modules bound named { walk with visiting := insert name walk.visiting }
        fun depth walk => named.foldlM (fun walk dependency => if dependency ∈ modules.names
          then visit modules depth dependency walk else some walk) walk := by
      refine foldlM_comes (fun dependency among before good alike => ?_) entered
      by_cases known : dependency ∈ modules.names
      · simp only [if_pos known]
        refine ih good known ?_ (by rwa [alike])
        rw [alike]
        intro other mem
        have needs : modules.Needs name dependency := ⟨known, named, at_eq, among⟩
        rcases Finset.mem_insert.mp mem with rfl | above
        · exact .single needs
        · exact (path other above).tail needs
      · simp only [if_neg known]
        exact ⟨before, fun _ _ => rfl, good, rfl, prefix_rfl, by simp [known]⟩
    obtain ⟨last, goes, still, same, grown, has⟩ := walks
    refine ⟨_, fun depth deep => ?_, still.emit same present onPath at_eq path has, rfl,
      grown.trans (prefix_append _ _), by simp⟩
    obtain ⟨depth, rfl⟩ := Nat.exists_eq_add_of_lt deep
    show visit modules (_ + 1) name walk = _
    rw [visit, if_neg done, if_neg onPath, at_eq]
    simp only [bind_eq_bind, bind_some, goes (bound + 1 + depth) (by omega)]
    rw [same, Finset.erase_insert onPath]
    rfl

/-! ### Start and stop -/

theorem topologicalStartOrder_spec (modules : Modules) :
    ∃ order, (∀ depth > modules.names.length, topologicalStartOrder depth modules = some order) ∧
      order.Nodup ∧ (∀ name, name ∈ order ↔ name ∈ modules.names) ∧
      ∀ name dependency, modules.Needs name dependency → ¬modules.Reaches dependency name →
        [dependency, name] <+ order := by
  have walks : Comes modules modules.names.length modules.names ⟨[], ∅, ∅⟩ fun depth walk =>
      modules.names.foldlM (fun walk name => visit modules depth name walk) walk := by
    refine foldlM_comes (fun name mem before good alike => ?_)
      ⟨nodup_nil, nofun, by simp, by simp, nofun⟩
    refine visit_comes good mem (by simp [alike]) ?_
    rw [alike, Finset.sdiff_empty]
    exact toFinset_card_le _
  obtain ⟨last, goes, sound, -, -, has⟩ := walks
  have emitted : ∀ name ∈ modules.names, name ∈ last.ordered :=
    fun name mem => by simpa using has name mem mem
  refine ⟨last.ordered, fun depth deep => ?_, sound.nodup, fun name =>
    ⟨sound.known name, emitted name⟩,
    fun name dependency needs apart => ?_⟩
  · have walked := goes depth deep
    dsimp only at walked
    rw [topologicalStartOrder, walked]
    rfl
  · obtain ⟨-, named, at_eq, -⟩ := id needs
    exact sound.placed name (emitted name (Modules.mem_of_at? at_eq)) dependency needs apart

/-- Modules are started once each, after what they need that does not reach them, and of the pools
that are stopped the modules that are left for last are stopped before it. -/
theorem start_and_stop_ordered (modules services : Modules)
    (transferServers applications : Finset String) :
    (∃ order, (∀ depth > modules.names.length, topologicalStartOrder depth modules = some order) ∧
      order.Nodup ∧ (∀ name, name ∈ order ↔ name ∈ modules.names) ∧
      ∀ name dependency, modules.Needs name dependency → ¬modules.Reaches dependency name →
        [dependency, name] <+ order) ∧
    let core := coreModules services transferServers applications
    ∃ order, (∀ depth > core.names.length,
        stopOrder depth services transferServers applications = some order) ∧
      ∀ name dependency, core.Needs name dependency → ¬core.Reaches dependency name →
        [name, dependency] <+ order := by
  refine ⟨topologicalStartOrder_spec modules, ?_⟩
  intro core
  obtain ⟨order, goes, -, -, placed⟩ := topologicalStartOrder_spec core
  refine ⟨stoppedFirst services transferServers applications ++ order.reverse,
    fun depth deep => ?_, fun name dependency needs apart => ?_⟩
  · rw [stopOrder, goes depth deep]
    rfl
  · exact (placed name dependency needs apart).reverse.trans (sublist_append_right _ _)

example : topologicalStartOrder 5 ⟨[("a", ["b"]), ("b", ["c", "x"]), ("c", ["b", "d"]), ("d", [])],
    by decide⟩ = some ["d", "c", "b", "a"] := by decide

end Euclid.Manager.StartOrder
