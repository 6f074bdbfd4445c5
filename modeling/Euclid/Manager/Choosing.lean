/-
This file says when a choice of the manager among nodes does not depend on the order they are listed
in.

Loads that are nearly the same are taken as the same, so three nodes can go round in a circle, and a
product of core counts that wraps around can turn any two. The choice is the same in every order
exactly if one node goes before each other.
-/

import Mathlib.Data.String.Basic
import Euclid.Manager.Rebalance

namespace Euclid.Manager.Placement

open List Option

/-! ### Withdrawing -/

/-- A node that accepts no work gives its slot back first, then the most loaded per core, then the
densest per core, then the name. -/
def Candidate.givesBack (cand best : Candidate) : Bool :=
  if cand.acceptsWork ≠ best.acceptsWork then !cand.acceptsWork
  else
    let difference := cand.normalisedLoad - best.normalisedLoad
    if kSameLoad < |difference| then decide (0 < difference)
    else if compareDensity cand 0 best 0 ≠ 0 then decide (0 < compareDensity cand 0 best 0)
    else decide (cand.name < best.name)

open Candidate

def Candidate.holdsSlot (cand : Candidate) : Bool := decide (0 < cand.instancesOfApplication)

def chooseToWithdraw (holders : List Candidate) : Option String :=
  (keepBest holdsSlot givesBack none holders).map name

/-! ### A search in any order -/

/-- In every order the same node is picked, and an eligible one. -/
def Reproducible (pick : List Candidate → Option String) (eligible : Candidate → Bool)
    (cands : List Candidate) : Prop :=
  (∀ other : List Candidate, other.Perm cands → pick other = pick cands) ∧
    ∀ name, pick cands = some name → ∃ cand ∈ cands, cand.name = name ∧ eligible cand

/-- No node is eligible, or one goes before each other that is, whichever of the two comes first. -/
def Settled (eligible : Candidate → Bool) (replaces : Candidate → Candidate → Bool)
    (cands : List Candidate) : Prop :=
  (∀ cand ∈ cands, eligible cand = false) ∨ ∃ first ∈ cands, eligible first ∧
    ∀ other ∈ cands, eligible other → other.name ≠ first.name →
      replaces first other = true ∧ replaces other first = false

section Search

variable {eligible : Candidate → Bool} {replaces : Candidate → Candidate → Bool}
  {best : Option Candidate} {cands : List Candidate}

theorem keepBest_append (best : Option Candidate) (before after : List Candidate) :
    keepBest eligible replaces best (before ++ after) =
      keepBest eligible replaces (keepBest eligible replaces best before) after := by
  induction before generalizing best with
  | nil => rfl
  | cons cand rest ih =>
    rw [cons_append, keepBest_cons, keepBest_cons]
    split
    · cases best with
      | none => exact ih _
      | some found => exact ih _
    · exact ih _

theorem keepBest_first {first : Candidate} (isEligible : eligible first)
    (goesBefore : ∀ other, best = some other ∨ other ∈ cands ∧ eligible other → other ≠ first →
      replaces first other = true ∧ replaces other first = false)
    (among : best = some first ∨ first ∈ cands) :
    keepBest eligible replaces best cands = some first := by
  induction cands generalizing best with
  | nil => exact among.resolve_right not_mem_nil
  | cons cand rest ih =>
    have later : ∀ {other}, other ∈ rest ∧ eligible other → other ∈ cand :: rest ∧ eligible other :=
      fun both => ⟨.tail _ both.1, both.2⟩
    rw [keepBest_cons]
    split
    · rename_i chosen
      cases best with
      | none =>
        refine ih (fun other known => goesBefore other (.inr ?_)) ?_
        · rcases known with same | known
          · exact ⟨some.inj same ▸ .head _, some.inj same ▸ chosen⟩
          · exact later known
        · rcases mem_cons.mp (among.resolve_left nofun) with rfl | mem
          · exact .inl rfl
          · exact .inr mem
      | some found =>
        refine ih (fun other known => goesBefore other ?_) ?_
        · rcases known with same | known
          · split at same
            · exact .inr ⟨some.inj same ▸ .head _, some.inj same ▸ chosen⟩
            · exact .inl same
          · exact .inr (later known)
        · by_cases own : found = first
          · subst own
            by_cases also : cand = found
            · exact .inl (by rw [also, ite_self])
            · rw [(goesBefore cand (.inr ⟨.head _, chosen⟩) also).2]
              exact .inl rfl
          · rcases mem_cons.mp (among.resolve_left fun same => own (some.inj same))
              with rfl | mem
            · rw [(goesBefore found (.inl rfl) own).1]
              exact .inl rfl
            · exact .inr mem
    · rename_i unfit
      refine ih (fun other known => goesBefore other (known.imp_right later)) ?_
      refine among.imp_right fun mem => (mem_cons.mp mem).resolve_left ?_
      rintro rfl
      exact unfit isEligible

theorem keepBest_none (unfit : ∀ cand ∈ cands, eligible cand = false) :
    keepBest eligible replaces none cands = none := by
  cases found : keepBest eligible replaces none cands with
  | none => rfl
  | some cand =>
    obtain ⟨mem, also⟩ := (keepBest_mem found).resolve_left nofun
    rw [unfit cand mem] at also
    cases also

/-- A search is the same in every order exactly if one node goes before each other. -/
theorem reproducible_iff (distinct : (cands.map name).Nodup) :
    Reproducible (fun cands => (keepBest eligible replaces none cands).map name) eligible
      cands ↔ Settled eligible replaces cands := by
  have named : ∀ first ∈ cands, ∀ second ∈ cands, second.name = first.name → second = first :=
    fun first mem second mem' same => inj_on_of_nodup_map distinct mem' mem same
  constructor
  · rintro ⟨same, _⟩
    -- An eligible node that comes last is picked, unless another goes before it.
    have last := fun cand mem => same (cands.erase cand ++ [cand])
      (perm_append_comm.trans (perm_cons_erase mem).symm)
    simp only [keepBest_append, keepBest_cons] at last
    cases found : keepBest eligible replaces none cands with
    | none =>
      refine .inl fun cand mem => Bool.eq_false_iff.mpr fun also => ?_
      have picked := last cand mem
      rw [if_pos also, found] at picked
      split at picked <;> cases picked
    | some first =>
      obtain ⟨mem, also⟩ := (keepBest_mem found).resolve_left nofun
      refine .inr ⟨first, mem, also, fun other mem' also' different => ⟨?_, ?_⟩⟩
      · -- Behind one other node only, it would be passed over for good.
        by_contra passed
        have order : (other :: first :: (cands.erase first).erase other).Perm cands :=
          (Perm.swap first other _).trans (((perm_cons_erase ((mem_erase_of_ne
            fun same => different (congrArg name same)).mpr mem')).symm.cons first).trans
              (perm_cons_erase mem).symm)
        have picked := same _ order
        simp only [found, keepBest_cons, if_pos also', if_pos also, if_neg passed] at picked
        obtain ⟨kept, scanned, same⟩ := map_eq_some_iff.mp picked
        rcases keepBest_mem scanned with rest | ⟨inside, -⟩
        · exact different (some.inj rest ▸ same)
        · have beyond := mem_of_mem_erase inside
          rw [named first mem kept (mem_of_mem_erase beyond) same] at beyond
          exact (distinct.of_map.mem_erase_iff.mp beyond).1 rfl
      · have picked := last other mem'
        rw [if_pos also', found] at picked
        split at picked
        · exact absurd (some.inj picked) different
        · rename_i kept before
          have inside := mem_of_mem_erase ((keepBest_mem before).resolve_left nofun).1
          have picked := some.inj picked
          split at picked
          · exact absurd picked different
          · obtain rfl := named first mem kept inside picked
            exact Bool.eq_false_iff.mpr ‹_›
  · rintro (unfit | ⟨first, mem, also, goesBefore⟩)
    · have nothing : ∀ other : List Candidate, other.Perm cands →
          keepBest eligible replaces none other = none :=
        fun other perm => keepBest_none fun cand mem => unfit cand (perm.mem_iff.mp mem)
      refine ⟨fun other perm => by simp only [nothing other perm, nothing cands (.refl _)], ?_⟩
      intro name picked
      simp only [nothing cands (.refl _), map_none, reduceCtorEq] at picked
    · have always : ∀ other : List Candidate, other.Perm cands →
          keepBest eligible replaces none other = some first := by
        refine fun other perm => keepBest_first also ?_ (.inr (perm.mem_iff.mpr mem))
        rintro cand (⟨⟨⟩⟩ | ⟨mem', also'⟩) different
        have mem' := perm.mem_iff.mp mem'
        exact goesBefore cand mem' also' fun same => different (named first mem cand mem' same)
      refine ⟨fun other perm => by simp only [always other perm, always cands (.refl _)], ?_⟩
      intro name picked
      simp only [always cands (.refl _), map_some, some.injEq] at picked
      exact ⟨first, mem, picked, also⟩

end Search

/-- Both choices are the same in every order, and of an eligible node, exactly if one node goes
before each other. -/
theorem choices_reproducible_iff (constraints : Constraints) {cands : List Candidate}
    (distinct : (cands.map name).Nodup) :
    (Reproducible (choose constraints) (admits constraints) cands ↔
      Settled (admits constraints) isBetter cands) ∧
    (Reproducible chooseToWithdraw holdsSlot cands ↔
      Settled holdsSlot givesBack cands) :=
  ⟨reproducible_iff distinct, reproducible_iff distinct⟩

def oneCore (name : String) (loadAverage : ℚ) : Candidate :=
  ⟨name, [], 1, loadAverage, 0, true, 0, 0⟩

theorem oneCore_isBetter (name other : String) (load least : ℚ) :
    (oneCore name load).isBetter (oneCore other least) =
      if kSameLoad < |load - least| then decide (load - least < 0) else decide (name < other) := by
  have same : compareDensity (oneCore name load) 1 (oneCore other least) 1 = 0 := by
    rw [compareDensity_eq_int64]
    simp [surplus, oneCore, cores, int64]
  rw [isBetter, same, if_neg (not_not.mpr rfl)]
  simp [oneCore, normalisedLoad, cores]

/-- Two nodes as loaded as each other. -/
theorem choices_reproducible_of_two :
    Reproducible (choose ⟨[], [], 0, 0⟩) (admits ⟨[], [], 0, 0⟩)
      [oneCore "a" 0, oneCore "b" 0] := by
  have better : (oneCore "a" 0).isBetter (oneCore "b" 0) = true := by
    rw [oneCore_isBetter, if_neg (by norm_num [kSameLoad])]
    decide
  have worse : (oneCore "b" 0).isBetter (oneCore "a" 0) = false := by
    rw [oneCore_isBetter, if_neg (by norm_num [kSameLoad])]
    decide
  exact (choices_reproducible_iff ⟨[], [], 0, 0⟩ (by decide)).1.mpr
    (.inr ⟨oneCore "a" 0, by simpa [oneCore, admits, satisfies, fits]
      using (⟨better, worse⟩ : _ ∧ _)⟩)

/-- The first is as loaded as the second and the second as the third, but not the first as the
third. -/
theorem choose_depends_on_order : ¬ ∀ (constraints : Constraints) (cands : List Candidate),
    (cands.map name).Nodup →
      Reproducible (choose constraints) (admits constraints) cands := by
  intro always
  have same := (always ⟨[], [], 0, 0⟩
    [oneCore "c" 0, oneCore "b" (9 / 1000), oneCore "a" (18 / 1000)] (by decide)).1 _
      (reverse_perm _)
  have second : (oneCore "b" (9 / 1000)).isBetter (oneCore "c" 0) = true := by
    rw [oneCore_isBetter, if_neg (by norm_num [kSameLoad, abs])]
    decide
  have first : (oneCore "a" (18 / 1000)).isBetter (oneCore "b" (9 / 1000)) = true := by
    rw [oneCore_isBetter, if_neg (by norm_num [kSameLoad, abs])]
    decide
  have third : (oneCore "c" 0).isBetter (oneCore "a" (18 / 1000)) = true := by
    rw [oneCore_isBetter, if_pos (by norm_num [kSameLoad, abs])]
    norm_num
  have least : (oneCore "b" (9 / 1000)).isBetter (oneCore "a" (18 / 1000)) = false := by
    rw [oneCore_isBetter, if_neg (by norm_num [kSameLoad, abs])]
    decide
  simp [choose, chooseNode, keepBest, admits, satisfies, fits, first,
    second, third, least] at same
  simp [oneCore] at same

end Euclid.Manager.Placement
