/-
This file proves that a move the manager proposes can be carried out, ends where it says, and that
moves come to an end, as long as the densities that are compared are not cut.

The node a search ends with has the least measure of those that are eligible, and what has a greater
measure can be left out of the search. Every move takes an instance from a node that must be left,
or makes smaller the sum over the nodes of what their instances weigh, the first on a node one over
its cores, the second two, and so on.
-/

import Mathlib.Algebra.Order.BigOperators.GroupWithZero.List
import Mathlib.Tactic.Positivity
import Euclid.Manager.Placement

namespace Euclid.Manager.Placement

open Collection List

/-! ### The search for the best -/

section KeepBest

variable {eligible : Candidate → Bool} {replaces : Candidate → Candidate → Bool}

theorem keepBest_cons (best : Option Candidate) (cand : Candidate) (rest : List Candidate) :
    keepBest eligible replaces best (cand :: rest) =
      if eligible cand then
        match best with
        | none => keepBest eligible replaces (some cand) rest
        | some found => keepBest eligible replaces
            (some (if replaces cand found then cand else found)) rest
      else keepBest eligible replaces best rest := by
  cases best <;> rfl

variable {cands : List Candidate} {best : Option Candidate} {found : Candidate}

theorem keepBest_mem (kept : keepBest eligible replaces best cands = some found) :
    best = some found ∨ found ∈ cands ∧ eligible found := by
  induction cands generalizing best with
  | nil => exact .inl kept
  | cons cand rest ih =>
    rw [keepBest_cons] at kept
    by_cases chosen : eligible cand
    · rw [if_pos chosen] at kept
      cases best with
      | none =>
        rcases ih kept with same | ⟨mem, also⟩
        · obtain rfl := Option.some.inj same
          exact .inr ⟨.head _, chosen⟩
        · exact .inr ⟨.tail _ mem, also⟩
      | some before =>
        rcases ih kept with same | ⟨mem, also⟩
        · have kept := Option.some.inj same
          split at kept
          · subst kept
            exact .inr ⟨.head _, chosen⟩
          · exact .inl (congrArg some kept)
        · exact .inr ⟨.tail _ mem, also⟩
    · rw [if_neg chosen] at kept
      rcases ih kept with same | ⟨mem, also⟩
      · exact .inl same
      · exact .inr ⟨.tail _ mem, also⟩

theorem keepBest_filter_eligible (best : Option Candidate) (cands : List Candidate) :
    keepBest eligible replaces best (cands.filter eligible) =
      keepBest eligible replaces best cands := by
  induction cands generalizing best with
  | nil => rfl
  | cons cand rest ih =>
    by_cases chosen : eligible cand
    · rw [filter_cons_of_pos chosen, keepBest_cons, keepBest_cons, if_pos chosen, if_pos chosen]
      cases best with
      | none => exact ih _
      | some before => exact ih _
    · rw [filter_cons_of_neg (by simpa using chosen), keepBest_cons, if_neg chosen]
      exact ih _

/-- Among some nodes, what is measured decides before anything else does. -/
def Decides (among : Candidate → Prop) (measure : Candidate → ℚ)
    (replaces : Candidate → Candidate → Bool) : Prop :=
  ∀ first second, among first → among second → measure first < measure second →
    replaces first second = true ∧ replaces second first = false

variable {among : Candidate → Prop} {measure : Candidate → ℚ}

theorem keepBest_least (decides : Decides among measure replaces)
    (known : ∀ before, best = some before → among before)
    (inside : ∀ cand ∈ cands, eligible cand → among cand)
    (kept : keepBest eligible replaces best cands = some found) :
    (∀ before, best = some before → measure found ≤ measure before) ∧
      ∀ cand ∈ cands, eligible cand → measure found ≤ measure cand := by
  induction cands generalizing best with
  | nil =>
    refine ⟨fun before same => ?_, nofun⟩
    rw [same] at kept
    rw [← Option.some.inj kept]
  | cons cand rest ih =>
    rw [keepBest_cons] at kept
    have further := fun other mem => inside other (.tail _ mem)
    by_cases chosen : eligible cand
    · rw [if_pos chosen] at kept
      have here := inside cand (.head _) chosen
      cases best with
      | none =>
        obtain ⟨first, others⟩ := ih (fun _ same => Option.some.inj same ▸ here) further kept
        refine ⟨nofun, fun other mem also => ?_⟩
        rcases mem_cons.mp mem with rfl | inRest
        · exact first _ rfl
        · exact others other inRest also
      | some before =>
        have there := known before rfl
        obtain ⟨first, others⟩ := ih (fun _ same => by
          rw [← Option.some.inj same]
          split
          · exact here
          · exact there) further kept
        have least : measure (if replaces cand before then cand else before) ≤
              measure before ∧
            measure (if replaces cand before then cand else before) ≤ measure cand := by
          split
          · rename_i replaced
            refine ⟨le_of_not_gt fun lower => ?_, le_refl _⟩
            rw [(decides before cand there here lower).2] at replaced
            cases replaced
          · rename_i stays
            exact ⟨le_refl _, le_of_not_gt fun lower =>
              stays (decides cand before here there lower).1⟩
        have bound := first _ rfl
        refine ⟨fun old same => ?_, fun other mem also => ?_⟩
        · obtain rfl := Option.some.inj same
          exact bound.trans least.1
        · rcases mem_cons.mp mem with rfl | inRest
          · exact bound.trans least.2
          · exact others other inRest also
    · rw [if_neg chosen] at kept
      obtain ⟨first, others⟩ := ih known further kept
      refine ⟨first, fun other mem also => ?_⟩
      rcases mem_cons.mp mem with rfl | inRest
      · exact absurd also chosen
      · exact others other inRest also

theorem keepBest_filter_least (decides : Decides among measure replaces) {least : ℚ}
    (known : ∀ found, best = some found → among found ∧ least ≤ measure found)
    (bound : ∀ cand ∈ cands, eligible cand → among cand ∧ least ≤ measure cand) :
    (keepBest eligible replaces best cands).filter (fun found => measure found = least) =
      keepBest eligible replaces (best.filter fun found => measure found = least)
        (cands.filter fun cand => measure cand = least) := by
  induction cands generalizing best with
  | nil => rfl
  | cons cand rest ih =>
    have others := fun other mem => bound other (.tail _ mem)
    by_cases chosen : eligible cand
    · obtain ⟨here, past⟩ := bound cand (.head _) chosen
      rw [keepBest_cons, if_pos chosen]
      cases best with
      | none =>
        refine (ih (fun found same => Option.some.inj same ▸ ⟨here, past⟩) others).trans ?_
        by_cases minimal : measure cand = least
        · rw [filter_cons_of_pos (by simpa using minimal), keepBest_cons, if_pos chosen]
          simp [Option.filter_some, minimal]
        · rw [filter_cons_of_neg (by simpa using minimal)]
          simp [Option.filter_some, minimal]
      | some found =>
        obtain ⟨there, above⟩ := known found rfl
        refine (ih (fun kept same => ?_) others).trans ?_
        · rw [← Option.some.inj same]
          split
          · exact ⟨here, past⟩
          · exact ⟨there, above⟩
        by_cases minimal : measure cand = least
        · rw [filter_cons_of_pos (by simpa using minimal), keepBest_cons, if_pos chosen]
          by_cases also : measure found = least
          · by_cases replaced : replaces cand found <;>
              simp [Option.filter_some, also, minimal, replaced]
          · have lower : measure cand < measure found :=
              minimal ▸ lt_of_le_of_ne above (Ne.symm also)
            simp [Option.filter_some, also, minimal, (decides _ _ here there lower).1]
        · rw [filter_cons_of_neg (by simpa using minimal)]
          by_cases also : measure found = least
          · have lower : measure found < measure cand :=
              also ▸ lt_of_le_of_ne past (Ne.symm minimal)
            simp [Option.filter_some, also, (decides _ _ there here lower).2]
          · by_cases replaced : replaces cand found <;>
              simp [Option.filter_some, also, minimal, replaced]
    · rw [keepBest_cons, if_neg chosen, ih known others]
      by_cases minimal : measure cand = least
      · rw [filter_cons_of_pos (by simpa using minimal), keepBest_cons, if_neg chosen]
      · rw [filter_cons_of_neg (by simpa using minimal)]

end KeepBest

/-! ### Density -/

theorem Candidate.cores_pos (cand : Candidate) : 0 < cand.cores := by
  unfold Candidate.cores
  omega

open Candidate

/-- How densely a node would carry the application with so many more instances. -/
def Candidate.density (added : Int) (cand : Candidate) : ℚ :=
  (cand.instancesOfApplication + added : ℚ) / cand.cores

/-- What `compareDensity` computes, if nothing in it is cut. -/
def surplus (a : Candidate) (addA : Int) (b : Candidate) (addB : Int) : Int :=
  (a.instancesOfApplication + addA) * b.cores - (b.instancesOfApplication + addB) * a.cores

section Density

variable {a b : Candidate} {addA addB : Int}

theorem surplus_swap : surplus b addB a addA = -surplus a addA b addB := by
  unfold surplus
  ring

theorem compareDensity_eq_int64 : compareDensity a addA b addB = int64 (surplus a addA b addB) := by
  unfold compareDensity surplus int64
  rw [Int.bmod_mul_bmod, Int.bmod_mul_bmod, Int.bmod_sub_bmod, Int.sub_bmod_bmod]

theorem compareDensity_eq (fits : |surplus a addA b addB| < 2 ^ 63) :
    compareDensity a addA b addB = surplus a addA b addB := by
  have bounds := abs_lt.mp fits
  rw [compareDensity_eq_int64]
  exact Int.bmod_eq_of_le_mul_two (by norm_num; omega) (by norm_num; omega)

theorem surplus_neg_iff : surplus a addA b addB < 0 ↔ a.density addA < b.density addB := by
  have left : (0 : ℚ) < a.cores := Int.cast_pos.mpr a.cores_pos
  have right : (0 : ℚ) < b.cores := Int.cast_pos.mpr b.cores_pos
  unfold surplus density
  rw [div_lt_div_iff₀ left right, sub_neg, ← Int.cast_lt (R := ℚ)]
  push_cast
  rfl

theorem surplus_pos_iff : 0 < surplus a addA b addB ↔ b.density addB < a.density addA := by
  rw [surplus_swap, neg_pos, surplus_neg_iff]

end Density

/-- Two nodes are the same one, or what `compareDensity` says of them is not cut. -/
def Comparable (a : Candidate) (addA : Int) (b : Candidate) (addB : Int) : Prop :=
  a.name = b.name ∨ |surplus a addA b addB| < 2 ^ 63

theorem isBetter_decides {among : Candidate → Prop}
    (named : ∀ first second, among first → among second → first.name = second.name → first = second)
    (fits : ∀ first second, among first → among second → Comparable first 1 second 1) :
    Decides among (density 1) isBetter := by
  intro first second left right sparser
  rcases fits first second left right with same | small
  · rw [named first second left right same] at sparser
    exact absurd sparser (lt_irrefl _)
  · have under := surplus_neg_iff.mpr sparser
    have turned : |surplus second 1 first 1| < 2 ^ 63 := by rwa [surplus_swap, abs_neg]
    have past := surplus_pos_iff.mpr sparser
    constructor
    · simp [isBetter, compareDensity_eq small, under, under.ne]
    · simp [isBetter, compareDensity_eq turned, past.le, past.ne']

theorem isWorse_decides {constraints : Constraints} :
    Decides (fun _ => True) (fun cand => if cand.satisfies constraints then 1 else 0)
      (isWorse constraints) := by
  intro first second _ _ lower
  dsimp only at lower
  have left : first.satisfies constraints = false := by
    by_contra satisfied
    rw [if_pos (by simpa using satisfied)] at lower
    split at lower <;> linarith
  have right : second.satisfies constraints = true := by
    by_contra leaves
    rw [if_neg (by simp [left]), if_neg leaves] at lower
    linarith
  simp [isWorse, left, right]

/-! ### A move -/

variable {holder : Candidate} {chosen : Candidate}

section Moves

variable {constraints : Constraints} {cands : List Candidate}

/-- Nothing is cut when nodes that admit the instance are compared with one more on each, or when
one that may keep an instance is compared, as it is, with one that would get it. -/
structure Weighable (constraints : Constraints) (cands : List Candidate) : Prop where
  admitting : ∀ first ∈ cands, ∀ second ∈ cands, first.admits constraints →
    second.admits constraints → Comparable first 1 second 1
  holding : ∀ holder ∈ cands, 0 < holder.instancesOfApplication → holder.satisfies constraints →
    ∀ other ∈ cands, other.admits constraints → Comparable holder 0 other 1

/-- What is proposed: a holder, the node placement would choose, and why. -/
structure Proposes (constraints : Constraints) (cands : List Candidate)
    (holder chosen : Candidate) :
    Prop where
  holds : holder ∈ cands
  held : 0 < holder.instancesOfApplication
  chosen_eq : chooseNode constraints cands = some chosen
  apart : chosen.name ≠ holder.name
  improves : holder.satisfies constraints →
    chosen.density 1 < holder.density 0 ∧
      ∀ other ∈ cands, 0 < other.instancesOfApplication → other.satisfies constraints

theorem named_eq (distinct : (cands.map name).Nodup) {first second : Candidate}
    (left : first ∈ cands) (right : second ∈ cands) (same : first.name = second.name) :
    first = second := inj_on_of_nodup_map distinct left right same

theorem chooseNode_admits (found : chooseNode constraints cands = some chosen) :
    chosen ∈ cands ∧ chosen.admits constraints := by
  rcases keepBest_mem found with same | found
  · cases same
  · exact found

theorem withdrawn_names (name : String) :
    (withdrawn constraints name cands).map Candidate.name = cands.map Candidate.name :=
  map_updateFirst fun _ _ _ => rfl

section

variable (distinct : (cands.map name).Nodup)

include distinct

theorem chooseRebalance_proposes {move : Move} (fits : Weighable constraints cands)
    (proposed : chooseRebalance constraints cands = some move) :
    ∃ holder chosen, Proposes constraints cands holder chosen ∧
      move = ⟨holder.name, chosen.name⟩ := by
  unfold chooseRebalance at proposed
  split at proposed
  · rename_i holder name worst chosenName
    obtain ⟨chosen, found, rfl⟩ := Option.map_eq_some_iff.mp chosenName
    have held : holder ∈ cands ∧ 0 < holder.instancesOfApplication := by
      rcases keepBest_mem worst with same | ⟨mem, held⟩
      · cases same
      · exact ⟨mem, of_decide_eq_true held⟩
    split at proposed
    · cases proposed
    · rename_i apart
      split at proposed
      · rename_i satisfied
        split at proposed
        · cases proposed
        · rename_i target target_eq
          have same : target = chosen := named_eq distinct (mem_of_find?_eq_some target_eq)
            (chooseNode_admits found).1 (by simpa using List.find?_some target_eq)
          subst same
          split at proposed
          · cases proposed
          · rename_i sparser
            refine ⟨holder, target, ⟨held.1, held.2, found, apart, fun _ => ⟨?_, ?_⟩⟩,
              (Option.some.inj proposed).symm⟩
            · obtain ⟨mem, admits⟩ := chooseNode_admits found
              have uncut :=
                (fits.holding holder held.1 held.2 satisfied target mem admits).resolve_left
                (Ne.symm apart)
              rw [compareDensity_eq uncut] at sparser
              exact surplus_pos_iff.mp (not_le.mp sparser)
            · intro other mem holds
              have least :=
                (keepBest_least isWorse_decides (fun _ _ => trivial) (fun _ _ _ => trivial)
                worst).2 other mem (decide_eq_true holds)
              by_contra leaves
              simp [satisfied, leaves] at least
              linarith
      · rename_i leaves
        exact ⟨holder, chosen, ⟨held.1, held.2, found, apart, fun satisfied =>
          absurd satisfied leaves⟩, (Option.some.inj proposed).symm⟩
  · cases proposed

theorem mem_withdrawn {other : Candidate}
    (holds : holder ∈ cands) (mem : other ∈ withdrawn constraints holder.name cands) :
    other ∈ cands ∨ other = holder.adding constraints (-1) := by
  rcases mem_updateFirst mem with same | ⟨old, inOld, selected, rfl⟩
  · exact .inl same
  · rw [named_eq distinct inOld holds (of_decide_eq_true selected)]
    exact .inr rfl

theorem withdrawn_comparable (fits : Weighable constraints cands) (holds : holder ∈ cands)
    (held : 0 < holder.instancesOfApplication) (satisfied : holder.satisfies constraints)
    {first second : Candidate} (left : first ∈ withdrawn constraints holder.name cands)
    (right : second ∈ withdrawn constraints holder.name cands)
    (admits : first.admits constraints) (also : second.admits constraints) :
    Comparable first 1 second 1 := by
  have moved : ∀ other : Candidate, surplus (holder.adding constraints (-1)) 1 other 1 =
      surplus holder 0 other 1 := fun other => by
    unfold surplus adding cores
    ring
  rcases mem_withdrawn distinct holds left with mem | rfl
  · rcases mem_withdrawn distinct holds right with mem' | rfl
    · exact fits.admitting first mem second mem' admits also
    · refine (fits.holding holder holds held satisfied first mem admits).imp Eq.symm fun small => ?_
      rwa [surplus_swap, abs_neg, moved]
  · rcases mem_withdrawn distinct holds right with mem' | rfl
    · refine (fits.holding holder holds held satisfied second mem' also).imp id fun small => ?_
      rwa [moved]
    · exact .inl rfl

/-- Once the instance is withdrawn, it is placed where the move says. -/
theorem Proposes.placed_back (fits : Weighable constraints cands)
    (proposes : Proposes constraints cands holder chosen) :
    chooseNode constraints (withdrawn constraints holder.name cands) = some chosen := by
  have found : chooseNode constraints cands = some chosen := proposes.chosen_eq
  unfold chooseNode at found ⊢
  by_cases satisfied : holder.satisfies constraints
  · -- The holder is denser than the node that is chosen, before and after.
    obtain ⟨sparser, _⟩ := proposes.improves satisfied
    have before : chosen.density 1 < holder.density 1 := by
      refine sparser.trans ?_
      have cores : (0 : ℚ) < holder.cores := Int.cast_pos.mpr holder.cores_pos
      unfold density
      rw [div_lt_div_iff_of_pos_right cores]
      push_cast
      linarith
    have after : (holder.adding constraints (-1)).density 1 = holder.density 0 := by
      unfold density adding
      push_cast
      ring_nf
      rfl
    have decides : Decides (fun cand => cand ∈ cands ∧ cand.admits constraints) (density 1)
        isBetter := isBetter_decides
      (fun _ _ left right => named_eq distinct left.1 right.1)
      fun _ _ left right => fits.admitting _ left.1 _ right.1 left.2 right.2
    have still : ((withdrawn constraints holder.name cands).map name).Nodup := by
      rw [withdrawn_names]
      exact distinct
    have decidesAfter : Decides (fun cand => cand ∈ withdrawn constraints holder.name cands ∧
        cand.admits constraints) (density 1) isBetter := isBetter_decides
      (fun _ _ left right => named_eq still left.1 right.1)
      fun _ _ left right => withdrawn_comparable distinct fits proposes.holds proposes.held
        satisfied left.1 right.1 left.2 right.2
    have least := (keepBest_least decides (fun _ same => absurd same (by simp))
      (fun _ mem admits => ⟨mem, admits⟩) found).2
    have bound : ∀ other ∈ withdrawn constraints holder.name cands, other.admits constraints →
        (other ∈ withdrawn constraints holder.name cands ∧ other.admits constraints) ∧
          chosen.density 1 ≤ other.density 1 := by
      intro other mem admits
      refine ⟨⟨mem, admits⟩, ?_⟩
      rcases mem_withdrawn distinct proposes.holds mem with same | rfl
      · exact least other same admits
      · rw [after]
        exact sparser.le
    have shown : (withdrawn constraints holder.name cands).filter
        (fun other => other.density 1 = chosen.density 1) =
          cands.filter fun other => other.density 1 = chosen.density 1 := by
      refine filter_updateFirst fun other mem selected => ?_
      rw [named_eq distinct mem proposes.holds (of_decide_eq_true selected), after]
      exact ⟨decide_eq_false before.ne', decide_eq_false sparser.ne'⟩
    have kept := keepBest_filter_least decidesAfter
      (fun found (same : (none : Option Candidate) = some found) => absurd same (by simp)) bound
    rw [shown, ← keepBest_filter_least decides (fun found same => absurd same (by simp))
      (fun other mem admits => ⟨⟨mem, admits⟩, least other mem admits⟩), found] at kept
    have filtered : (some chosen).filter (fun found => found.density 1 = chosen.density 1) =
        some chosen := by simp
    rw [filtered] at kept
    exact (Option.filter_eq_some_iff.mp kept).1
  · -- A holder that must be left is not looked at.
    have leaves : holder.satisfies constraints = false := by simpa using satisfied
    rw [← keepBest_filter_eligible, withdrawn, filter_updateFirst, keepBest_filter_eligible]
    · exact found
    · intro other mem selected
      rw [named_eq distinct mem proposes.holds (of_decide_eq_true selected)]
      have still : (holder.adding constraints (-1)).satisfies constraints = false := leaves
      simp [admits, leaves, still]

end

end Moves

/-! ### What moves make smaller -/

/-- The instances on nodes that must be left. -/
def Candidate.misplaced (constraints : Constraints) (cand : Candidate) : Int :=
  if cand.satisfies constraints then 0 else max 0 cand.instancesOfApplication

/-- Twice what the instances of a node weigh, in parts of which a core of every node has a whole
number. -/
def Candidate.weight (parts : Int) (cand : Candidate) : Int :=
  cand.instancesOfApplication * (cand.instancesOfApplication + 1) * (parts / cand.cores)

def allCores (cands : List Candidate) : Int := (cands.map cores).prod

def misplaced (constraints : Constraints) (cands : List Candidate) : Int :=
  (cands.map (Candidate.misplaced constraints)).sum

def weight (parts : Int) (cands : List Candidate) : Int :=
  (cands.map (Candidate.weight parts)).sum

section Measures

variable {constraints : Constraints} {cands : List Candidate} {parts : Int}
  (distinct : (cands.map name).Nodup)

include distinct in
theorem find_named {cand : Candidate} (mem : cand ∈ cands) :
    cands.find? (isNamed cand.name) = some cand := by
  cases found : cands.find? (isNamed cand.name) with
  | none =>
    have none := List.find?_eq_none.mp found cand mem
    simp [isNamed] at none
  | some other =>
    have same : other.name = cand.name := by
      simpa [isNamed] using List.find?_some found
    rw [named_eq distinct (mem_of_find?_eq_some found) mem same]

theorem rebalanced_map {Value : Type} {key : Candidate → Value}
    (kept : ∀ cand instances, key (cand.adding constraints instances) = key cand) :
    (rebalanced constraints cands).map key = cands.map key := by
  unfold rebalanced
  split
  · rfl
  · unfold placed withdrawn
    rw [map_updateFirst fun cand _ _ => kept cand 1, map_updateFirst fun cand _ _ => kept cand (-1)]

theorem rebalanced_cores : allCores (rebalanced constraints cands) = allCores cands :=
  congrArg List.prod (rebalanced_map fun _ _ => rfl)

theorem sum_rebalanced (share : Candidate → Int) (distinct : (cands.map Candidate.name).Nodup)
    (fits : Weighable constraints cands) (proposes : Proposes constraints cands holder chosen)
    (proposed : chooseRebalance constraints cands = some ⟨holder.name, chosen.name⟩) :
    ((rebalanced constraints cands).map share).sum = (cands.map share).sum +
      (share (holder.adding constraints (-1)) - share holder) +
      (share (chosen.adding constraints 1) - share chosen) := by
  have still : chosen ∈ withdrawn constraints holder.name cands :=
    (chooseNode_admits (proposes.placed_back distinct fits)).1
  have kept : ((withdrawn constraints holder.name cands).map Candidate.name).Nodup := by
    rw [withdrawn_names]
    exact distinct
  unfold rebalanced
  rw [proposed]
  exact (sum_updateFirst share (find_named kept still)).trans
    (congrArg (· + _) (sum_updateFirst share (find_named distinct proposes.holds)))

theorem misplaced_nonneg : 0 ≤ misplaced constraints cands := by
  refine sum_nonneg fun share mem => ?_
  obtain ⟨cand, _, rfl⟩ := mem_map.mp mem
  unfold Candidate.misplaced
  split
  · exact le_refl _
  · exact le_max_left _ _

theorem weight_nonneg (positive : 0 ≤ parts) : 0 ≤ weight parts cands := by
  refine sum_nonneg fun share mem => ?_
  obtain ⟨cand, _, rfl⟩ := mem_map.mp mem
  refine mul_nonneg ?_ (Int.ediv_nonneg positive cand.cores_pos.le)
  rcases le_or_gt 0 cand.instancesOfApplication with some | none
  · positivity
  · exact mul_nonneg_of_nonpos_of_nonpos none.le (by omega)

theorem allCores_pos : 0 < allCores cands := by
  refine prod_pos fun cores mem => ?_
  obtain ⟨cand, _, rfl⟩ := mem_map.mp mem
  exact cand.cores_pos

theorem misplaced_chosen (proposes : Proposes constraints cands holder chosen) :
    (chosen.adding constraints 1).misplaced constraints = chosen.misplaced constraints := by
  have admits := (chooseNode_admits proposes.chosen_eq).2
  have satisfied : chosen.satisfies constraints := (Bool.and_eq_true_iff.mp admits).1
  have also : (chosen.adding constraints 1).satisfies constraints := satisfied
  simp [Candidate.misplaced, satisfied, also]

include distinct

theorem misplaced_lt (fits : Weighable constraints cands)
    (proposes : Proposes constraints cands holder chosen)
    (proposed : chooseRebalance constraints cands = some ⟨holder.name, chosen.name⟩)
    (leaves : holder.satisfies constraints = false) :
    misplaced constraints (rebalanced constraints cands) < misplaced constraints cands := by
  have settled := misplaced_chosen proposes
  have moved : (holder.adding constraints (-1)).misplaced constraints <
      holder.misplaced constraints := by
    have still : (holder.adding constraints (-1)).satisfies constraints = false := leaves
    have held := proposes.held
    simp only [Candidate.misplaced, leaves, still, Bool.false_eq_true, if_false]
    simp only [Candidate.adding]
    omega
  have total := sum_rebalanced (Candidate.misplaced constraints) distinct fits proposes proposed
  unfold misplaced
  omega

/-- Any other move leaves the rest where it is, and makes what all instances weigh smaller. -/
theorem weight_lt (fits : Weighable constraints cands)
    (proposes : Proposes constraints cands holder chosen)
    (proposed : chooseRebalance constraints cands = some ⟨holder.name, chosen.name⟩)
    (stays : holder.satisfies constraints) :
    misplaced constraints (rebalanced constraints cands) = misplaced constraints cands ∧
      weight (allCores cands) (rebalanced constraints cands) < weight (allCores cands) cands := by
  constructor
  · have settled := misplaced_chosen proposes
    have moved : (holder.adding constraints (-1)).misplaced constraints =
        holder.misplaced constraints := by
      have still : (holder.adding constraints (-1)).satisfies constraints := stays
      simp [Candidate.misplaced, stays, still]
    have total := sum_rebalanced (Candidate.misplaced constraints) distinct fits proposes proposed
    unfold misplaced
    omega
  · have total := sum_rebalanced (Candidate.weight (allCores cands)) distinct fits proposes proposed
    have sparser := surplus_pos_iff.mpr (proposes.improves stays).1
    have parts : ∀ cand ∈ cands,
        allCores cands / cand.cores * cand.cores = allCores cands :=
      fun cand mem => Int.ediv_mul_cancel (dvd_prod (mem_map.mpr ⟨cand, mem, rfl⟩))
    have atHolder := parts holder proposes.holds
    have atChosen := parts chosen (chooseNode_admits proposes.chosen_eq).1
    have whole : 0 < allCores cands := allCores_pos
    have cores : 0 < holder.cores * chosen.cores := mul_pos holder.cores_pos chosen.cores_pos
    -- The last instance of the holder weighs more than one more would on the node that is chosen.
    have lighter : (chosen.instancesOfApplication + 1) * (allCores cands / chosen.cores) <
        holder.instancesOfApplication * (allCores cands / holder.cores) := by
      refine lt_of_mul_lt_mul_right ?_ cores.le
      calc (chosen.instancesOfApplication + 1) * (allCores cands / chosen.cores) *
            (holder.cores * chosen.cores)
          = (chosen.instancesOfApplication + 1) * holder.cores *
              (allCores cands / chosen.cores * chosen.cores) := by ring
        _ = (chosen.instancesOfApplication + 1) * holder.cores * allCores cands := by
              rw [atChosen]
        _ < holder.instancesOfApplication * chosen.cores * allCores cands := by
              refine mul_lt_mul_of_pos_right ?_ whole
              unfold surplus at sparser
              linarith
        _ = holder.instancesOfApplication * chosen.cores *
              (allCores cands / holder.cores * holder.cores) := by rw [atHolder]
        _ = holder.instancesOfApplication * (allCores cands / holder.cores) *
              (holder.cores * chosen.cores) := by ring
    have taken : (holder.adding constraints (-1)).weight (allCores cands) -
        holder.weight (allCores cands) =
          -2 * (holder.instancesOfApplication * (allCores cands / holder.cores)) := by
      unfold Candidate.weight Candidate.adding Candidate.cores
      ring
    have given : (chosen.adding constraints 1).weight (allCores cands) -
        chosen.weight (allCores cands) =
          2 * ((chosen.instancesOfApplication + 1) * (allCores cands / chosen.cores)) := by
      unfold Candidate.weight Candidate.adding Candidate.cores
      ring
    unfold weight
    linarith

end Measures

/-! ### Moves come to an end -/

/-- A node, whatever load it reports. -/
def Candidate.unloaded (cand : Candidate) : Candidate := { cand with loadAverage := 0 }

/-- The proposed move has been carried out. The nodes may report other loads by then. -/
def Rebalances (constraints : Constraints) (before after : List Candidate) : Prop :=
  (chooseRebalance constraints before).isSome ∧
    after.map unloaded = (rebalanced constraints before).map unloaded

/-- What a move makes smaller: the instances that must leave where they are, and then what all of
them weigh. -/
def imbalance (constraints : Constraints) (cands : List Candidate) : ℕ × ℕ :=
  ((misplaced constraints cands).toNat, (weight (allCores cands) cands).toNat)

section Imbalance

variable {constraints : Constraints} {cands after : List Candidate}

theorem imbalance_unloaded :
    imbalance constraints (cands.map Candidate.unloaded) = imbalance constraints cands := by
  unfold imbalance misplaced weight allCores
  simp only [map_map]
  rfl

theorem imbalance_rebalanced (distinct : (cands.map name).Nodup)
    (fits : Weighable constraints cands) (moves : (chooseRebalance constraints cands).isSome) :
    Prod.Lex (fun a b : ℕ => a < b) (fun a b : ℕ => a < b)
      (imbalance constraints (rebalanced constraints cands)) (imbalance constraints cands) := by
  obtain ⟨move, proposed⟩ := Option.isSome_iff_exists.mp moves
  obtain ⟨holder, chosen, proposes, rfl⟩ := chooseRebalance_proposes distinct fits proposed
  unfold imbalance
  rw [rebalanced_cores]
  have none : 0 ≤ misplaced constraints (rebalanced constraints cands) := misplaced_nonneg
  have light : 0 ≤ weight (allCores cands) (rebalanced constraints cands) :=
    weight_nonneg allCores_pos.le
  cases stays : holder.satisfies constraints with
  | false =>
    have fewer := misplaced_lt distinct fits proposes proposed stays
    exact Prod.Lex.left _ _ (by omega)
  | true =>
    obtain ⟨same, lighter⟩ := weight_lt distinct fits proposes proposed stays
    rw [same]
    exact Prod.Lex.right _ (by omega)

theorem Rebalances.imbalance_lt (distinct : (cands.map name).Nodup)
    (fits : Weighable constraints cands) (moved : Rebalances constraints cands after) :
    Prod.Lex (fun a b : ℕ => a < b) (fun a b : ℕ => a < b) (imbalance constraints after)
      (imbalance constraints cands) := by
  rw [← imbalance_unloaded, moved.2, imbalance_unloaded]
  exact imbalance_rebalanced distinct fits moved.1

theorem Rebalances.names (moved : Rebalances constraints cands after) :
    after.map name = cands.map name := by
  have unloaded : ∀ nodes : List Candidate,
      (nodes.map unloaded).map name = nodes.map name := fun nodes => by
    rw [map_map]
    rfl
  rw [← unloaded after, moved.2, unloaded]
  exact rebalanced_map fun _ _ => rfl

end Imbalance

theorem rebalance_settles (constraints : Constraints) (states : ℕ → List Candidate)
    (distinct : ((states 0).map name).Nodup) (fits : ∀ n, Weighable constraints (states n))
    (moves : ∀ n, (chooseRebalance constraints (states n)).isSome →
      Rebalances constraints (states n) (states (n + 1))) :
    ∃ n, chooseRebalance constraints (states n) = none := by
  have founded : WellFounded (Prod.Lex (fun a b : ℕ => a < b) fun a b : ℕ => a < b) :=
    WellFounded.prod_lex wellFounded_lt wellFounded_lt
  generalize measured : imbalance constraints (states 0) = measure
  induction measure using founded.induction generalizing states with
  | _ measure ih =>
    cases proposed : chooseRebalance constraints (states 0) with
    | none => exact ⟨0, proposed⟩
    | some move =>
      have moved := moves 0 (by rw [proposed]; rfl)
      have smaller := moved.imbalance_lt distinct (fits 0)
      rw [measured] at smaller
      obtain ⟨n, settled⟩ := ih _ smaller (fun n => states (n + 1))
        (by rw [moved.names]; exact distinct) (fun n => fits (n + 1)) (fun n => moves (n + 1)) rfl
      exact ⟨n + 1, settled⟩

/-- A proposed move can be carried out: a node holds an instance and one admits it, and placement
puts the instance there once it is withdrawn. -/
def MovesSoundly (constraints : Constraints) (cands : List Candidate) : Prop :=
  ∀ move, chooseRebalance constraints cands = some move →
    (∃ holder ∈ cands, holder.name = move.fromNode ∧ 0 < holder.instancesOfApplication) ∧
    (∃ target ∈ cands, target.name = move.toNode ∧ target.admits constraints) ∧
    choose constraints (withdrawn constraints move.fromNode cands) = some move.toNode

/-- Moves that are carried out one after the other, whatever loads are reported between them. -/
def Follows (constraints : Constraints) (states : ℕ → List Candidate) : Prop :=
  ∀ n, (chooseRebalance constraints (states n)).isSome →
    Rebalances constraints (states n) (states (n + 1))

/-- Where nothing is cut, a proposed move can be carried out, and moves come to an end if nothing is
cut after any of them. -/
theorem rebalance_sound_and_settles (constraints : Constraints) (cands : List Candidate)
    (distinct : (cands.map name).Nodup) (fits : Weighable constraints cands) :
    MovesSoundly constraints cands ∧
      ∀ states : ℕ → List Candidate, states 0 = cands → Follows constraints states →
        (∀ n, Weighable constraints (states n)) →
          ∃ n, chooseRebalance constraints (states n) = none := by
  refine ⟨fun move proposed => ?_, fun states first moves weighable =>
    rebalance_settles constraints states (first ▸ distinct) weighable moves⟩
  obtain ⟨holder, chosen, proposes, rfl⟩ := chooseRebalance_proposes distinct fits proposed
  obtain ⟨mem, admits⟩ := chooseNode_admits proposes.chosen_eq
  refine ⟨⟨holder, proposes.holds, rfl, proposes.held⟩, ⟨chosen, mem, rfl, admits⟩, ?_⟩
  exact congrArg (Option.map name) (proposes.placed_back distinct fits)

/-- A node of so many cores with so many instances. -/
def idle (name : String) (cores instances : Int) : Candidate where
  name := name
  labels := []
  cpuCount := cores
  loadAverage := 0
  instancesOfApplication := instances
  acceptsWork := true
  memoryMb := 0
  committedMemoryMb := 0

def anywhere : Constraints := ⟨[], [], 0, 1⟩

example : chooseRebalance anywhere [idle "a" 4 3, idle "b" 8 1] = some ⟨"a", "b"⟩ := by decide

/-- Three instances on four cores, and one on eight. -/
theorem small_and_large_settle :
    MovesSoundly anywhere [idle "a" 4 3, idle "b" 8 1] ∧
      ∀ states : ℕ → List Candidate, states 0 = [idle "a" 4 3, idle "b" 8 1] →
        Follows anywhere states → (∀ n, Weighable anywhere (states n)) →
          ∃ n, chooseRebalance anywhere (states n) = none :=
  rebalance_sound_and_settles anywhere [idle "a" 4 3, idle "b" 8 1] (by decide)
    ⟨by unfold Comparable; decide, by unfold Comparable; decide⟩

/-- A node says that it has as many cores as a `long` can count. With two instances on the first
node it is not cut off from the choice, with one on it it is. -/
theorem choose_passes_over :
    ¬MovesSoundly anywhere [idle "a" 1 1, idle "b" (2 ^ 63 - 1) 0, idle "c" 2 0] := by
  intro sound
  have placed := (sound ⟨"a", "c"⟩ (by decide)).2.2
  revert placed
  decide

end Euclid.Manager.Placement
