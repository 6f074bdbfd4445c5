/-
This file orders things by a comparison that answers with a sign, and sorts by such a comparison.

A comparison ranks some things if it is the opposite the other way round and transitive among
them; two things may tie. Comparisons that rank make others that do: one reversed, one after the
other, one of what the things have in common. A stable sort by a comparison that ranks leaves a
permutation that is ordered, and leaves things that tie in the order they had.
-/

import Mathlib.Data.List.Pairwise
import Mathlib.Data.List.Perm.Basic
import Mathlib.Algebra.Order.Ring.Int

namespace Euclid

open List

variable {Ordered Source : Type} {order first second : Ordered → Ordered → Int}
variable {among : List Ordered}

/-- A comparison is a total preorder of some things, below if its sign is negative. -/
structure Ranks (order : Ordered → Ordered → Int) (among : List Ordered) : Prop where
  opposite : ∀ left ∈ among, ∀ right ∈ among, order right left = -order left right
  trans : ∀ left ∈ among, ∀ middle ∈ among, ∀ right ∈ among,
    order left middle ≤ 0 → order middle right ≤ 0 → order left right ≤ 0

/-- What a sort asks of the question whether one thing comes before another. -/
structure StrictWeak (less : Ordered → Ordered → Bool) (among : List Ordered) : Prop where
  irrefl : ∀ left ∈ among, less left left = false
  trans : ∀ left ∈ among, ∀ middle ∈ among, ∀ right ∈ among,
    less left middle → less middle right → less left right
  tied : ∀ left ∈ among, ∀ middle ∈ among, ∀ right ∈ among,
    less left middle = false → less middle left = false →
      less middle right = false → less right middle = false →
        less left right = false ∧ less right left = false

/-- One comparison, and another where the first says nothing. -/
def lexically (first second : Ordered → Ordered → Int) (left right : Ordered) : Int :=
  if first left right ≠ 0 then first left right else second left right

/-- What is missing comes before what is there. -/
def missingFirst (order : Ordered → Ordered → Int) : Option Ordered → Option Ordered → Int
  | none, none => 0
  | none, some _ => -1
  | some _, none => 1
  | some left, some right => order left right

namespace Ranks

theorem self (ranks : Ranks order among) {left : Ordered} (mem : left ∈ among) :
    order left left = 0 := by
  have opposite := ranks.opposite left mem left mem
  omega

theorem nonpos_of_tie (ranks : Ranks order among) {left middle right : Ordered}
    (isLeft : left ∈ among) (isMiddle : middle ∈ among) (isRight : right ∈ among)
    (below : order left middle ≤ 0) (ties : order left right = 0) : order right middle ≤ 0 := by
  have opposite := ranks.opposite left isLeft right isRight
  exact ranks.trans right isRight left isLeft middle isMiddle (by omega) below

theorem of_view [LinearOrder Source] (view : Ordered → Source)
    (each : ∀ left ∈ among, ∀ right ∈ among, order left right =
      if view left < view right then -1 else if view right < view left then 1 else 0) :
    Ranks order among := by
  have nonpos : ∀ left ∈ among, ∀ right ∈ among, order left right ≤ 0 ↔ view left ≤ view right := by
    intro left isLeft right isRight
    rw [each left isLeft right isRight]
    rcases lt_trichotomy (view left) (view right) with before | same | after
    · simp [before, before.le]
    · simp [same]
    · simp [after, after.not_gt, after.not_ge]
  refine ⟨fun left isLeft right isRight => ?_, fun left isLeft middle isMiddle right isRight => ?_⟩
  · rw [each left isLeft right isRight, each right isRight left isLeft]
    rcases lt_trichotomy (view left) (view right) with before | same | after
    · simp [before, before.not_gt]
    · simp [same]
    · simp [after, after.not_gt]
  · rw [nonpos left isLeft middle isMiddle, nonpos middle isMiddle right isRight,
      nonpos left isLeft right isRight]
    exact le_trans

theorem constant : Ranks (fun _ _ => 0) among :=
  ⟨fun _ _ _ _ => rfl, fun _ _ _ _ _ _ _ _ => le_refl _⟩

theorem reversed (ranks : Ranks order among) :
    Ranks (fun left right => -order left right) among where
  opposite left isLeft right isRight := by
    have opposite := ranks.opposite left isLeft right isRight
    omega
  trans left isLeft middle isMiddle right isRight below below' := by
    have leftMiddle := ranks.opposite left isLeft middle isMiddle
    have middleRight := ranks.opposite middle isMiddle right isRight
    have leftRight := ranks.opposite left isLeft right isRight
    have below := ranks.trans right isRight middle isMiddle left isLeft (by omega) (by omega)
    omega

theorem lexically (ranks : Ranks first among) (ranks' : Ranks second among) :
    Ranks (Euclid.lexically first second) among where
  opposite left isLeft right isRight := by
    unfold Euclid.lexically
    have opposite := ranks.opposite left isLeft right isRight
    have opposite' := ranks'.opposite left isLeft right isRight
    split <;> split <;> omega
  trans left isLeft middle isMiddle right isRight below below' := by
    unfold Euclid.lexically at below below' ⊢
    have atMost : first left middle ≤ 0 := by split at below <;> omega
    have atMost' : first middle right ≤ 0 := by split at below' <;> omega
    have through := ranks.trans left isLeft middle isMiddle right isRight atMost atMost'
    split
    · exact through
    -- The ends tie in the first comparison, so the middle ties with both.
    · rename_i ties
      rw [not_not] at ties
      have opposite := ranks.opposite left isLeft middle isMiddle
      have opposite' := ranks.opposite middle isMiddle right isRight
      have opposed := ranks.opposite left isLeft right isRight
      have back := ranks.trans middle isMiddle right isRight left isLeft atMost' (by omega)
      have forth := ranks.trans right isRight left isLeft middle isMiddle (by omega) atMost
      rw [if_neg (by omega)] at below below'
      exact ranks'.trans left isLeft middle isMiddle right isRight below below'

theorem comap {source : List Source} {view : Source → Ordered}
    (ranks : Ranks order (source.map view)) :
    Ranks (fun left right => order (view left) (view right)) source where
  opposite _ isLeft _ isRight :=
    ranks.opposite _ (mem_map_of_mem isLeft) _ (mem_map_of_mem isRight)
  trans _ isLeft _ isMiddle _ isRight := ranks.trans _ (mem_map_of_mem isLeft) _
    (mem_map_of_mem isMiddle) _ (mem_map_of_mem isRight)

variable {options : List (Option Ordered)}

theorem found {thing : Ordered} (mem : some thing ∈ options) :
    thing ∈ options.filterMap id := mem_filterMap.mpr ⟨_, mem, rfl⟩

theorem missingFirst (ranks : Ranks order (options.filterMap id)) :
    Ranks (Euclid.missingFirst order) options where
  opposite left isLeft right isRight := by
    cases left <;> cases right
    · rfl
    · rfl
    · rfl
    · exact ranks.opposite _ (found isLeft) _ (found isRight)
  trans left isLeft middle isMiddle right isRight below below' := by
    cases left <;> cases middle <;> cases right <;>
      simp only [Euclid.missingFirst] at below below' ⊢
    any_goals omega
    exact ranks.trans _ (found isLeft) _ (found isMiddle) _ (found isRight) below below'

variable {less : Ordered → Ordered → Bool}

theorem strictWeak (ranks : Ranks order among)
    (decides : ∀ left right, less left right = decide (order left right < 0)) :
    StrictWeak less among where
  irrefl left mem := by rw [decides, ranks.self mem]; rfl
  trans left isLeft middle isMiddle right isRight below below' := by
    rw [decides, decide_eq_true_eq] at below below' ⊢
    refine lt_of_le_of_ne (ranks.trans left isLeft middle isMiddle right isRight below.le below'.le)
      fun ties => ?_
    have back := ranks.nonpos_of_tie isLeft isMiddle isRight below.le ties
    have opposite := ranks.opposite middle isMiddle right isRight
    omega
  tied left isLeft middle isMiddle right isRight := by
    simp only [decides, decide_eq_false_iff_not, not_lt]
    intro above above' above'' above'''
    have leftMiddle := ranks.opposite left isLeft middle isMiddle
    have middleRight := ranks.opposite middle isMiddle right isRight
    have leftRight := ranks.opposite left isLeft right isRight
    have below := ranks.trans left isLeft middle isMiddle right isRight (by omega) (by omega)
    have below' := ranks.trans right isRight middle isMiddle left isLeft (by omega) (by omega)
    omega

end Ranks

/-! ### Sorting -/

variable {less : Ordered → Ordered → Bool}

section

variable (less : Ordered → Ordered → Bool) (unsorted : List Ordered)

/-- A thing stays in front of those behind it that it is not to come after. -/
def stableSort : List Ordered :=
  unsorted.mergeSort fun left right => !less right left

theorem stableSort_perm : (stableSort less unsorted).Perm unsorted := mergeSort_perm _ _

theorem stableSort_attach :
    stableSort less unsorted =
      (unsorted.attach.mergeSort fun left right => !less right.1 left.1).map Subtype.val := by
  rw [map_mergeSort (s := fun left right => !less right left) fun _ _ _ _ => rfl,
    attach_map_subtype_val]
  rfl

end

section Sorting

variable (ranks : Ranks order among)
variable (decides : ∀ left right, less left right = decide (order left right < 0))

include ranks decides

theorem notBefore_trans (left middle right : { thing // thing ∈ among })
    (before : (!less middle.1 left.1) = true) (before' : (!less right.1 middle.1) = true) :
    (!less right.1 left.1) = true := by
  simp only [decides, Bool.not_eq_true', decide_eq_false_iff_not, not_lt] at before before' ⊢
  have middleLeft := ranks.opposite middle.1 middle.2 left.1 left.2
  have rightMiddle := ranks.opposite right.1 right.2 middle.1 middle.2
  have rightLeft := ranks.opposite right.1 right.2 left.1 left.2
  have below := ranks.trans left.1 left.2 middle.1 middle.2 right.1 right.2 (by omega) (by omega)
  omega

theorem notBefore_total (left right : { thing // thing ∈ among }) :
    ((!less right.1 left.1) || !less left.1 right.1) = true := by
  have opposite := ranks.opposite left.1 left.2 right.1 right.2
  simp only [decides, Bool.or_eq_true, Bool.not_eq_true', decide_eq_false_iff_not, not_lt]
  omega

theorem stableSort_ordered :
    (stableSort less among).Pairwise fun left right => less right left = false := by
  rw [stableSort_attach, pairwise_map]
  exact (pairwise_mergeSort (notBefore_trans ranks decides) (notBefore_total ranks decides)
    among.attach).imp fun before => by simpa using before

theorem stableSort_stable {thing : Ordered} (mem : thing ∈ among) :
    (stableSort less among).filter (fun other => order thing other = 0) =
      among.filter fun other => order thing other = 0 := by
  have tying : (among.attach.filter fun other => order thing other.1 = 0).Pairwise
      fun left right => (!less right.1 left.1) = true := by
    refine pairwise_of_forall_mem_list fun left isLeft right isRight => ?_
    have tieLeft := of_decide_eq_true (mem_filter.mp isLeft).2
    have tieRight := of_decide_eq_true (mem_filter.mp isRight).2
    have below := ranks.nonpos_of_tie mem right.2 left.2 tieRight.le tieLeft
    have opposite := ranks.opposite left.1 left.2 right.1 right.2
    simp only [decides, Bool.not_eq_true', decide_eq_false_iff_not, not_lt]
    omega
  have kept := (sublist_mergeSort (notBefore_trans ranks decides)
    (notBefore_total ranks decides) tying filter_sublist).map Subtype.val
  rw [← stableSort_attach] at kept
  have same : (among.attach.filter fun other => order thing other.1 = 0).map Subtype.val =
      among.filter fun other => order thing other = 0 := by
    conv_rhs => rw [← attach_map_subtype_val among, filter_map]
    rfl
  rw [same] at kept
  have filtered := kept.filter fun other => order thing other = 0
  rw [filter_filter] at filtered
  simp only [Bool.and_self] at filtered
  exact (filtered.eq_of_length ((stableSort_perm less among).filter _).length_eq.symm).symm

end Sorting

end Euclid
