/-
This file gives the write statements of a document collection their meaning on a list of
documents, and the facts about them that an accounting argument needs.

A collection is the list of its documents in insertion order. `updateFirst` is an update
of the first document a filter selects, `updateAll` of every one. The sums at the end say
how a total over the documents moves with each statement; they are what lets a counter
kept next to a collection be compared with the collection.
-/

import Mathlib.Algebra.BigOperators.Group.List.Basic
import Mathlib.Data.List.Nodup
import Mathlib.Tactic.Abel

namespace Euclid.Collection

open List

variable {Document Key : Type}

/-! ### Update statements -/

/-- Change the first document a filter selects. -/
@[grind] def updateFirst (selects : Document → Bool) (change : Document → Document) :
    List Document → List Document
  | [] => []
  | doc :: rest =>
    if selects doc then change doc :: rest
    else doc :: updateFirst selects change rest

/-- Change every document a filter selects. -/
def updateAll (selects : Document → Bool) (change : Document → Document)
    (docs : List Document) : List Document :=
  docs.map fun doc => if selects doc then change doc else doc

/-- How many documents a change of every selected one really alters. -/
def modifiedBy [DecidableEq Document] (selects : Document → Bool)
    (change : Document → Document) (docs : List Document) : Nat :=
  (docs.filter fun doc => selects doc && decide (change doc ≠ doc)).length

variable {selects : Document → Bool} {docs : List Document} {change : Document → Document}

theorem updateFirst_of_none (none : docs.find? selects = none) :
    updateFirst selects change docs = docs := by
  induction docs with
  | nil => rfl
  | cons doc rest ih =>
    rw [List.find?_cons] at none
    split at none
    · nomatch none
    · rename_i unselected
      rw [updateFirst, if_neg (by simp [unselected]), ih none]

theorem updateFirst_of_fixed (fixed : ∀ doc ∈ docs, selects doc → change doc = doc) :
    updateFirst selects change docs = docs := by
  induction docs with
  | nil => rfl
  | cons doc rest ih =>
    by_cases selected : selects doc
    · rw [updateFirst, if_pos selected, fixed doc (.head _) selected]
    · rw [updateFirst, if_neg selected,
        ih fun other mem => fixed other (.tail _ mem)]

variable {found : Document}

section

variable (change : Document → Document) (found_eq : docs.find? selects = some found)

include found_eq

/-- The first that is selected is changed where it stands. -/
theorem updateFirst_split :
    ∃ before after, docs = before ++ found :: after ∧
      updateFirst selects change docs = before ++ change found :: after := by
  induction docs with
  | nil => nomatch found_eq
  | cons doc rest ih =>
    rw [List.find?_cons] at found_eq
    split at found_eq
    · rename_i selected
      obtain rfl := Option.some.inj found_eq
      exact ⟨[], rest, rfl, by rw [updateFirst, if_pos selected]; rfl⟩
    · rename_i unselected
      obtain ⟨before, after, split, updated⟩ := ih found_eq
      refine ⟨doc :: before, after, by rw [split]; rfl, ?_⟩
      rw [updateFirst, if_neg (by simp [unselected]), updated]
      rfl

theorem mem_updateFirst_self : change found ∈ updateFirst selects change docs := by
  obtain ⟨before, after, _, updated⟩ := updateFirst_split change found_eq
  rw [updated]
  exact mem_append_right _ (.head _)

end

section Keyed

variable {Key : Type} [DecidableEq Key] (keyOf : Document → Key) {named : Key}

/-- A change of the first document of a key is found under it, and what is found under any other
stays. -/
theorem find?_updateFirst_keyed (keeps : ∀ doc, keyOf doc = named →
    keyOf (change doc) = named) (key : Key) :
    (updateFirst (fun doc => keyOf doc = named) change docs).find? (fun doc => keyOf doc = key) =
      if named = key then (docs.find? fun doc => keyOf doc = key).map change
      else docs.find? fun doc => keyOf doc = key := by
  induction docs with
  | nil => simp [updateFirst]
  | cons doc rest ih =>
    rw [updateFirst]
    by_cases own : keyOf doc = named
    · rw [if_pos (by simpa using own), List.find?_cons, List.find?_cons, keeps doc own, own]
      by_cases same : named = key
      · simp [same]
      · simp [same]
    · rw [if_neg (by simpa using own), List.find?_cons, List.find?_cons, ih]
      by_cases same : named = key
      · simp [← same, own]
      · simp [same]

theorem find?_append_keyed (fresh : docs.find? (fun doc => keyOf doc = named) = none)
    {written : Document}
    (own : keyOf written = named) (key : Key) :
    (docs ++ [written]).find? (fun doc => keyOf doc = key) =
      if named = key then some written else docs.find? fun doc => keyOf doc = key := by
  rw [List.find?_append]
  by_cases same : named = key
  · rw [← same, fresh]
    simp [own]
  · simp [same, own]

end Keyed

variable (unique : docs.Pairwise fun first second => ¬(selects first ∧ selects second))

include unique in
theorem updateFirst_eq_updateAll :
    updateFirst selects change docs = updateAll selects change docs := by
  induction docs with
  | nil => rfl
  | cons doc rest ih =>
    obtain ⟨apart, unique⟩ := pairwise_cons.mp unique
    by_cases selected : selects doc
    · have untouched : rest.map (fun other => if selects other then change other else other) =
          rest := by
        refine (map_congr_left fun other mem => ?_).trans (map_id rest)
        exact if_neg fun both => apart other mem ⟨selected, both⟩
      rw [updateFirst, if_pos selected, updateAll, map_cons, if_pos selected, untouched]
    · rw [updateFirst, if_neg selected, ih unique, updateAll, updateAll,
        map_cons, if_neg selected]

include unique in
theorem eraseP_eq_filter : docs.eraseP selects = docs.filter fun doc => !selects doc := by
  induction docs with
  | nil => rfl
  | cons doc rest ih =>
    obtain ⟨apart, unique⟩ := pairwise_cons.mp unique
    by_cases selected : selects doc
    · rw [eraseP_cons_of_pos selected, filter_cons_of_neg (by simpa using selected)]
      refine (filter_eq_self.mpr fun other mem => ?_).symm
      simpa using fun both => apart other mem ⟨selected, both⟩
    · rw [eraseP_cons_of_neg selected, filter_cons_of_pos (by simpa using selected),
        ih unique]

variable {key : Document → Key}

theorem pairwise_of_key {value : Key} (unique : (docs.map key).Nodup)
    (fixes : ∀ doc, selects doc → key doc = value) :
    docs.Pairwise fun first second => ¬(selects first ∧ selects second) := by
  refine (pairwise_map.mp unique).imp fun {first second} different both => ?_
  exact different ((fixes first both.1).trans (fixes second both.2).symm)

variable {doc : Document}

/-- A document afterwards was there, or is one that was selected and changed. -/
theorem mem_updateFirst (mem : doc ∈ updateFirst selects change docs) :
    doc ∈ docs ∨ ∃ old ∈ docs, selects old ∧ doc = change old := by
  cases found : docs.find? selects with
  | none =>
    rw [updateFirst_of_none found] at mem
    exact .inl mem
  | some old =>
    obtain ⟨before, after, split, updated⟩ := updateFirst_split change found
    rw [updated, mem_append, mem_cons] at mem
    rcases mem with inBefore | rfl | inAfter
    · exact .inl (by rw [split]; exact mem_append_left _ inBefore)
    · exact .inr ⟨old, mem_of_find?_eq_some found, List.find?_some found, rfl⟩
    · exact .inl (by rw [split]; exact mem_append_right _ (.tail _ inAfter))

theorem mem_updateFirst_of_mem (selects : Document → Bool) (change : Document → Document)
    (mem : doc ∈ docs) :
    doc ∈ updateFirst selects change docs ∨
      selects doc ∧ change doc ∈ updateFirst selects change docs := by
  cases found : docs.find? selects with
  | none =>
    rw [updateFirst_of_none found]
    exact .inl mem
  | some old =>
    obtain ⟨before, after, split, updated⟩ := updateFirst_split change found
    rw [split, mem_append, mem_cons] at mem
    rw [updated]
    rcases mem with inBefore | rfl | inAfter
    · exact .inl (mem_append_left _ inBefore)
    · exact .inr ⟨List.find?_some found, mem_append_right _ (.head _)⟩
    · exact .inl (mem_append_right _ (.tail _ inAfter))

theorem mem_updateAll :
    doc ∈ updateAll selects change docs ↔
      ∃ old ∈ docs, (if selects old then change old else old) = doc :=
  mem_map

section Traces

variable {cond : Document → Prop} [DecidablePred cond] {doc : Document}
  (keeps : ∀ doc, key (change doc) = key doc)

include keeps

/-- Every document afterwards comes from one before. -/
theorem origin_updateFirst (mem : doc ∈ updateFirst (fun doc => cond doc) change docs) :
    ∃ old ∈ docs, key old = key doc ∧ (doc = old ∨ cond old ∧ doc = change old) := by
  rcases mem_updateFirst mem with old | ⟨old, stored, selected, rfl⟩
  · exact ⟨doc, old, rfl, .inl rfl⟩
  · exact ⟨old, stored, (keeps old).symm, .inr ⟨of_decide_eq_true selected, rfl⟩⟩

theorem origin_updateAll (mem : doc ∈ updateAll (fun doc => cond doc) change docs) :
    ∃ old ∈ docs, key old = key doc ∧ (doc = old ∨ cond old ∧ doc = change old) := by
  obtain ⟨old, stored, rfl⟩ := mem_updateAll.mp mem
  split
  · rename_i selected
    exact ⟨old, stored, (keeps old).symm, .inr ⟨of_decide_eq_true selected, rfl⟩⟩
  · exact ⟨old, stored, rfl, .inl rfl⟩

/-- Every document is there afterwards, changed or not. -/
theorem fate_updateFirst (mem : doc ∈ docs) :
    ∃ next ∈ updateFirst (fun doc => cond doc) change docs, key next = key doc ∧
      (next = doc ∨ cond doc ∧ next = change doc) := by
  rcases mem_updateFirst_of_mem (fun doc => cond doc) change mem with same | ⟨selected, changed⟩
  · exact ⟨doc, same, rfl, .inl rfl⟩
  · exact ⟨_, changed, keeps doc, .inr ⟨of_decide_eq_true selected, rfl⟩⟩

theorem fate_updateAll (mem : doc ∈ docs) :
    ∃ next ∈ updateAll (fun doc => cond doc) change docs, key next = key doc ∧
      (next = doc ∨ cond doc ∧ next = change doc) := by
  refine ⟨_, mem_updateAll.mpr ⟨doc, mem, rfl⟩, ?_⟩
  split
  · rename_i selected
    exact ⟨keeps doc, .inr ⟨of_decide_eq_true selected, rfl⟩⟩
  · exact ⟨rfl, .inl rfl⟩

end Traces

variable (kept : ∀ doc ∈ docs, selects doc → key (change doc) = key doc)

include kept in
theorem map_updateAll : (updateAll selects change docs).map key = docs.map key := by
  rw [updateAll, map_map]
  refine map_congr_left fun doc mem => ?_
  show key (if selects doc then change doc else doc) = key doc
  by_cases selected : selects doc
  · rw [if_pos selected]
    exact kept doc mem selected
  · rw [if_neg selected]

include kept in
theorem map_updateFirst : (updateFirst selects change docs).map key = docs.map key := by
  cases found : docs.find? selects with
  | none => rw [updateFirst_of_none found]
  | some doc =>
    obtain ⟨before, after, split, updated⟩ := updateFirst_split change found
    rw [updated, split, map_append, map_append, map_cons, map_cons,
      kept doc (mem_of_find?_eq_some found) (List.find?_some found)]

theorem nodup_updateAll (distinct : (docs.map key).Nodup)
    (kept : ∀ doc ∈ docs, selects doc → key (change doc) = key doc) :
    ((updateAll selects change docs).map key).Nodup :=
  (map_updateAll kept).symm ▸ distinct

theorem nodup_updateFirst (distinct : (docs.map key).Nodup)
    (kept : ∀ doc ∈ docs, selects doc → key (change doc) = key doc) :
    ((updateFirst selects change docs).map key).Nodup :=
  (map_updateFirst kept).symm ▸ distinct

theorem forall₂_updateFirst {related : Document → Document → Prop}
    (same : ∀ doc, related doc doc) (docs : List Document) :
    List.Forall₂ related docs (updateFirst selects change docs) ↔
      ∀ doc, docs.find? selects = some doc → related doc (change doc) := by
  induction docs with
  | nil => simp [updateFirst]
  | cons doc rest ih =>
    rw [updateFirst, List.find?_cons]
    by_cases selected : selects doc
    · rw [if_pos selected, forall₂_cons, selected]
      refine ⟨fun both other found => Option.some.inj found ▸ both.1, fun relates => ?_⟩
      exact ⟨relates doc rfl, forall₂_same.mpr fun other _ => same other⟩
    · rw [if_neg selected, forall₂_cons, eq_false_of_ne_true selected]
      exact (and_iff_right (same doc)).trans ih

theorem filter_updateFirst {shown : Document → Bool} (hidden : ∀ doc ∈ docs, selects doc →
      shown doc = false ∧ shown (change doc) = false) :
    (updateFirst selects change docs).filter shown = docs.filter shown := by
  cases found : docs.find? selects with
  | none => rw [updateFirst_of_none found]
  | some doc =>
    obtain ⟨before, after, split, updated⟩ := updateFirst_split change found
    obtain ⟨was, is⟩ := hidden doc (mem_of_find?_eq_some found) (List.find?_some found)
    rw [updated, split, filter_append, filter_append,
      filter_cons_of_neg (ne_true_of_eq_false is),
      filter_cons_of_neg (ne_true_of_eq_false was)]

/-! ### Totals over a collection -/

variable {Total : Type} [AddCommGroup Total]

/-- A sum moves by what the one changed document moves by. -/
theorem sum_updateFirst (share : Document → Total) (found_eq : docs.find? selects = some found) :
    ((updateFirst selects change docs).map share).sum =
      (docs.map share).sum + (share (change found) - share found) := by
  obtain ⟨before, after, split, updated⟩ := updateFirst_split change found_eq
  rw [updated, split]
  simp only [map_append, map_cons, sum_append, sum_cons]
  abel

theorem sum_eraseP (share : Document → Total) (found_eq : docs.find? selects = some found) :
    ((docs.eraseP selects).map share).sum = (docs.map share).sum - share found := by
  induction docs with
  | nil => nomatch found_eq
  | cons doc rest ih =>
    rw [List.find?_cons] at found_eq
    split at found_eq
    · rename_i selected
      obtain rfl := Option.some.inj found_eq
      rw [eraseP_cons_of_pos selected, map_cons, sum_cons]
      abel
    · rename_i unselected
      rw [eraseP_cons_of_neg (by simp [unselected]), map_cons, sum_cons,
        ih found_eq, map_cons, sum_cons]
      abel

theorem sum_filter_add_sum_filter_not (share : Document → Total) (selects : Document → Bool)
    (docs : List Document) :
    ((docs.filter selects).map share).sum + ((docs.filter fun doc => !selects doc).map share).sum =
      (docs.map share).sum := by
  induction docs with
  | nil => exact add_zero _
  | cons doc rest ih =>
    rw [map_cons, sum_cons, ← ih]
    cases selected : selects doc with
    | true =>
      rw [filter_cons_of_pos selected, filter_cons_of_neg (by simp [selected]),
        map_cons, sum_cons, add_assoc]
    | false =>
      rw [filter_cons_of_neg (by simp [selected]), filter_cons_of_pos (by simp [selected]),
        map_cons, sum_cons]
      abel

theorem sum_eq_zero_of_groups [DecidableEq Key] (key : Document → Key) (share : Document → Total)
    (docs : List Document) (balanced : ∀ mem ∈ docs,
      ((docs.filter fun doc => key doc = key mem).map share).sum = 0) :
    (docs.map share).sum = 0 := by
  induction length : docs.length using Nat.strong_induction_on generalizing docs with
  | _ size ih =>
    cases docs with
    | nil => rfl
    | cons doc rest =>
      -- the group of the first document balances, and the others are fewer
      rw [← sum_filter_add_sum_filter_not share (fun other => key other = key doc),
        balanced doc (.head _), zero_add]
      refine ih _ ?_ _ (fun mem among => ?_) rfl
      · rw [← length, filter_cons_of_neg (by simp), length_cons]
        exact Nat.lt_succ_of_le (length_filter_le _ _)
      · obtain ⟨inDocuments, different⟩ := mem_filter.mp among
        rw [filter_filter, ← balanced mem inDocuments]
        refine congrArg (fun others => (List.map share others).sum)
          (filter_congr fun other _ => ?_)
        by_cases own : key other = key mem
        · rw [own, different, Bool.and_true]
        · simp [own]

end Euclid.Collection
