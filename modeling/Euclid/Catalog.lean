/-
This file builds collections of documents with two unique indexes: no two documents have one key,
and no two have one label. A document is written under its key, unless another one has its label.

What is found is a matter of membership alone, since there is never more than one document to find.
The order of the documents is left open.
-/

import Mathlib.Data.List.Nodup

namespace Euclid

open List

variable {Document Key Label : Type}

/-- Documents of which no two have one key, and no two one label. -/
structure Catalog (key : Document → Key) (label : Document → Label) where
  documents : List Document
  keys_nodup : (documents.map key).Nodup
  labels_nodup : (documents.map label).Nodup

namespace Catalog

variable {key : Document → Key} {label : Document → Label}

instance : Membership Document (Catalog key label) where
  mem catalog document := document ∈ catalog.documents

def empty : Catalog key label := ⟨[], .nil, .nil⟩

theorem not_mem_empty (document : Document) : document ∉ (empty : Catalog key label) :=
  not_mem_nil

variable {catalog : Catalog key label}

theorem key_inj {first second : Document} (left : first ∈ catalog)
    (right : second ∈ catalog) (same : key first = key second) : first = second :=
  inj_on_of_nodup_map catalog.keys_nodup left right same

/-! ### Lookups -/

variable {document : Document}

theorem find?_iff_of_nodup {Field : Type} [DecidableEq Field] {field : Document → Field}
    {documents : List Document} (nodup : (documents.map field).Nodup) {wanted : Field} :
    documents.find? (fun other => field other = wanted) = some document ↔
      document ∈ documents ∧ field document = wanted := by
  constructor
  · intro found
    have selected := List.find?_some found
    exact ⟨mem_of_find?_eq_some found, of_decide_eq_true selected⟩
  · rintro ⟨member, rfl⟩
    cases found : documents.find? fun other => field other = field document with
    | none =>
      have missing := List.find?_eq_none.mp found document member
      exact absurd (decide_eq_true rfl) missing
    | some other =>
      have selected := List.find?_some found
      have same : field other = field document := of_decide_eq_true selected
      rw [inj_on_of_nodup_map nodup (mem_of_find?_eq_some found) member same]

variable [DecidableEq Key]

/-- The document under a key. -/
def find? (catalog : Catalog key label) (wanted : Key) : Option Document :=
  catalog.documents.find? fun document => key document = wanted

/-- The document with a label. -/
def findLabel? [DecidableEq Label] (catalog : Catalog key label) (wanted : Label) :
    Option Document :=
  catalog.documents.find? fun document => label document = wanted

theorem find?_eq_some {wanted : Key} :
    catalog.find? wanted = some document ↔ document ∈ catalog ∧ key document = wanted :=
  find?_iff_of_nodup catalog.keys_nodup

omit [DecidableEq Key] in
theorem findLabel?_eq_some [DecidableEq Label] {wanted : Label} :
    catalog.findLabel? wanted = some document ↔ document ∈ catalog ∧ label document = wanted :=
  find?_iff_of_nodup catalog.labels_nodup

/-! ### Changes -/

/-- Some document has the key or the label. -/
def IsTaken (catalog : Catalog key label) (document : Document) : Prop :=
  ∃ other ∈ catalog.documents, key other ≠ key document ∧ label other = label document

instance [DecidableEq Label] (catalog : Catalog key label) (document : Document) :
    Decidable (catalog.IsTaken document) :=
  List.decidableBEx _ _

def remove (catalog : Catalog key label) (wanted : Key) : Catalog key label where
  documents := catalog.documents.filter fun document => key document ≠ wanted
  keys_nodup := catalog.keys_nodup.sublist (filter_sublist.map _)
  labels_nodup := catalog.labels_nodup.sublist (filter_sublist.map _)

theorem mem_remove {wanted : Key} :
    document ∈ catalog.remove wanted ↔ document ∈ catalog ∧ key document ≠ wanted := by
  show document ∈ catalog.documents.filter _ ↔ _
  rw [mem_filter, decide_eq_true_iff]
  exact Iff.rfl

/-- Write a document whose label no other has, in place of the one of its key. -/
def put (catalog : Catalog key label) (document : Document) (free : ¬catalog.IsTaken document) :
    Catalog key label where
  documents := document :: (catalog.remove (key document)).documents
  keys_nodup := by
    refine nodup_cons.mpr ⟨fun member => ?_, (catalog.remove (key document)).keys_nodup⟩
    obtain ⟨other, inRest, same⟩ := mem_map.mp member
    exact (mem_remove.mp inRest).2 same
  labels_nodup := by
    refine nodup_cons.mpr ⟨fun member => ?_, (catalog.remove (key document)).labels_nodup⟩
    obtain ⟨other, inRest, same⟩ := mem_map.mp member
    exact free ⟨other, (mem_remove.mp inRest).1, (mem_remove.mp inRest).2, same⟩

theorem mem_put {other : Document} (free : ¬catalog.IsTaken document) :
    other ∈ catalog.put document free ↔
      other = document ∨ other ∈ catalog ∧ key other ≠ key document := by
  show other ∈ document :: (catalog.remove (key document)).documents ↔ _
  rw [mem_cons]
  exact or_congr Iff.rfl mem_remove

theorem mem_put_self (free : ¬catalog.IsTaken document) : document ∈ catalog.put document free :=
  (mem_put free).mpr (.inl rfl)

end Catalog

end Euclid
