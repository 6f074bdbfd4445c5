/-
This file proves that two queries have the same canonical form exactly if they have the same decoded
parameters, in any order.

What is encoded decodes to itself, and holds none of the characters that separate, so a canonical
form can be taken apart again into the parameters it was made of.
-/

import Mathlib.Data.Prod.Lex
import Mathlib.Data.String.Basic
import Euclid.Core.SigV4

namespace Euclid.Core.SigV4

open List

/-- Every character is a byte, as in a request that was received. -/
def IsBytes (text : Text) : Prop := ∀ character ∈ text, character.toNat < 256

/-- The names and values of a query. -/
def decodedPairs (rawQuery : Text) : List (Text × Text) :=
  ((split '&' rawQuery).filter (· ≠ [])).map fun pair =>
    (percentDecode (upTo '=' pair), percentDecode (beyond '=' pair))

/-! ### Encoding -/

theorem hexValue_toUpper : ∀ number < 16, hexValue (hexDigit number).toUpper = some number := by
  decide

theorem percentDecode_cons {character : Char} (plain : character ≠ '%') (rest : Text) :
    percentDecode (character :: rest) = character :: percentDecode rest := by
  rw [percentDecode]
  exact fun _ _ _ same => absurd same plain

/-- What was encoded is decoded to what it was. -/
theorem percentDecode_uriEncode {value : Text} (bytes : IsBytes value) {encodeSlash : Bool} :
    percentDecode (uriEncode encodeSlash value) = value := by
  induction value with
  | nil => rfl
  | cons character rest ih =>
    obtain ⟨byte, others⟩ := forall_mem_cons.mp bytes
    have tail : percentDecode (uriEncode encodeSlash rest) = rest := ih others
    rw [uriEncode, flatMap_cons, ← uriEncode]
    split
    · rename_i literal
      have plain : character ≠ '%' := by
        rintro rfl
        revert literal
        cases encodeSlash <;> decide
      rw [singleton_append, percentDecode_cons plain, tail]
    · have high := hexValue_toUpper (character.toNat / 16) (by omega)
      have low := hexValue_toUpper (character.toNat % 16) (by omega)
      simp only [cons_append, nil_append, percentDecode, high, low, tail]
      rw [Nat.div_add_mod, Char.ofNat_toNat]

theorem hexValue_lt {digit : Char} {number : ℕ} (value : hexValue digit = some number) :
    number < 16 := by
  unfold hexValue at value
  split at value
  · rename_i mem
    exact Option.some.inj value ▸ idxOf_lt_length_of_mem mem
  · cases value

theorem byte_ofNat : ∀ byte < 256, (Char.ofNat byte).toNat < 256 := by
  decide +kernel

theorem percentDecode_bytes {value : Text} (bytes : IsBytes value) :
    IsBytes (percentDecode value) := by
  fun_induction percentDecode value with
  | case1 => exact bytes
  | case2 high low rest first second isFirst isSecond ih =>
    refine forall_mem_cons.mpr ⟨?_, ih fun other mem => bytes other (by simp [mem])⟩
    have small := hexValue_lt isFirst
    have smallToo := hexValue_lt isSecond
    exact byte_ofNat _ (by omega)
  | case3 high low rest unread ih =>
    exact forall_mem_cons.mpr ⟨bytes '%' (.head _), ih (forall_mem_cons.mp bytes).2⟩
  | case4 character rest other ih =>
    exact forall_mem_cons.mpr ⟨bytes _ (.head _), ih (forall_mem_cons.mp bytes).2⟩

/-! ### Taking a canonical form apart -/

def line (pair : Text × Text) : Text := pair.1 ++ '=' :: pair.2

variable {separates : Char → Bool}

theorem parts_of_plain {part : Text}
    (plain : ∀ character ∈ part, separates character = false) : parts separates part = [part] := by
  induction part with
  | nil => rfl
  | cons character rest ih =>
    obtain ⟨first, others⟩ := forall_mem_cons.mp plain
    simp [parts, first, ih others]

theorem parts_append {part : Text} {separator : Char}
    (plain : ∀ character ∈ part, separates character = false) (here : separates separator)
    (rest : Text) : parts separates (part ++ separator :: rest) = part :: parts separates rest := by
  induction part with
  | nil => simp [parts, here]
  | cons character part ih =>
    obtain ⟨first, others⟩ := forall_mem_cons.mp plain
    simp [parts, first, ih others]

theorem filter_split {lines : List Text} (plain : ∀ line ∈ lines, line ≠ [] ∧ '&' ∉ line) :
    (split '&' (['&'].intercalate lines)).filter (· ≠ []) = lines := by
  induction lines with
  | nil => rfl
  | cons line rest ih =>
    obtain ⟨⟨filled, own⟩, others⟩ := forall_mem_cons.mp plain
    have clean : ∀ character ∈ line, decide (character = '&') = false :=
      fun character mem => decide_eq_false fun same => own (same ▸ mem)
    cases rest with
    | nil =>
      rw [intercalate_singleton, split, parts_of_plain clean]
      simp [filled]
    | cons next more =>
      rw [intercalate_cons_cons, split, append_assoc, singleton_append,
        parts_append clean (by simp), filter_cons_of_pos (by simpa using filled)]
      exact congrArg _ (ih others)

theorem decodedPairs_lines {pairs : List (Text × Text)}
    (plain : ∀ pair ∈ pairs, '=' ∉ pair.1 ∧ '&' ∉ line pair) :
    decodedPairs (['&'].intercalate (pairs.map line)) =
      pairs.map fun pair => (percentDecode pair.1, percentDecode pair.2) := by
  unfold decodedPairs
  rw [filter_split (forall_mem_map.mpr fun pair mem => ⟨by simp [line], (plain pair mem).2⟩),
    map_map]
  refine map_congr_left fun pair mem => ?_
  have clean : ∀ character ∈ pair.1, decide (character ≠ '=') = true :=
    fun character inside => decide_eq_true fun same => (plain pair mem).1 (same ▸ inside)
  have name : upTo '=' (line pair) = pair.1 := by
    rw [upTo, line, takeWhile_append_of_pos clean]
    simp
  have value : beyond '=' (line pair) = pair.2 := by
    rw [beyond, line, dropWhile_append_of_pos clean]
    simp
  rw [Function.comp_apply, name, value]

/-! ### Queries -/

theorem parts_subset {text : Text} : ∀ part ∈ parts separates text, part ⊆ text := by
  fun_induction parts separates text with
  | case1 => simp
  | case2 character rest here ih =>
    exact forall_mem_cons.mpr ⟨nil_subset _, fun part mem =>
      List.Subset.trans (ih part mem) (subset_cons_self _ _)⟩
  | case3 character rest here none => simp
  | case4 character rest here part others more ih =>
    rw [more] at ih
    obtain ⟨own, later⟩ := forall_mem_cons.mp ih
    exact forall_mem_cons.mpr ⟨cons_subset_cons _ own, fun part mem =>
      List.Subset.trans (later part mem) (subset_cons_self _ _)⟩

/-- Pairs are in the order of their names, then of their values. -/
theorem precedes_iff {first second : Text × Text} :
    precedes first second ↔ toLex first ≤ toLex second := by
  rw [Prod.Lex.le_iff, precedes, not_lt]
  rfl

instance : Std.Total precedes := ⟨fun _ _ => by simpa only [precedes_iff] using le_total _ _⟩

instance : IsTrans _ precedes := ⟨fun _ _ _ => by simpa only [precedes_iff] using le_trans⟩

instance : Std.Antisymm precedes := ⟨fun _ _ before after =>
  toLex.injective (le_antisymm (precedes_iff.mp before) (precedes_iff.mp after))⟩

variable {rawQuery : Text}

theorem decodedPairs_bytes (bytes : IsBytes rawQuery) :
    ∀ pair ∈ decodedPairs rawQuery, IsBytes pair.1 ∧ IsBytes pair.2 := by
  refine forall_mem_map.mpr fun part mem => ?_
  have inside := parts_subset part (mem_of_mem_filter mem)
  refine ⟨percentDecode_bytes fun character known =>
    ?_, percentDecode_bytes fun character known => ?_⟩
  · exact bytes character (inside (takeWhile_sublist _ |>.subset known))
  · exact bytes character (inside ((dropWhile_sublist _).subset (mem_of_mem_drop known)))

def encoded (pair : Text × Text) : Text × Text := (uriEncode true pair.1, uriEncode true pair.2)

/-- The canonical query has the decoded pairs, encoded and in order. -/
theorem canonicalizeQueryString_eq (rawQuery : Text) : canonicalizeQueryString rawQuery =
    ['&'].intercalate
      ((((decodedPairs rawQuery).map encoded).insertionSort precedes).map line) := by
  rw [decodedPairs, map_map]
  rfl

theorem decodedPairs_canonicalizeQueryString (bytes : IsBytes rawQuery) :
    (decodedPairs (canonicalizeQueryString rawQuery)).Perm (decodedPairs rawQuery) := by
  have sorted := perm_insertionSort precedes ((decodedPairs rawQuery).map encoded)
  rw [canonicalizeQueryString_eq, decodedPairs_lines]
  · refine (sorted.map _).trans (.of_eq ?_)
    rw [map_map]
    refine (map_congr_left fun pair mem => ?_).trans (map_id _)
    obtain ⟨name, value⟩ := decodedPairs_bytes bytes pair mem
    exact Prod.ext (percentDecode_uriEncode name) (percentDecode_uriEncode value)
  · intro pair mem
    obtain ⟨given, _, rfl⟩ := mem_map.mp (sorted.mem_iff.mp mem)
    have clean : ∀ value, '&' ∉ uriEncode true value := uriEncode_free (by decide) (by decide) true
    refine ⟨uriEncode_free (by decide) (by decide) _ _, fun mem => ?_⟩
    rcases mem_append.mp mem with name | value
    · exact clean _ name
    · exact clean _ ((mem_cons.mp value).resolve_left (by decide))

theorem canonicalizeQueryString_congr {first second : Text}
    (same : (decodedPairs first).Perm (decodedPairs second)) :
    canonicalizeQueryString first = canonicalizeQueryString second := by
  rw [canonicalizeQueryString_eq, canonicalizeQueryString_eq]
  have sorted := pairwise_insertionSort precedes
  exact congrArg (fun pairs => ['&'].intercalate (pairs.map line)) (List.Perm.eq_of_pairwise'
    (sorted _) (sorted _) ((perm_insertionSort _ _).trans
      ((same.map encoded).trans (perm_insertionSort _ _).symm)))

/-- The canonical forms of two queries are the same exactly if their decoded parameters are, in any
order. A canonical form is its own, and what is encoded decodes to itself. -/
theorem canonicalizeQueryString_eq_iff {first second value : Text} (bytes : IsBytes first)
    (bytesToo : IsBytes second) (ofBytes : IsBytes value) (encodeSlash : Bool) :
    (canonicalizeQueryString first = canonicalizeQueryString second ↔
      (decodedPairs first).Perm (decodedPairs second)) ∧
    canonicalizeQueryString (canonicalizeQueryString first) = canonicalizeQueryString first ∧
    percentDecode (uriEncode encodeSlash value) = value := by
  have apart := decodedPairs_canonicalizeQueryString bytes
  refine ⟨⟨fun same => ?_, canonicalizeQueryString_congr⟩, canonicalizeQueryString_congr apart,
    percentDecode_uriEncode ofBytes⟩
  have apartToo := decodedPairs_canonicalizeQueryString bytesToo
  rw [← same] at apartToo
  exact apart.symm.trans apartToo

/-- A plus, a malformed escape, an empty name and an equals sign in a value. -/
theorem canonical_of_malformed :
    (canonicalizeQueryString "b=+&a=%4&=1&c=x=y".toList =
        canonicalizeQueryString "=1&c=x%3dy&&a=%254&b=%2B".toList ↔
      (decodedPairs "b=+&a=%4&=1&c=x=y".toList).Perm
        (decodedPairs "=1&c=x%3dy&&a=%254&b=%2B".toList)) ∧
    canonicalizeQueryString (canonicalizeQueryString "b=+&a=%4&=1&c=x=y".toList) =
      canonicalizeQueryString "b=+&a=%4&=1&c=x=y".toList ∧
    percentDecode (uriEncode true "a/b".toList) = "a/b".toList :=
  canonicalizeQueryString_eq_iff (by simp [IsBytes]) (by simp [IsBytes]) (by simp [IsBytes]) true

end Euclid.Core.SigV4
