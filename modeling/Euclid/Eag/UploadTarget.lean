/-
This file proves which object an upload names.

The path beneath a route is decoded, its leading slashes are dropped, and what is left is taken as a
key segment by segment. The segments are read as lines are, so one after a slash at the end of the
path is not seen.
-/

import Mathlib.Data.List.TakeWhile
import Euclid.Core.CanonicalQuery
import Euclid.Eag.Route

namespace Euclid.Eag

open List
open Core (Text parts split upTo)
open Core.SigV4 (percentDecode percentDecode_cons)

/-- What the path of a request target holds after the path of the route. -/
def Route.beneath (route : Route) (target : Text) : Text :=
  let path := upTo '?' target
  if route.path.toList.isPrefixOf path then path.drop route.path.toList.length else path

/-- The segments of a path. After the last slash there is one only if it has characters. -/
def segmentsOf (path : Text) : List Text :=
  let segments := split '/' path
  if segments.getLast? = some [] then segments.dropLast else segments

def refusal (segment : Text) : Option String :=
  if segment = [] then some "the object key has an empty path segment"
  else if segment = ['.'] ∨ segment = ['.', '.'] then
    some "the object key may not contain \".\" or \"..\" segments"
  else none

def Route.keyPrefix (route : Route) : Text :=
  let keyPrefix := route.upload.keyPrefix.toList
  let ended := if keyPrefix ≠ [] ∧ keyPrefix.getLast? ≠ some '/' then keyPrefix ++ ['/']
    else keyPrefix
  ended.dropWhile (· = '/')

/-- The path beneath the route as it was meant, from its first segment on. -/
def Route.keyPath (route : Route) (target : Text) : Text :=
  (percentDecode (route.beneath target)).dropWhile (· = '/')

def resolveUploadKey (route : Route) (target : Text) : Except String Text :=
  let path := route.keyPath target
  if path = [] then
    .error s!"name the object after the route's path, e.g. PUT {route.path}/my-file.xml"
  else
    match (segmentsOf path).findSome? refusal with
    | some reason => .error reason
    | none =>
      if Char.ofNat 0 ∈ path then .error "the object key contains a null byte"
      else .ok (route.keyPrefix ++ path)

/-! ### Segments -/

variable {route : Route} {target other path key : Text}

theorem getLast?_split (filled : path ≠ []) :
    (split '/' path).getLast? = some [] ↔ path.getLast? = some '/' := by
  have some_part : ∀ text, parts (· = '/') text ≠ [] := fun text => by
    fun_cases parts <;> simp
  unfold split
  induction path with
  | nil => exact absurd rfl filled
  | cons first rest ih =>
    cases rest with
    | nil => by_cases slash : first = '/' <;> simp [parts, slash]
    | cons second more =>
      rw [getLast?_cons_cons]
      refine Iff.trans ?_ (ih (cons_ne_nil _ _))
      rw [parts]
      by_cases slash : first = '/'
      · obtain ⟨part, others, same⟩ := exists_cons_of_ne_nil (some_part (second :: more))
        simp [slash, same]
      · rw [if_neg (by simpa using slash)]
        cases same : parts (· = '/') (second :: more) with
        | nil => exact absurd same (some_part _)
        | cons part others =>
          cases others with
          | cons next others => simp
          | nil =>
            -- one part is what there is without a slash
            have filled : part ≠ [] := by
              rintro rfl
              rw [parts] at same
              split at same
              · exact some_part more (by simpa using same)
              · split at same <;> simp at same
            simp [filled]

/-- A segment that may be part of a key. -/
def IsPlain (segment : Text) : Prop :=
  segment ≠ [] ∧ segment ≠ ['.'] ∧ segment ≠ ['.', '.']

theorem refusal_eq_none {segment : Text} : refusal segment = none ↔ IsPlain segment := by
  unfold refusal IsPlain
  split <;> simp_all

/-- All segments are plain if those that are looked at are, and the path does not end in a slash. -/
theorem segments_plain (filled : path ≠ []) : (∀ segment ∈ split '/' path, IsPlain segment) ↔
    (∀ segment ∈ segmentsOf path, IsPlain segment) ∧ path.getLast? ≠ some '/' := by
  have last := getLast?_split filled
  unfold segmentsOf
  dsimp only
  split
  · rename_i ends
    refine iff_of_false (fun plain => ?_) fun both => both.2 (last.mp ends)
    exact (plain [] (mem_of_getLast? ends)).1 rfl
  · rename_i goesOn
    exact (and_iff_left fun slash => goesOn (last.mpr slash)).symm

theorem resolveUploadKey_ok : resolveUploadKey route target = .ok key ↔
    route.keyPath target ≠ [] ∧ (∀ segment ∈ segmentsOf (route.keyPath target), IsPlain segment) ∧
      Char.ofNat 0 ∉ route.keyPath target ∧ key = route.keyPrefix ++ route.keyPath target := by
  unfold resolveUploadKey
  dsimp only
  split
  · simp_all
  · split
    · rename_i reason found
      obtain ⟨segment, mem, refused⟩ := exists_of_findSome?_eq_some found
      refine iff_of_false nofun fun all => ?_
      rw [refusal_eq_none.mpr (all.2.1 segment mem)] at refused
      cases refused
    · rename_i filled _ none
      have plain : ∀ segment ∈ segmentsOf (route.keyPath target), IsPlain segment :=
        fun segment mem => refusal_eq_none.mp (findSome?_eq_none_iff.mp none segment mem)
      split
      · rename_i nul
        exact iff_of_false nofun fun all => all.2.2.1 nul
      · rename_i clean
        constructor
        · rintro ⟨⟩
          exact ⟨filled, plain, clean, rfl⟩
        · rintro ⟨-, -, -, rfl⟩
          rfl

/-! ### Keys -/

/-- What the path of a request target holds after the path of the route and the slash behind it. -/
def Route.afterSlash (route : Route) (target : Text) : Text :=
  if route.path.toList.getLast? = some '/' then route.beneath target
  else match route.beneath target with
    | '/' :: rest => rest
    | rest => rest

/-- The path beneath a route, decoded, with every segment that it has. -/
def Route.pathBeneath (route : Route) (target : Text) : Text :=
  percentDecode (route.afterSlash target)

/-- Behind its leading slashes a path has characters, no segment that is looked at is empty or walks
through directories, and no character is NUL. -/
def IsTaken (path : Text) : Prop :=
  let trimmed := path.dropWhile (· = '/')
  trimmed ≠ [] ∧ (∀ segment ∈ segmentsOf trimmed, IsPlain segment) ∧ Char.ofNat 0 ∉ trimmed

theorem keyPath_eq (route : Route) (target : Text) :
    route.keyPath target = (route.pathBeneath target).dropWhile (· = '/') := by
  unfold Route.keyPath Route.pathBeneath Route.afterSlash
  split
  · rfl
  · split
    · rename_i rest starts
      rw [starts, percentDecode_cons (by decide), dropWhile_cons_of_pos (by decide)]
    · rfl

/-- A target is taken exactly if the path beneath its route is, and the key is the prefix and that
path without its leading slashes. -/
theorem resolveUploadKey_eq_ok : resolveUploadKey route target = .ok key ↔
    IsTaken (route.pathBeneath target) ∧
      key = route.keyPrefix ++ (route.pathBeneath target).dropWhile (· = '/') := by
  rw [resolveUploadKey_ok, keyPath_eq]
  exact ⟨fun ⟨filled, plain, clean, same⟩ => ⟨⟨filled, plain, clean⟩, same⟩,
    fun ⟨⟨filled, plain, clean⟩, same⟩ => ⟨filled, plain, clean, same⟩⟩

/-- Leading slashes are dropped from a path exactly if it begins with one. -/
theorem dropWhile_slash_iff {path : Text} :
    path.dropWhile (· = '/') = path ↔ path.head? ≠ some '/' := by
  cases path with
  | nil => simp
  | cons first rest =>
    by_cases slash : first = '/'
    · rw [dropWhile_cons_of_pos (by simpa using slash)]
      refine iff_of_false (fun same => ?_) (by simp [slash])
      have shorter := length_dropWhile_le (· = '/') rest
      rw [same] at shorter
      exact absurd shorter (by simp)
    · rw [dropWhile_cons_of_neg (by simpa using slash)]
      exact iff_of_true rfl (by simpa using slash)

/-- A target is refused, or names the prefix and the decoded path beneath the route, all of whose
segments are plain. -/
def Confined (route : Route) (target : Text) : Prop :=
  ∀ key, resolveUploadKey route target = .ok key →
    key = route.keyPrefix ++ route.pathBeneath target ∧
      (∀ segment ∈ split '/' (route.pathBeneath target), IsPlain segment) ∧
      Char.ofNat 0 ∉ route.pathBeneath target

/-- Targets that are taken and whose paths beneath the route differ have different keys. -/
def KeptApart (route : Route) (first second : Text) : Prop :=
  ∀ key other, resolveUploadKey route first = .ok key → resolveUploadKey route second = .ok other →
    route.pathBeneath first ≠ route.pathBeneath second → key ≠ other

/-- What is taken is confined exactly if the path beneath the route neither begins nor ends in a
slash, and two targets that are taken are kept apart unless their paths differ in nothing but the
slashes they begin with. -/
theorem upload_keys_confined (route : Route) (target other : Text) :
    (Confined route target ↔ (IsTaken (route.pathBeneath target) →
      (route.pathBeneath target).head? ≠ some '/' ∧
        (route.pathBeneath target).getLast? ≠ some '/')) ∧
    (KeptApart route target other ↔ ¬(IsTaken (route.pathBeneath target) ∧
      route.pathBeneath target ≠ route.pathBeneath other ∧
      (route.pathBeneath target).dropWhile (· = '/') =
        (route.pathBeneath other).dropWhile (· = '/'))) := by
  constructor
  · constructor
    · intro confined taken
      obtain ⟨same, plain, -⟩ := confined _ (resolveUploadKey_eq_ok.mpr ⟨taken, rfl⟩)
      have starts := append_cancel_left same
      refine ⟨dropWhile_slash_iff.mp starts, ?_⟩
      have filled := taken.1
      rw [starts] at filled
      exact ((segments_plain filled).mp plain).2
    · intro bare key resolved
      obtain ⟨taken, rfl⟩ := resolveUploadKey_eq_ok.mp resolved
      obtain ⟨starts, ends⟩ := bare taken
      obtain ⟨filled, plain, clean⟩ := taken
      rw [dropWhile_slash_iff.mpr starts] at filled plain clean ⊢
      exact ⟨rfl, (segments_plain filled).mpr ⟨plain, ends⟩, clean⟩
  · constructor
    · rintro apart ⟨taken, differ, same⟩
      have also : IsTaken (route.pathBeneath other) := by
        unfold IsTaken
        rw [← same]
        exact taken
      exact apart _ _ (resolveUploadKey_eq_ok.mpr ⟨taken, rfl⟩)
        (resolveUploadKey_eq_ok.mpr ⟨also, rfl⟩) differ (congrArg (route.keyPrefix ++ ·) same)
    · rintro distinct key key' resolved also differ rfl
      obtain ⟨taken, first⟩ := resolveUploadKey_eq_ok.mp resolved
      have second := (resolveUploadKey_eq_ok.mp also).2
      exact distinct ⟨taken, differ, append_cancel_left (first.symm.trans second)⟩

/-- A path that begins with a second slash is taken, and so is one that ends in a slash. -/
theorem upload_key_ends_empty :
    ¬Confined { Route.blank with path := "/upload" } "/upload/a/".toList ∧
      ¬Confined { Route.blank with path := "/upload" } "/upload//a".toList := by
  constructor
  · intro confined
    have named := confined "a/".toList (by decide)
    exact absurd (named.2.1 [] (by decide)).1 (by simp)
  · intro confined
    have named := confined "a".toList (by decide)
    exact absurd (named.2.1 [] (by decide)).1 (by simp)

end Euclid.Eag
