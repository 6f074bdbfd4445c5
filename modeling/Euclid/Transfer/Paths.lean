/-
This file translates how a transfer server finds the key of a path, and proves that no path and no
configured directory leads out of the home of a session.

A home is a list of names, each of them followed by a slash. What is cut off a key at its ends are
slashes only, so a key that starts with a home still does, and so does a directory made of it.
-/

import Mathlib.Data.List.DropRight
import Mathlib.Data.List.Infix
import Euclid.Core.HttpRequest

namespace Euclid.Transfer

open List

open Core (Text parts split)

/-! ### Homes -/

def kUserPlaceholder : Text := "\x7buser\x7d".toList

/-- `substituteUser`, from a place on. So many characters belong to a placeholder that was
replaced. -/
def substituteFrom (userId : Text) : ℕ → Text → Text
  | _, [] => []
  | 0, character :: rest =>
    if kUserPlaceholder <+: character :: rest then
      if userId = [] then rest.drop (kUserPlaceholder.length - 1)
      else userId ++ substituteFrom userId (kUserPlaceholder.length - 1) rest
    else character :: substituteFrom userId 0 rest
  | replaced + 1, _ :: rest => substituteFrom userId replaced rest

/-- `substituteUser`. For an empty user it stops after one placeholder. -/
def substituteUser (homeDirectory userId : Text) : Text := substituteFrom userId 0 homeDirectory

/-- The names in a path that count for a home. -/
def homeSegments (path : Text) : List Text :=
  (split '/' path).filter fun segment => segment ≠ [] ∧ segment ≠ ['.'] ∧ segment ≠ ['.', '.']

def homePrefix (homeDirectory userId : Text) : Text :=
  (homeSegments (substituteUser homeDirectory userId)).flatMap (· ++ ['/'])

/-- A key is kept once. -/
def addKey (home : Text) (keys : List Text) (level : Text) : List Text :=
  if home ++ level ∈ keys then keys else keys ++ [home ++ level]

/-- `HomeDirectoryKeys`. Every level of a directory ends in a slash of it. -/
def homeDirectoryKeys (home : Text) (directories : List Text) : List Text :=
  directories.foldl (fun keys directory =>
    ((homePrefix directory []).inits.filter (·.getLast? = some '/')).foldl (addKey home) keys) []

/-! ### Paths of a client -/

/-- What one more name does to a resolved path. -/
def enter (names : List Text) (segment : Text) : List Text :=
  if segment = [] ∨ segment = ['.'] then names
  else if segment = ['.', '.'] then names.dropLast
  else names ++ [segment]

/-- `resolve`, of which only the virtual path counts where there is a bucket. -/
def resolve (path : Text) : Text :=
  '/' :: ['/'].intercalate ((split '/' path).foldl enter [])

/-- `resolve` of a server that keeps a current directory. -/
def resolveIn (cwd path : Text) : Text :=
  match path with
  | [] => resolve cwd
  | '/' :: _ => resolve path
  | _ => resolve ((if cwd = ['/'] then ['/'] else cwd ++ ['/']) ++ path)

def stripLeadingSlash (key : Text) : Text := key.dropWhile (· = '/')

def keyOf (keyPrefix virtualPath : Text) : Text := keyPrefix ++ stripLeadingSlash virtualPath

def asPrefix (directory : Text) : Text :=
  let trimmed := (stripLeadingSlash directory).rdropWhile (· = '/')
  if trimmed = [] then [] else trimmed ++ ['/']

/-! ### Keys below a home -/

/-- The key prefix of a session: names, each of them followed by a slash. -/
def IsHome (keyPrefix : Text) : Prop :=
  ∃ names : List Text, (∀ name ∈ names, name ≠ [] ∧ '/' ∉ name) ∧
    keyPrefix = names.flatMap (· ++ ['/'])

theorem not_mem_parts {separates : Char → Bool} {text part : Text}
    (mem : part ∈ parts separates text) :
    ∀ character ∈ part, separates character = false := by
  induction text generalizing part with
  | nil =>
    rw [mem_singleton.mp mem]
    exact nofun
  | cons character rest ih =>
    unfold parts at mem
    split at mem
    · obtain rfl | later := mem_cons.mp mem
      · exact nofun
      · exact ih later
    case isFalse separates' =>
      rw [Bool.not_eq_true] at separates'
      split at mem
      · rw [mem_singleton.mp mem]
        intro other inside
        rw [mem_singleton.mp inside]
        exact separates'
      case _ first others same =>
        obtain rfl | later := mem_cons.mp mem
        · intro other inside
          obtain rfl | inside := mem_cons.mp inside
          · exact separates'
          · exact ih (same ▸ .head _) other inside
        · exact ih (same ▸ .tail _ later)

theorem isHome_homePrefix (homeDirectory userId : Text) :
    IsHome (homePrefix homeDirectory userId) := by
  refine ⟨_, fun name mem => ?_, rfl⟩
  obtain ⟨mem, counts⟩ := mem_filter.mp mem
  refine ⟨(of_decide_eq_true counts).1, fun inside => ?_⟩
  exact absurd (not_mem_parts mem _ inside) (by decide)

variable {keyPrefix : Text}

theorem IsHome.cases (home : IsHome keyPrefix) :
    keyPrefix = [] ∨ ∃ inner : Text, keyPrefix = inner ++ ['/'] ∧
      (∃ first rest, inner = first :: rest ∧ first ≠ '/') ∧
      ∃ front last, inner = front ++ [last] ∧ last ≠ '/' := by
  obtain ⟨names, proper, rfl⟩ := home
  obtain rfl | ⟨init, final, rfl⟩ := eq_nil_or_concat' names
  · exact .inl rfl
  · refine .inr ⟨init.flatMap (· ++ ['/']) ++ final, by simp, ?_, ?_⟩
    · cases init with
      | nil =>
        obtain ⟨named, clean⟩ := proper final (.head _)
        obtain ⟨first, rest, rfl⟩ := exists_cons_of_ne_nil named
        exact ⟨first, rest, rfl, fun slash => clean (slash ▸ .head _)⟩
      | cons name others =>
        obtain ⟨named, clean⟩ := proper name (.head _)
        obtain ⟨first, rest, rfl⟩ := exists_cons_of_ne_nil named
        exact ⟨first, _, rfl, fun slash => clean (slash ▸ .head _)⟩
    · obtain ⟨named, clean⟩ := proper final (mem_append_right _ (.head _))
      obtain rfl | ⟨front, last, rfl⟩ := eq_nil_or_concat' final
      · exact absurd rfl named
      · exact ⟨init.flatMap (· ++ ['/']) ++ front, last, (append_assoc _ _ _).symm,
          fun slash => clean (slash ▸ mem_append_right _ (.head _))⟩

theorem IsHome.stripLeadingSlash (home : IsHome keyPrefix) {key : Text}
    (below : keyPrefix <+: key) : keyPrefix <+: stripLeadingSlash key := by
  obtain ⟨rest, rfl⟩ := below
  obtain rfl | ⟨inner, rfl, ⟨first, others, rfl, name⟩, _⟩ := home.cases
  · exact nil_prefix
  · have kept : Transfer.stripLeadingSlash (first :: others ++ ['/'] ++ rest) =
        first :: others ++ ['/'] ++ rest :=
      dropWhile_cons_of_neg (by simpa using name)
    rw [kept]
    exact prefix_append _ _

theorem rdropWhile_below {front : Text} {last : Char} (name : last ≠ '/') (key : Text) :
    (front ++ [last] ++ ['/'] ++ key).rdropWhile (· = '/') =
      if key.rdropWhile (· = '/') = [] then front ++ [last]
      else front ++ [last] ++ ['/'] ++ key.rdropWhile (· = '/') := by
  have stops : ([last] ++ front.reverse).dropWhile (fun character => decide (character = '/')) =
      [last] ++ front.reverse :=
    dropWhile_cons_of_neg (by simpa using name)
  unfold List.rdropWhile
  simp only [reverse_append, reverse_singleton, dropWhile_append, stops,
    List.reverse_eq_nil_iff, List.isEmpty_iff]
  by_cases nothing : key.reverse.dropWhile (fun character => decide (character = '/')) = []
  · simp [nothing]
  · simp [nothing]

theorem IsHome.asPrefix (home : IsHome keyPrefix) {key : Text}
    (below : keyPrefix <+: key) : keyPrefix <+: asPrefix key := by
  obtain ⟨rest, rfl⟩ := below
  obtain rfl | ⟨inner, rfl, ⟨first, others, begins, name⟩, front, last, ends, nameToo⟩ := home.cases
  · exact nil_prefix
  · have kept : Transfer.stripLeadingSlash (inner ++ ['/'] ++ rest) = inner ++ ['/'] ++ rest := by
      rw [begins]
      exact dropWhile_cons_of_neg (by simpa using name)
    unfold Transfer.asPrefix
    rw [kept, ends, rdropWhile_below nameToo]
    by_cases nothing : rest.rdropWhile (· = '/') = []
    · rw [if_pos nothing, if_neg (by simp)]
    · rw [if_neg nothing, if_neg (by simp)]
      exact ⟨rest.rdropWhile (· = '/') ++ ['/'], by simp⟩

theorem prefix_keyOf (keyPrefix virtualPath : Text) : keyPrefix <+: keyOf keyPrefix virtualPath :=
  prefix_append _ _

theorem prefix_homeDirectoryKeys {home : Text} {directories : List Text} :
    ∀ key ∈ homeDirectoryKeys home directories, home <+: key := by
  refine List.foldlRecOn (motive := fun keys => ∀ key ∈ keys, home <+: key) directories _
    (nofun) fun keys below directory _ => ?_
  refine List.foldlRecOn (motive := fun keys => ∀ key ∈ keys, home <+: key) _ _ below
    fun keys below level _ key mem => ?_
  unfold addKey at mem
  split at mem
  · exact below key mem
  · obtain old | new := mem_append.mp mem
    · exact below key old
    · rw [mem_singleton.mp new]
      exact prefix_append _ _

end Euclid.Transfer
