/-
This file proves when a backup is a partition of the data.

A document whose account and namespace are texts is selected by exactly one scope, its own, and a
message by that of its parent. So the files of a run hold every document once as long as there is a
file for its scope, which only what a resource holds can miss, and as long as no two scopes are
written to one directory, which two names can be that differ in what a directory's name replaces.
-/

import Euclid.Emm.Backup

namespace Euclid.Emm.Backup

open Emd Database ExportImport List BackupScope Value

/-! ### Names of directories -/

theorem isAllowed_underscore : isAllowed '_' = true := by decide

theorem safeCharacters_allowed {character safe : Char} (mem : safe ∈ safeCharacters character) :
    isAllowed safe = true := by
  unfold safeCharacters at mem
  split at mem
  · rw [mem_singleton.mp mem]
    assumption
  · rw [(mem_replicate.mp mem).2]
    exact isAllowed_underscore

theorem isEntryName_safeBackupDirectoryName {name : String} :
    isEntryName (safeBackupDirectoryName name) = true := by
  have apart : ∀ characters : List Char, (∀ safe ∈ characters, isAllowed safe = true) →
      characters ≠ [] → characters ≠ ['.'] → characters ≠ ['.', '.'] →
      isEntryName (String.ofList characters) = true := fun characters allowed some dot dots => by
    have slash : '/' ∉ characters := fun mem => absurd (allowed _ mem) (by decide)
    simp [isEntryName, some, dot, dots, slash]
  unfold safeBackupDirectoryName
  dsimp only
  split
  · have filled : ∀ length, ∀ safe ∈ replicate (max length 1) '_', isAllowed safe = true :=
      fun length safe mem => by
        rw [(mem_replicate.mp mem).2]
        exact isAllowed_underscore
    have underscore : ∀ length, '_' ∈ replicate (max length 1) '_' := fun length =>
      mem_replicate.mpr ⟨by omega, rfl⟩
    refine apart _ (filled _) ?_ ?_ ?_
    · exact ne_nil_of_mem (underscore _)
    · exact fun same => absurd (same ▸ underscore _) (by decide)
    · exact fun same => absurd (same ▸ underscore _) (by decide)
  · rename_i other
    rw [not_or, not_or] at other
    refine apart _ (fun safe mem => ?_) other.1 other.2.1 other.2.2
    obtain ⟨character, -, own⟩ := mem_flatMap.mp mem
    exact safeCharacters_allowed own

variable {scope : BackupScope}

theorem looksAt_backupScopeDirectory :
    looksAt (backupScopeDirectory scope) = true := by
  unfold backupScopeDirectory
  split
  · rfl
  · split
    · exact isEntryName_safeBackupDirectoryName
    · show (isEntryName _ && isEntryName _) = true
      rw [isEntryName_safeBackupDirectoryName, isEntryName_safeBackupDirectoryName]
      rfl

/-! ### Scopes -/

variable {scope : BackupScope} {scopes : List BackupScope}

namespace BackupScope

theorem place_perm {scopes : List BackupScope} :
    (place scope scopes).Perm (scope :: scopes) := by
  induction scopes with
  | nil => exact Perm.refl _
  | cons head rest ih =>
    unfold place
    split
    · exact Perm.refl _
    · exact (ih.cons head).trans (Perm.swap scope head rest)

variable {other : BackupScope}

theorem mem_insert : other ∈ insert scope scopes ↔ other = scope ∨ other ∈ scopes := by
  unfold insert
  split
  · rename_i there
    exact ⟨.inr, fun either => either.elim (fun same => same ▸ there) id⟩
  · rw [place_perm.mem_iff, mem_cons]

theorem nodup_insert (nodup : scopes.Nodup) : (insert scope scopes).Nodup := by
  unfold insert
  split
  · exact nodup
  · rename_i absent
    exact place_perm.nodup_iff.mpr (nodup_cons.mpr ⟨absent, nodup⟩)

variable {set : List BackupScope}

theorem mem_foldl_insert :
    other ∈ scopes.foldl (fun set scope => insert scope set) set ↔
      other ∈ set ∨ other ∈ scopes := by
  induction scopes generalizing set with
  | nil => simp
  | cons scope rest ih =>
    rw [foldl_cons, ih, mem_insert, mem_cons, or_assoc, or_left_comm]

theorem nodup_foldl_insert (nodup : set.Nodup) :
    (scopes.foldl (fun set scope => insert scope set) set).Nodup := by
  induction scopes generalizing set with
  | nil => exact nodup
  | cons scope rest ih => exact ih (nodup_insert nodup)

end BackupScope

def scopeOf (doc : Document) : BackupScope :=
  if text doc "accountId" = "" then .top
  else ⟨text doc "accountId", text doc "namespace"⟩

variable {doc : Document}

section

variable {content : Content} {settings : Settings}

theorem nodup_backupScopes : (backupScopes content settings).Nodup :=
  nodup_foldl_insert (nodup_singleton _)

theorem mem_backupScopes : scope ∈ backupScopes content settings ↔
      scope = .top ∨ ∃ doc ∈ topDocuments content settings, scope ∈ scopesOf doc := by
  unfold backupScopes
  rw [mem_foldl_insert, mem_singleton, mem_flatMap]

theorem proper_of_mem (mem : scope ∈ backupScopes content settings)
    (none : scope.accountId = "") : scope = .top := by
  rcases mem_backupScopes.mp mem with same | ⟨doc, -, shown⟩
  · exact same
  · unfold scopesOf at shown
    dsimp only at shown
    split at shown
    · nomatch shown
    · rename_i some
      split at shown <;> simp only [mem_cons, not_mem_nil, or_false] at shown
      · rw [shown] at none
        exact absurd none some
      · rcases shown with rfl | rfl <;> exact absurd none some

theorem mem_scopesOf_account (some : text doc "accountId" ≠ "") :
    ⟨text doc "accountId", ""⟩ ∈ scopesOf doc := by
  unfold scopesOf
  rw [if_neg some]
  split <;> exact .head _

theorem mem_scopesOf_namespace (some : text doc "accountId" ≠ "") :
    ⟨text doc "accountId", text doc "namespace"⟩ ∈ scopesOf doc := by
  unfold scopesOf
  rw [if_neg some]
  split
  · rename_i blank
    rw [blank]
    exact .head _
  · exact .tail _ (.head _)

theorem scopeOf_mem (mem : doc ∈ topDocuments content settings) :
    scopeOf doc ∈ backupScopes content settings := by
  refine mem_backupScopes.mpr ?_
  unfold scopeOf
  split
  · exact .inl rfl
  · rename_i some
    exact .inr ⟨doc, mem, mem_scopesOf_namespace some⟩

end

/-! ### Which scope selects a document -/

def Textual (doc : Document) (field : String) : Prop :=
  doc.field field = none ∨ ∃ value, doc.field field = some (.string value)

section

variable {env : Env} {doc : Document} {field : String} (topLevel : '.' ∉ field.toList)

include topLevel in
theorem valuesAt_topLevel : valuesAt doc field = (doc.field field).toList := by
  unfold valuesAt
  rw [pathParts_of_topLevel topLevel]
  rfl

variable (plain : beginsWith "$" field = false)

include plain topLevel

theorem matchesEntry_field {value : Value} (unsized : value.sizeAsked = none) :
    matchesEntry env doc (field, value) = matchesCondition env (doc.field field).toList value := by
  have connective : ¬(field = "$and" ∨ field = "$or" ∨ field = "$nor") := by
    rintro (rfl | rfl | rfl) <;> exact absurd plain (by decide)
  rw [matchesEntry, if_neg connective, if_neg (by rw [plain]; exact Bool.false_ne_true), unsized,
    valuesAt_topLevel topLevel]

theorem matchesEntry_text (textual : Textual doc field) {value : String} (some : value ≠ "") :
    matchesEntry env doc (field, .string value) = .ok (decide (text doc field = value)) := by
  rw [matchesEntry_field topLevel plain rfl]
  show Except.ok ((doc.field field).toList.any fun own => own.equals (.string value)) = _
  unfold text
  rcases textual with none | ⟨own, found⟩
  · rw [none]
    exact congrArg Except.ok (decide_eq_false (Ne.symm some)).symm
  · rw [found]
    show Except.ok (equals (.string own) (.string value) || false) =
      .ok (decide (own = value))
    rw [Bool.or_false]
    refine congrArg Except.ok (Bool.eq_iff_iff.mpr ?_)
    rw [equals_string, string.injEq, decide_eq_true_iff]

omit plain topLevel

theorem matchesFilter_singleton {entry : String × Value} {holds : Bool}
    (asked : matchesEntry env doc entry = .ok holds) :
    matchesFilter env doc [entry] = .ok holds := by
  unfold matchesFilter
  rw [asked]
  cases holds <;> rfl

theorem matchesFilter_pair {first second : String × Value} {holds holds' : Bool}
    (asked : matchesEntry env doc first = .ok holds)
    (asked' : matchesEntry env doc second = .ok holds') :
    matchesFilter env doc [first, second] = .ok (holds && holds') := by
  rw [matchesFilter, asked]
  cases holds
  · rfl
  · exact matchesFilter_singleton asked'

theorem matchesBranches_pair {left right : Document} {holds holds' : Bool}
    (asked : matchesFilter env doc left = .ok holds)
    (asked' : matchesFilter env doc right = .ok holds') :
    matchesBranches env doc (.array [.document left, .document right]) = .ok [holds, holds'] := by
  show matchesEach env doc [.document left, .document right] = _
  rw [matchesEach, asked]
  show (matchesEach env doc [.document right]).map _ = _
  rw [matchesEach, asked']
  rfl

include plain in
include topLevel in
theorem matchesFilter_blankOrMissing (textual : Textual doc field) :
    matchesFilter env doc (blankOrMissing field) = .ok (decide (text doc field = "")) := by
  have missing : matchesEntry env doc (field, .document [("$exists", .bool false)]) =
      .ok ((doc.field field).toList.isEmpty != false) := by
    rw [matchesEntry_field topLevel plain rfl]
    show matchesOperators env _ [("$exists", .bool false)] = _
    unfold matchesOperators
    rw [show matchesOperator env (doc.field field).toList "$exists" (.bool false) =
      .ok ((doc.field field).toList.isEmpty != false) from rfl]
    cases (doc.field field).toList.isEmpty != false <;> rfl
  have blank : matchesEntry env doc (field, .string "") =
      .ok ((doc.field field).toList.any fun own => own.equals (.string "")) := by
    rw [matchesEntry_field topLevel plain rfl]
    rfl
  refine matchesFilter_singleton ?_
  rw [matchesEntry, if_pos (Or.inr (Or.inl rfl)), matchesBranches_pair
    (matchesFilter_singleton missing) (matchesFilter_singleton blank)]
  refine congrArg Except.ok ?_
  unfold text
  rcases textual with none | ⟨own, found⟩
  · rw [none]
    rfl
  · rw [found]
    show (false || (equals (.string own) (.string "") || false || false)) = decide (own = "")
    rw [Bool.false_or, Bool.or_false, Bool.or_false, Bool.eq_iff_iff, equals_string,
      string.injEq, decide_eq_true_iff]

/-- A document whose account and namespace are texts is selected by its own scope. -/
theorem selects_scopeFilter (accountId : Textual doc "accountId")
    (namespaceName : Textual doc "namespace") (proper : scope.accountId = "" → scope = .top) :
    selects env (scopeFilter scope) doc = decide (scopeOf doc = scope) := by
  have account : '.' ∉ "accountId".toList := by decide
  have space : '.' ∉ "namespace".toList := by decide
  unfold selects scopeFilter
  by_cases none : scope.accountId = ""
  · rw [if_pos none, matchesFilter_blankOrMissing account (by decide) accountId, proper none]
    unfold scopeOf
    by_cases blank : text doc "accountId" = ""
    · rw [if_pos blank]
      simp [blank]
    · rw [if_neg blank]
      simp [blank, top]
  · have own : matchesEntry env doc ("accountId", .string scope.accountId) =
        .ok (decide (text doc "accountId" = scope.accountId)) :=
      matchesEntry_text account (by decide) accountId none
    have same : scopeOf doc = scope ↔ text doc "accountId" = scope.accountId ∧
        text doc "namespace" = scope.namespaceName := by
      unfold scopeOf
      by_cases blank : text doc "accountId" = ""
      · rw [if_pos blank, blank]
        exact ⟨fun equal => absurd (equal ▸ rfl) none, fun both => absurd both.1.symm none⟩
      · rw [if_neg blank, mk.injEq]
    rw [if_neg none]
    by_cases root : scope.namespaceName = ""
    · have branches := matchesBranches_pair (matchesFilter_singleton own)
        (matchesFilter_blankOrMissing space (by decide) namespaceName)
      have entry : matchesEntry env doc ("$and", .array
          [.document [("accountId", .string scope.accountId)],
            .document (blankOrMissing "namespace")]) =
          .ok (decide (scopeOf doc = scope)) := by
        rw [matchesEntry, if_pos (Or.inl rfl), branches]
        refine congrArg Except.ok ?_
        show (decide _ && (decide _ && true)) = _
        rw [Bool.and_true, Bool.eq_iff_iff, Bool.and_eq_true, decide_eq_true_iff,
          decide_eq_true_iff, decide_eq_true_iff, same, root]
      rw [if_pos root, matchesFilter_singleton entry]
    · rw [if_neg root, matchesFilter_pair own
        (matchesEntry_text space (by decide) namespaceName root)]
      show (decide _ && decide _) = _
      rw [Bool.eq_iff_iff, Bool.and_eq_true, decide_eq_true_iff, decide_eq_true_iff,
        decide_eq_true_iff, same]

include plain in
include topLevel in
theorem selects_in (textual : Textual doc field) {erns : List String} :
    selects env [(field, .document [("$in", .array (erns.map .string))])] doc = true ↔
      ∃ ern ∈ erns, doc.field field = some (.string ern) := by
  have entry : matchesEntry env doc
      (field, .document [("$in", .array (erns.map .string))]) =
      .ok ((erns.map string).any fun cand =>
        (doc.field field).toList.any fun own => own.equals cand) := by
    rw [matchesEntry_field topLevel plain rfl]
    show matchesOperators env _ [("$in", .array (erns.map .string))] = _
    unfold matchesOperators
    rw [show matchesOperator env (doc.field field).toList "$in"
      (.array (erns.map .string)) = .ok ((erns.map string).any fun cand =>
        (doc.field field).toList.any fun own => own.equals cand) from rfl]
    cases (erns.map string).any _ <;> rfl
  unfold selects
  rw [matchesFilter_singleton entry, any_map, any_eq_true]
  refine exists_congr fun ern => and_congr_right fun _ => ?_
  rcases textual with none | ⟨own, found⟩
  · rw [none]
    simp
  · rw [found]
    show (equals (.string own) (.string ern) || false) = true ↔ _
    rw [Bool.or_false, equals_string, Option.some.injEq]

end

/-! ### The content of the store -/

/-- A document an import can store: its names are distinct and plain, and it has an id. -/
abbrev Storable (doc : Document) : Prop := Reader.Stored { fields := [] } doc

/-- What the collections of a run hold: accounts and namespaces that are texts, ids and erns that
are unique. -/
structure WellFormed (content : Content) (settings : Settings) : Prop where
  accountId : ∀ name ∈ settings.covered, ∀ doc ∈ content name, Textual doc "accountId"
  namespaceName : ∀ name ∈ settings.covered, ∀ doc ∈ content name, Textual doc "namespace"
  link : ∀ name ∈ settings.covered, ∀ parent field, parentLinks name = some (parent, field) →
    ∀ doc ∈ content name, Textual doc field
  erns : ∀ name parent field, parentLinks name = some (parent, field) →
    ∀ first ∈ content parent, ∀ second ∈ content parent, ∀ ern,
      ernOf first = some ern → ernOf second = some ern → first = second
  storable : ∀ name ∈ settings.covered, ∀ doc ∈ content name, Storable doc
  ids : ∀ name ∈ settings.covered, ((content name).map oidOf).Nodup

/-- A backup is a partition: every document is in one file, no two files have one path, each is
where backups are listed, and the files together give back every document. -/
structure Partitions (special : List (String × Json) → Except Fault Value) (backend : Backend)
    (content : Content) (settings : Settings) (files : List BackupFile) : Prop where
  once : ∀ name ∈ settings.covered, ∀ doc ∈ content name, ¬Orphaned content name doc →
    ∃! file, file ∈ files ∧ doc ∈ file.documents name
  apart : (files.map BackupFile.directory).Nodup
  listed : ∀ file ∈ files, looksAt file.directory = true
  restored : ∀ name ∈ settings.covered, ∀ doc ∈ content name,
    ¬Orphaned content name doc →
      restoredOf doc ∈ (importFiles special backend (onDisk files) name).documents

/-- No two accounts, and no two namespaces of an account, are written to one directory. -/
def NamesApart (content : Content) (settings : Settings) : Prop :=
  ∀ first ∈ topDocuments content settings, ∀ second ∈ topDocuments content settings,
    text first "accountId" ≠ "" → text second "accountId" ≠ "" →
    safeBackupDirectoryName (text first "accountId") =
      safeBackupDirectoryName (text second "accountId") →
    text first "accountId" = text second "accountId" ∧
      (text first "namespace" ≠ "" → text second "namespace" ≠ "" →
        safeBackupDirectoryName (text first "namespace") =
          safeBackupDirectoryName (text second "namespace") →
        text first "namespace" = text second "namespace")

/-- What has an account of its own and no parent is in one that a resource is in, and in one of its
namespaces. -/
def ScopesShown (content : Content) (settings : Settings) : Prop :=
  ∀ name ∈ settings.covered, parentLinks name = none → ∀ doc ∈ content name,
    text doc "accountId" ≠ "" →
    ∃ shown ∈ topDocuments content settings,
      text shown "accountId" = text doc "accountId" ∧
        (text doc "namespace" ≠ "" → text shown "namespace" = text doc "namespace")

variable {name : String} {parent : String} {field : String}

section

variable {content : Content} {settings : Settings}

section

variable (linked : parentLinks name = some (parent, field))

include linked

theorem parentLinks_cases :
    (name = "eqs_message" ∧ parent = "eqs_queue" ∧ field = "queueErn") ∨
      name = "ens_message" ∧ parent = "ens_topic" ∧ field = "topicErn" := by
  unfold parentLinks at linked
  split at linked
  · cases linked
    exact .inl ⟨‹_›, rfl, rfl⟩
  · split at linked
    · cases linked
      exact .inr ⟨‹_›, rfl, rfl⟩
    · nomatch linked

theorem parent_topLevel (settings : Settings) :
    parent ∈ settings.topLevel ∧ parent ∈ settings.covered := by
  obtain ⟨passphrase, full⟩ := settings
  rcases parentLinks_cases linked with ⟨-, rfl, -⟩ | ⟨-, rfl, -⟩ <;>
    cases passphrase <;> cases full <;> decide

theorem field_plain : '.' ∉ field.toList ∧ beginsWith "$" field = false := by
  rcases parentLinks_cases linked with ⟨-, -, rfl⟩ | ⟨-, -, rfl⟩ <;> decide

end

theorem mem_topDocuments (mem : name ∈ settings.topLevel)
    (stored : doc ∈ content name) : doc ∈ topDocuments content settings :=
  mem_flatMap.mpr ⟨name, mem, stored⟩

/-- Whether a run has a scope for a document, in terms of what is stored. -/
theorem scopeOf_mem_iff : scopeOf doc ∈ backupScopes content settings ↔
      (text doc "accountId" ≠ "" → ∃ shown ∈ topDocuments content settings,
        text shown "accountId" = text doc "accountId" ∧
          (text doc "namespace" ≠ "" → text shown "namespace" = text doc "namespace")) := by
  rw [mem_backupScopes]
  unfold scopeOf
  by_cases none : text doc "accountId" = ""
  · rw [if_pos none]
    exact ⟨fun _ some => absurd none some, fun _ => .inl rfl⟩
  rw [if_neg none]
  constructor
  · rintro (same | ⟨shown, mem, own⟩) _
    · exact absurd (congrArg accountId same) none
    · refine ⟨shown, mem, ?_⟩
      unfold scopesOf at own
      dsimp only at own
      split at own
      · nomatch own
      · split at own <;>
          simp only [mem_cons, not_mem_nil, or_false, mk.injEq] at own
        · exact ⟨own.1.symm, fun some => absurd own.2 some⟩
        · rcases own with ⟨account, root⟩ | ⟨account, space⟩
          · exact ⟨account.symm, fun some => absurd root some⟩
          · exact ⟨account.symm, fun _ => space.symm⟩
  · intro seen
    obtain ⟨shown, mem, account, space⟩ := seen none
    refine .inr ⟨shown, mem, ?_⟩
    have some : text shown "accountId" ≠ "" := account ▸ none
    rw [← account]
    by_cases root : text doc "namespace" = ""
    · rw [root]
      exact mem_scopesOf_account some
    · rw [← space root]
      exact mem_scopesOf_namespace some

/-- The scopes a run has are written to different directories exactly when their names are. -/
theorem directories_nodup_iff : ((backupScopes content settings).map backupScopeDirectory).Nodup ↔
      NamesApart content settings := by
  constructor
  · intro nodup first own second own' some some' account
    have same := fun {left right : BackupScope} => inj_on_of_nodup_map nodup
      (x := left) (y := right)
    have root : ∀ {doc}, doc ∈ topDocuments content settings →
        text doc "accountId" ≠ "" →
        ⟨text doc "accountId", ""⟩ ∈ backupScopes content settings :=
      fun mem some => mem_backupScopes.mpr (.inr ⟨_, mem, mem_scopesOf_account some⟩)
    have space : ∀ {doc}, doc ∈ topDocuments content settings →
        text doc "accountId" ≠ "" →
        ⟨text doc "accountId", text doc "namespace"⟩ ∈ backupScopes content settings :=
      fun mem some => mem_backupScopes.mpr (.inr ⟨_, mem, mem_scopesOf_namespace some⟩)
    have directory : ∀ {accountId namespaceName : String}, accountId ≠ "" →
        backupScopeDirectory ⟨accountId, namespaceName⟩ = safeBackupDirectoryName accountId ::
          if namespaceName = "" then [] else [safeBackupDirectoryName namespaceName] :=
      fun some => if_neg some
    refine ⟨?_, fun filled filled' names => ?_⟩
    · have equal := same (root own some) (root own' some') (by
        rw [directory some, directory some', account])
      exact congrArg accountId equal
    · have equal := same (space own some) (space own' some') (by
        rw [directory some, directory some', account, if_neg filled, if_neg filled', names])
      exact congrArg namespaceName equal
  · intro apart
    refine (nodup_map_iff_inj_on nodup_backupScopes).mpr fun left own right own' same => ?_
    have shown : ∀ {scope}, scope ∈ backupScopes content settings → scope.accountId ≠ "" →
        ∃ doc ∈ topDocuments content settings, text doc "accountId" = scope.accountId ∧
          text doc "accountId" ≠ "" ∧
          (scope.namespaceName ≠ "" → text doc "namespace" = scope.namespaceName) := by
      intro scope mem some
      rcases mem_backupScopes.mp mem with rfl | ⟨doc, top, shown⟩
      · exact absurd rfl some
      · refine ⟨doc, top, ?_⟩
        unfold scopesOf at shown
        dsimp only at shown
        split at shown
        · nomatch shown
        · rename_i filled
          split at shown <;> simp only [mem_cons, not_mem_nil, or_false] at shown
          · rw [shown]
            exact ⟨rfl, filled, fun blank => absurd rfl blank⟩
          · rcases shown with rfl | rfl
            · exact ⟨rfl, filled, fun blank => absurd rfl blank⟩
            · exact ⟨rfl, filled, fun _ => rfl⟩
    by_cases none : left.accountId = ""
    · by_cases none' : right.accountId = ""
      · rw [proper_of_mem own none, proper_of_mem own' none']
      · rw [backupScopeDirectory, backupScopeDirectory, if_pos none, if_neg none'] at same
        exact absurd same.symm (cons_ne_nil _ _)
    · by_cases none' : right.accountId = ""
      · rw [backupScopeDirectory, backupScopeDirectory, if_neg none, if_pos none'] at same
        exact absurd same (cons_ne_nil _ _)
      · rw [backupScopeDirectory, backupScopeDirectory, if_neg none, if_neg none'] at same
        obtain ⟨accounts, spaces⟩ := List.cons.inj same
        obtain ⟨first, top, account, some, space⟩ := shown own none
        obtain ⟨second, top', account', some', space'⟩ := shown own' none'
        rw [← account, ← account'] at accounts
        obtain ⟨equal, inner⟩ := apart first top second top' some some' accounts
        have accountsEqual : left.accountId = right.accountId := by rw [← account, equal, account']
        have spacesEqual : left.namespaceName = right.namespaceName := by
          by_cases root : left.namespaceName = ""
          · by_cases root' : right.namespaceName = ""
            · rw [root, root']
            · rw [if_pos root, if_neg root'] at spaces
              exact absurd spaces.symm (cons_ne_nil _ _)
          · by_cases root' : right.namespaceName = ""
            · rw [if_neg root, if_pos root'] at spaces
              exact absurd spaces (cons_ne_nil _ _)
            · rw [if_neg root, if_neg root'] at spaces
              have names := (List.cons.inj spaces).1
              rw [← space root, ← space' root'] at names ⊢
              exact inner (space root ▸ root) (space' root' ▸ root') names
        obtain ⟨accountId, namespaceName⟩ := left
        obtain ⟨accountId', namespaceName'⟩ := right
        rw [mk.injEq]
        exact ⟨accountsEqual, spacesEqual⟩

end

/-! ### What a file holds -/

section

variable (env : Env) {content : Content} {settings : Settings}
  (wellFormed : WellFormed content settings)

include wellFormed

theorem mem_documents_linked
    (linked : parentLinks name = some (parent, field)) (covered : name ∈ settings.covered)
    (mem : scope ∈ backupScopes content settings) (stored : doc ∈ content name) :
    doc ∈ (writeScopeBackup env content settings scope).documents name ↔
      ∃ other ∈ content parent, scopeOf other = scope ∧ ∃ ern, ernOf other = some ern ∧
        doc.field field = some (.string ern) := by
  have topLevel := (parent_topLevel linked settings).2
  have selected : selects env (collectionScopeFilter env content name scope)
      doc = true ↔ ∃ ern ∈ parentErns env content parent scope,
        doc.field field = some (.string ern) := by
    rw [collectionScopeFilter, linked]
    exact selects_in (field_plain linked).1 (field_plain linked).2
      (wellFormed.link name covered parent field linked doc stored)
  unfold writeScopeBackup
  dsimp only
  rw [if_pos covered, mem_filter, selected]
  constructor
  · rintro ⟨-, ern, inScope, own⟩
    obtain ⟨other, found, named⟩ := mem_filterMap.mp inScope
    obtain ⟨there, asked⟩ := mem_filter.mp found
    rw [selects_scopeFilter (wellFormed.accountId parent topLevel other there)
      (wellFormed.namespaceName parent topLevel other there) (proper_of_mem mem),
      decide_eq_true_iff] at asked
    exact ⟨other, there, asked, ern, named, own⟩
  · rintro ⟨other, there, asked, ern, named, own⟩
    refine ⟨stored, ern, mem_filterMap.mpr ⟨other, mem_filter.mpr ⟨there, ?_⟩, named⟩, own⟩
    rw [selects_scopeFilter (wellFormed.accountId parent topLevel other there)
      (wellFormed.namespaceName parent topLevel other there) (proper_of_mem mem)]
    exact decide_eq_true asked

theorem mem_documents_own (own : parentLinks name = none) (covered : name ∈ settings.covered)
    (mem : scope ∈ backupScopes content settings) (stored : doc ∈ content name) :
    doc ∈ (writeScopeBackup env content settings scope).documents name ↔ scopeOf doc = scope := by
  unfold writeScopeBackup
  dsimp only
  rw [if_pos covered, mem_filter, collectionScopeFilter, own]
  rw [selects_scopeFilter (wellFormed.accountId name covered doc stored)
    (wellFormed.namespaceName name covered doc stored) (proper_of_mem mem),
    decide_eq_true_iff]
  exact and_iff_right stored

theorem scope_unique (covered : name ∈ settings.covered)
    {first second : BackupScope} (mem : first ∈ backupScopes content settings)
    (member' : second ∈ backupScopes content settings) (stored : doc ∈ content name)
    (inFirst : doc ∈ (writeScopeBackup env content settings first).documents name)
    (inSecond : doc ∈ (writeScopeBackup env content settings second).documents name) :
    first = second := by
  cases linked : parentLinks name with
  | none =>
    rw [mem_documents_own env wellFormed linked covered mem stored] at inFirst
    rw [mem_documents_own env wellFormed linked covered member' stored] at inSecond
    rw [← inFirst, inSecond]
  | some link =>
    obtain ⟨parent, field⟩ := link
    rw [mem_documents_linked env wellFormed linked covered mem stored] at inFirst
    rw [mem_documents_linked env wellFormed linked covered member' stored] at inSecond
    obtain ⟨other, there, scope, ern, named, own⟩ := inFirst
    obtain ⟨other', there', scope', ern', named', own'⟩ := inSecond
    have same : ern = ern' := string.inj (Option.some.inj (own.symm.trans own'))
    rw [← scope, ← scope',
      wellFormed.erns name parent field linked other there other' there' ern named (same ▸ named')]

omit wellFormed in
theorem linked_shown (linked : parentLinks name = some (parent, field))
    (placed : ¬Orphaned content name doc) :
    ∃ other ∈ content parent, scopeOf other ∈ backupScopes content settings ∧
      ∃ ern, ernOf other = some ern ∧ doc.field field = some (.string ern) := by
  rw [Orphaned, linked] at placed
  by_contra absent
  refine placed fun other there ern named own => absent ⟨other, there, ?_, ern, named, own⟩
  exact scopeOf_mem (mem_topDocuments (parent_topLevel linked settings).1 there)

/-- Every document is in exactly one file exactly when there is one for its scope. -/
theorem once_iff : (∀ name ∈ settings.covered, ∀ doc ∈ content name, ¬Orphaned content name doc →
      ∃! file, file ∈ runBackup env content settings ∧ doc ∈ file.documents name) ↔
      ScopesShown content settings := by
  constructor
  · intro once name covered own doc stored
    have placed : ¬Orphaned content name doc := by
      rw [Orphaned, own]
      exact id
    obtain ⟨file, ⟨written, inFile⟩, -⟩ := once name covered doc stored placed
    obtain ⟨scope, mem, rfl⟩ := mem_map.mp written
    have same := (mem_documents_own env wellFormed own covered mem stored).mp inFile
    exact scopeOf_mem_iff.mp (same ▸ mem)
  · intro shown name covered doc stored placed
    have exists_scope : ∃ scope ∈ backupScopes content settings,
        doc ∈ (writeScopeBackup env content settings scope).documents name := by
      cases linked : parentLinks name with
      | none =>
        have mem := scopeOf_mem_iff.mpr (shown name covered linked doc stored)
        exact ⟨_, mem, (mem_documents_own env wellFormed linked covered mem stored).mpr rfl⟩
      | some link =>
        obtain ⟨parent, field⟩ := link
        obtain ⟨other, there, mem, ern, named, own⟩ := linked_shown linked placed
        exact ⟨_, mem, (mem_documents_linked env wellFormed linked covered mem stored).mpr
            ⟨other, there, rfl, ern, named, own⟩⟩
    obtain ⟨scope, mem, inFile⟩ := exists_scope
    refine ⟨_, ⟨mem_map_of_mem mem, inFile⟩, fun file held => ?_⟩
    obtain ⟨scope', member', rfl⟩ := mem_map.mp held.1
    rw [scope_unique env wellFormed covered mem member' stored inFile held.2]

/-! ### What the files give back -/

omit wellFormed in
theorem mem_content (inFile : doc ∈ (writeScopeBackup env content settings scope).documents name) :
    doc ∈ content name ∧ name ∈ settings.covered := by
  unfold writeScopeBackup at inFile
  dsimp only at inFile
  split at inFile
  · rename_i covered
    exact ⟨(mem_filter.mp inFile).1, covered⟩
  · nomatch inFile

omit wellFormed in
theorem onDisk_of_apart {files : List BackupFile}
    (apart : (files.map BackupFile.directory).Nodup) : onDisk files = files := by
  have general : ∀ disk : List BackupFile,
      ((disk ++ files).map BackupFile.directory).Nodup →
      files.foldl (fun disk file =>
        (disk.filter fun other => other.directory ≠ file.directory) ++ [file]) disk =
        disk ++ files := by
    clear apart
    induction files with
    | nil => exact fun disk _ => (append_nil disk).symm
    | cons file rest ih =>
      intro disk apart
      have kept : (disk.filter fun other => other.directory ≠ file.directory) = disk := by
        refine filter_eq_self.mpr fun other mem => decide_eq_true fun same => ?_
        rw [map_append] at apart
        exact disjoint_of_nodup_append apart (mem_map_of_mem mem)
          (same ▸ .head _)
      rw [foldl_cons, kept, ih (disk ++ [file]) (by
        rwa [append_assoc]), append_assoc]
      rfl
  exact general [] apart

variable (special : List (String × Json) → Except Fault Value) {backend : Backend}

include special

/-- The files of different scopes add what they hold to a collection. -/
theorem importFiles_eq (covered : name ∈ settings.covered)
    (members : ∀ scope ∈ scopes, scope ∈ backupScopes content settings) (nodup : scopes.Nodup) :
    importFiles special backend (scopes.map (writeScopeBackup env content settings)) name =
      unindexed ((scopes.flatMap fun scope =>
        (writeScopeBackup env content settings scope).documents name).map restoredOf) := by
  have general : ∀ before : List Document,
      (∀ other ∈ before, ∀ scope ∈ scopes, oidOf other ∉
        ((writeScopeBackup env content settings scope).documents name).map oidOf) →
      (scopes.map (writeScopeBackup env content settings)).foldl
        (fun collection file => (importCollection special backend collection
          (file.payload name)).2) (unindexed before) =
      unindexed (before ++ (scopes.flatMap fun scope =>
        (writeScopeBackup env content settings scope).documents name).map restoredOf) := by
    induction scopes with
    | nil => exact fun before _ => congrArg unindexed (append_nil before).symm
    | cons scope rest ih =>
      intro before fresh
      obtain ⟨absent, others⟩ := nodup_cons.mp nodup
      have stored : ∀ doc ∈ (writeScopeBackup env content settings scope).documents name,
          Storable doc := fun doc inFile =>
        wellFormed.storable name covered doc (mem_content env inFile).1
      have ids : (((writeScopeBackup env content settings scope).documents name).map
          oidOf).Nodup := by
        unfold writeScopeBackup
        dsimp only
        rw [if_pos covered]
        exact (wellFormed.ids name covered).sublist (filter_sublist.map oidOf)
      have imported := foldl_importDocument special backend stored ids
        { imported := 0, failed := 0 } fun other mem => fresh other mem scope (.head _)
      rw [map_cons, foldl_cons, flatMap_cons, map_append, ← append_assoc,
        ← ih (fun other mem => members other (.tail _ mem)) others]
      · exact congrArg (List.foldl _ · _) imported
      · intro other mem next inRest
        rcases mem_append.mp mem with early | last
        · exact fresh other early next (.tail _ inRest)
        · obtain ⟨doc, inFile, rfl⟩ := mem_map.mp last
          rw [oidOf_restoredOf_eq stored inFile]
          intro again
          obtain ⟨document', inNext, same⟩ := mem_map.mp again
          have here := (mem_content env inFile).1
          have equal : document' = doc := inj_on_of_nodup_map
            (wellFormed.ids name covered) (mem_content env inNext).1 here same
          rw [equal] at inNext
          have one := scope_unique env wellFormed covered
            (members scope (.head _)) (members next (.tail _ inRest)) here
            inFile inNext
          exact absent (one ▸ inRest)
  exact general [] nofun

theorem partitions_iff :
    Partitions special backend content settings (runBackup env content settings) ↔
      NamesApart content settings ∧ ScopesShown content settings := by
  have directories : (runBackup env content settings).map BackupFile.directory =
      (backupScopes content settings).map backupScopeDirectory := by
    rw [runBackup, map_map]
    rfl
  constructor
  · intro partitions
    refine ⟨directories_nodup_iff.mp ?_, (once_iff env wellFormed).mp partitions.once⟩
    rw [← directories]
    exact partitions.apart
  · rintro ⟨apart, shown⟩
    have nodup : ((runBackup env content settings).map BackupFile.directory).Nodup := by
      rw [directories]
      exact directories_nodup_iff.mpr apart
    have once := (once_iff env wellFormed).mpr shown
    refine ⟨once, nodup, fun file written => ?_, fun name covered doc stored placed => ?_⟩
    · obtain ⟨scope, -, rfl⟩ := mem_map.mp written
      exact looksAt_backupScopeDirectory
    · obtain ⟨file, ⟨written, inFile⟩, -⟩ := once name covered doc stored placed
      obtain ⟨scope, mem, rfl⟩ := mem_map.mp written
      rw [onDisk_of_apart nodup, runBackup, importFiles_eq env wellFormed special
        covered (fun _ mem => mem) nodup_backupScopes]
      exact mem_map_of_mem (mem_flatMap.mpr ⟨scope, mem, inFile⟩)

end

/-! ### Runs -/

/-- For every content of the store, whatever is configured and whichever backend it is imported
into: the files of a run hold each document once, in different places where backups are listed, and
give all of them back, exactly when no two accounts and no two namespaces of one have the same
directory name, and whatever a bucket holds is in an account and a namespace some resource is in. -/
theorem backup_partitions (special : List (String × Json) → Except Fault Value) (backend : Backend)
    (env : Env) (content : Content) (settings : Settings)
    (wellFormed : WellFormed content settings) :
    Partitions special backend content settings (runBackup env content settings) ↔
      NamesApart content settings ∧ ScopesShown content settings :=
  partitions_iff env wellFormed special

/-- A document of an id and texts. -/
def written (doc : Oid × List (String × String)) : Document :=
  ("_id", .oid doc.1) :: doc.2.map fun entry => (entry.1, .string entry.2)

/-- A store that holds some collections. -/
def holding (entries : List (String × List (Oid × List (String × String)))) : Content := fun name =>
  ((entries.lookup name).getD []).map written

/-- The names of texts beside an id are distinct and plain. -/
def Named (texts : List (String × String)) : Prop :=
  ("_id" :: texts.map Prod.fst).Nodup ∧ ∀ entry ∈ texts, isPlainName entry.1 = true

instance (texts : List (String × String)) : Decidable (Named texts) :=
  inferInstanceAs (Decidable (_ ∧ _))

section

variable {doc : Oid × List (String × String)}

theorem textual_written {field : String} (other : field ≠ "_id") : Textual (written doc) field := by
  unfold Textual written
  rw [field_cons, if_neg other.symm]
  generalize doc.2 = texts
  induction texts with
  | nil => exact .inl rfl
  | cons entry rest ih =>
    rw [map_cons, field_cons]
    split
    · exact .inr ⟨entry.2, rfl⟩
    · exact ih

theorem oidOf_written : oidOf (written doc) = some doc.1 := rfl

theorem storable_written (named : Named doc.2) : Storable (written doc) := by
  have distinct : (written doc).Distinct := by
    unfold Document.Distinct written
    rw [map_cons, map_map]
    exact named.1
  have plain : ∀ texts : List (String × String), (∀ entry ∈ texts, isPlainName entry.1 = true) →
      isPlainFields (texts.map fun entry => (entry.1, .string entry.2)) = true := by
    intro texts all
    induction texts with
    | nil => rfl
    | cons entry rest ih =>
      simp only [map_cons, isPlainFields, isPlainField, all entry (.head _), isPlain,
        ih fun other mem => all other (.tail _ mem), Bool.and_self]
  have whole : isPlainFields (written doc) = true := by
    unfold written
    simp only [isPlainFields, isPlainField, isPlain, plain doc.2 named.2, Bool.and_true]
    decide
  exact stored_of_entries distinct whole doc.1 rfl
    fun _ _ _ known => absurd known (by simp [Reader.kindOf])

end

/-- A store of documents of texts, the ids of each collection and the erns of the queues and of the
topics distinct. -/
theorem wellFormed_holding {entries : List (String × List (Oid × List (String × String)))}
    {settings : Settings}
    (each : ∀ entry ∈ entries, (entry.2.map Prod.fst).Nodup ∧ ∀ doc ∈ entry.2, Named doc.2)
    (erns : ∀ parent ∈ ["eqs_queue", "ens_topic"], ((holding entries parent).map ernOf).Nodup) :
    WellFormed (holding entries) settings := by
  have inEntry : ∀ {name doc}, doc ∈ holding entries name →
      ∃ own, doc = written own ∧ Named own.2 := by
    intro name doc mem
    obtain ⟨own, inDocs, rfl⟩ := mem_map.mp mem
    refine ⟨own, rfl, ?_⟩
    cases found : entries.lookup name with
    | none =>
      rw [found] at inDocs
      cases inDocs
    | some docs =>
      rw [found] at inDocs
      exact (each _ (mem_of_lookup found)).2 own inDocs
  have textual : ∀ {name doc field}, doc ∈ holding entries name → field ≠ "_id" →
      Textual doc field := by
    intro name doc field mem other
    obtain ⟨own, rfl, -⟩ := inEntry mem
    exact textual_written other
  refine ⟨fun _ _ _ mem => textual mem (by decide), fun _ _ _ mem => textual mem (by decide),
    fun _ _ _ _ linked _ mem => textual mem ?_, ?_, fun _ _ _ mem => ?_, fun name _ => ?_⟩
  · rcases parentLinks_cases linked with ⟨-, -, rfl⟩ | ⟨-, -, rfl⟩ <;> decide
  · intro name parent field linked first own second own' ern same same'
    have among : parent ∈ ["eqs_queue", "ens_topic"] := by
      rcases parentLinks_cases linked with ⟨-, rfl, -⟩ | ⟨-, rfl, -⟩ <;> decide
    exact inj_on_of_nodup_map (erns parent among) own own' (same.trans same'.symm)
  · obtain ⟨own, rfl, named⟩ := inEntry mem
    exact storable_written named
  · unfold holding
    rw [map_map]
    have ids : oidOf ∘ written = some ∘ Prod.fst := funext fun _ => oidOf_written
    rw [ids, ← map_map]
    refine Nodup.map (Option.some_injective _) ?_
    cases found : entries.lookup name with
    | none => exact .nil
    | some docs => exact (each _ (mem_of_lookup found)).1

def quiet : Env where
  systemClock := fun _ => 0
  freshOid := fun _ => 0
  regex := fun _ => none

def owned (id : Oid) (accountId namespaceName : String) : Oid × List (String × String) :=
  (id, [("accountId", accountId), ("namespace", namespaceName)])

/-- Two accounts, one with a namespace, with a queue each and messages in both. -/
def twoQueues : Content := holding
  [("eam_user", [owned 1 "north" "", owned 2 "south" ""]),
   ("eqs_queue",
    [(3, [("accountId", "north"), ("namespace", "shop"), ("ern", "ern:eqs:queue:orders")]),
     (4, [("accountId", "south"), ("ern", "ern:eqs:queue:bills")])]),
   ("eqs_message",
    [(5, [("queueErn", "ern:eqs:queue:orders"), ("body", "one")]),
     (6, [("queueErn", "ern:eqs:queue:bills"), ("body", "two")]),
     (7, [("queueErn", "ern:eqs:queue:orders"), ("body", "three")])]),
   ("esm_object", [owned 8 "north" "shop"])]

/-- The messages follow their queues, into the scopes of the two accounts and of the namespace. -/
theorem backup_partitions_queues : Partitions refuseAll .mongo twoQueues ⟨false, true⟩
      (runBackup quiet twoQueues ⟨false, true⟩) := by
  refine (backup_partitions refuseAll .mongo quiet twoQueues ⟨false, true⟩
    (wellFormed_holding (by decide) (by decide))).mpr ⟨?_, ?_⟩
  · unfold NamesApart
    decide
  · unfold ScopesShown
    decide

/-- Two accounts whose names differ in what a directory's name replaces. -/
def twoAccounts : Content :=
  holding [("eam_user", [owned 1 "north/east" "", owned 2 "north_east" ""])]

/-- An object in a namespace that neither its bucket nor anything else is in. -/
def strayObject : Content :=
  holding [("esm_bucket", [owned 1 "000000000000" ""]),
    ("esm_object", [owned 2 "000000000000" "reports"])]

/-- Of two accounts only one comes back, and an object in a namespace of its own not at all. -/
theorem backup_loses_documents : ¬Partitions refuseAll .mongo twoAccounts ⟨false, false⟩
        (runBackup quiet twoAccounts ⟨false, false⟩) ∧
      ¬Partitions refuseAll .mongo strayObject ⟨false, true⟩
        (runBackup quiet strayObject ⟨false, true⟩) := by
  constructor
  · intro partitions
    have apart := ((partitions_iff quiet (wellFormed_holding (by decide) (by decide))
      refuseAll).mp partitions).1
    have own : written (owned 1 "north/east" "") ∈ topDocuments twoAccounts ⟨false, false⟩ :=
      .head _
    have own' : written (owned 2 "north_east" "") ∈ topDocuments twoAccounts ⟨false, false⟩ :=
      .tail _ (.head _)
    exact absurd (apart _ own _ own' (by decide) (by decide) (by decide)).1 (by decide)
  · intro partitions
    have shown := ((partitions_iff quiet (wellFormed_holding (by decide) (by decide))
      refuseAll).mp partitions).2
    obtain ⟨doc, mem, -, space⟩ := shown "esm_object" (by decide) rfl _
      (mem_singleton.mpr rfl) (by decide)
    have only : doc = written (owned 1 "000000000000" "") := mem_singleton.mp mem
    rw [only] at space
    exact absurd (space (by decide)) (by decide)

end Euclid.Emm.Backup
