/-
This file proves when a completed upload holds what was uploaded.

The files of the parts hold beginnings of the bodies that were acknowledged, and the pass reads a
beginning of each. So no byte comes that was not sent, and the object is right exactly if nothing
was cut off, and the order of the names joins the bodies as the order of the numbers does.
-/

import Euclid.Esm.Upload
import Mathlib.Algebra.Order.BigOperators.Group.List
import Mathlib.Data.List.Infix

namespace Euclid.Esm

open List Function Except Nat

open Core (Text Gcm Ivs ObjectEncryptor ValidKey)
open Core.HttpSignature (stol)

/-! ### What an object holds -/

/-- The bytes of an object, under its own key. -/
def Env.contents (env : Env) (store : Store) (object : Object) : Option Bytes :=
  match readKeyForObject env.keys object.encryptionKeyErn, store.files object.place with
  | .ok [], some file => some file
  | .ok material, some file =>
    (Core.ObjectCipher.decryptWholeFile env.gcm material file "").toOption
  | _, _ => none

/-- The key has a completed object that holds the bytes, and their size and checksum are
recorded. -/
def Env.Holds (env : Env) (store : Store) (bytes : Bytes) : Prop :=
  ∃ object, store.object = some object ∧ object.status = .completed ∧
    env.contents store object = some bytes ∧ object.size = bytes.length ∧
    object.md5Sum = env.md5 bytes

/-! ### What is read -/

def Faults.bytesRead (faults : Faults) (parts : List PartFile) : Bytes :=
  (parts.flatMap faults.piecesOf).flatten

open Faults

/-- What the checksum is taken of. -/
def Faults.bytesHashed (faults : Faults) (material : Bytes) (parts : List PartFile) : Bytes :=
  if material = [] then faults.readBack (faults.bytesRead parts) else faults.bytesRead parts

theorem bytesRead_cons (faults : Faults) (part : PartFile) (rest : List PartFile) :
    faults.bytesRead (part :: rest) = (faults.piecesOf part).flatten ++ faults.bytesRead rest := by
  rw [bytesRead, flatMap_cons, flatten_append]
  rfl

section

variable {faults : Faults}

theorem copyChunks_eq {name : Text} {index : ℕ} {pieces : List Bytes} {assembled longer : Bytes}
    (copied : faults.copyChunks name index pieces assembled = some longer) :
    longer = assembled ++ pieces.flatten := by
  induction pieces generalizing index assembled with
  | nil =>
    rw [copyChunks, Option.some.injEq] at copied
    rw [← copied, flatten_nil, append_nil]
  | cons chunk rest ih =>
    rw [copyChunks] at copied
    split at copied
    · rw [ih copied, append_assoc, flatten_cons]
    · nomatch copied

variable {parts : List PartFile}

theorem copyParts_eq {assembled longer : Bytes}
    (copied : faults.copyParts parts assembled = some longer) :
    longer = assembled ++ faults.bytesRead parts := by
  induction parts generalizing assembled with
  | nil =>
    rw [copyParts, Option.some.injEq] at copied
    rw [← copied]
    exact (append_nil _).symm
  | cons part rest ih =>
    rw [copyParts] at copied
    split at copied
    · rename_i opens
      obtain ⟨next, first, others⟩ := Option.bind_eq_some_iff.mp copied
      rw [ih others, copyChunks_eq first, append_assoc, bytesRead_cons,
        piecesOf, if_pos opens]
    · nomatch copied

/-- The file holds what was read, in the clear or under the key. -/
structure Assembled.Of (env : Env) (faults : Faults) (material : Bytes)
    (parts : List PartFile) (assembled : Assembled) : Prop where
  clear : material = [] → assembled.file = faults.bytesRead parts
  encrypted : material ≠ [] →
    Core.ObjectCipher.decryptWholeFile env.gcm material assembled.file "" =
      .ok (faults.bytesRead parts)
  size : assembled.size = (faults.bytesRead parts).length
  md5Sum : assembled.md5Sum = env.md5 (faults.bytesHashed material parts)

variable {assembled : Assembled} {env : Env}

theorem assembleClear_of (done : assembleClear env faults parts = some assembled) :
    assembled.Of env faults [] parts := by
  unfold assembleClear at done
  split at done
  · nomatch done
  · split at done
    · nomatch done
    · rename_i written copied
      split at done
      · nomatch done
      · obtain rfl := Option.some.inj done
        have whole : written = faults.bytesRead parts := by
          rw [copyParts_eq copied, nil_append]
        exact ⟨fun _ => whole, fun encrypted => absurd rfl encrypted, congrArg length whole,
          by rw [bytesHashed, if_pos rfl, whole]⟩

variable {material : Bytes}

theorem assembleEncrypted_of {ivs : Ivs} (valid : ValidKey material)
    (done : assembleEncrypted env ivs faults material parts = some assembled) :
    assembled.Of env faults material parts := by
  unfold assembleEncrypted at done
  dsimp only at done
  split at done
  · nomatch done
  · rw [Core.encryptPieces_eq env.lawful valid] at done
    split at done
    · nomatch done
    · rename_i finished
      split at finished
      · rename_i fits
        obtain ⟨rfl, rfl⟩ := Prod.mk.inj (ok.inj finished)
        rw [Core.stored_length env.lawful.toSized] at fits
        have reads := @Core.stored_readsBack _ ivs _ _ env.lawful valid fits
        rw [Option.some.injEq] at done
        subst done
        exact ⟨fun clear => absurd clear valid.ne_nil, fun _ => reads.whole "", rfl,
          by rw [bytesHashed, if_neg valid.ne_nil]; rfl⟩
      · nomatch finished

variable {completion : Completion}

theorem assemble_of (valid : material ≠ [] → ValidKey material)
    (done : assemble env completion material parts = some assembled) :
    assembled.Of env completion.faults material parts := by
  unfold assemble at done
  split at done
  · rename_i clear
    exact clear ▸ assembleClear_of done
  · rename_i encrypted
    exact assembleEncrypted_of (valid encrypted) done

/-! ### Reading to the end -/

/-- The part is opened and read to its end, unless there is nothing in it. -/
def Faults.ReadsWhole (faults : Faults) (part : PartFile) : Prop :=
  part.2 ≠ [] → faults.opensPart part.1 = true ∧
    ∀ index, index < chunkCount kAssemblyBufferSize part.2.length →
      faults.readsPart part.1 index = true

theorem prefix_readChunks (reads : ℕ → Bool) (index : ℕ) (pieces : List Bytes) :
    readChunks reads index pieces <+: pieces := by
  induction pieces generalizing index with
  | nil => exact prefix_rfl
  | cons chunk rest ih =>
    rw [readChunks]
    split
    · exact (prefix_cons_inj chunk).mpr (ih (index + 1))
    · exact nil_prefix

theorem readChunks_eq_iff (reads : ℕ → Bool) (index : ℕ) (pieces : List Bytes) :
    readChunks reads index pieces = pieces ↔
      ∀ later, later < pieces.length → reads (index + later) = true := by
  induction pieces generalizing index with
  | nil => simp [readChunks]
  | cons chunk rest ih =>
    rw [readChunks]
    constructor
    · intro whole later less
      split at whole
      · rename_i first
        cases later with
        | zero => exact first
        | succ later =>
          have others := (ih _).mp (cons_injective whole) later (lt_of_succ_lt_succ less)
          rwa [add_right_comm] at others
      · nomatch whole
    · intro all
      have others : readChunks reads (index + 1) rest = rest := by
        refine (ih _).mpr fun later less => ?_
        rw [add_right_comm]
        exact all (later + 1) (succ_lt_succ less)
      have first : reads index = true := all 0 (zero_lt_succ _)
      rw [if_pos first, others]

theorem ne_nil_of_mem_chunks {size : ℕ} (positive : 0 < size) {bytes chunk : Bytes}
    (mem : chunk ∈ chunks size bytes) : chunk ≠ [] := by
  obtain ⟨index, within, rfl⟩ := mem_map.mp mem
  have before := (lt_chunkCount positive).mp (mem_range.mp within)
  intro empty
  have length := congrArg length empty
  rw [slice, length_take, length_drop, length_nil] at length
  omega

theorem eq_of_flatten_eq {first pieces : List Bytes} (beginning : first <+: pieces)
    (some : ∀ piece ∈ pieces, piece ≠ []) (same : first.flatten = pieces.flatten) :
    first = pieces := by
  obtain ⟨rest, rfl⟩ := beginning
  rw [flatten_append, self_eq_append_right, flatten_eq_nil_iff] at same
  cases rest with
  | nil => rw [append_nil]
  | cons piece others =>
    exact absurd (same piece (.head _))
      (some piece (mem_append_right _ (.head _)))

theorem kAssemblyBufferSize_pos : 0 < kAssemblyBufferSize := by decide

theorem length_chunks (size : ℕ) (bytes : Bytes) :
    (chunks size bytes).length = chunkCount size bytes.length := by
  rw [chunks, length_map, length_range]

variable {part : PartFile}

theorem prefix_flatten_piecesOf : (faults.piecesOf part).flatten <+: part.2 := by
  rw [piecesOf]
  split
  · obtain ⟨rest, whole⟩ := prefix_readChunks (faults.readsPart part.1) 0
      (chunks kAssemblyBufferSize part.2)
    refine ⟨rest.flatten, ?_⟩
    rw [partChunks, ← flatten_append, whole, flatten_chunks kAssemblyBufferSize_pos]
  · exact nil_prefix

theorem flatten_piecesOf_eq_iff :
    (faults.piecesOf part).flatten = part.2 ↔ faults.ReadsWhole part := by
  have reads : (faults.partChunks part).flatten = part.2 ↔
      ∀ index, index < chunkCount kAssemblyBufferSize part.2.length →
        faults.readsPart part.1 index = true := by
    have all := readChunks_eq_iff (faults.readsPart part.1) 0 (chunks kAssemblyBufferSize part.2)
    simp only [length_chunks, zero_add] at all
    rw [← all]
    constructor
    · intro same
      refine eq_of_flatten_eq (prefix_readChunks _ _ _)
        (fun _ => ne_nil_of_mem_chunks kAssemblyBufferSize_pos) ?_
      rwa [flatten_chunks kAssemblyBufferSize_pos]
    · intro same
      rw [partChunks, same, flatten_chunks kAssemblyBufferSize_pos]
  unfold piecesOf ReadsWhole
  cases opens : faults.opensPart part.1 with
  | true =>
    rw [if_pos rfl, reads]
    refine ⟨fun all _ => ⟨rfl, all⟩, fun whole index less => ?_⟩
    refine (whole ?_).2 index less
    intro empty
    have before := (lt_chunkCount kAssemblyBufferSize_pos).mp less
    rw [empty] at before
    exact absurd before (not_lt_zero _)
  | false =>
    rw [if_neg (by decide), flatten_nil]
    refine ⟨fun empty some => absurd empty.symm some, fun whole => ?_⟩
    by_contra some
    exact absurd (whole (Ne.symm some)).1 (by decide)

/-! ### What is staged -/

/-- The acknowledged bodies by number, the last for each. -/
abbrev Bodies := List (Int × Bytes)

/-- The bodies joined in the order of their numbers. -/
def joined (bodies : Bodies) : Bytes :=
  (bodies.insertionSort fun first second => first.1 ≤ second.1).flatMap Prod.snd

/-- The bodies in the order of the names of their files. -/
def byName (bodies : Bodies) : Bodies :=
  bodies.insertionSort fun first second => partFileName first.1 ≤ partFileName second.1

/-- The files are those of the acknowledged parts, and each holds a beginning of the body. -/
structure Staged (parts : List PartFile) (bodies : Bodies) : Prop where
  numbers : (bodies.map Prod.fst).Nodup
  files : ∃ written : Int → Bytes,
    parts = bodies.map (fun body => (partFileName body.1, written body.1)) ∧
      ∀ body ∈ bodies, written body.1 <+: body.2

theorem staged_nil : Staged [] [] :=
  ⟨.nil, fun _ => [], rfl, nofun⟩

/-- The last body of a number takes the place of the others. -/
def acknowledge (number : Int) (body : Bytes) (bodies : Bodies) : Bodies :=
  bodies.filter (·.1 ≠ number) ++ [(number, body)]

variable {bodies : Bodies} (staged : Staged parts bodies)

include staged in
theorem Staged.write (number : Int) (body : Bytes) (count : ℕ) :
    Staged (writeFile (partFileName number) (body.take count) parts)
      (acknowledge number body bodies) := by
  obtain ⟨written, rfl, beginnings⟩ := staged.files
  have others : ∀ other ∈ bodies.filter (·.1 ≠ number), other.1 ≠ number :=
    fun other mem => of_decide_eq_true (mem_filter.mp mem).2
  refine ⟨?_, Function.update written number (body.take count), ?_, ?_⟩
  · rw [acknowledge, map_append, map_singleton]
    refine Nodup.append ?_ (nodup_singleton number) ?_
    · exact staged.numbers.sublist (filter_sublist.map _)
    · intro other mem same
      obtain ⟨entry, kept, rfl⟩ := mem_map.mp mem
      exact others entry kept (mem_singleton.mp same)
  · rw [writeFile, acknowledge, map_append, map_singleton, update_self,
      filter_map]
    refine congrArg (· ++ _) ?_
    have same : bodies.filter ((fun part : PartFile => decide (part.1 ≠ partFileName number)) ∘
        fun body => (partFileName body.1, written body.1)) = bodies.filter (·.1 ≠ number) := by
      refine filter_congr fun other _ => ?_
      exact decide_eq_decide.mpr partFileName_injective.ne_iff
    rw [same]
    refine map_congr_left fun other mem => ?_
    rw [update_of_ne (others other mem)]
  · intro other mem
    rcases mem_append.mp mem with kept | last
    · rw [update_of_ne (others other kept)]
      exact beginnings other (mem_filter.mp kept).1
    · obtain rfl := mem_singleton.mp last
      rw [update_self]
      exact take_prefix count body

/-! ### What has to be kept -/

/-- Nothing is cut off, and the names join the bodies as the numbers do. -/
structure Kept (faults : Faults) (parts : List PartFile) (bodies : Bodies) : Prop where
  written : ∀ body ∈ bodies, (partFileName body.1, body.2) ∈ parts
  readsWhole : ∀ body ∈ bodies, faults.ReadsWhole (partFileName body.1, body.2)
  ordered : (byName bodies).flatMap Prod.snd = joined bodies

theorem eq_of_length_flatMap_eq {Entry : Type} {entries : List Entry} {short whole : Entry → Bytes}
    (beginnings : ∀ entry ∈ entries, short entry <+: whole entry)
    (total : (entries.flatMap short).length = (entries.flatMap whole).length) :
    ∀ entry ∈ entries, short entry = whole entry := by
  induction entries with
  | nil => exact nofun
  | cons first rest ih =>
    have head := (beginnings first (.head _)).length_le
    have tail : (rest.flatMap short).length ≤ (rest.flatMap whole).length := by
      rw [length_flatMap, length_flatMap]
      exact sum_le_sum fun entry mem =>
        (beginnings entry (.tail _ mem)).length_le
    rw [flatMap_cons, flatMap_cons, length_append, length_append] at total
    rintro entry (_ | ⟨_, mem⟩)
    · exact (beginnings first (.head _)).eq_of_length (by omega)
    · exact ih (fun other inside => beginnings other (.tail _ inside))
        (by omega) entry mem

theorem length_byName (bodies : Bodies) :
    ((byName bodies).flatMap Prod.snd).length = (joined bodies).length := by
  refine Perm.length_eq (Perm.flatMap_right _ ?_)
  exact (perm_insertionSort _ bodies).trans (perm_insertionSort _ bodies).symm

include staged in
theorem bytesRead_eq_iff :
    faults.bytesRead (inNameOrder parts) = joined bodies ↔ Kept faults parts bodies := by
  obtain ⟨written, rfl, beginnings⟩ := staged.files
  have sorted : inNameOrder (bodies.map fun body => (partFileName body.1, written body.1)) =
      (byName bodies).map fun body => (partFileName body.1, written body.1) :=
    (map_insertionSort
      (fun first second : Int × Bytes => partFileName first.1 ≤ partFileName second.1)
      (fun first second : PartFile => first.1 ≤ second.1)
      (fun body => (partFileName body.1, written body.1)) bodies fun _ _ _ _ => Iff.rfl).symm
  have read :
    faults.bytesRead ((byName bodies).map fun body => (partFileName body.1, written body.1)) =
      (byName bodies).flatMap fun body =>
        (faults.piecesOf (partFileName body.1, written body.1)).flatten := by
    rw [bytesRead, flatMap_map, ← flatMap_id, flatMap_assoc]
    simp only [flatMap_id]
  have members : ∀ {body}, body ∈ byName bodies ↔ body ∈ bodies := mem_insertionSort _
  rw [sorted, read]
  constructor
  · intro same
    have whole : ∀ body ∈ byName bodies,
        (faults.piecesOf (partFileName body.1, written body.1)).flatten = body.2 :=
      eq_of_length_flatMap_eq
        (fun body mem => prefix_flatten_piecesOf.trans
          (beginnings body (members.mp mem)))
        (by rw [same, ← length_byName])
    have onDisk : ∀ body ∈ bodies, written body.1 = body.2 := by
      intro body mem
      refine (beginnings body mem).eq_of_length_le ?_
      rw [← whole body (members.mpr mem)]
      exact prefix_flatten_piecesOf.length_le
    refine ⟨fun body mem => ?_, fun body mem => ?_, ?_⟩
    · rw [← onDisk body mem]
      exact mem_map_of_mem mem
    · refine flatten_piecesOf_eq_iff.mp ?_
      have reads := whole body (members.mpr mem)
      rwa [onDisk body mem] at reads
    · rw [← same]
      exact flatMap_congr fun body mem => (whole body mem).symm
  · intro kept
    rw [← kept.ordered]
    refine flatMap_congr fun body mem => ?_
    have inside := members.mp mem
    obtain ⟨other, present, named⟩ := mem_map.mp (kept.written body inside)
    obtain ⟨sameName, sameBytes⟩ := Prod.mk.inj named
    rw [partFileName_injective sameName] at sameBytes
    rw [sameBytes]
    exact flatten_piecesOf_eq_iff.mpr (kept.readsWhole body inside)

/-! ### The row that is written -/

variable {bucket : Bucket}

theorem readKey_of_writeKey {keys : Keys} (usable : writeKeyForBucket keys bucket = .ok material) :
    readKeyForObject keys bucket.encryptionKeyErn = .ok material ∧
      (material ≠ [] → ValidKey material) := by
  unfold writeKeyForBucket at usable
  unfold readKeyForObject
  split at usable
  · rename_i clear
    obtain rfl := ok.inj usable
    exact ⟨if_pos clear, fun some => absurd rfl some⟩
  · rename_i encrypted
    rw [if_neg encrypted]
    split at usable
    · nomatch usable
    · rename_i key found
      split at usable
      · nomatch usable
      · rename_i present
        split at usable
        · nomatch usable
        · obtain rfl := ok.inj usable
          exact ⟨if_neg present, keys.valid _ key found⟩

variable {store : Store}

theorem contents_of_key {object : Object} {file : Bytes}
    (key : readKeyForObject env.keys object.encryptionKeyErn = .ok material)
    (present : store.files object.place = some file) :
    env.contents store object =
      if material = [] then some file
      else (Core.ObjectCipher.decryptWholeFile env.gcm material file "").toOption := by
  unfold Env.contents
  rw [key, present]
  cases material with
  | nil => rfl
  | cons first rest => rfl

variable {internalDir : String}

variable (usable : writeKeyForBucket env.keys bucket = .ok material)

include usable in
theorem contents_completed (holds : assembled.Of env completion.faults material parts)
    (present : store.files (internalDir, completion.internalName) = some assembled.file) :
    env.contents store (completedObject env completion bucket internalDir assembled) =
      some (completion.faults.bytesRead parts) := by
  rw [contents_of_key (readKey_of_writeKey usable).1 present]
  split
  · rename_i clear
    rw [holds.clear clear]
  · rename_i encrypted
    rw [holds.encrypted encrypted]
    rfl

/-! ### When a completion is right -/

/-- The condition for a completion: what the key holds already is taken as it is, and everything
else has to be kept, and in the clear read back for the checksum. -/
def Env.Meets (env : Env) (completion : Completion) (bucket : Bucket)
    (material : Bytes) (parts : List PartFile) (store : Store) (bodies : Bodies) : Prop :=
  if decideUploadOutcome bucket.versioning store.object
      (env.md5 (completion.faults.bytesHashed material (inNameOrder parts))) = .unchanged then
    env.Holds store (joined bodies)
  else
    Kept completion.faults parts bodies ∧
      (material = [] →
        env.md5 (completion.faults.readBack (joined bodies)) = env.md5 (joined bodies))

include usable in
include staged in
theorem holds_completed_iff
    (holds : assembled.Of env completion.faults material (inNameOrder parts))
    (row : store.object = some (completedObject env completion bucket internalDir assembled))
    (present : store.files (internalDir, completion.internalName) = some assembled.file) :
    env.Holds store (joined bodies) ↔
      Kept completion.faults parts bodies ∧
        (material = [] →
          env.md5 (completion.faults.readBack (joined bodies)) = env.md5 (joined bodies)) := by
  have read := contents_completed usable holds present
  rw [← bytesRead_eq_iff staged]
  constructor
  · rintro ⟨object, found, _, contents, _, checksum⟩
    obtain rfl := Option.some.inj (row.symm.trans found)
    have whole := Option.some.inj (read.symm.trans contents)
    refine ⟨whole, fun clear => ?_⟩
    have taken := holds.md5Sum
    rw [bytesHashed, if_pos clear, whole] at taken
    exact taken.symm.trans checksum
  · rintro ⟨whole, back⟩
    refine ⟨_, row, rfl, read.trans (congrArg some whole), ?_, ?_⟩
    · exact congrArg Int.ofNat (holds.size.trans (congrArg length whole))
    · refine holds.md5Sum.trans ?_
      rw [bytesHashed, whole]
      split
      · rename_i clear
        exact back clear
      · rfl

include usable in
include staged in
theorem holds_backgroundPass_iff
    (becomes : (backgroundPass env completion bucket material internalDir (inNameOrder parts)
      store.object store.accept).1 ≠ .gaveUp) :
    env.Holds
        (backgroundPass env completion bucket material internalDir (inNameOrder parts)
          store.object store.accept).2 (joined bodies) ↔
      env.Meets completion bucket material parts store bodies := by
  unfold backgroundPass Store.accept at becomes ⊢
  cases done : assemble env completion material (inNameOrder parts) with
  | none =>
    rw [done] at becomes
    exact absurd rfl becomes
  | some assembled =>
    have holds := assemble_of (readKey_of_writeKey usable).2 done
    rw [done] at becomes
    unfold Env.Meets
    rw [← holds.md5Sum]
    dsimp only at becomes ⊢
    cases outcome : decideUploadOutcome bucket.versioning store.object assembled.md5Sum with
    | unchanged =>
      obtain ⟨_, existing, found, _⟩ := decideUploadOutcome_unchanged.mp outcome
      rw [if_pos rfl, found]
      have back : backTo existing { existing with status := .uploaded } = existing := if_pos rfl
      simp only [Option.map_some, Option.getD_some, back]
      unfold Env.Holds Env.contents
      rw [found]
    | replace =>
      rw [outcome] at becomes
      rw [if_neg (by decide)]
      dsimp only at becomes ⊢
      split at becomes
      · exact absurd rfl becomes
      · rename_i persists
        rw [if_neg persists]
        refine holds_completed_iff staged usable holds rfl ?_
        dsimp only
        cases found : store.object with
        | none => exact update_self _ _ _
        | some previous =>
          dsimp only
          split
          · rename_i differs
            unfold removeObjectFile
            split
            · exact update_self _ _ _
            · rw [update_of_ne]
              · exact update_self _ _ _
              · exact fun same => differs (congrArg Prod.snd same).symm
          · exact update_self _ _ _
    | newVersion =>
      rw [outcome] at becomes
      rw [if_neg (by decide)]
      dsimp only at becomes ⊢
      split at becomes
      · exact absurd rfl becomes
      · rename_i persists
        rw [if_neg persists]
        exact holds_completed_iff staged usable holds rfl (update_self _ _ _)

/-! ### Runs -/

/-- What may happen to an upload: its calls, and whatever others do to the key and the files. -/
inductive Call where
  | uploadPart (req : PartRequest)
  | completeUpload (completion : Completion)
  | others (object : Option Object) (files : Place → Option Bytes)

/-- The store, and what has been acknowledged. -/
structure Reached where
  store : Store
  bodies : Bodies

/-- A part that was answered with its size is acknowledged. -/
def acknowledged (req : PartRequest) (answer : Except Refusal ℕ) (bodies : Bodies) : Bodies :=
  match answer, stol req.partNumber with
  | .ok _, some number => acknowledge number req.body bodies
  | _, _ => bodies

def advance (env : Env) (reached : Reached) : Call → Reached
  | .uploadPart req =>
    let answered := handleUploadPart env req reached.store
    ⟨answered.2, acknowledged req answered.1 reached.bodies⟩
  | .completeUpload completion =>
    ⟨(handleCompleteUpload env completion reached.store).2, reached.bodies⟩
  | .others object files =>
    ⟨{ reached.store with object := object, files := files }, reached.bodies⟩

def advanceAll (env : Env) (start : Store) (calls : List Call) : Reached :=
  calls.foldl (advance env) ⟨start, []⟩

/-- What is staged are the acknowledged parts, as long as there is a directory. -/
def Reached.Sound (reached : Reached) : Prop :=
  ∀ parts, reached.store.directory = some parts → Staged parts reached.bodies

theorem backgroundPass_directory (env : Env) (completion : Completion)
    (bucket : Bucket) (material : Bytes) (internalDir : String) (parts : List PartFile)
    (existing : Option Object) (store : Store) :
    let after := (backgroundPass env completion bucket material internalDir parts existing store).2
    after.directory = store.directory ∨ after.directory = none := by
  unfold backgroundPass
  split
  · exact .inl rfl
  · split
    · exact .inr rfl
    · split
      · exact .inl rfl
      · exact .inr rfl

theorem handleCompleteUpload_directory (env : Env) (completion : Completion) (store : Store) :
    let after := (handleCompleteUpload env completion store).2
    after.directory = store.directory ∨ after.directory = none := by
  unfold handleCompleteUpload
  dsimp only
  repeat' split
  all_goals try exact .inl rfl
  exact backgroundPass_directory ..

theorem handleUploadPart_cases (env : Env) (req : PartRequest) (store : Store) :
    let answered := handleUploadPart env req store
    (∃ refusal, answered.1 = .error refusal ∧ answered.2.directory = store.directory) ∨
      ∃ number parts count, stol req.partNumber = some number ∧
        store.directory = some parts ∧ answered.1 = .ok req.body.length ∧
        answered.2.directory =
          some (writeFile (partFileName number) (req.body.take count) parts) := by
  unfold handleUploadPart
  split
  · exact .inl ⟨_, rfl, rfl⟩
  · rename_i number read
    split
    · exact .inl ⟨_, rfl, rfl⟩
    · rename_i parts directory
      split
      · exact .inl ⟨_, rfl, rfl⟩
      · exact .inr ⟨number, parts, _, read, directory, rfl, rfl⟩

theorem advance_sound {reached : Reached} (sound : reached.Sound)
    {call : Call} : (advance env reached call).Sound := by
  cases call with
  | uploadPart req =>
    intro parts present
    rcases handleUploadPart_cases env req reached.store with
      ⟨refusal, refused, same⟩ | ⟨number, before, count, read, directory, answered, wrote⟩
    · have kept : (advance env reached (.uploadPart req)).bodies = reached.bodies := by
        simp only [advance, refused, acknowledged]
      rw [kept]
      exact sound parts (same.symm.trans present)
    · have added : (advance env reached (.uploadPart req)).bodies =
          acknowledge number req.body reached.bodies := by
        simp only [advance, answered, read, acknowledged]
      rw [added, ← Option.some.inj (wrote.symm.trans present)]
      exact (sound before directory).write number req.body count
  | completeUpload completion =>
    intro parts present
    rcases handleCompleteUpload_directory env completion reached.store with same | gone
    · exact sound parts (same.symm.trans present)
    · exact absurd (gone.symm.trans present) (by simp)
  | others object files => exact sound

theorem advanceAll_sound (env : Env) {start : Store}
    (begins : start.directory = some []) (calls : List Call) :
    (advanceAll env start calls).Sound := by
  have initial : Reached.Sound ⟨start, []⟩ := by
    intro parts present
    obtain rfl := Option.some.inj (begins.symm.trans present)
    exact staged_nil
  unfold advanceAll
  generalize (⟨start, []⟩ : Reached) = reached at initial ⊢
  induction calls generalizing reached with
  | nil => exact initial
  | cons call rest ih =>
    exact ih _ (advance_sound initial)

/-- The condition on what a completion finds. -/
def Env.Right (env : Env) (completion : Completion) (reached : Reached) : Prop :=
  ∃ bucket material parts, completion.bucket = some bucket ∧
    writeKeyForBucket env.keys bucket = .ok material ∧
    reached.store.directory = some parts ∧
    env.Meets completion bucket material parts reached.store reached.bodies

/-- However the calls of an upload went, an object that becomes COMPLETED holds the acknowledged
bodies in the order of their numbers, with their size and checksum, if and only if every body
reached its file whole, every part is opened and read to its end, the names are in the order of the
numbers as far as that matters, and the assembled file is read back for its checksum. -/
theorem completed_upload_holds_parts (env : Env) {start : Store}
    (begins : start.directory = some []) (calls : List Call) (completion : Completion) {size : ℕ}
    {ending : PassEnd} (completes : (handleCompleteUpload env completion
      (advanceAll env start calls).store).1 = .ok (size, ending)) (becomes : ending ≠ .gaveUp) :
    env.Holds (handleCompleteUpload env completion (advanceAll env start calls).store).2
        (joined (advanceAll env start calls).bodies) ↔
      env.Right completion (advanceAll env start calls) := by
  have sound := advanceAll_sound env begins calls
  generalize advanceAll env start calls = reached at completes sound ⊢
  unfold handleCompleteUpload at completes ⊢
  unfold Env.Right
  cases directory : reached.store.directory with
  | none =>
    rw [directory] at completes
    nomatch completes
  | some parts =>
    cases found : completion.bucket with
    | none =>
      rw [directory, found] at completes
      nomatch completes
    | some bucket =>
      cases denied : completion.denied with
      | some refusal =>
        rw [directory, found, denied] at completes
        nomatch completes
      | none =>
        cases usable : writeKeyForBucket env.keys bucket with
        | error msg =>
          rw [directory, found, denied] at completes
          simp [usable] at completes
        | ok material =>
          rw [directory, found, denied] at completes
          simp only [usable] at completes ⊢
          split at completes
          · nomatch completes
          · rename_i some
            rw [if_neg some]
            cases room : completion.storageDir with
            | none =>
              rw [room] at completes
              nomatch completes
            | some internalDir =>
              rw [room] at completes
              have ends := congrArg Prod.snd (ok.inj completes)
              dsimp only at ends
              rw [holds_backgroundPass_iff (sound parts directory) usable (by rwa [ends])]
              constructor
              · exact fun meets => ⟨bucket, material, parts, rfl, usable, rfl, meets⟩
              · rintro ⟨_, other, _, sameBucket, sameMaterial, sameParts, meets⟩
                obtain rfl := Option.some.inj sameBucket
                obtain rfl := ok.inj (usable.symm.trans sameMaterial)
                obtain rfl := Option.some.inj sameParts
                exact meets

/-! ### An upload of two bytes -/

end

namespace TwoBytes

/-- The checksums of nothing, of one byte and of two. -/
def md5 (bytes : Bytes) : String :=
  if bytes = [] then "d41d8cd98f00b204e9800998ecf8427e"
  else if bytes = [97] then "0cc175b9c0f1b6a831c399e269772661"
  else if bytes = [97, 98] then "187ef4436122d1cc2f40dc2b92f0eba0"
  else ""

def env : Env where
  uploadId := "6f1d2c3a-0b4e-4a7d-9c58-1e2f3a4b5c6d"
  bucketErn := "ern:esm:bucket:files"
  key := "letters.txt".toList
  md5 := md5
  detect _ _ := "text/plain"
  gcm := .threeBytes
  lawful := Core.Gcm.threeBytes_lawful
  keys := ⟨fun _ => none, nofun⟩

def start : Store where
  directory := some []
  object := some { Object.blank with
    bucketErn := "ern:esm:bucket:files"
    key := "letters.txt".toList
    ern := "ern:esm:object:files/letters.txt" }
  files _ := none

/-- The second part is sent before the first. -/
def calls : List Call :=
  [.uploadPart ⟨"2".toList, [98], some 1⟩, .uploadPart ⟨"1".toList, [97], some 1⟩]

/-- Everything works, apart from what reading a part may do. -/
def faults (readsPart : Text → ℕ → Bool) : Faults where
  opensTarget := true
  opensPart _ := true
  readsPart := readsPart
  writesTarget _ _ := true
  closesTarget := true
  opensAssembled := true
  readsAssembled _ := true
  sniffs := true
  persists := true

def completion (readsPart : Text → ℕ → Bool) : Completion where
  bucket := some
    { name := "files"
      ern := "ern:esm:bucket:files"
      accountId := "100000000001"
      nameSpace := ""
      encryptionKeyErn := ""
      versioning := false
      maxVersions := 0
      size := 0
      objects := 0
      directories := 0 }
  denied := none
  storageDir := some ""
  internalName := "0f0e0d0c-0b0a-4908-8706-050403020100"
  ern := "ern:esm:object:files/letters.txt"
  versionId := ""
  ivs := .zeros
  faults := faults readsPart

end TwoBytes

open TwoBytes in
/-- Two parts are put together in their order. -/
theorem two_parts_are_joined : env.Holds
      (handleCompleteUpload env (completion fun _ _ => true)
        (advanceAll env TwoBytes.start calls).store).2 [97, 98] := by
  refine (completed_upload_holds_parts env rfl calls
    (completion fun _ _ => true) rfl (by decide)).mpr
    ⟨_, [], _, rfl, rfl, rfl, ?_⟩
  refine (if_neg (by decide)).mpr
    ⟨⟨by decide, fun _ _ _ => ⟨rfl, fun _ _ => rfl⟩, rfl⟩, fun _ => rfl⟩

open TwoBytes in
/-- A part whose file cannot be read is left out, and the object is completed without it. -/
theorem unread_part_is_lost : ¬∀ (env : Env) (start : Store), start.directory = some [] →
      ∀ (calls : List Call) (completion : Completion) (size : ℕ) (ending : PassEnd),
        (handleCompleteUpload env completion
          (advanceAll env start calls).store).1 = .ok (size, ending) →
        ending ≠ .gaveUp → env.Holds
            (handleCompleteUpload env completion (advanceAll env start calls).store).2
            (joined (advanceAll env start calls).bodies) := by
  intro always
  have holds := always env TwoBytes.start rfl calls
    (completion fun name _ => name ≠ partFileName 1) 2 .stored rfl (by decide)
  obtain ⟨object, found, _, _, size, _⟩ := holds
  obtain rfl := Option.some.inj found
  exact absurd size (by decide)

end Euclid.Esm
