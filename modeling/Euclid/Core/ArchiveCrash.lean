/-
This file proves what an archive holds when appends stop half-way.

The members stand in front of everything else, and no append writes over them: what stops half-way
leaves bytes behind them that a walk does not take for a member. So what is listed afterwards is
what was there before, and the member itself as soon as its header is signed, unless the bytes that
are left end in what reads as end records, or stand where the directory would and read as a member.
-/

import Euclid.Core.ArchiveInflate
import Euclid.Core.ArchiveLayout

namespace Euclid.Core.ArchiveZip

open List Nat Attempt

variable {zlib : Zlib}

/-! ### Members -/

section Members

variable (zlib)

def body (attempt : Attempt) : Bytes := attempt.header zlib 0 ++ attempt.data zlib

/-- The bytes of members, one behind the other. -/
def bodies (kept : List Attempt) : Bytes := kept.flatMap (body zlib)

/-- What is listed of members from an offset on. -/
def entriesFor : ℕ → List Attempt → List Entry
  | _, [] => []
  | offset, attempt :: rest =>
    ⟨attempt.name, attempt.member zlib offset⟩ ::
      entriesFor (offset + (body zlib attempt).length) rest

/-- The directory of members from an offset on. -/
def directoryFor : ℕ → List Attempt → Bytes
  | _, [] => []
  | offset, attempt :: rest =>
    centralHeader attempt.name (attempt.member zlib offset) attempt.dos ++
      directoryFor (offset + (body zlib attempt).length) rest

/-- The layout of an archive of members. -/
def layoutFor (kept : List Attempt) : Layout :=
  ⟨(bodies zlib kept).length, directoryFor zlib 0 kept, kept.length⟩

end Members

variable {attempt : Attempt} {offset : ℕ}

theorem header_eq : attempt.header zlib offset = attempt.header zlib 0 := rfl

theorem header_length (attempt : Attempt) (offset : ℕ) :
    (attempt.header zlib offset).length = 50 + attempt.name.length :=
  localHeader_length _ _ _ _

theorem body_length :
    (body zlib attempt).length = 50 + attempt.name.length + (attempt.data zlib).length := by
  unfold body
  rw [length_append, header_length]

theorem bodies_append (kept rest : List Attempt) :
    bodies zlib (kept ++ rest) = bodies zlib kept ++ bodies zlib rest := flatMap_append

theorem bodies_cons (attempt : Attempt) (rest : List Attempt) :
    bodies zlib (attempt :: rest) = body zlib attempt ++ bodies zlib rest := flatMap_cons

theorem bodies_singleton (attempt : Attempt) : bodies zlib [attempt] = body zlib attempt := by
  rw [bodies_cons]
  exact append_nil _

section

variable {kept : List Attempt}

theorem length_le_bodies : kept.length ≤ (bodies zlib kept).length := by
  induction kept with
  | nil => exact zero_le _
  | cons attempt rest ih =>
    rw [bodies_cons, length_append, length_cons, body_length]
    omega

theorem length_le_directoryFor (offset : ℕ) (kept : List Attempt) :
    kept.length ≤ (directoryFor zlib offset kept).length := by
  induction kept generalizing offset with
  | nil => exact zero_le _
  | cons attempt rest ih =>
    have later := ih (offset + (body zlib attempt).length)
    rw [directoryFor, length_append, length_cons, centralHeader_length]
    omega

theorem directoryFor_starts (some : kept ≠ []) :
    directoryFor zlib offset kept =
      put32 kCentralSignature ++ (directoryFor zlib offset kept).drop 4 := by
  cases kept with
  | nil => exact absurd rfl some
  | cons attempt rest =>
    rw [directoryFor, centralHeader_eq]
    rfl

theorem directoryFor_append (offset : ℕ) (kept rest : List Attempt) :
    directoryFor zlib offset (kept ++ rest) =
      directoryFor zlib offset kept ++
        directoryFor zlib (offset + (bodies zlib kept).length) rest := by
  induction kept generalizing offset with
  | nil => rfl
  | cons attempt kept ih =>
    rw [cons_append, directoryFor, ih, directoryFor, bodies_cons,
      length_append, append_assoc, add_assoc]

variable {offset : ℕ}

theorem member_fits (here : offset < 2 ^ 64)
    (data : (attempt.data zlib).length < 2 ^ 64) : (attempt.member zlib offset).Fits := by
  refine ⟨?_, lt_trans attempt.small (by decide), data, here⟩
  show (if attempt.deflate then 8 else 0) < 2 ^ 16
  split <;> decide

theorem layoutFor_concat :
    layoutFor zlib (kept ++ [attempt]) =
      ⟨(bodies zlib kept).length + (body zlib attempt).length,
        (layoutFor zlib kept).directory ++ centralHeader attempt.name
          (attempt.member zlib (bodies zlib kept).length) attempt.dos, kept.length + 1⟩ := by
  have appendAt : (bodies zlib (kept ++ [attempt])).length =
      (bodies zlib kept).length + (body zlib attempt).length := by
    rw [bodies_append, bodies_singleton, length_append]
  have directory : directoryFor zlib 0 (kept ++ [attempt]) = directoryFor zlib 0 kept ++
      centralHeader attempt.name (attempt.member zlib (bodies zlib kept).length) attempt.dos := by
    rw [directoryFor_append, directoryFor, directoryFor, append_nil, zero_add]
  rw [layoutFor, appendAt, directory, length_append]
  rfl

/-! ### Walking over the members -/

variable {after : Bytes}

theorem readLocal_body (named : attempt.NameFits)
    (small : (bodies zlib kept ++ (body zlib attempt ++ after)).length < 2 ^ 63) :
    readLocal (bodies zlib kept ++ (body zlib attempt ++ after)) (bodies zlib kept).length =
      .ok (some ⟨attempt.name, attempt.member zlib (bodies zlib kept).length, attempt.dos,
        (bodies zlib kept).length + (50 + attempt.name.length)⟩) := by
  rw [body, append_assoc, ← header_eq] at small ⊢
  have lengths := small
  simp only [length_append, header_length] at lengths
  refine readLocal_member (lt_of_le_of_lt named.2 (by decide)) ?_ rfl rfl small
  exact member_fits (by omega) (by omega)

variable {file : Bytes} {rest : List Attempt}

theorem recover_bodies {fuel : ℕ} (named : ∀ attempt ∈ rest, attempt.NameFits)
    (whole : file = bodies zlib (kept ++ rest) ++ after) (small : file.length < 2 ^ 63)
    (stops : readLocal file (bodies zlib (kept ++ rest)).length = .ok none)
    (enough : rest.length < fuel) :
    recover file fuel (layoutFor zlib kept) = .ok (layoutFor zlib (kept ++ rest)) := by
  induction rest generalizing kept fuel with
  | nil =>
    obtain ⟨fuel, rfl⟩ := exists_eq_succ_of_ne_zero (ne_of_gt enough)
    rw [append_nil] at stops ⊢
    rw [recover, show (layoutFor zlib kept).appendAt = (bodies zlib kept).length from rfl, stops]
    rfl
  | cons attempt rest ih =>
    obtain ⟨fuel, rfl⟩ := exists_eq_succ_of_ne_zero (ne_of_gt (zero_lt_of_lt enough))
    have found : readLocal file (bodies zlib kept).length = .ok (some ⟨attempt.name,
        attempt.member zlib (bodies zlib kept).length, attempt.dos,
        (bodies zlib kept).length + (50 + attempt.name.length)⟩) := by
      rw [bodies_append, bodies_cons, append_assoc, append_assoc] at whole
      rw [whole] at small ⊢
      exact readLocal_body (named _ (.head _)) small
    have grown : (layoutFor zlib kept).adding ⟨attempt.name,
        attempt.member zlib (bodies zlib kept).length, attempt.dos,
        (bodies zlib kept).length + (50 + attempt.name.length)⟩ =
          layoutFor zlib (kept ++ [attempt]) := by
      have length := congrArg length whole
      rw [bodies_append, bodies_cons] at length
      simp only [length_append, body_length] at length
      rw [layoutFor_concat, body_length]
      unfold Layout.adding
      congr 1
      show u64 ((bodies zlib kept).length + (50 + attempt.name.length) +
        (attempt.data zlib).length) = _
      rw [u64_of_lt (by omega)]
      omega
    rw [recover, show (layoutFor zlib kept).appendAt = (bodies zlib kept).length from rfl, found]
    show recover file fuel ((layoutFor zlib kept).adding _) = _
    rw [grown, append_cons kept attempt rest]
    rw [append_cons] at whole stops
    exact ih (fun other member => named other (.tail _ member)) whole stops
      (lt_of_succ_lt_succ enough)

theorem layoutOf_bodies
    (named : ∀ attempt ∈ kept, attempt.NameFits) (whole : file = bodies zlib kept ++ after)
    (small : file.length < 2 ^ 63) (unled : fromDirectory file = .ok none)
    (stops : readLocal file (bodies zlib kept).length = .ok none) :
    layoutOf (some file) = .ok (layoutFor zlib kept) := by
  have fewer : kept.length ≤ (bodies zlib kept).length := length_le_bodies
  have length := congrArg length whole
  rw [length_append] at length
  dsimp only [layoutOf]
  rw [unled]
  show recover file _ (layoutFor zlib []) = .ok (layoutFor zlib ([] ++ kept))
  exact recover_bodies named whole small stops (by omega)

/-! ### Listing and extracting -/

theorem entriesOf_directoryFor {fuel : ℕ} (named : ∀ attempt ∈ kept, attempt.NameFits)
    (small : offset + (bodies zlib kept).length < 2 ^ 64) (enough : kept.length < fuel) :
    entriesOf fuel (directoryFor zlib offset kept) = entriesFor zlib offset kept := by
  induction kept generalizing offset fuel with
  | nil =>
    obtain ⟨fuel, rfl⟩ := exists_eq_succ_of_ne_zero (ne_of_gt enough)
    rfl
  | cons attempt rest ih =>
    obtain ⟨fuel, rfl⟩ := exists_eq_succ_of_ne_zero (ne_of_gt (zero_lt_of_lt enough))
    have short : attempt.name.length < 2 ^ 16 :=
      lt_of_le_of_lt (named _ (.head _)).2 (by decide)
    rw [bodies_cons, length_append] at small
    have length : (body zlib attempt).length =
        50 + attempt.name.length + (attempt.data zlib).length := body_length
    have fits : (attempt.member zlib offset).Fits := member_fits (by omega) (by omega)
    rw [directoryFor, entriesOf, if_neg, entryAt_centralHeader short fits,
      afterEntry_centralHeader short, ih
        (fun other member => named other (.tail _ member)) (by omega) (lt_of_succ_lt_succ enough),
      entriesFor]
    rintro (few | other)
    · rw [length_append, centralHeader_length] at few
      exact absurd few (by show ¬_ < 46; omega)
    · exact other centralHeader_signature

theorem restored {attempt : Attempt} (inflates : attempt.Inflates zlib) (offset : ℕ) :
    ∃ pieces, (if (attempt.member zlib offset).method = 0 then
        some (chunks kChunk (attempt.data zlib))
      else inflateChunks zlib ((attempt.member zlib offset).size + 1) zlib.inflateInit
        (chunks kChunk (attempt.data zlib))) = some pieces ∧ pieces.flatten = attempt.content := by
  unfold member data pieces
  dsimp only
  split
  · rename_i deflated
    obtain ⟨inverts, uneven⟩ := inflates deflated
    rw [if_neg (by decide)]
    exact inflateChunks_deflate inverts uneven
  · rw [if_pos rfl, flatten_chunks (by decide)]
    exact ⟨_, rfl, flatten_chunks (by decide) _⟩

theorem extract_body (named : attempt.NameFits) (inflates : attempt.Inflates zlib)
    (small : (bodies zlib kept ++ (body zlib attempt ++ after)).length < 2 ^ 63) :
    extract zlib (bodies zlib kept ++ (body zlib attempt ++ after))
      (attempt.member zlib (bodies zlib kept).length) = some attempt.content := by
  have read : readAt (bodies zlib kept ++ (body zlib attempt ++ after))
      ((bodies zlib kept).length + (50 + attempt.name.length)) (attempt.data zlib).length =
        .ok (attempt.data zlib) := by
    rw [body, append_assoc, ← append_assoc (bodies zlib kept)]
    exact readAt_middle (by rw [length_append, header_length]) rfl
  unfold extract
  rw [show (attempt.member zlib (bodies zlib kept).length).offset =
    (bodies zlib kept).length from rfl,
    readLocal_body named small]
  dsimp only
  rw [if_neg (fun either => either.elim (· rfl) (· rfl)),
    show (attempt.member zlib (bodies zlib kept).length).compressedSize =
      (attempt.data zlib).length from rfl, read]
  dsimp only
  obtain ⟨pieces, done, given⟩ := restored inflates (bodies zlib kept).length
  rw [done, Option.filter_some, if_pos]
  · exact congrArg some given
  · refine decide_eq_true ⟨congrArg List.length given, ?_⟩
    rw [foldl_crc32, given]
    exact (foldl_crc32 (chunks kChunk attempt.content) 0).trans
      (congrArg (crc32 0) (flatten_chunks (by decide) _)) |>.symm

/-- What a file holds: members that are listed in order, and extracted as they were appended. -/
structure Holds (zlib : Zlib) (file : Option Bytes) (kept : List Attempt) : Prop where
  listed : list file = .ok (entriesFor zlib 0 kept)
  extracted : ∀ pair ∈ (entriesFor zlib 0 kept).zip kept,
    ∃ bytes ∈ file, extract zlib bytes pair.1.member = some pair.2.content

theorem extract_entries (named : ∀ attempt ∈ rest, attempt.NameFits)
    (inflates : ∀ attempt ∈ rest, attempt.Inflates zlib)
    (whole : file = bodies zlib (kept ++ rest) ++ after) (small : file.length < 2 ^ 63) :
    ∀ pair ∈ (entriesFor zlib (bodies zlib kept).length rest).zip rest,
      extract zlib file pair.1.member = some pair.2.content := by
  induction rest generalizing kept with
  | nil => exact nofun
  | cons attempt rest ih =>
    have here : file = bodies zlib kept ++ (body zlib attempt ++ (bodies zlib rest ++ after)) := by
      rw [whole, bodies_append, bodies_cons]
      simp only [append_assoc]
    rw [entriesFor, zip_cons_cons]
    refine forall_mem_cons.mpr ⟨?_, ?_⟩
    · rw [here] at small ⊢
      exact extract_body (named _ (.head _)) (inflates _ (.head _)) small
    · have later := @ih (kept ++ [attempt]) (fun other member => named other (.tail _ member))
        (fun other member => inflates other (.tail _ member))
        (by rw [whole, append_assoc]; rfl)
      rw [bodies_append, bodies_singleton, length_append] at later
      exact later

/-! ### What an append leaves -/

section Clear

variable (zlib)

/-- The layout that an append finds. -/
def Step.layout (file : Option Bytes) : Layout :=
  match layoutOf file with
  | .ok layout => layout
  | .error _ => .empty

/-- How many writes there are before the header of the member is signed. -/
def Step.openingLength (step : Step) (file : Option Bytes) : ℕ :=
  (step.attempt.opening zlib file (Step.layout file)).length

/-- The header of the member is signed, and all of its data are there. -/
def Step.signs (step : Step) (file : Option Bytes) : Bool :=
  (step.attempt.writes zlib file).isOk ∧ step.openingLength zlib file < step.stopsAfter

/-- What is left of a file by an append that does not stop. -/
def Step.finished (step : Step) (file : Option Bytes) : Option Bytes :=
  match step.attempt.writes zlib file with
  | .error _ => file
  | .ok writes => perform file writes

/-- An append that stops leaves nothing that is read as something else: the file does not end in
what reads as end records, and the append does not stop between the header and the directory where
the bytes behind the member read as another one. -/
def Step.Clear (step : Step) (file : Option Bytes) : Prop :=
  if step.signs zlib file then
    step.left zlib file = step.finished zlib file ∨
      ∀ bytes ∈ step.left zlib file, fromDirectory bytes = .ok none ∧
        (step.stopsAfter = step.openingLength zlib file + 1 →
          readLocal bytes (step.attempt.dataEnd zlib (Step.layout file).appendAt) = .ok none)
  else
    step.left zlib file = file ∨ ∀ bytes ∈ step.left zlib file, fromDirectory bytes = .ok none

/-- A file is shorter than two to the sixty-third bytes. -/
def Small (file : Option Bytes) : Prop := (file.getD []).length < 2 ^ 63

end Clear

/-- The members stand in front, and the layout is theirs. -/
structure Sound (zlib : Zlib) (file : Option Bytes) (kept : List Attempt) : Prop where
  named : ∀ attempt ∈ kept, attempt.NameFits
  layout : layoutOf file = .ok (layoutFor zlib kept)
  front : ∃ after, file.getD [] = bodies zlib kept ++ after
  small : Small file

theorem sound_none : Sound zlib none [] :=
  ⟨nofun, rfl, ⟨[], rfl⟩, (by decide : 0 < 2 ^ 63)⟩

variable {file : Option Bytes}

theorem Sound.holds (sound : Sound zlib file kept)
    (inflates : ∀ attempt ∈ kept, attempt.Inflates zlib) : Holds zlib file kept := by
  obtain ⟨after, whole⟩ := sound.front
  have small : (file.getD []).length < 2 ^ 63 := sound.small
  have fewer : kept.length ≤ (bodies zlib kept).length := length_le_bodies
  have length := congrArg length whole
  rw [length_append] at length
  refine ⟨?_, fun pair member => ?_⟩
  · unfold list
    rw [sound.layout]
    exact congrArg Except.ok (entriesOf_directoryFor sound.named (by omega)
      (lt_succ_of_le (length_le_directoryFor 0 kept)))
  · cases file with
    | none =>
      have none : kept = [] := length_eq_zero_iff.mp (by
        rw [Option.getD_none, length_nil] at length
        omega)
      subst none
      nomatch member
    | some bytes =>
      have extracted : ∀ pair ∈ (entriesFor zlib (bodies zlib []).length kept).zip kept,
          extract zlib bytes pair.1.member = some pair.2.content :=
        extract_entries sound.named inflates whole small
      exact ⟨bytes, rfl, extracted pair member⟩

/-! ### One append -/

theorem perform_cons (file : Option Bytes) (write : Write) (rest : List Write) :
    perform file (write :: rest) = perform (write.perform file) rest := rfl

theorem perform_append (file : Option Bytes) (first second : List Write) :
    perform file (first ++ second) = perform (perform file first) second := foldl_append

theorem overwrite_behind {before rest bytes : Bytes} :
    overwrite (before ++ rest) before.length bytes = before ++
      (bytes ++ rest.drop bytes.length) := by
  unfold overwrite
  rw [take_left, length_append, Nat.sub_eq_zero_of_le (Nat.le_add_right _ _),
    replicate_zero, append_nil, ← drop_drop, drop_left, append_assoc]

theorem perform_put (before rest bytes : Bytes) (here : offset = before.length) :
    (Write.put offset bytes).perform (some (before ++ rest)) =
      some (before ++ (bytes ++ rest.drop bytes.length)) := by
  rw [here]
  exact congrArg some overwrite_behind

theorem perform_putAll (pieces : List Bytes) (before rest : Bytes) (here : offset = before.length) :
    perform (some (before ++ rest)) (putAll offset pieces) =
      some (before ++ (pieces.flatten ++ rest.drop pieces.flatten.length)) := by
  induction pieces generalizing before rest offset with
  | nil => rfl
  | cons piece pieces ih =>
    rw [putAll]
    show perform ((Write.put offset piece).perform (some (before ++ rest))) _ = _
    rw [perform_put before rest piece here, ← append_assoc,
      ih (before ++ piece) _ (by rw [here, length_append]),
      flatten_cons, length_append, drop_drop]
    simp only [append_assoc]

theorem take_putAll (pieces : List Bytes) (offset count : ℕ) :
    (putAll offset pieces).take count = putAll offset (pieces.take count) := by
  induction pieces generalizing offset count with
  | nil => rw [putAll, take_nil, take_nil, putAll]
  | cons piece pieces ih =>
    cases count with
    | zero => rfl
    | succ count =>
      rw [putAll, take_succ_cons, take_succ_cons, ih, putAll]

section Append

variable {step : Step} {file : Option Bytes} {kept : List Attempt} (sound : Sound zlib file kept)

include sound in
theorem Sound.layout_eq : Step.layout file = layoutFor zlib kept := by
  unfold Step.layout
  rw [sound.layout]

include sound in
theorem Sound.writes (named : step.attempt.NameFits) :
    step.attempt.writes zlib file =
      .ok (step.attempt.opening zlib file (layoutFor zlib kept) ++
        step.attempt.closing zlib (layoutFor zlib kept)) := by
  unfold Attempt.writes
  rw [if_neg (not_not.mpr named), sound.layout]
  rfl

variable {attempt : Attempt}

theorem readLocal_placeholder {before rest : Bytes}
    (small : (before ++ (localHeader attempt.name (attempt.opened offset) attempt.dos false ++
      rest)).length < 2 ^ 63) :
    readLocal
      (before ++ (localHeader attempt.name (attempt.opened offset) attempt.dos false ++ rest))
      before.length = .ok none := by
  refine readLocal_of_signature 0 ?_ (by decide) (by decide) small
  rw [localHeader_eq]
  rfl

/-- The members, with a header behind them that is not signed. -/
def unsigned (zlib : Zlib) (kept : List Attempt) (attempt : Attempt) (rest : Bytes) : Bytes :=
  bodies zlib kept ++
    (localHeader attempt.name (attempt.opened (bodies zlib kept).length) attempt.dos false ++ rest)

include sound in
/-- What the writes before the signed header leave, wherever they stop. -/
theorem opening_left (attempt : Attempt) (count : ℕ) :
    let left := perform file ((attempt.opening zlib file (layoutFor zlib kept)).take count)
    left = file ∨ file = none ∧ left = some [] ∨
      ∃ rest, left = some (unsigned zlib kept attempt rest) := by
  intro left
  obtain ⟨after, whole⟩ := sound.front
  -- Behind the members, from the placeholder on.
  have started : ∀ count, ∃ rest, perform (some (bodies zlib kept ++ after))
      ((attempt.opening zlib (some []) (layoutFor zlib kept)).take (count + 1)) =
        some (unsigned zlib kept attempt rest) := by
    intro count
    unfold opening unsigned
    rw [if_neg (by simp), nil_append, take_succ_cons, take_putAll]
    show ∃ rest, perform ((Write.put (bodies zlib kept).length _).perform _) _ = _
    rw [perform_put _ _ _ rfl, ← append_assoc, perform_putAll _ _ _ (by
      rw [length_append]
      rfl)]
    exact ⟨_, by rw [append_assoc]; rfl⟩
  cases file with
  | none =>
    cases count with
    | zero => exact .inl rfl
    | succ count =>
      cases count with
      | zero => exact .inr (.inl ⟨rfl, rfl⟩)
      | succ count =>
        obtain ⟨rest, same⟩ := started count
        rw [← whole] at same
        exact .inr (.inr ⟨rest, same⟩)
  | some bytes =>
    cases count with
    | zero => exact .inl rfl
    | succ count =>
      obtain ⟨rest, same⟩ := started count
      rw [← whole] at same
      exact .inr (.inr ⟨rest, same⟩)

include sound in
theorem opening_whole :
    ∃ rest, perform file (attempt.opening zlib file (layoutFor zlib kept)) =
      some (unsigned zlib kept attempt (attempt.data zlib ++ rest)) := by
  obtain ⟨after, whole⟩ := sound.front
  have created : perform file (if file = none then [.create] else []) =
      some (bodies zlib kept ++ after) := by
    cases file with
    | none => exact congrArg some whole
    | some bytes => exact congrArg some whole
  unfold opening unsigned
  rw [perform_append, created]
  show ∃ rest, perform ((Write.put (bodies zlib kept).length _).perform _) (putAll _ _) = _
  rw [perform_put _ _ _ rfl, ← append_assoc, perform_putAll _ _ _ (by
    rw [length_append]
    rfl), append_assoc]
  exact ⟨_, rfl⟩

theorem signed_left {rest : Bytes} :
    (Write.put (bodies zlib kept).length (attempt.header zlib (bodies zlib kept).length)).perform
      (some (unsigned zlib kept attempt (attempt.data zlib ++ rest))) =
        some (bodies zlib (kept ++ [attempt]) ++ rest) := by
  have length : (attempt.header zlib (bodies zlib kept).length).length =
      (localHeader attempt.name (attempt.opened (bodies zlib kept).length) attempt.dos
        false).length := by
    rw [header_length, localHeader_length]
  rw [unsigned, perform_put _ _ _ rfl, length, drop_left, bodies_append, bodies_singleton, body,
    header_eq]
  simp only [append_assoc]

theorem dataEnd_eq (attempt : Attempt) :
    attempt.dataEnd zlib (bodies zlib kept).length = (bodies zlib (kept ++ [attempt])).length := by
  rw [bodies_append, bodies_singleton, length_append, body_length]
  unfold dataEnd
  rw [localHeader_length]
  omega

theorem directory_eq (attempt : Attempt) : attempt.directory zlib (layoutFor zlib kept) =
      directoryFor zlib 0 (kept ++ [attempt]) := by
  exact (congrArg Layout.directory layoutFor_concat).symm

def archive (zlib : Zlib) (kept : List Attempt) : Bytes :=
  bodies zlib kept ++ (directoryFor zlib 0 kept ++
    trailer (bodies zlib kept).length (directoryFor zlib 0 kept).length kept.length)

theorem archive_length : (archive zlib kept).length =
    (bodies zlib kept).length + (directoryFor zlib 0 kept).length +
      (trailer (bodies zlib kept).length (directoryFor zlib 0 kept).length kept.length).length := by
  rw [archive, length_append, length_append, add_assoc]

theorem perform_resize (archive behind : Bytes) :
    (Write.resize archive.length).perform (some (archive ++ behind)) = some archive := by
  refine congrArg some ?_
  dsimp only
  rw [take_left, length_append, Nat.sub_eq_zero_of_le (Nat.le_add_right _ _)]
  exact append_nil _

/-- What the writes from the signed header on leave, wherever they stop. -/
theorem closing_left (attempt : Attempt) (rest : Bytes) (count : ℕ) :
    let left := perform (some (unsigned zlib kept attempt (attempt.data zlib ++ rest)))
      ((attempt.closing zlib (layoutFor zlib kept)).take (count + 1))
    count = 0 ∧ left = some (bodies zlib (kept ++ [attempt]) ++ rest) ∨
      (∃ behind, left = some (bodies zlib (kept ++ [attempt]) ++
        (directoryFor zlib 0 (kept ++ [attempt]) ++ behind))) ∧
        (3 ≤ count → left = some (archive zlib (kept ++ [attempt]))) := by
  have closing : attempt.closing zlib (layoutFor zlib kept) =
      [.put (bodies zlib kept).length (attempt.header zlib (bodies zlib kept).length),
        .put (bodies zlib (kept ++ [attempt])).length (directoryFor zlib 0 (kept ++ [attempt])),
        .put ((bodies zlib (kept ++ [attempt])).length +
            (directoryFor zlib 0 (kept ++ [attempt])).length)
          (trailer (bodies zlib (kept ++ [attempt])).length
            (directoryFor zlib 0 (kept ++ [attempt])).length (kept ++ [attempt]).length),
        .resize (archive zlib (kept ++ [attempt])).length] := by
    have count : (kept ++ [attempt]).length = (layoutFor zlib kept).entries + 1 :=
      length_append
    unfold closing
    rw [directory_eq, show (layoutFor zlib kept).appendAt = (bodies zlib kept).length from rfl,
      dataEnd_eq, archive_length, count]
  rw [closing, take_succ_cons, perform_cons, signed_left]
  match count with
  | 0 => exact .inl ⟨rfl, rfl⟩
  | 1 =>
    rw [take_succ_cons, perform_cons, perform_put _ _ _ rfl]
    exact .inr ⟨⟨_, rfl⟩, fun more => absurd more (by decide)⟩
  | 2 =>
    rw [take_succ_cons, perform_cons, perform_put _ _ _ rfl, ← append_assoc, take_succ_cons,
      perform_cons, perform_put _ _ _ length_append.symm, append_assoc]
    exact .inr ⟨⟨_, rfl⟩, fun more => absurd more (by decide)⟩
  | count + 3 =>
    rw [take_succ_cons, perform_cons, perform_put _ _ _ rfl, ← append_assoc, take_succ_cons,
      perform_cons, perform_put _ _ _ length_append.symm, append_assoc]
    have whole : ∀ behind : Bytes, bodies zlib (kept ++ [attempt]) ++
        (directoryFor zlib 0 (kept ++ [attempt]) ++
          (trailer (bodies zlib (kept ++ [attempt])).length
            (directoryFor zlib 0 (kept ++ [attempt])).length
              (kept ++ [attempt]).length ++ behind)) =
        archive zlib (kept ++ [attempt]) ++ behind := by
      intro behind
      rw [archive, append_assoc, append_assoc]
    rw [take_succ_cons, perform_cons, take_nil, whole, perform_resize]
    exact .inr ⟨⟨_, rfl⟩, fun _ => rfl⟩

theorem sound_archive (some : kept ≠ [])
    (named : ∀ attempt ∈ kept, attempt.NameFits) (small : (archive zlib kept).length < 2 ^ 63) :
    Sound zlib (.some (archive zlib kept)) kept := by
  have starts : directoryFor zlib 0 kept = _ := directoryFor_starts some
  have fewer : kept.length ≤ (bodies zlib kept).length := length_le_bodies
  have length : (archive zlib kept).length = _ := archive_length
  have signature : get32 (directoryFor zlib 0 kept) 0 = kCentralSignature := by
    rw [starts]
    exact get32_of_slice rfl (by decide)
  have listed : directoryFor zlib 0 kept ≠ [] := by
    intro nothing
    have one : kept.length ≤ (directoryFor zlib 0 kept).length := length_le_directoryFor 0 kept
    rw [nothing] at one
    exact some (length_eq_zero_iff.mp (le_zero.mp one))
  have few : kept.length < 2 ^ 64 := by omega
  refine ⟨named, ?_, ⟨_, rfl⟩, small⟩
  dsimp only [layoutOf]
  rw [archive] at small ⊢
  rw [fromDirectory_of_trailer ⟨listed, signature⟩ few small]
  rfl

theorem readLocal_directory {behind : Bytes} (some : kept ≠ [])
    (small : (bodies zlib kept ++ (directoryFor zlib 0 kept ++ behind)).length < 2 ^ 63) :
    readLocal (bodies zlib kept ++ (directoryFor zlib 0 kept ++ behind)) (bodies zlib kept).length =
      .ok none :=
  readLocal_of_signature _ (directoryFor_starts some) (by decide) (by decide) small

theorem named_concat (named : ∀ attempt ∈ kept, attempt.NameFits)
    (fits : attempt.NameFits) : ∀ other ∈ kept ++ [attempt], other.NameFits := by
  intro other member
  rcases mem_append.mp member with earlier | last
  · exact named other earlier
  · exact mem_singleton.mp last ▸ fits

include sound

/-- An append that stops before the header is signed leaves the members that were there. -/
theorem Sound.step_unsigned (named : step.attempt.NameFits)
    (early : step.stopsAfter ≤ (step.attempt.opening zlib file (layoutFor zlib kept)).length)
    (clear : step.left zlib file = file ∨
      ∀ bytes ∈ step.left zlib file, fromDirectory bytes = .ok none)
    (small : Small (step.left zlib file)) : Sound zlib (step.left zlib file) kept := by
  have left : step.left zlib file = perform file
      ((step.attempt.opening zlib file (layoutFor zlib kept)).take step.stopsAfter) := by
    unfold Step.left
    rw [sound.writes named]
    dsimp only
    rw [take_append_of_le_length early]
  rcases clear with same | unled
  · rw [same]
    exact sound
  have either := opening_left sound step.attempt step.stopsAfter
  rw [left] at unled small ⊢
  rcases either with same | ⟨absent, created⟩ | ⟨rest, written⟩
  · rw [same]
    exact sound
  · rw [created] at unled ⊢
    subst absent
    obtain ⟨after, whole⟩ := sound.front
    have front : bodies zlib kept = [] := (append_eq_nil_iff.mp whole.symm).1
    refine ⟨sound.named, ?_, ⟨[], by rw [front]; rfl⟩, (by decide : 0 < 2 ^ 63)⟩
    refine layoutOf_bodies sound.named (by rw [front]; rfl) (by decide) (unled _ rfl) ?_
    rw [front]
    rfl
  · rw [written] at unled small ⊢
    refine ⟨sound.named, ?_, ⟨_, rfl⟩, small⟩
    exact layoutOf_bodies sound.named rfl small (unled _ rfl)
      (readLocal_placeholder small)

theorem Sound.step_signed (named : step.attempt.NameFits)
    (late : (step.attempt.opening zlib file (layoutFor zlib kept)).length < step.stopsAfter)
    (clear : step.left zlib file = step.finished zlib file ∨
      ∀ bytes ∈ step.left zlib file, fromDirectory bytes = .ok none ∧
        (step.stopsAfter = (step.attempt.opening zlib file (layoutFor zlib kept)).length + 1 →
          readLocal bytes (step.attempt.dataEnd zlib (layoutFor zlib kept).appendAt) = .ok none))
    (small : Small (step.left zlib file)) :
    Sound zlib (step.left zlib file) (kept ++ [step.attempt]) := by
  have named' := named_concat sound.named named
  have some : kept ++ [step.attempt] ≠ [] := append_ne_nil_of_right_ne_nil _ (by simp)
  obtain ⟨count, more⟩ := Nat.exists_eq_add_of_lt late
  obtain ⟨rest, opened⟩ := opening_whole sound
  have left : step.left zlib file = perform (perform file
      (step.attempt.opening zlib file (layoutFor zlib kept)))
        ((step.attempt.closing zlib (layoutFor zlib kept)).take (count + 1)) := by
    unfold Step.left
    rw [sound.writes named]
    dsimp only
    rw [more, add_assoc, take_length_add_append, perform_append]
  have finished : step.finished zlib file = .some (archive zlib (kept ++ [step.attempt])) := by
    unfold Step.finished
    rw [sound.writes named]
    dsimp only
    rw [perform_append, opened]
    rcases closing_left step.attempt rest 3 with ⟨three, _⟩ | ⟨_, whole⟩
    · exact absurd three (by decide)
    · exact whole (le_refl 3)
  rcases clear with same | unread
  · rw [same, finished] at small ⊢
    exact sound_archive some named' small
  rw [left, opened] at unread small ⊢
  rcases closing_left step.attempt rest count with ⟨first, signed⟩ | ⟨⟨behind, written⟩, _⟩
  · rw [signed] at unread small ⊢
    obtain ⟨unled, stops⟩ := unread _ rfl
    refine ⟨named', layoutOf_bodies named' rfl small unled ?_, ⟨_, rfl⟩, small⟩
    have here := stops (by rw [more, first])
    rw [show (layoutFor zlib kept).appendAt = (bodies zlib kept).length from rfl,
      dataEnd_eq] at here
    exact here
  · rw [written] at unread small ⊢
    exact ⟨named', layoutOf_bodies named' rfl small (unread _ rfl).1
      (readLocal_directory some small), ⟨_, rfl⟩, small⟩

/-- Whatever an append does, the members are those that were there, and its own if it is signed. -/
theorem Sound.after_step (clear : step.Clear zlib file) (small : Small (step.left zlib file)) :
    Sound zlib (step.left zlib file)
      (kept ++ if step.signs zlib file then [step.attempt] else []) := by
  unfold Step.Clear Step.openingLength at clear
  rw [sound.layout_eq] at clear
  by_cases named : step.attempt.NameFits
  · have signs : step.signs zlib file = decide
        ((step.attempt.opening zlib file (layoutFor zlib kept)).length < step.stopsAfter) := by
      unfold Step.signs Step.openingLength
      rw [sound.writes named, sound.layout_eq]
      simp [Except.isOk, Except.toBool]
    by_cases late : (step.attempt.opening zlib file (layoutFor zlib kept)).length < step.stopsAfter
    · rw [signs, decide_eq_true late] at clear ⊢
      exact sound.step_signed named late clear small
    · rw [signs, decide_eq_false late] at clear ⊢
      show Sound zlib _ (kept ++ [])
      rw [append_nil]
      exact sound.step_unsigned named (Nat.le_of_not_lt late) clear small
  · have refused : step.attempt.writes zlib file = .error .badName := if_pos named
    have left : step.left zlib file = file := by
      unfold Step.left
      rw [refused]
    have signs : step.signs zlib file = false := by
      unfold Step.signs
      rw [refused]
      rfl
    rw [signs, left]
    show Sound zlib _ (kept ++ [])
    rw [append_nil]
    exact sound

end Append

end

/-! ### Runs -/

/-- The members that appends leave, one after the other. -/
def kept (zlib : Zlib) : Option Bytes → List Step → List Attempt
  | _, [] => []
  | file, step :: steps =>
    (if step.signs zlib file then [step.attempt] else []) ++ kept zlib (step.left zlib file) steps

theorem mem_of_kept {attempt : Attempt} {steps : List Step}
    (member : attempt ∈ kept zlib file steps) : ∃ step ∈ steps, step.attempt = attempt := by
  induction steps generalizing file with
  | nil => cases member
  | cons step steps ih =>
    rcases mem_append.mp member with here | later
    · split at here
      · exact ⟨step, .head _, (mem_singleton.mp here).symm⟩
      · cases here
    · obtain ⟨other, mem, same⟩ := ih later
      exact ⟨other, .tail _ mem, same⟩

/-- No append leaves anything that is read as something else, and files stay short enough to be
files. -/
def AllClear (zlib : Zlib) : Option Bytes → List Step → Prop
  | _, [] => True
  | file, step :: steps =>
    (step.Clear zlib file ∧ Small (step.left zlib file)) ∧ AllClear zlib (step.left zlib file) steps

theorem Sound.run {members : List Attempt} (steps : List Step)
    (sound : Sound zlib file members) (clear : AllClear zlib file steps) :
    Sound zlib (run zlib file steps) (members ++ kept zlib file steps) := by
  induction steps generalizing file members with
  | nil =>
    rw [kept, append_nil]
    exact sound
  | cons step steps ih =>
    obtain ⟨⟨here, small⟩, later⟩ := clear
    have after := ih (sound.after_step here small) later
    rw [append_assoc] at after
    exact after

/-- The append returns. -/
def Step.completes (zlib : Zlib) (step : Step) (file : Option Bytes) : Bool :=
  match step.attempt.writes zlib file with
  | .error _ => false
  | .ok writes => writes.length ≤ step.stopsAfter

/-- The members whose appends have returned. -/
def completed (zlib : Zlib) : Option Bytes → List Step → List Attempt
  | _, [] => []
  | file, step :: steps =>
    (if step.completes zlib file then [step.attempt] else []) ++
      completed zlib (step.left zlib file) steps

theorem signs_of_completes {step : Step}
    (completes : step.completes zlib file) : step.signs zlib file := by
  unfold Step.completes at completes
  unfold Step.signs Step.openingLength Step.layout
  unfold writes at completes ⊢
  split at completes
  · nomatch completes
  rename_i writes done
  split at done
  · nomatch done
  rename_i named
  cases layout : layoutOf file with
  | error problem =>
    rw [layout] at done
    exact absurd done (by simp [bind, Except.bind])
  | ok layout =>
    rw [layout] at done
    obtain rfl := Except.ok.inj done
    have enough := of_decide_eq_true completes
    rw [length_append] at enough
    refine decide_eq_true
      ⟨?_, Nat.lt_of_lt_of_le (Nat.lt_add_of_pos_right (Nat.zero_lt_succ 3)) enough⟩
    rw [if_neg named]
    rfl

theorem completed_sublist (zlib : Zlib) (file : Option Bytes) (steps : List Step) :
    (completed zlib file steps).Sublist (kept zlib file steps) := by
  induction steps generalizing file with
  | nil => exact Sublist.refl _
  | cons step steps ih =>
    refine Sublist.append ?_ (ih _)
    split
    · rename_i completes
      rw [if_pos (signs_of_completes completes)]
    · exact nil_sublist _

/-- However many appends there are, and wherever each of them stops: when none leaves anything that
is read as something else, and no chunk of deflated data but the last gives a whole number of
buffers, the archive lists, in order, the members whose data are all there under a signed header,
those of every append that has returned among them, and each is extracted as it was appended. -/
theorem archive_recovers (zlib : Zlib) (steps : List Step)
    (inflates : ∀ step ∈ steps, step.attempt.Inflates zlib) (clear : AllClear zlib none steps) :
    Holds zlib (run zlib none steps) (kept zlib none steps) ∧
      (completed zlib none steps).Sublist (kept zlib none steps) := by
  refine ⟨(sound_none.run steps clear).holds fun attempt member => ?_,
    completed_sublist zlib none steps⟩
  obtain ⟨step, mem, rfl⟩ := mem_of_kept member
  exact inflates step mem

instance (step : Step) (file : Option Bytes) : Decidable (step.Clear zlib file) := by
  unfold Step.Clear
  infer_instance

instance (file : Option Bytes) : Decidable (Small file) := by
  unfold Small
  infer_instance

instance decidableAllClear (zlib : Zlib) :
    (file : Option Bytes) → (steps : List Step) → Decidable (AllClear zlib file steps)
  | _, [] => .isTrue trivial
  | file, step :: steps =>
    have := decidableAllClear zlib (step.left zlib file) steps
    inferInstanceAs (Decidable ((_ ∧ _) ∧ AllClear zlib (step.left zlib file) steps))

/-! ### Two appends, and one that stops -/

/-- Compression of one content to some data of which each byte gives so much of it. -/
def Zlib.single (content data : Bytes) (given : List ℕ) : Zlib where
  deflate _ := [data]
  Stream := ℕ × ℕ
  inflateInit := (0, 0)
  yields front := given.getD front.length 0
  inflate stream input room :=
    let taken := stream.1 + input.length
    let output := (slice content stream.2 (given.getD taken 0 - stream.2)).take room
    { status := if taken = data.length ∧ stream.2 + output.length = content.length then .streamEnd
        else if input = [] ∧ output = [] then .bufError else .ok
      output := output
      rest := []
      stream := (taken, stream.2 + output.length) }

theorem Zlib.single_inverts {content data : Bytes} {given : List ℕ}
    (first : given.getD 0 0 = 0) (last : given.getD data.length 0 = content.length)
    (rises : ∀ after < data.length + 1, ∀ before < after + 1,
      given.getD before 0 ≤ given.getD after 0) :
    (Zlib.single content data given).Inverts content := by
  refine ⟨first, by simpa [Zlib.single] using last,
    fun stream taken put => stream = (taken.length, put) ∧ put ≤ given.getD taken.length 0,
    ⟨rfl, Nat.zero_le _⟩, ?_⟩
  rintro stream taken put input more room ⟨rfl, known⟩ whole some
  have length : data.length = taken.length + (input.length + more.length) := by
    simpa [Zlib.single] using congrArg List.length whole
  have grown : given.getD taken.length 0 ≤ given.getD (taken.length + input.length) 0 :=
    rises _ (by omega) _ (by omega)
  have short : given.getD (taken.length + input.length) 0 ≤ content.length :=
    last ▸ rises _ (by omega) _ (by omega)
  have yields : (Zlib.single content data given).yields (taken ++ input) =
      given.getD (taken.length + input.length) 0 := congrArg (given.getD · 0) length_append
  have shown : ((slice content put
      (given.getD (taken.length + input.length) 0 - put)).take room).length =
        min room (given.getD (taken.length + input.length) 0 - put) := by
    rw [length_take, slice_length]
    omega
  refine ⟨?_, ?_, ?_, ?_⟩
  · show List.take _ _ = slice content put (List.take _ _).length
    rw [shown, slice, slice, take_take]
  · rw [yields]
    show put + (List.take _ _).length ≤ _
    rw [shown]
    omega
  · exact length_take_le _ _
  rw [yields]
  simp only [Zlib.single]
  split
  · rename_i ended
    exact .inl ⟨rfl, ended.2⟩
  rename_i unended
  split
  · rename_i idle
    obtain ⟨rfl, empty⟩ := idle
    refine .inr (.inr ⟨rfl, rfl, ?_⟩)
    rw [empty, List.length_nil, Nat.add_zero] at shown
    rw [List.length_nil, Nat.add_zero] at grown
    exact le_antisymm known (by omega)
  · refine .inr (.inl ⟨rfl, input, (append_nil _).symm, ⟨?_, ?_⟩, ?_, ?_⟩)
    · rw [length_append]
    · rw [length_append, shown]
      omega
    · rw [shown]
      rcases le_total room (given.getD (taken.length + input.length) 0 - put) with less | more
      · exact .inl (Nat.min_eq_left less)
      · rw [Nat.min_eq_right more]
        exact .inr ⟨trivial, by omega⟩
    · rintro rfl
      rw [shown] at unended ⊢
      rw [List.length_nil] at length
      omega

/-- What raw `deflate` makes of the bytes one, two and three, a block with fixed codes. -/
def zlibOfThree : Zlib := Zlib.single [1, 2, 3] [99, 100, 98, 6, 0] [0, 0, 1, 2, 3, 3]

/-- A file of three bytes. -/
def ofThree (name : UInt8) (deflate : Bool) : Attempt :=
  ⟨[name], [1, 2, 3], deflate, ⟨0, 33⟩, by decide⟩

/-- The second append stops when its data are there. The third one is not stopped, and deflates. -/
def threeAppends : List Step :=
  [⟨ofThree 97 false, 9⟩, ⟨ofThree 98 false, 2⟩, ⟨ofThree 99 true, 9⟩]

theorem stopped_recovers :
    Holds zlibOfThree (run zlibOfThree none threeAppends) (kept zlibOfThree none threeAppends) ∧
      (completed zlibOfThree none threeAppends).Sublist (kept zlibOfThree none threeAppends) := by
  have content : ∀ step ∈ threeAppends, step.attempt.content = [1, 2, 3] := by decide
  refine archive_recovers zlibOfThree threeAppends (fun step mem _ => ?_) (by decide +kernel)
  rw [content step mem]
  exact ⟨Zlib.single_inverts rfl rfl (by decide), fun more => absurd rfl more, trivial⟩

/-- A file that holds a directory and end records, as they would stand in the archive. -/
def forged : Attempt where
  name := [97]
  content := centralHeader [120] ⟨0, 0, 0, 0, 0⟩ ⟨0, 33⟩ ++ trailer 51 75 1
  deflate := false
  dos := ⟨0, 33⟩
  small := by
    rw [length_append, centralHeader_length, trailer_length]
    decide

/-- The append of such a file stops when its data are there, and the archive lists a member that was
never appended. -/
theorem forged_directory : ¬(Holds zlibOfThree (run zlibOfThree none [⟨forged, 3⟩])
      (kept zlibOfThree none [⟨forged, 3⟩]) ∧
    (completed zlibOfThree none [⟨forged, 3⟩]).Sublist (kept zlibOfThree none [⟨forged, 3⟩])) := by
  intro recovers
  exact absurd recovers.1.listed (by decide +kernel)

end Euclid.Core.ArchiveZip
