/-
This file translates download-part, and asks whether its answers are the parts of the object.

The offset of a part is a product of two numbers of the caller, cut to 64 bits before it is compared
with the size of the object.
-/

import Euclid.Esm.Completion

namespace Euclid.Esm

open List
open Core (Text Gcm ValidKey)
open Core.ObjectCipher (decryptRange fileLimit)

/-! ### The handler -/

/-- What is remembered of a download. -/
structure Download where
  owner : Option String
  bucketErn : Option String
  place : Place
  size : Int
  encryptionKeyErn : String

/-- The headers of a request, after whoever sends it. -/
structure DownloadPart where
  caller : Except Refusal String
  downloadId : Text
  partNumber : Text
  partSize : Text

/-- What a part is read of. -/
structure Downloads where
  find : Text → Option Download
  denied : String → Option Refusal
  keys : Keys
  files : Place → Option Bytes
  gcm : Gcm

/-- A number from one on in a header. -/
def positiveHeader (name : String) (text : Text) : Except Refusal {number : Int // 1 ≤ number} :=
  match Core.HttpSignature.stol text with
  | none => .error (400, "Missing or invalid " ++ name ++ " header")
  | some number =>
    if positive : 1 ≤ number then .ok ⟨number, positive⟩
    else .error (400, name ++ " must be >= 1")

def isTransferId (id : Text) : Bool :=
  decide (id.length = 36) && id.zipIdx.all fun (character, index) =>
    if index ∈ [8, 13, 18, 23] then character = '-'
    else character.isDigit || ('a' ≤ character && character ≤ 'f') ||
      ('A' ≤ character && character ≤ 'F')

/-- The download a request is about, if it may be read, with the number and the size of the part. -/
def DownloadPart.admit (downloads : Downloads) (req : DownloadPart) :
    Except Refusal (Download × {number : Int // 1 ≤ number} × {size : Int // 1 ≤ size}) := do
  let userId ← req.caller
  let id := String.ofList req.downloadId
  if req.downloadId = [] then throw (400, "Missing x-euclid-download-id header")
  let partNumber ← positiveHeader "x-euclid-part-number" req.partNumber
  let partSize ← positiveHeader "x-euclid-part-size" req.partSize
  if !isTransferId req.downloadId then throw (400, "Invalid download id: " ++ id)
  let some download := downloads.find req.downloadId
    | throw (404, "Download not found, id: " ++ id)
  if download.owner ≠ some userId then
    throw (403, "Download does not belong to the caller, id: " ++ id)
  let some bucketErn := download.bucketErn
    | throw (403, "Download names no bucket, id: " ++ id)
  if let some refusal := downloads.denied bucketErn then throw refusal
  return (download, partNumber, partSize)

/-- What is read of a file in the clear. Before its beginning nothing is. -/
def readPlain (id : String) (partNumber : Int) (file : Option Bytes) (offset readSize : Int) :
    Except Refusal Bytes :=
  match file with
  | none => .error (500, "Could not open object file for download, id: " ++ id)
  | some bytes =>
    if readSize < 0 then .error (500, "Could not read object part, id: " ++ id)
    else
      let data := if offset < 0 then [] else slice bytes offset.toNat readSize.toNat
      if data.length ≠ readSize then
        .error (500, "Object data on disk is incomplete, download id: " ++ id ++ ", part: " ++
          toString partNumber)
      else .ok data

/-- Where a part starts, as far as 64 bits go. -/
def offsetOf (partNumber partSize : Int) : Int := int64 ((partNumber - 1) * partSize)

def readPart (downloads : Downloads) (id : String) (download : Download)
    (partNumber partSize : Int) : Except Refusal Bytes :=
  let offset := offsetOf partNumber partSize
  if offset ≥ download.size then
    .error
      (400, "Part number beyond end of object, id: " ++ id ++ ", part: " ++ toString partNumber)
  else
    match readKeyForObject downloads.keys download.encryptionKeyErn with
    | .error error => .error (409, error)
    | .ok material =>
      let readSize := min partSize (int64 (download.size - offset))
      if material = [] then readPlain id partNumber (downloads.files download.place) offset readSize
      else
        match (downloads.files download.place).map fun file =>
          decryptRange downloads.gcm material file "" offset readSize with
        | some (.ok data) => .ok data
        | _ => .error (500, "Could not read object part, id: " ++ id)

def handleDownloadPart (downloads : Downloads) (req : DownloadPart) : Except Refusal Bytes := do
  let (download, partNumber, partSize) ← req.admit downloads
  readPart downloads (String.ofList req.downloadId) download partNumber partSize

/-! ### Parts -/

/-- The file has the bytes of the object, in the clear or under the key. -/
structure Downloads.Holds (downloads : Downloads) (download : Download)
    (content : Bytes) : Prop where
  size : download.size = content.length
  short : content.length < 2 ^ 63
  plain : readKeyForObject downloads.keys download.encryptionKeyErn = .ok [] →
    downloads.files download.place = some content
  encrypted : ∀ material, readKeyForObject downloads.keys download.encryptionKeyErn = .ok material →
    material ≠ [] → ∃ ivs, downloads.files download.place =
      some (Core.stored downloads.gcm ivs material content) ∧
        (Core.stored downloads.gcm ivs material content).length < fileLimit

theorem valid_of_readKey {keys : Keys} {keyErn : String} {material : Bytes}
    (readable : readKeyForObject keys keyErn = .ok material) (encrypted : material ≠ []) :
    ValidKey material := by
  unfold readKeyForObject at readable
  split at readable
  · exact absurd (Except.ok.inj readable).symm encrypted
  · split at readable
    · cases readable
    · rename_i key found
      split at readable
      · cases readable
      · rename_i present
        obtain rfl := Except.ok.inj readable
        exact keys.valid _ key found present

section Parts

variable {downloads : Downloads} {download : Download} {content material : Bytes}
  {partNumber partSize : Int} (holds : downloads.Holds download content) (id : String)

include holds

theorem readPart_outside (positive : 1 ≤ partSize)
    (outside : offsetOf partNumber partSize < 0 ∨ download.size ≤ offsetOf partNumber partSize) :
    ∃ refusal, readPart downloads id download partNumber partSize = .error refusal := by
  unfold readPart readPlain
  dsimp only
  split
  · exact ⟨_, rfl⟩
  have before : offsetOf partNumber partSize < 0 := by omega
  have least : -2 ^ 63 ≤ offsetOf partNumber partSize :=
    Int.le_bmod (x := (partNumber - 1) * partSize) (m := 2 ^ 64) (by decide)
  have wraps : int64 (download.size - offsetOf partNumber partSize) ≠ 0 := by
    have := holds.size
    have := holds.short
    unfold int64
    rw [Ne, ← Int.dvd_iff_bmod_eq_zero]
    omega
  split
  · exact ⟨_, rfl⟩
  split
  · split
    · exact ⟨_, rfl⟩
    · split
      · exact ⟨_, rfl⟩
      · rw [if_pos (by rw [length_nil]; omega)]
        exact ⟨_, rfl⟩
  · cases downloads.files download.place with
    | none => exact ⟨_, rfl⟩
    | some file =>
      rw [Option.map_some, decryptRange, if_pos before]
      exact ⟨_, rfl⟩

theorem readPart_inside (lawful : downloads.gcm.Lawful)
    (readable : readKeyForObject downloads.keys download.encryptionKeyErn = .ok material)
    (positive : 1 ≤ partSize) (behind : 0 ≤ offsetOf partNumber partSize)
    (below : offsetOf partNumber partSize < download.size) :
    readPart downloads id download partNumber partSize =
      .ok (slice content (offsetOf partNumber partSize).toNat partSize.toNat) := by
  have size := holds.size
  have short := holds.short
  have cut : slice content (offsetOf partNumber partSize).toNat
      (min partSize (download.size - offsetOf partNumber partSize)).toNat =
        slice content (offsetOf partNumber partSize).toNat partSize.toNat := by
    rw [size]
    exact take_eq_take_iff.mpr (by rw [length_drop]; omega)
  unfold readPart readPlain
  dsimp only
  rw [if_neg (by omega), readable, int64_of_lt (by omega) (by omega)]
  dsimp only
  by_cases plain : material = []
  · subst plain
    rw [if_pos rfl, holds.plain readable]
    dsimp only
    rw [if_neg (by omega), if_neg (not_lt.mpr behind), cut, if_neg]
    rw [slice_length]
    omega
  · obtain ⟨ivs, file, small⟩ := holds.encrypted material readable plain
    rw [if_neg plain, file, Option.map_some,
      Core.decryptRange_stored lawful (valid_of_readKey readable plain) small behind, cut]

end Parts

/-- What is answered is the bytes of the part, which lies in the object. -/
def Tiles (answer : Except Refusal Bytes) (content : Bytes) (partNumber partSize : Int) : Prop :=
  ∀ data, answer = .ok data → (partNumber - 1) * partSize < content.length ∧
    data = slice content ((partNumber - 1) * partSize).toNat partSize.toNat

/-- The product does not fit into 64 bits, and what is left of it lies in the object. -/
def WrapsInto (content : Bytes) (partNumber partSize : Int) : Prop :=
  2 ^ 63 ≤ (partNumber - 1) * partSize ∧ 0 ≤ offsetOf partNumber partSize ∧
    offsetOf partNumber partSize < content.length

/-- A part is refused or right unless it is read where a product that does not fit wraps to, and the
parts from the first one on are the object. -/
theorem parts_tile (downloads : Downloads) (lawful : downloads.gcm.Lawful) (download : Download)
    (content : Bytes) (holds : downloads.Holds download content) (req : DownloadPart)
    (number : {number : Int // 1 ≤ number}) (size : {size : Int // 1 ≤ size})
    (admitted : req.admit downloads = .ok (download, number, size)) :
    (Tiles (handleDownloadPart downloads req) content number size ↔
      ¬((∃ material, readKeyForObject downloads.keys download.encryptionKeyErn = .ok material) ∧
        WrapsInto content number size)) ∧
    ((∃ material, readKeyForObject downloads.keys download.encryptionKeyErn = .ok material) →
      ∃ parts : List Bytes, parts.flatten = content ∧
        (List.range (chunkCount size.1.toNat content.length)).map
          (fun index : ℕ => readPart downloads
          (String.ofList req.downloadId) download (index + 1) size) = parts.map .ok) := by
  have is : handleDownloadPart downloads req =
      readPart downloads (String.ofList req.downloadId) download number size := by
    unfold handleDownloadPart
    rw [admitted]
    rfl
  have whole := holds.size
  have short := holds.short
  have first : 0 ≤ (number.1 - 1) * size.1 := mul_nonneg (by omega) (by omega)
  refine ⟨⟨fun tiles ⟨⟨material, readable⟩, wraps, behind, below⟩ =>
    ?_, fun apart data answered => ?_⟩,
    fun ⟨material, readable⟩ => ?_⟩
  · have answered := readPart_inside holds (String.ofList req.downloadId) lawful readable size.2
      behind (whole ▸ below)
    have inside := (tiles _ (is.trans answered)).1
    omega
  · rw [is] at answered
    by_cases inside : 0 ≤ offsetOf number size ∧ offsetOf number size < download.size
    · cases readable : readKeyForObject downloads.keys download.encryptionKeyErn with
      | error fault =>
        unfold readPart at answered
        rw [if_neg (not_le.mpr inside.2), readable] at answered
        cases answered
      | ok material =>
        have fits : (number.1 - 1) * size.1 < 2 ^ 63 := by
          by_contra wraps
          exact apart ⟨⟨material, readable⟩, not_lt.mp wraps, inside.1, whole ▸ inside.2⟩
        have same : offsetOf number size = (number.1 - 1) * size.1 := int64_of_lt first fits
        rw [readPart_inside holds _ lawful readable size.2 inside.1 inside.2, same] at answered
        exact ⟨by omega, (Except.ok.inj answered).symm⟩
    · obtain ⟨refusal, refused⟩ := readPart_outside holds _ size.2
        (by omega : offsetOf number size < 0 ∨ download.size ≤ offsetOf number size)
      cases refused.symm.trans answered
  · have least := size.2
    have some : 0 < size.1.toNat := by omega
    refine ⟨chunks size.1.toNat content, flatten_chunks some content, ?_⟩
    rw [chunks, map_map]
    refine map_congr_left fun index among => ?_
    have below := (lt_chunkCount some).mp (mem_range.mp among)
    have start : ((index : Int) + 1 - 1) * size.1 = (index * size.1.toNat : ℕ) := by
      rw [add_sub_cancel_right, Nat.cast_mul, Int.toNat_of_nonneg (by omega)]
    have same : offsetOf (index + 1) size = (index * size.1.toNat : ℕ) := by
      rw [offsetOf, start, int64_of_lt (by omega) (by omega)]
    rw [readPart_inside holds _ lawful readable size.2 (by omega) (by omega), same]
    rfl

def downloadId : Text := "0b9c1d2e-3f40-4a5b-8c6d-7e8f90a1b2c3".toList

def mediaKey : String := "ern:ekm:key:media"

def annsDownload (encryptionKeyErn : String) (content : Bytes) : Download :=
  ⟨some "ann", some "media", default, content.length, encryptionKeyErn⟩

/-- AES-GCM on three bytes, in the first frame of an object. -/
def mediaGcm : Gcm :=
  .recorded [{
    key := List.replicate 16 7
    iv := List.replicate 12 0
    aad := Core.ObjectCipher.frameAad 0
    plaintext := [7, 8, 9]
    ciphertext := [251, 151, 17]
    tag := [211, 78, 69, 202, 57, 170, 85, 186, 161, 26, 3, 246, 123, 152, 227, 132]
    tag_length := rfl }]

/-- One download, of an object in the clear or encrypted under the key of its bucket. -/
def oneDownload (encryptionKeyErn : String) (content : Bytes) : Downloads where
  find id := if id = downloadId then some (annsDownload encryptionKeyErn content) else none
  denied _ := none
  keys :=
    { find ern := if ern = mediaKey then some ⟨List.replicate 16 7, "AVAILABLE"⟩ else none
      valid := fun ern key found _ => by
        split at found
        · obtain rfl := Option.some.inj found
          decide
        · cases found }
  files _ := some <|
    if encryptionKeyErn = "" then content
    else Core.stored mediaGcm .zeros (List.replicate 16 7) content
  gcm := mediaGcm

theorem oneDownload_holds (content : Bytes) (short : content.length < 2 ^ 63) :
    (oneDownload "" content).Holds (annsDownload "" content) content :=
  ⟨rfl, short, fun _ => rfl, fun _ readable encrypted =>
    absurd (Except.ok.inj readable).symm encrypted⟩

theorem encryptedDownload_holds :
    (oneDownload mediaKey [7, 8, 9]).Holds (annsDownload mediaKey [7, 8, 9]) [7, 8, 9] := by
  refine ⟨rfl,
    by decide, fun readable => absurd readable (by decide), fun material readable _ => ?_⟩
  have found : readKeyForObject (oneDownload mediaKey [7, 8, 9]).keys mediaKey =
      .ok (List.replicate 16 7) := by decide
  obtain rfl := Except.ok.inj (found.symm.trans readable)
  exact ⟨.zeros, rfl, by decide⟩

/-- The second part of two bytes of three, in the clear and of an encrypted object. -/
theorem second_part_tiles :
    Tiles (handleDownloadPart (oneDownload "" [7, 8, 9]) ⟨.ok "ann", downloadId, ['2'], ['2']⟩)
        [7, 8, 9] 2 2 ∧
      Tiles (handleDownloadPart (oneDownload mediaKey [7, 8, 9])
        ⟨.ok "ann", downloadId, ['2'], ['2']⟩) [7, 8, 9] 2 2 :=
  ⟨(parts_tile _ (Core.Gcm.recorded_lawful _) _ [7, 8, 9] (oneDownload_holds _ (by decide)) _
      ⟨2, by decide⟩ ⟨2, by decide⟩ rfl).1.mpr fun ⟨_, wraps, _⟩ => absurd wraps (by decide),
    (parts_tile _ (Core.Gcm.recorded_lawful _) _ [7, 8, 9] encryptedDownload_holds _
      ⟨2, by decide⟩ ⟨2, by decide⟩ rfl).1.mpr fun ⟨_, wraps, _⟩ => absurd wraps (by decide)⟩

/-- The part behind 2 ^ 32 parts of 2 ^ 32 bytes is the first one. -/
theorem wrapped_part_is_answered :
    ¬∀ (downloads : Downloads) (download : Download) (content : Bytes) (req : DownloadPart)
      (number : {number : Int // 1 ≤ number}) (size : {size : Int // 1 ≤ size}),
      downloads.gcm.Lawful → downloads.Holds download content →
      req.admit downloads = .ok (download, number, size) →
      Tiles (handleDownloadPart downloads req) content number size := by
  intro always
  have inside := (always (oneDownload "" [7]) _ [7]
    ⟨.ok "ann", downloadId, "4294967297".toList, "4294967296".toList⟩
    ⟨4294967297, by decide⟩ ⟨4294967296, by decide⟩ (Core.Gcm.recorded_lawful _)
    (oneDownload_holds _ (by decide)) rfl [7] rfl).1
  exact absurd inside (by decide)

end Euclid.Esm
