/-
This file proves exactly when the readers of encrypted objects give a changed file away.

Objects are encrypted under one key, and a frame decrypts only if it is a frame of one of them, at
its own index. The header is not authenticated, and a frame does not say which object it belongs to.
So a changed file is noticed, or reads as the original, exactly if its header does not make the
object shorter, and wherever it has a frame of any of the objects at that frame's index, the
original has the same bytes in its place.
-/

import Euclid.Core.ObjectRoundTrip
import Mathlib.Tactic.Ring

namespace Euclid.Core

open ObjectCipher List Except Nat

/-! ### Objects under one key -/

/-- An object that was stored: the IVs it was encrypted with and its plaintext. -/
structure Object where
  ivs : Ivs
  plaintext : Bytes
  small : storedLength plaintext.length < fileLimit

namespace Object

def frames (object : Object) : ℕ := chunkCount kChunkSize object.plaintext.length

def chunk (object : Object) (index : ℕ) : Bytes := chunkAt object.plaintext index

def frame (gcm : Gcm) (key : Bytes) (object : Object) (index : ℕ) : Bytes :=
  frameAt gcm object.ivs key object.plaintext index

theorem lt_frames {object : Object} {index : ℕ} :
    index < object.frames ↔ index * kChunkSize < object.plaintext.length := lt_chunks

end Object

/-- Ideal authenticated encryption: under the key, exactly the frames of the objects decrypt, with
their own indexes as associated data. -/
def Gcm.Ideal {ι : Type} (gcm : Gcm) (key : Bytes) (objects : ι → Object) : Prop :=
  ∀ iv aad ciphertext tag plaintext,
    gcm.decipher key iv aad ciphertext tag = some plaintext ↔
      ∃ which index, index < (objects which).frames ∧ iv = (objects which).ivs.iv index ∧
        aad = frameAad index ∧
        (ciphertext, tag) = gcm.encipher key iv aad ((objects which).chunk index) ∧
        plaintext = (objects which).chunk index

/-- Every reading of the file, whole or of a range, fails or gives bytes of the original. -/
structure Evident (gcm : Gcm) (key file : Bytes) (path : String) (original : Bytes) : Prop where
  whole : ∀ plaintext, decryptWholeFile gcm key file path = .ok plaintext → plaintext = original
  buffer : ∀ plaintext, decrypt gcm key file = .ok plaintext → plaintext = original
  range : ∀ offset length plaintext, 0 ≤ offset →
    decryptRange gcm key file path offset length = .ok plaintext →
      plaintext = slice original offset.toNat length.toNat

/-- The header does not make the object shorter, and where a frame of one of the objects is found at
its own index, the original has the same bytes. -/
structure Harmless {ι : Type} (gcm : Gcm) (key : Bytes) (objects : ι → Object) (original : Bytes)
    (header : Header) (file : Bytes) : Prop where
  long : original.length ≤ header.plaintextSize.toNat
  same : ∀ which index, index < header.frames →
    ((objects which).chunk index).length = header.length index →
      (leftFrom file (frameOffsetAt header index)).take (header.length index + kFrameOverhead) =
        (objects which).frame gcm key index →
          (objects which).chunk index =
            slice original (index * header.chunkSize) (header.length index)

/-! ### What opens -/

section Opening

variable {ι : Type} {gcm : Gcm} {key : Bytes} {objects : ι → Object} {header : Header}
  {truncated path : String} {index count : ℕ} {window chunk left file original : Bytes}

theorem header_frames_lt (fits : header.Fits) (within : index < header.frames) :
    index < 2 ^ 64 := by
  have below := fits.lt_frames.mp within
  have small := fits.small
  have grows := Nat.le_mul_of_pos_right index fits.positive
  omega

theorem object_frames_lt {object : Object} (within : index < object.frames) : index < 2 ^ 64 := by
  have below := Object.lt_frames.mp within
  have small := object.small
  rw [storedLength, fileLimit] at small
  have grows := Nat.le_mul_of_pos_right index kChunkSize_pos
  omega

theorem openFrame_ok (sized : gcm.Sized) (ideal : gcm.Ideal key objects) (fits : header.Fits)
    (within : index < header.frames)
    (bounded : window.length ≤ header.length index + kFrameOverhead)
    (opened : openFrame gcm key header truncated index window = .ok chunk) :
    ∃ which, chunk = (objects which).chunk index ∧ chunk.length = header.length index ∧
      window = (objects which).frame gcm key index := by
  have length := openFrame_length sized bounded opened
  have whole := openFrame_whole opened
  rw [openFrame, if_neg (by omega)] at opened
  obtain ⟨iv, ciphertext, tag, rfl, deciphers⟩ := aesGcmDecrypt_ok opened
  obtain ⟨which, other, inside, rfl, bound, sealed, rfl⟩ := (ideal ..).mp deciphers
  have same : index = other := littleEndian_inj
    ((header_frames_lt fits within).trans_eq (by norm_num))
    ((object_frames_lt inside).trans_eq (by norm_num)) bound
  subst same
  refine ⟨which, rfl, length, ?_⟩
  rw [Object.frame, frameAt, ← Object.chunk, ← sealed]

theorem openFrame_frame (sized : gcm.Sized) (ideal : gcm.Ideal key objects) (valid : ValidKey key)
    (fits : header.Fits) (within : index < header.frames) {which : ι}
    (length : ((objects which).chunk index).length = header.length index) :
    openFrame gcm key header truncated index ((objects which).frame gcm key index) =
      .ok ((objects which).chunk index) := by
  have some : index < (objects which).frames := by
    have positive := fits.length_pos within
    rw [← length, Object.chunk, chunkAt_length] at positive
    exact Object.lt_frames.mpr (by omega)
  rw [openFrame, Object.frame, frameAt_length sized, ← Object.chunk, length, if_neg (lt_irrefl _)]
  refine aesGcmDecrypt_frameAt sized valid ((ideal ..).mpr ?_)
  exact ⟨which, index, some, rfl, rfl, rfl, rfl⟩

/-- Where a frame opens that is read behind others, a read that starts with it looks for it too. -/
theorem window_eq (small : file.length < fileLimit) {first : ℕ} (ordered : first ≤ index)
    (whole : header.length index + kFrameOverhead ≤
      (slice (leftFrom file (frameOffsetAt header first)) ((index - first) * header.stride)
        (header.length index + kFrameOverhead)).length) :
    slice (leftFrom file (frameOffsetAt header first)) ((index - first) * header.stride)
        (header.length index + kFrameOverhead) =
      (leftFrom file (frameOffsetAt header index)).take (header.length index + kFrameOverhead) := by
  have behind : 0 ≤ frameOffsetAt header first := by
    by_contra before
    rw [leftFrom, if_pos (by omega), slice, drop_nil, take_nil] at whole
    exact absurd whole (by simp [kFrameOverhead])
  rw [leftFrom, if_neg (by omega)] at whole ⊢
  rw [slice_drop] at whole ⊢
  have place : frameOffsetAt header index =
      frameOffsetAt header first + ((index - first) * header.stride : ℕ) := by
    have apart : (kHeaderSize : Int) + index * (header.chunkSize + kFrameOverhead) =
        (kHeaderSize + first * (header.chunkSize + kFrameOverhead)) +
          ((index - first) * header.stride : ℕ) := by
      rw [Header.stride, cast_mul, cast_add, cast_sub ordered]
      ring
    have inside : (frameOffsetAt header first).toNat + (index - first) * header.stride <
        file.length := by
      rw [slice_length] at whole
      have some := whole.trans (min_le_right ..)
      exact Nat.lt_of_sub_pos (Nat.lt_of_lt_of_le (Nat.add_pos_right _ (by decide)) some)
    have bound : frameOffsetAt header first + ((index - first) * header.stride : ℕ) < 2 ^ 63 := by
      have limit := Int.ofNat_lt.mpr (inside.trans small)
      rwa [Int.natCast_add, Int.toNat_of_nonneg behind] at limit
    rw [frameOffsetAt, apart, int64, ← Int.bmod_add_bmod, ← int64, ← int64, ← frameOffsetAt]
    exact int64_of_lt (Int.add_nonneg behind (Int.natCast_nonneg _)) bound
  have later := Int.natCast_nonneg ((index - first) * header.stride)
  rw [place, leftFrom, if_neg (not_lt.mpr (Int.add_nonneg behind later)),
    Int.toNat_add behind later, Int.toNat_natCast, slice]

variable {opened : List Bytes}

/-- Frames that each open to the bytes of the original open to a range of it. -/
theorem flatten_openFrames (fits : header.Fits)
    (within : index + count ≤ header.frames)
    (each : ∀ other chunk, index ≤ other → other < header.frames →
      openFrame gcm key header truncated other (slice left ((other - index) * header.stride)
        (header.length other + kFrameOverhead)) = .ok chunk →
        chunk = slice original (other * header.chunkSize) (header.length other))
    (opens : openFrames gcm key header truncated index count left = .ok opened) :
    opened.flatten = slice original (index * header.chunkSize)
      (min (count * header.chunkSize) (header.plaintextSize.toNat - index * header.chunkSize)) := by
  induction count generalizing index left opened with
  | zero =>
    obtain rfl := ok.inj opens
    simp [slice]
  | succ count ih =>
    rw [openFrames_succ fits (by omega)] at opens
    cases first : openFrame gcm key header truncated index
        (left.take (header.length index + kFrameOverhead)) with
    | error fault => exact absurd opens (by rw [first]; rintro ⟨⟩)
    | ok chunk =>
      rw [first, ok_bind] at opens
      cases rest : openFrames gcm key header truncated (index + 1) count
          (left.drop (header.length index + kFrameOverhead)) with
      | error fault => exact absurd opens (by rw [rest]; rintro ⟨⟩)
      | ok others =>
        rw [rest, ok_bind] at opens
        obtain rfl := ok.inj opens
        have own : chunk = slice original (index * header.chunkSize) (header.length index) := by
          refine each index chunk (le_refl _) (by omega) ?_
          rw [Nat.sub_self, Nat.zero_mul]
          exact first
        have next := ih (by omega) (fun other inner later inside opens => ?_) rest
        · rw [flatten_cons, next, own]
          cases count with
          | zero =>
            rw [zero_mul, zero_min, slice, slice, take_zero, append_nil,
              zero_add, one_mul]
            rfl
          | succ more =>
            have below := fits.lt_frames.mp (show index + 1 < header.frames by omega)
            rw [succ_mul] at below
            rw [fits.length_full (by omega), succ_mul index, slice_append,
              succ_mul (more + 1)]
            exact congrArg (slice original (index * header.chunkSize)) (by omega)
        · refine each other inner (by omega) inside ?_
          rw [slice_drop, fits.length_full (by omega)] at opens
          rw [← opens, show other - index = 1 + (other - (index + 1)) by omega, add_mul,
            one_mul]
          rfl

theorem parseHeader_buffer {what : String} : (∀ fault, readHeader file path = .error fault →
      ∃ other, parseHeader file what = .error other) ∧
      ∀ header, readHeader file path = .ok header → parseHeader file what = .ok header := by
  have chunk : slice (file.take kHeaderSize) kMagic.length 4 = slice file kMagic.length 4 := by
    have cut : slice (slice file 0 kHeaderSize) kMagic.length 4 =
        slice file (0 + kMagic.length) 4 := slice_slice (by decide)
    rwa [zero_add, slice, slice, drop_zero] at cut
  have size : slice (file.take kHeaderSize) (kMagic.length + 4) 8 =
      slice file (kMagic.length + 4) 8 := by
    have cut : slice (slice file 0 kHeaderSize) (kMagic.length + 4) 8 =
        slice file (0 + (kMagic.length + 4)) 8 := slice_slice (by decide)
    rwa [zero_add, slice, slice, drop_zero] at cut
  have magic : (file.take kHeaderSize).take kMagic.length = file.take kMagic.length := by
    rw [take_take, min_eq_left (by decide)]
  have short : (file.take kHeaderSize).length < kHeaderSize ↔ file.length < kHeaderSize := by
    rw [length_take]
    omega
  simp only [readHeader, parseHeader, chunk, size, magic, short]
  split
  · exact ⟨fun _ _ => ⟨_, rfl⟩, by rintro _ ⟨⟩⟩
  · split
    · exact ⟨fun _ _ => ⟨_, rfl⟩, by rintro _ ⟨⟩⟩
    · exact ⟨by rintro _ ⟨⟩, fun _ same => same⟩

theorem openFrames_ok (other : String)
    (opens : openFrames gcm key header truncated index count left = .ok opened) :
    openFrames gcm key header other index count left = .ok opened := by
  refine mapM_ok_imp (fun entry chunk opens => ?_) opens
  unfold openFrame at opens ⊢
  split at opens
  · nomatch opens
  · rename_i whole
    rw [if_neg whole, opens]

theorem decryptWholeFile_eq (sized : gcm.Sized) (keyed : key ≠ [])
    (read : readHeader file path = .ok header) :
    decryptWholeFile gcm key file path =
      (openFrames gcm key header s!"Encrypted object is truncated: {path}" 0 (header.frames - 0)
        (file.drop kHeaderSize)).map flatten := by
  rw [decryptWholeFile, streamPlaintext, if_neg keyed, read, ok_bind,
    streamFrames_eq sized (parseHeader_fits read) (by rw [length_drop]; omega) (by simp)]
  rfl

theorem decrypt_eq (sized : gcm.Sized) (read : readHeader file path = .ok header)
    (counts : 0 ≤ header.plaintextSize) :
    decrypt gcm key file =
      (openFrames gcm key header "Encrypted object is truncated" 0 (header.frames - 0)
        (file.drop kHeaderSize)).map flatten := by
  rw [decrypt, parseHeader_buffer.2 header read, ok_bind, if_neg (not_lt.mpr counts)]
  exact (decryptFrames_eq sized (parseHeader_fits read) (by omega) (by simp)).trans
    (congrArg (Except.map · _) (funext fun pieces => nil_append _))

theorem decrypt_error (read : readHeader file path = .ok header)
    (negative : header.plaintextSize < 0) :
    decrypt gcm key file = .error "basic_string::_M_create" := by
  rw [decrypt, parseHeader_buffer.2 header read, ok_bind, if_pos negative]
  rfl

theorem map_flatten_openFrames (first second : String) {plaintext : Bytes}
    (reads : (openFrames gcm key header first index count left).map flatten = .ok plaintext) :
    (openFrames gcm key header second index count left).map flatten = .ok plaintext := by
  cases opens : openFrames gcm key header first index count left with
  | error fault =>
    rw [opens] at reads
    cases reads
  | ok opened =>
    rw [openFrames_ok second opens]
    rwa [opens] at reads

/-- Of every file, whoever has written it, the reader of a buffer makes the plaintext that the
reader of a file makes of it, or both refuse it, unless the header has a negative length: that the
reader of a buffer always refuses. -/
theorem readers_agree (gcm : Gcm) (sized : gcm.Sized) {key : Bytes} (keyed : key ≠ [])
    (file : Bytes) (path : String) (plaintext : Bytes) :
    decrypt gcm key file = .ok plaintext ↔
      decryptWholeFile gcm key file path = .ok plaintext ∧
        ∀ header, readHeader file path = .ok header → 0 ≤ header.plaintextSize := by
  cases read : readHeader file path with
  | error fault =>
    obtain ⟨other, buffer⟩ := parseHeader_buffer.1 fault read
    rw [decryptWholeFile, streamPlaintext, if_neg keyed, read, decrypt, buffer]
    exact ⟨by rintro ⟨⟩, by rintro ⟨⟨⟩, _⟩⟩
  | ok header =>
    rw [decryptWholeFile_eq sized keyed read]
    rcases lt_or_ge header.plaintextSize 0 with negative | counts
    · rw [decrypt_error read negative]
      exact ⟨by rintro ⟨⟩, fun both => absurd (both.2 header rfl) (not_le.mpr negative)⟩
    · rw [decrypt_eq sized read counts]
      refine ⟨fun reads => ⟨map_flatten_openFrames _ _ reads, fun other same => ?_⟩,
        fun both => map_flatten_openFrames _ _ both.1⟩
      rwa [← ok.inj same]

/-- The file of three bytes reads the same from a buffer. -/
theorem three_bytes_agree : decrypt .threeBytes (List.replicate 16 7)
    (stored .threeBytes .zeros (List.replicate 16 7) [1, 2, 3]) = .ok [1, 2, 3] :=
  (readers_agree .threeBytes Gcm.threeBytes_lawful.toSized (by decide) _ "object" _).mpr
    ⟨decryptWholeFile_stored Gcm.threeBytes_lawful (by decide) (by decide) "object",
      fun header read => by
        obtain rfl : (⟨kChunkSize, 3⟩ : Header) = header := by
          have parsed : readHeader (stored .threeBytes .zeros (replicate 16 7) [1, 2, 3]) "object" =
              .ok ⟨kChunkSize, 3⟩ := by decide
          exact ok.inj (parsed.symm.trans read)
        decide⟩

section

variable (harmless : Harmless gcm key objects original header file)

include harmless

theorem Harmless.opens (sized : gcm.Sized) (ideal : gcm.Ideal key objects) (fits : header.Fits)
    (small : file.length < fileLimit) {first : ℕ} (ordered : first ≤ index)
    (within : index < header.frames) (opened : openFrame gcm key header truncated index
      (slice (leftFrom file (frameOffsetAt header first)) ((index - first) * header.stride)
        (header.length index + kFrameOverhead)) = .ok chunk) :
    chunk = slice original (index * header.chunkSize) (header.length index) := by
  have bounded : (slice (leftFrom file (frameOffsetAt header first))
      ((index - first) * header.stride) (header.length index + kFrameOverhead)).length ≤
        header.length index + kFrameOverhead := by
    rw [slice_length]
    exact min_le_left ..
  obtain ⟨which, rfl, length, found⟩ := openFrame_ok sized ideal fits within bounded opened
  refine harmless.same which index within length ?_
  rw [← window_eq small ordered (openFrame_whole opened), found]

variable {opened : List Bytes}

section

variable (sized : gcm.Sized) (ideal : gcm.Ideal key objects) (fits : header.Fits)
  (small : file.length < fileLimit)

include sized ideal fits small

theorem Harmless.flatten (within : index + count ≤ header.frames)
    (opens : openFrames gcm key header truncated index count
      (leftFrom file (frameOffsetAt header index)) = .ok opened) :
    opened.flatten = slice original (index * header.chunkSize)
      (min (count * header.chunkSize) (header.plaintextSize.toNat - index * header.chunkSize)) :=
  flatten_openFrames fits within
    (fun _ _ ordered inside opened => harmless.opens sized ideal fits small ordered inside opened)
    opens

theorem Harmless.flatten_all
    (opens : openFrames gcm key header truncated 0 (header.frames - 0)
      (file.drop kHeaderSize) = .ok opened) : opened.flatten = original := by
  have start : leftFrom file (frameOffsetAt header 0) = file.drop kHeaderSize := by
    rw [frameOffsetAt_eq (by rw [zero_mul]; decide), leftFrom, if_neg (by omega),
      Int.toNat_natCast, zero_mul, add_zero]
  have covers := le_chunkCount_mul fits.positive header.plaintextSize.toNat
  rw [← start, Nat.sub_zero] at opens
  rw [harmless.flatten sized ideal fits small (by omega) opens, Nat.zero_mul, Nat.sub_zero]
  exact slice_of_le (harmless.long.trans (le_min covers le_rfl))

theorem Harmless.of_map {plaintext : Bytes}
    (reads : (openFrames gcm key header truncated 0 (header.frames - 0)
      (file.drop kHeaderSize)).map List.flatten = .ok plaintext) : plaintext = original := by
  cases opens : openFrames gcm key header truncated 0 (header.frames - 0)
      (file.drop kHeaderSize) with
  | error fault =>
    rw [opens] at reads
    cases reads
  | ok opened =>
    rw [opens] at reads
    rw [← ok.inj reads]
    exact harmless.flatten_all sized ideal fits small opens

end

theorem Harmless.evident (sized : gcm.Sized) (ideal : gcm.Ideal key objects) (valid : ValidKey key)
    (small : file.length < fileLimit) (read : readHeader file path = .ok header) :
    Evident gcm key file path original := by
  have fits := parseHeader_fits read
  refine ⟨fun plaintext decrypted => ?_, fun plaintext decrypted => ?_,
    fun offset length plaintext behind decrypted => ?_⟩
  · rw [decryptWholeFile_eq sized valid.ne_nil read] at decrypted
    exact harmless.of_map sized ideal fits small decrypted
  · rw [readers_agree gcm sized valid.ne_nil file path, decryptWholeFile_eq sized valid.ne_nil read]
      at decrypted
    exact harmless.of_map sized ideal fits small decrypted.1
  · obtain ⟨start, rfl⟩ := Int.eq_ofNat_of_zero_le behind
    rcases le_or_gt length 0 with none | positive
    · rw [decryptRange, if_neg (by omega), if_pos none] at decrypted
      rw [← ok.inj decrypted, Int.toNat_of_nonpos none, slice, take_zero]
    rcases le_or_gt header.plaintextSize (start : Int) with beyond | below
    · rw [decryptRange, if_neg (by omega), if_neg (by omega), read, ok_bind, if_pos beyond]
        at decrypted
      have long := harmless.long
      rw [← ok.inj decrypted, Int.toNat_natCast, slice_eq_nil (by omega)]
    obtain ⟨wanted, wants⟩ := Int.eq_ofNat_of_zero_le
      (a := min length (header.plaintextSize - start)) (by omega)
    rw [decryptRange_eq read fits positive below wants.symm] at decrypted
    have last : (start + wanted - 1) / header.chunkSize < header.frames :=
      last_lt_frames fits (by omega) (by omega)
    have ordered : start / header.chunkSize ≤ (start + wanted - 1) / header.chunkSize :=
      Nat.div_le_div_right (by omega)
    cases opens : openFrames gcm key header s!"Encrypted object is truncated: {path}"
        (start / header.chunkSize)
        ((start + wanted - 1) / header.chunkSize + 1 - start / header.chunkSize)
        (leftFrom file (frameOffsetAt header (start / header.chunkSize))) with
    | error fault =>
      rw [opens] at decrypted
      cases decrypted
    | ok opened =>
      have split := div_add_mod' start header.chunkSize
      have final := div_add_mod' (start + wanted - 1) header.chunkSize
      have rest := mod_lt (start + wanted - 1) fits.positive
      have covers : start % header.chunkSize + wanted ≤
          min (((start + wanted - 1) / header.chunkSize + 1 - start / header.chunkSize) *
              header.chunkSize)
            (header.plaintextSize.toNat - start / header.chunkSize * header.chunkSize) := by
        rw [Nat.sub_mul, Nat.succ_mul]
        omega
      rw [opens, ok_bind, substr,
        harmless.flatten sized ideal fits small (by omega) opens] at decrypted
      split at decrypted
      · cases decrypted
      · rw [← ok.inj decrypted, slice_slice covers, split, Int.toNat_natCast]
        have long := harmless.long
        rcases le_or_gt length (header.plaintextSize - start) with short | past
        · rw [show length.toNat = wanted by omega]
        · rw [slice, slice, take_of_length_le, take_of_length_le] <;>
            (rw [length_drop]; omega)

end

/-- A file whose every reading fails or gives bytes of the original is harmless. -/
theorem Evident.harmless (evident : Evident gcm key file path original) (sized : gcm.Sized)
    (ideal : gcm.Ideal key objects) (valid : ValidKey key)
    (read : readHeader file path = .ok header) : Harmless gcm key objects original header file := by
  have fits := parseHeader_fits read
  refine ⟨?_, fun which index within length found => ?_⟩
  · -- A range behind the end that the header says is empty.
    have nothing : decryptRange gcm key file path header.plaintextSize.toNat 1 = .ok [] := by
      rw [decryptRange, if_neg (by omega), if_neg (by omega), read, ok_bind, if_pos (by omega)]
      rfl
    have empty := congrArg length (evident.range _ _ _ (by omega) nothing)
    rw [slice_length, length_nil] at empty
    omega
  · -- The range that is this frame.
    have positive := fits.length_pos within
    have below := fits.lt_frames.mp within
    have first : index * header.chunkSize / header.chunkSize = index :=
      Nat.mul_div_cancel _ fits.positive
    have last : (index * header.chunkSize + header.length index - 1) /
      header.chunkSize = index := by
      have short : header.length index ≤ header.chunkSize := min_le_left ..
      rw [show index * header.chunkSize + header.length index - 1 =
        (header.length index - 1) + index * header.chunkSize by omega,
        add_mul_div_right _ _ fits.positive, div_eq_of_lt (by omega), zero_add]
    have wants : ((header.length index : ℕ) : Int) = min (header.length index : Int)
        (header.plaintextSize - (index * header.chunkSize : ℕ)) := by
      have fewer : header.length index ≤ header.plaintextSize.toNat - index * header.chunkSize :=
        min_le_right ..
      omega
    have opened : openFrames gcm key header s!"Encrypted object is truncated: {path}" index 1
        (leftFrom file (frameOffsetAt header index)) = .ok [(objects which).chunk index] := by
      rw [openFrames_succ fits within, found, openFrame_frame sized ideal valid fits within length,
        ok_bind]
      rfl
    have reads : decryptRange gcm key file path (index * header.chunkSize : ℕ)
        (header.length index) = .ok ((objects which).chunk index) := by
      rw [decryptRange_eq read fits (by omega) (by omega) wants, first, last,
        show index + 1 - index = 1 by omega, opened, ok_bind, mul_mod_left, substr,
        if_neg (by omega), flatten_singleton, ← length, slice_of_le (le_refl _)]
    have same := evident.range _ _ _ (by omega) reads
    rwa [Int.toNat_natCast, Int.toNat_natCast] at same

end Opening

/-- However a file is made out of objects that are encrypted under one key: it is certain that every
reading of it, whole or of a range, fails or gives bytes of the original object, exactly if its
header is none, or the file is harmless under it. -/
theorem tampering_evident_iff {ι : Type} (gcm : Gcm) (sized : gcm.Sized) {key : Bytes}
    (valid : ValidKey key) (objects : ι → Object) (ideal : gcm.Ideal key objects) (original : ι)
    (file : Bytes) (small : file.length < fileLimit) (path : String) :
    Evident gcm key file path (objects original).plaintext ↔
      ∀ header, readHeader file path = .ok header →
        Harmless gcm key objects (objects original).plaintext header file := by
  refine ⟨fun evident header read => evident.harmless sized ideal valid read, fun harmless => ?_⟩
  cases read : readHeader file path with
  | ok header => exact (harmless header read).evident sized ideal valid small read
  | error fault =>
    obtain ⟨other, buffer⟩ := parseHeader_buffer.1 fault read
    refine ⟨fun plaintext decrypted => ?_, fun plaintext decrypted => ?_,
      fun offset length plaintext behind decrypted => ?_⟩
    · rw [decryptWholeFile, streamPlaintext, if_neg valid.ne_nil, read] at decrypted
      cases decrypted
    · rw [decrypt, buffer] at decrypted
      cases decrypted
    · rw [decryptRange, if_neg (by omega), read] at decrypted
      split at decrypted
      · rename_i none
        rw [← ok.inj decrypted, Int.toNat_of_nonpos none, slice, take_zero]
      · cases decrypted

/-! ### Two objects of one byte -/

/-- AES-GCM as it is on what was recorded: nothing else decrypts. -/
def Gcm.authentic (records : List Recorded) : Gcm where
  encipher := (Gcm.recorded records).encipher
  decipher key iv aad ciphertext tag :=
    if ∃ record ∈ records, record.key = key ∧ record.iv = iv ∧ record.aad = aad ∧
        record.ciphertext = ciphertext ∧ record.tag = tag then
      some (mask (Recorded.keystream records key iv) ciphertext)
    else none

theorem Gcm.authentic_sized (records : List Recorded) : (Gcm.authentic records).Sized := by
  have made := (Gcm.recorded_lawful records).toSized
  refine ⟨made.ciphertext_length, made.tag_length, ?_⟩
  intro key iv aad ciphertext tag plaintext opened
  dsimp only [Gcm.authentic] at opened
  split at opened
  · rw [← Option.some.inj opened, mask_length]
  · cases opened

/-- The first frames of two objects of one byte under one key. -/
def twoFrames : List Recorded :=
  [{ key := List.replicate 16 7
     iv := List.replicate 12 0
     aad := frameAad 0
     plaintext := [1]
     ciphertext := [253]
     tag := [175, 32, 73, 190, 60, 143, 191, 157, 86, 165, 76, 83, 32, 185, 215, 219]
     tag_length := rfl },
   { key := List.replicate 16 7
     iv := List.replicate 12 1
     aad := frameAad 0
     plaintext := [2]
     ciphertext := [163]
     tag := [76, 158, 164, 68, 249, 7, 82, 108, 211, 18, 76, 224, 29, 33, 6, 4]
     tag_length := rfl }]

def twoObjects : Bool → Object
  | false => ⟨.zeros, [1], by decide⟩
  | true => ⟨⟨fun _ => List.replicate 12 1, fun _ => length_replicate⟩, [2], by decide⟩

theorem twoFrames_ideal : (Gcm.authentic twoFrames).Ideal (replicate 16 7) twoObjects := by
  intro iv aad ciphertext tag plaintext
  constructor
  · intro opened
    dsimp only [Gcm.authentic] at opened
    split at opened
    · rename_i recorded
      obtain ⟨record, member, _, rfl, rfl, rfl, rfl⟩ := recorded
      obtain rfl := Option.some.inj opened
      simp only [twoFrames, mem_cons, not_mem_nil, or_false] at member
      obtain rfl | rfl := member
      · exact ⟨false, 0, by decide, rfl, rfl, by decide, by decide⟩
      · exact ⟨true, 0, by decide, rfl, rfl, by decide, by decide⟩
    · cases opened
  · rintro ⟨which, index, inside, rfl, rfl, sealed, rfl⟩
    have first : index = 0 := by
      have below := Object.lt_frames.mp inside
      cases which <;> simp only [twoObjects, length_singleton, kChunkSize] at below <;> omega
    subst first
    obtain ⟨rfl, rfl⟩ := Prod.mk.inj sealed
    cases which <;> decide

/-- An object's file with another chunk size in its header and another object's frame behind its own
still reads as that object. -/
theorem altered_evident : Evident (.authentic twoFrames) (List.replicate 16 7)
      (makeHeader 256 1 ++ (twoObjects false).frame (.authentic twoFrames)
        (List.replicate 16 7) 0 ++
        (twoObjects true).frame (.authentic twoFrames) (List.replicate 16 7) 0) "object" [1] := by
  refine (tampering_evident_iff (.authentic twoFrames) (Gcm.authentic_sized _)
    (by decide) twoObjects
    twoFrames_ideal false _ (by decide) "object").mpr fun header read => ?_
  obtain rfl : (⟨256, 1⟩ : Header) = header := by
    have parsed : readHeader (makeHeader 256 1 ++
        (twoObjects false).frame (.authentic twoFrames) (replicate 16 7) 0 ++
        (twoObjects true).frame (.authentic twoFrames) (replicate 16 7) 0) "object" =
        .ok ⟨256, 1⟩ := by decide
    exact ok.inj (parsed.symm.trans read)
  refine ⟨by decide, fun which index within _ found => ?_⟩
  obtain rfl : index = 0 := by
    have one : (⟨256, 1⟩ : Header).frames = 1 := by decide
    omega
  cases which
  · decide
  · exact absurd found (by decide)

/-- The header of an object before the frame of another reads as the other. -/
theorem swapped_frame_unnoticed : (Gcm.authentic twoFrames).Ideal (List.replicate 16 7) twoObjects ∧
      ¬Evident (.authentic twoFrames) (List.replicate 16 7)
        (makeHeader kChunkSize 1 ++
          (twoObjects true).frame (.authentic twoFrames) (List.replicate 16 7) 0)
        "object" [1] := by
  refine ⟨twoFrames_ideal, fun evident => ?_⟩
  have reads : decryptWholeFile (.authentic twoFrames) (replicate 16 7)
      (makeHeader kChunkSize 1 ++
        (twoObjects true).frame (.authentic twoFrames) (replicate 16 7) 0)
      "object" = .ok [2] := by decide
  exact absurd (evident.whole [2] reads) (by decide)

end Euclid.Core
