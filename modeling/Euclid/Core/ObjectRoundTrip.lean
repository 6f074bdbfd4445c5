/-
This file proves that an encrypted object gives its plaintext back, whole and in ranges.

The file of a plaintext is a header and its frames. An encryptor that is handed the plaintext in any
pieces holds, after each of them, the full frames of what it has been given and the rest in its
buffer, so it ends with that file. At the place where a reader looks for a frame of that file is
that frame, and it opens to its chunk.
-/

import Euclid.Core.ObjectReading

namespace Euclid.Core

open ObjectCipher List Nat Int ObjectEncryptor

/-! ### The file of a plaintext -/

section Stored

variable (gcm : Gcm) (ivs : Ivs) (key plaintext : Bytes)

def chunkAt (index : ℕ) : Bytes := slice plaintext (index * kChunkSize) kChunkSize

def frameAt (index : ℕ) : Bytes :=
  let encrypted := gcm.encipher key (ivs.iv index) (frameAad index) (chunkAt plaintext index)
  ivs.iv index ++ encrypted.1 ++ encrypted.2

/-- The frames of a plaintext, one behind the other. -/
def framesOf (count : ℕ) : Bytes := (List.range count).flatMap (frameAt gcm ivs key plaintext)

def stored : Bytes :=
  makeHeader kChunkSize plaintext.length ++
    framesOf gcm ivs key plaintext (chunkCount kChunkSize plaintext.length)

/-- How long the file of a plaintext is. -/
def storedLength (length : ℕ) : ℕ :=
  kHeaderSize + length + chunkCount kChunkSize length * kFrameOverhead

variable {gcm ivs key plaintext} {index count : ℕ}

theorem kChunkSize_pos : 0 < kChunkSize := by decide

@[simp] theorem makeHeader_length (chunkSize size : ℕ) :
    (makeHeader chunkSize size).length = kHeaderSize := by
  simp [makeHeader, kMagic, kHeaderSize]

theorem chunkAt_length : (chunkAt plaintext index).length =
    min kChunkSize (plaintext.length - index * kChunkSize) := slice_length ..

variable (within : (index + 1) * kChunkSize ≤ plaintext.length)

include within in
theorem chunkAt_full : (chunkAt plaintext index).length = kChunkSize := by
  rw [chunkAt_length]
  rw [succ_mul] at within
  omega

include within in
theorem chunkAt_append (more : Bytes) :
    chunkAt (plaintext ++ more) index = chunkAt plaintext index := by
  rw [succ_mul] at within
  rw [chunkAt, chunkAt, slice, slice, drop_append_of_le_length (by omega),
    take_append_of_le_length (by rw [length_drop]; omega)]

theorem frameAt_length (sized : gcm.Sized) : (frameAt gcm ivs key plaintext index).length =
      (chunkAt plaintext index).length + kFrameOverhead := by
  simp only [frameAt, length_append, ivs.iv_length, sized.ciphertext_length,
    sized.tag_length, kFrameOverhead]
  omega

theorem framesOf_length (sized : gcm.Sized) (within : count * kChunkSize ≤ plaintext.length) :
    (framesOf gcm ivs key plaintext count).length = count * (kChunkSize + kFrameOverhead) := by
  induction count with
  | zero => simp [framesOf]
  | succ count ih =>
    rw [framesOf, range_succ, flatMap_append, length_append, ← framesOf,
      ih (by rw [succ_mul] at within; omega), flatMap_singleton,
      frameAt_length sized, chunkAt_full within, ← succ_mul]

theorem framesOf_append (within : count * kChunkSize ≤ plaintext.length) (more : Bytes) :
    framesOf gcm ivs key (plaintext ++ more) count = framesOf gcm ivs key plaintext count := by
  induction count with
  | zero => simp [framesOf]
  | succ count ih =>
    rw [framesOf, framesOf, range_succ, flatMap_append, flatMap_append, ← framesOf,
      ← framesOf, ih (by rw [succ_mul] at within; omega),
      flatMap_singleton, flatMap_singleton, frameAt, frameAt, chunkAt_append within]

theorem framesOf_succ : framesOf gcm ivs key plaintext (count + 1) =
      framesOf gcm ivs key plaintext count ++ frameAt gcm ivs key plaintext count := by
  rw [framesOf, range_succ, flatMap_append, flatMap_singleton, framesOf]

theorem lt_chunks : index < chunkCount kChunkSize plaintext.length ↔
    index * kChunkSize < plaintext.length :=
  lt_chunkCount kChunkSize_pos

theorem stored_length (sized : gcm.Sized) :
    (stored gcm ivs key plaintext).length = storedLength plaintext.length := by
  rw [stored, length_append, makeHeader_length, storedLength, add_assoc]
  congr 1
  cases count : chunkCount kChunkSize plaintext.length with
  | zero =>
    have covers := le_chunkCount_mul kChunkSize_pos plaintext.length
    rw [count] at covers
    simp [framesOf]
    omega
  | succ full =>
    -- All frames but the last are full ones.
    have last := lt_chunks.mp (lt_of_lt_of_eq (lt_succ_self full) count.symm)
    have covers := le_chunkCount_mul kChunkSize_pos plaintext.length
    rw [count, succ_mul] at covers
    rw [framesOf_succ, length_append, framesOf_length sized last.le, frameAt_length sized,
      chunkAt_length, mul_add, succ_mul]
    omega

/-! ### Reading the file of a plaintext -/

def headerOf (plaintext : Bytes) : Header := ⟨kChunkSize, plaintext.length⟩

theorem parseHeader_makeHeader {size : ℕ} (small : size < 2 ^ 63) (rest : Bytes) (what : String) :
    parseHeader (makeHeader kChunkSize size ++ rest) what = .ok ⟨kChunkSize, size⟩ := by
  have chunk : slice (makeHeader kChunkSize size ++ rest) kMagic.length 4 =
      littleEndian 4 kChunkSize := by
    rw [makeHeader, append_assoc, append_assoc, slice, drop_left,
      take_append_of_le_length (by simp), take_of_length_le (by simp)]
  have length : slice (makeHeader kChunkSize size ++ rest) (kMagic.length + 4) 8 =
      littleEndian 8 size := by
    rw [makeHeader, append_assoc, slice,
      show kMagic.length + 4 = (kMagic ++ littleEndian 4 kChunkSize).length by simp,
      drop_left, take_append_of_le_length (by simp),
      take_of_length_le (by simp)]
  have magic : (makeHeader kChunkSize size ++ rest).take kMagic.length = kMagic := by
    rw [makeHeader, append_assoc, append_assoc, take_left]
  rw [parseHeader, if_neg (by rw [magic]; simp)]
  simp only [chunk, length]
  rw [ofLittleEndian_of_lt (by decide), if_neg (by decide), ofLittleEndian_of_lt (by omega),
    int64_of_lt (by omega) (by omega)]

theorem readHeader_stored (small : plaintext.length < 2 ^ 63) {path : String} :
    readHeader (stored gcm ivs key plaintext) path = .ok (headerOf plaintext) := by
  have beginning : (stored gcm ivs key plaintext).take kHeaderSize =
      makeHeader kChunkSize plaintext.length ++ [] := by
    rw [stored, take_left' (makeHeader_length ..), append_nil]
  rw [readHeader, beginning, parseHeader_makeHeader small]
  rfl

theorem headerOf_fits (small : plaintext.length < 2 ^ 63) : (headerOf plaintext).Fits :=
  ⟨kChunkSize_pos, by simp only [headerOf]; omega⟩

theorem headerOf_length : (headerOf plaintext).length index = (chunkAt plaintext index).length :=
  chunkAt_length.symm

theorem aesGcmDecrypt_frameAt (sized : gcm.Sized) (valid : ValidKey key)
    (deciphers : gcm.decipher key (ivs.iv index) (frameAad index)
      (gcm.encipher key (ivs.iv index) (frameAad index) (chunkAt plaintext index)).1
      (gcm.encipher key (ivs.iv index) (frameAad index) (chunkAt plaintext index)).2 =
        some (chunkAt plaintext index)) :
    aesGcmDecrypt gcm key (frameAt gcm ivs key plaintext index) (frameAad index) =
      .ok (chunkAt plaintext index) := by
  rw [frameAt, aesGcmDecrypt_append valid (ivs.iv_length index) (sized.tag_length ..), deciphers]

theorem openFrame_frameAt (lawful : gcm.Lawful) (valid : ValidKey key) (truncated : String) :
    openFrame gcm key (headerOf plaintext) truncated index (frameAt gcm ivs key plaintext index) =
      .ok (chunkAt plaintext index) := by
  rw [openFrame, headerOf_length, if_neg (by rw [frameAt_length lawful.toSized]; omega)]
  exact aesGcmDecrypt_frameAt lawful.toSized valid (lawful.decipher_encipher ..)

theorem stored_drop (lawful : gcm.Lawful) (small : plaintext.length < 2 ^ 63)
    (within : index < (headerOf plaintext).frames) :
    (stored gcm ivs key plaintext).drop (kHeaderSize + index * (headerOf plaintext).stride) =
      (range' index ((headerOf plaintext).frames - index)).flatMap
        (frameAt gcm ivs key plaintext) := by
  rw [stored, ← drop_drop, drop_left' (makeHeader_length ..)]
  refine drop_flatMap_range _ within.le fun other before => ?_
  have full : (headerOf plaintext).length other = (headerOf plaintext).chunkSize :=
    (headerOf_fits small).length_full (by omega)
  rw [frameAt_length lawful.toSized, ← headerOf_length, full]
  rfl

theorem stored_window (lawful : gcm.Lawful) (small : plaintext.length < 2 ^ 63)
    (within : index < (headerOf plaintext).frames) :
    slice (stored gcm ivs key plaintext) (kHeaderSize + index * (headerOf plaintext).stride)
        ((headerOf plaintext).length index + kFrameOverhead) =
      frameAt gcm ivs key plaintext index := by
  rw [slice, stored_drop lawful small within,
    show (headerOf plaintext).frames - index = (headerOf plaintext).frames -
      (index + 1) + 1 by omega,
    range'_succ, flatMap_cons, headerOf_length]
  exact take_left' (frameAt_length lawful.toSized)

theorem openFrames_stored (lawful : gcm.Lawful) (valid : ValidKey key)
    (small : plaintext.length < 2 ^ 63) (within : index + count ≤ (headerOf plaintext).frames)
    (truncated : String) :
    openFrames gcm key (headerOf plaintext) truncated index count
        ((stored gcm ivs key plaintext).drop (kHeaderSize + index * (headerOf plaintext).stride)) =
      .ok ((range' index count).map (chunkAt plaintext)) := by
  refine mapM_ok fun other mem => ?_
  have later := (mem_range'_1.mp mem).1
  have before := (mem_range'_1.mp mem).2
  have place : kHeaderSize + index * (headerOf plaintext).stride +
      (other - index) * (headerOf plaintext).stride =
        kHeaderSize + other * (headerOf plaintext).stride := by
    rw [Nat.add_assoc, ← Nat.add_mul, Nat.add_sub_cancel' later]
  rw [slice_drop, place, stored_window lawful small (by omega), openFrame_frameAt lawful valid]

theorem flatten_chunkAt (index count : ℕ) :
    ((range' index count).map (chunkAt plaintext)).flatten =
      slice plaintext (index * kChunkSize) (count * kChunkSize) :=
  flatten_slices ..

theorem flatten_all : ((range' 0 (headerOf plaintext).frames).map (chunkAt plaintext)).flatten =
    plaintext := by
  rw [flatten_chunkAt, zero_mul]
  exact slice_of_le (le_chunkCount_mul kChunkSize_pos _)

theorem ValidKey.ne_nil (valid : ValidKey key) : key ≠ [] := by
  rintro rfl
  exact absurd valid (by decide)

section

variable (lawful : gcm.Lawful)

include lawful

theorem streamPlaintext_stored (valid : ValidKey key)
    (small : plaintext.length < 2 ^ 63) (path : String) :
    streamPlaintext gcm key (stored gcm ivs key plaintext) path =
      .ok ((range' 0 (headerOf plaintext).frames).map (chunkAt plaintext)) := by
  have frames : openFrames gcm key (headerOf plaintext) _ 0 (headerOf plaintext).frames
      ((stored gcm ivs key plaintext).drop (kHeaderSize + 0 * (headerOf plaintext).stride)) = _ :=
    openFrames_stored lawful valid small (by omega) s!"Encrypted object is truncated: {path}"
  rw [streamPlaintext, if_neg valid.ne_nil, readHeader_stored small, ok_bind,
    streamFrames_eq lawful.toSized (headerOf_fits small) (by rw [length_drop]; omega) (by simp)]
  simpa using frames

theorem decryptWholeFile_stored (valid : ValidKey key)
    (small : plaintext.length < 2 ^ 63) (path : String) :
    decryptWholeFile gcm key (stored gcm ivs key plaintext) path = .ok plaintext := by
  rw [decryptWholeFile, streamPlaintext_stored lawful valid small, ok_bind, flatten_all]
  rfl

variable (small : (stored gcm ivs key plaintext).length < fileLimit)

include small in
theorem leftFrom_stored (within : index < (headerOf plaintext).frames) :
    leftFrom (stored gcm ivs key plaintext) (frameOffsetAt (headerOf plaintext) index) =
      (stored gcm ivs key plaintext).drop (kHeaderSize + index * (headerOf plaintext).stride) := by
  have below := lt_chunks.mp within
  have frames : index ≤ chunkCount kChunkSize plaintext.length := le_of_lt within
  have overhead := mul_le_mul_right kFrameOverhead frames
  have split : index * (headerOf plaintext).stride = index * kChunkSize + index * kFrameOverhead :=
    mul_add ..
  rw [stored_length lawful.toSized, storedLength, fileLimit] at small
  rw [frameOffsetAt_eq (by omega), leftFrom, if_neg (by omega), toNat_natCast]

theorem decryptRange_stored (valid : ValidKey key)
    (small : (stored gcm ivs key plaintext).length < fileLimit) {path : String}
    {offset length : Int} (behind : 0 ≤ offset) :
    decryptRange gcm key (stored gcm ivs key plaintext) path offset length =
      .ok (slice plaintext offset.toNat length.toNat) := by
  have fits : plaintext.length < 2 ^ 63 := by
    rw [stored_length lawful.toSized, storedLength, fileLimit] at small
    omega
  have read : readHeader (stored gcm ivs key plaintext) path = .ok (headerOf plaintext) :=
    readHeader_stored fits
  obtain ⟨start, rfl⟩ := eq_ofNat_of_zero_le behind
  rcases le_or_gt length 0 with none | positive
  · rw [decryptRange, if_neg (by omega), if_pos none, toNat_of_nonpos none]
    simp [slice]
  rcases le_or_gt ((headerOf plaintext).plaintextSize) (start : Int) with beyond | below
  · rw [decryptRange, if_neg (by omega), if_neg (by omega), read, ok_bind, if_pos beyond,
      toNat_natCast, slice_eq_nil]
    · rfl
    simpa [headerOf] using beyond
  obtain ⟨wanted, wants⟩ := eq_ofNat_of_zero_le
    (a := min length ((headerOf plaintext).plaintextSize - start)) (by omega)
  have reach : start + wanted ≤ plaintext.length := by
    simp only [headerOf] at wants
    omega
  have some : 0 < wanted := by omega
  have last : (start + wanted - 1) / kChunkSize < (headerOf plaintext).frames :=
    last_lt_frames (headerOf_fits fits) some (by simpa [headerOf] using reach)
  have ordered : start / kChunkSize ≤ (start + wanted - 1) / kChunkSize :=
    Nat.div_le_div_right (by omega)
  rw [decryptRange_eq read (headerOf_fits fits) positive below wants.symm,
    show (headerOf plaintext).chunkSize = kChunkSize from rfl,
    leftFrom_stored lawful small (by omega),
      openFrames_stored lawful valid fits (by omega), ok_bind,
    flatten_chunkAt]
  have split := div_add_mod' start kChunkSize
  have final := div_add_mod' (start + wanted - 1) kChunkSize
  have rest := mod_lt (start + wanted - 1) kChunkSize_pos
  have covers : start % kChunkSize + wanted ≤
      ((start + wanted - 1) / kChunkSize + 1 - start / kChunkSize) * kChunkSize := by
    rw [Nat.sub_mul, Nat.succ_mul]
    omega
  rw [substr, if_neg, slice_slice covers, split, toNat_natCast]
  · rcases le_or_gt length (plaintext.length - start) with short | long
    · rw [show length.toNat = wanted by simp only [headerOf] at wants; omega]
    · rw [slice, slice, take_of_length_le, take_of_length_le] <;>
        (rw [length_drop]; simp only [headerOf] at wants; omega)
  · rw [slice_length]
    omega

include small in
theorem expectedFileSize_stored (path : String) :
    expectedFileSize (stored gcm ivs key plaintext) path =
      .ok (stored gcm ivs key plaintext).length := by
  have length : (stored gcm ivs key plaintext).length = storedLength plaintext.length :=
    stored_length lawful.toSized
  rw [length, storedLength, fileLimit] at small
  have covers := le_chunkCount_mul kChunkSize_pos plaintext.length
  have chunk : max 1 ((headerOf plaintext).chunkSize : Int) = kChunkSize := by
    simp only [headerOf, kChunkSize]
    omega
  -- Rounding up does not overflow: a plaintext that long has more than a chunk of overhead.
  have rounded : int64 ((headerOf plaintext).plaintextSize + kChunkSize - 1) =
      ((plaintext.length + kChunkSize - 1 : ℕ) : Int) := by
    simp only [headerOf, kChunkSize, kFrameOverhead] at small covers ⊢
    rw [int64_of_lt (by omega) (by omega)]
    omega
  have frames : (int64 ((headerOf plaintext).plaintextSize + kChunkSize - 1)).tdiv kChunkSize =
      chunkCount kChunkSize plaintext.length := by
    rw [rounded, tdiv_eq_ediv_of_nonneg (by omega), ← natCast_div]
    rfl
  rw [expectedFileSize, readHeader_stored (by omega), ok_bind]
  simp only [chunk, frames]
  rw [length, storedLength, natCast_add, natCast_add, natCast_mul]
  exact congrArg Except.ok (int64_of_lt (by simp only [headerOf]; omega)
    (by simp only [headerOf]; omega))

/-! ### Writing the file of a plaintext -/

end

theorem aesGcmEncrypt_chunkAt (valid : ValidKey key) :
    aesGcmEncrypt gcm key (ivs.iv index) (chunkAt plaintext index) (frameAad index) =
      .ok (frameAt gcm ivs key plaintext index) := if_pos valid

/-- What an encryptor holds that has been given so much of the plaintext: its full frames in the
file and the rest, at most one chunk of it, in the buffer. -/
structure Filled (gcm : Gcm) (ivs : Ivs) (key : Bytes) (encryptor : ObjectEncryptor)
    (given : Bytes) : Prop where
  keyed : encryptor.key = key
  within : encryptor.frameIndex * kChunkSize ≤ given.length
  buffer : encryptor.buffer = given.drop (encryptor.frameIndex * kChunkSize)
  room : encryptor.buffer.length ≤ kChunkSize
  size : encryptor.plaintextSize = encryptor.frameIndex * kChunkSize
  good : encryptor.good = true ↔
    kHeaderSize + encryptor.frameIndex * (kChunkSize + kFrameOverhead) < fileLimit
  file : encryptor.good = true → encryptor.file =
    makeHeader kChunkSize 0 ++ framesOf gcm ivs key given encryptor.frameIndex

variable {encryptor : ObjectEncryptor} {given : Bytes}

theorem filled_create : Filled gcm ivs key (.create key) [] := by
  have limit : kHeaderSize < fileLimit := by decide
  refine ⟨rfl, ?_, ?_, zero_le _, ?_, ?_, fun _ => ?_⟩
  · simp [create]
  · simp [create]
  · simp [create]
  · simp [create, limit]
  · simp [create, framesOf]

theorem Filled.fill (filled : Filled gcm ivs key encryptor given) (more : Bytes)
    (room : encryptor.buffer.length + more.length ≤ kChunkSize) :
    Filled gcm ivs key { encryptor with buffer := encryptor.buffer ++ more } (given ++ more) := by
  have within := filled.within
  refine ⟨filled.keyed, ?_, ?_, ?_, filled.size, filled.good, fun good => ?_⟩
  · rw [length_append]
    exact within.trans (Nat.le_add_right ..)
  · rw [drop_append_of_le_length within, ← filled.buffer]
  · rw [length_append]
    exact room
  · rw [framesOf_append within]
    exact filled.file good

theorem Filled.buffer_eq (filled : Filled gcm ivs key encryptor given) :
    encryptor.buffer = chunkAt given encryptor.frameIndex := by
  have room := filled.room
  rw [filled.buffer] at room
  rw [chunkAt, slice, take_of_length_le room, filled.buffer]

theorem append_fields {data : Bytes} : (encryptor.append data).key = encryptor.key ∧
      ((encryptor.append data).good = true ↔
        encryptor.good = true ∧ encryptor.file.length + data.length < fileLimit) ∧
      ((encryptor.append data).good = true →
        (encryptor.append data).file = encryptor.file ++ data) := by
  unfold append
  split
  · rename_i fits
    exact ⟨rfl, ⟨fun _ => fits, fun _ => fits.1⟩, fun _ => rfl⟩
  · rename_i full
    refine ⟨rfl, ⟨fun good => ?_, fun fits => absurd fits full⟩, fun good => ?_⟩
    · nomatch good
    · nomatch good

section

variable (filled : Filled gcm ivs key encryptor given)

include filled

section

variable (lawful : gcm.Lawful) (valid : ValidKey key)

include lawful valid

theorem Filled.flush :
    ∃ flushed, encryptor.flushChunk gcm ivs = .ok flushed ∧ flushed.key = key ∧
      flushed.frameIndex = encryptor.frameIndex + 1 ∧ flushed.buffer = [] ∧
      flushed.plaintextSize = given.length ∧
      (flushed.good = true ↔ kHeaderSize + encryptor.frameIndex * (kChunkSize + kFrameOverhead) +
        (encryptor.buffer.length + kFrameOverhead) < fileLimit) ∧
      (flushed.good = true → flushed.file = makeHeader kChunkSize 0 ++
        framesOf gcm ivs key given (encryptor.frameIndex + 1)) := by
  have frame : aesGcmEncrypt gcm key (ivs.iv encryptor.frameIndex)
      (chunkAt given encryptor.frameIndex) (frameAad encryptor.frameIndex) =
        .ok (frameAt gcm ivs key given encryptor.frameIndex) := aesGcmEncrypt_chunkAt valid
  have length : (frameAt gcm ivs key given encryptor.frameIndex).length =
      (chunkAt given encryptor.frameIndex).length + kFrameOverhead := frameAt_length lawful.toSized
  obtain ⟨keyed, good, file⟩ := append_fields
  have before (fine : encryptor.good = true) : encryptor.file.length =
      kHeaderSize + encryptor.frameIndex * (kChunkSize + kFrameOverhead) := by
    rw [filled.file fine, length_append, makeHeader_length,
      framesOf_length lawful.toSized filled.within]
  rw [← filled.buffer_eq] at frame length
  rw [flushChunk, filled.keyed, frame, ok_bind]
  refine ⟨_, rfl, keyed.trans filled.keyed, rfl, rfl, ?_, ?_, fun fine => ?_⟩
  · have within := filled.within
    dsimp only
    rw [filled.size, filled.buffer, length_drop]
    omega
  · rw [good, length]
    constructor
    · rintro ⟨fine, fits⟩
      rwa [before fine] at fits
    · intro fits
      have fine := filled.good.mpr (by omega)
      exact ⟨fine, by rwa [before fine]⟩
  · rw [file fine, filled.file (good.mp fine).1, append_assoc, framesOf_succ]

theorem Filled.flush_full (full : encryptor.buffer.length = kChunkSize) :
    ∃ flushed, encryptor.flushChunk gcm ivs = .ok flushed ∧
      Filled gcm ivs key flushed given ∧ flushed.buffer = [] := by
  obtain ⟨flushed, flushes, keyed, index, buffer, size, good, file⟩ := filled.flush lawful valid
  have within := filled.within
  have whole : (encryptor.frameIndex + 1) * kChunkSize = given.length := by
    rw [filled.buffer, length_drop] at full
    rw [succ_mul]
    omega
  refine ⟨flushed, flushes, ⟨keyed, ?_, ?_, ?_, ?_, ?_, ?_⟩, buffer⟩
  · rw [index, whole]
  · rw [buffer, index, whole, drop_length]
  · rw [buffer]
    exact zero_le _
  · rw [size, index, whole]
  · rw [good, full, index, succ_mul, add_assoc]
  · rw [index]
    exact file

/-- Handing over a piece adds it to what was given, and leaves room in the buffer. -/
theorem Filled.writeLoop (room : encryptor.buffer.length < kChunkSize) {remaining : Bytes}
    {fuel : ℕ} (enough : remaining.length ≤ fuel) :
    ∃ written, writeLoop gcm ivs fuel encryptor remaining = .ok written ∧
      Filled gcm ivs key written (given ++ remaining) ∧ written.buffer.length < kChunkSize := by
  induction fuel generalizing encryptor given remaining with
  | zero =>
    obtain rfl := eq_nil_of_length_eq_zero (le_zero.mp enough)
    exact ⟨encryptor, rfl, by rwa [append_nil], room⟩
  | succ fuel ih =>
    rw [writeLoop]
    by_cases past : remaining = []
    · subst past
      exact ⟨encryptor, if_pos rfl, by rwa [append_nil], room⟩
    rw [if_neg past]
    generalize taken : min remaining.length (kChunkSize - encryptor.buffer.length) = take
    have length : (remaining.take take).length = take := by
      rw [length_take]
      omega
    have rest : (remaining.drop take).length ≤ fuel := by
      rw [length_drop]
      omega
    have more := filled.fill (remaining.take take) (by omega)
    have all : given ++ remaining.take take ++ remaining.drop take = given ++ remaining := by
      rw [append_assoc, take_append_drop]
    by_cases full : (encryptor.buffer ++ remaining.take take).length = kChunkSize
    · obtain ⟨flushed, flushes, kept, empty⟩ := more.flush_full lawful valid full
      rw [if_pos full, flushes, ok_bind, ← all]
      exact ih kept (by rw [empty]; exact kChunkSize_pos) rest
    · rw [if_neg full, ← all]
      refine ih more ?_ rest
      exact lt_of_le_of_ne more.room full

theorem Filled.writes (room : encryptor.buffer.length < kChunkSize) (pieces : List Bytes) :
    ∃ written,
      pieces.foldlM (fun encryptor piece => write gcm ivs encryptor piece) encryptor =
        .ok written ∧
      Filled gcm ivs key written (given ++ pieces.flatten) ∧
        written.buffer.length < kChunkSize := by
  induction pieces generalizing encryptor given with
  | nil => exact ⟨encryptor, rfl, by rwa [flatten_nil, append_nil], room⟩
  | cons piece rest ih =>
    obtain ⟨next, writes, kept, roomy⟩ := filled.writeLoop lawful valid room (le_refl _)
    rw [foldlM_cons, write, writes, ok_bind, flatten_cons,
      ← append_assoc]
    exact ih kept roomy

end

end

theorem overwrite_header (frames : Bytes) (size : ℕ) :
    overwrite (makeHeader kChunkSize 0 ++ frames) 0 (makeHeader kChunkSize size) =
      makeHeader kChunkSize size ++ frames := by
  rw [overwrite, take_zero, Nat.zero_sub, replicate_zero, nil_append,
    nil_append, zero_add, makeHeader_length, drop_left' (makeHeader_length ..)]

theorem complete_eq (lawful : gcm.Lawful) {full : ℕ}
    (count : chunkCount kChunkSize plaintext.length = full)
    (good : encryptor.good = true ↔ storedLength plaintext.length < fileLimit)
    (file : encryptor.good = true →
      encryptor.file = makeHeader kChunkSize 0 ++ framesOf gcm ivs key plaintext full)
    (size : encryptor.plaintextSize = plaintext.length) :
    encryptor.complete =
      if (stored gcm ivs key plaintext).length < fileLimit then
        .ok (plaintext.length, stored gcm ivs key plaintext)
      else .error "Could not write encrypted object" := by
  rw [stored_length lawful.toSized, complete]
  by_cases fits : storedLength plaintext.length < fileLimit
  · have fine := good.mpr fits
    rw [if_pos fits, if_neg (by simp [fine]), file fine, size, overwrite_header, stored, count]
  · have bad : encryptor.good = false := by
      rw [← Bool.not_eq_true]
      exact fun fine => fits (good.mp fine)
    rw [if_neg fits, if_pos bad]

/-- An encryptor that was given the plaintext ends with its file, unless that is too long. -/
theorem Filled.finish (filled : Filled gcm ivs key encryptor plaintext) (lawful : gcm.Lawful)
    (valid : ValidKey key) :
    encryptor.finish gcm ivs =
      if (stored gcm ivs key plaintext).length < fileLimit then
        .ok (plaintext.length, stored gcm ivs key plaintext)
      else .error "Could not write encrypted object" := by
  have within := filled.within
  have room := filled.room
  have rest : encryptor.buffer.length = plaintext.length - encryptor.frameIndex * kChunkSize := by
    rw [filled.buffer, length_drop]
  rw [ObjectEncryptor.finish]
  by_cases empty : encryptor.buffer = []
  · rw [empty, length_nil] at rest
    have whole : encryptor.frameIndex * kChunkSize = plaintext.length := by omega
    have count : chunkCount kChunkSize plaintext.length = encryptor.frameIndex :=
      chunkCount_eq kChunkSize_pos (by omega) fun index before => by
        have less := mul_lt_mul_of_pos_right before kChunkSize_pos
        omega
    rw [if_pos empty]
    refine complete_eq lawful count (filled.good.trans ?_) filled.file (filled.size.trans whole)
    rw [storedLength, count, mul_add, whole, ← add_assoc]
  · obtain ⟨flushed, flushes, keyed, index, buffer, size, good, file⟩ := filled.flush lawful valid
    have some := length_pos_iff.mpr empty
    have count : chunkCount kChunkSize plaintext.length = encryptor.frameIndex + 1 :=
      chunkCount_eq kChunkSize_pos (by rw [succ_mul]; omega) fun index before => by
        have less := mul_le_mul_right kChunkSize (le_of_lt_succ before)
        omega
    rw [if_neg empty, flushes, ok_bind]
    refine complete_eq lawful count (good.trans ?_) file size
    rw [storedLength, count, mul_add, succ_mul]
    constructor <;> intro fits <;> omega

theorem encryptPieces_eq (lawful : gcm.Lawful) (valid : ValidKey key) (pieces : List Bytes) :
    encryptPieces gcm ivs key pieces =
      if (stored gcm ivs key pieces.flatten).length < fileLimit then
        .ok (pieces.flatten.length, stored gcm ivs key pieces.flatten)
      else .error "Could not write encrypted object" := by
  have created : Filled gcm ivs key (.create key) [] := filled_create
  obtain ⟨written, writes, filled, _⟩ := created.writes lawful valid kChunkSize_pos pieces
  rw [encryptPieces, writes, ok_bind]
  exact filled.finish lawful valid

/-! ### Both ways -/

/-- The file gives the plaintext back under the key: whole, and every range of it. It has the size
that it should have. -/
structure ReadsBack (gcm : Gcm) (key file plaintext : Bytes) : Prop where
  whole : ∀ path, decryptWholeFile gcm key file path = .ok plaintext
  range : ∀ path offset length, 0 ≤ offset → 0 ≤ length →
    decryptRange gcm key file path offset length = .ok (slice plaintext offset.toNat length.toNat)
  size : ∀ path, expectedFileSize file path = .ok file.length

/-- Transcoding to any key, or to the clear, keeps the plaintext and returns its length. Only an
encrypted file may become too long. -/
structure Transcodes (gcm : Gcm) (key file plaintext : Bytes) : Prop where
  clear : ∀ ivs path targetPath,
    transcode gcm ivs key file path [] targetPath = .ok (plaintext.length, plaintext)
  encrypted : ∀ ivs path targetPath targetKey, ValidKey targetKey →
    storedLength plaintext.length < fileLimit →
      ∃ target, transcode gcm ivs key file path targetKey targetPath =
        .ok (plaintext.length, target) ∧ ReadsBack gcm targetKey target plaintext
  tooLong : ∀ ivs path targetPath targetKey, ValidKey targetKey →
    ¬storedLength plaintext.length < fileLimit →
      transcode gcm ivs key file path targetKey targetPath =
        .error "Could not write encrypted object"

theorem stored_readsBack (lawful : gcm.Lawful) (valid : ValidKey key)
    (small : storedLength plaintext.length < fileLimit) :
    ReadsBack gcm key (stored gcm ivs key plaintext) plaintext := by
  have fits : plaintext.length < 2 ^ 63 := by
    rw [storedLength, fileLimit] at small
    omega
  rw [← stored_length lawful.toSized] at small
  exact ⟨decryptWholeFile_stored lawful valid fits,
    fun path _ _ behind _ => decryptRange_stored lawful valid small behind,
    expectedFileSize_stored lawful small⟩

theorem transcodes_of_streams (lawful : gcm.Lawful) {file : Bytes}
    (streams : ∀ path, ∃ pieces, streamPlaintext gcm key file path = .ok pieces ∧
      pieces.flatten = plaintext) (small : plaintext.length < fileLimit) :
    Transcodes gcm key file plaintext := by
  refine ⟨fun ivs path targetPath => ?_, fun ivs path targetPath targetKey valid fits => ?_,
    fun ivs path targetPath targetKey valid long => ?_⟩
  · obtain ⟨pieces, delivers, rfl⟩ := streams path
    rw [transcode, delivers, ok_bind, if_pos rfl, if_pos small]
    rfl
  · obtain ⟨pieces, delivers, rfl⟩ := streams path
    refine ⟨stored gcm ivs targetKey pieces.flatten, ?_, stored_readsBack lawful valid fits⟩
    rw [transcode, delivers, ok_bind, if_neg valid.ne_nil, encryptPieces_eq lawful valid,
      stored_length lawful.toSized, if_pos fits]
  · obtain ⟨pieces, delivers, rfl⟩ := streams path
    rw [transcode, delivers, ok_bind, if_neg valid.ne_nil, encryptPieces_eq lawful valid,
      stored_length lawful.toSized, if_neg long]

/-- A plaintext that an encryptor is handed in any pieces comes back from the file that it finishes,
whole and in ranges, the file has the size that it should have, and transcoding it to any key or to
the clear keeps the plaintext. So does transcoding a file in the clear. An encryptor finishes unless
the file becomes too long for a file. -/
theorem objects_read_back (gcm : Gcm) (lawful : gcm.Lawful) (ivs : Ivs) {key : Bytes}
    (valid : ValidKey key) (pieces : List Bytes) :
    (if storedLength pieces.flatten.length < fileLimit then
      ∃ file, encryptPieces gcm ivs key pieces =
          .ok (pieces.flatten.length, file) ∧
        ReadsBack gcm key file pieces.flatten ∧ Transcodes gcm key file pieces.flatten
    else encryptPieces gcm ivs key pieces =
      .error "Could not write encrypted object") ∧
      (pieces.flatten.length < fileLimit → Transcodes gcm [] pieces.flatten pieces.flatten) := by
  refine ⟨?_, fun small => transcodes_of_streams lawful
    (fun _ => ⟨_, if_pos rfl, flatten_chunks kChunkSize_pos _⟩) small⟩
  rw [encryptPieces_eq lawful valid, stored_length lawful.toSized]
  split
  · rename_i small
    have fits : pieces.flatten.length < 2 ^ 63 := by
      rw [storedLength, fileLimit] at small
      omega
    exact ⟨_, rfl, stored_readsBack lawful valid small, transcodes_of_streams lawful
      (fun path => ⟨_, streamPlaintext_stored lawful valid fits path, flatten_all⟩) fits⟩
  · rfl

end Stored

/-- AES-GCM on three bytes, in the first frame of an object. -/
def Gcm.threeBytes : Gcm :=
  .recorded [{
    key := List.replicate 16 7
    iv := List.replicate 12 0
    aad := frameAad 0
    plaintext := [1, 2, 3]
    ciphertext := [253, 157, 27]
    tag := [147, 24, 3, 245, 90, 203, 195, 196, 215, 33, 187, 136, 137, 229, 17, 33]
    tag_length := rfl }]

theorem Gcm.threeBytes_lawful : Gcm.threeBytes.Lawful := Gcm.recorded_lawful _

def Ivs.zeros : Ivs where
  iv _ := List.replicate 12 0
  iv_length _ := length_replicate

/-- Three bytes in two pieces, and a range behind the end. -/
theorem three_bytes_read_back :
    ∃ file, encryptPieces .threeBytes .zeros (List.replicate 16 7) [[1], [2, 3]] =
        .ok (3, file) ∧
      decryptRange .threeBytes (List.replicate 16 7) file "object" 1 9 = .ok [2, 3] := by
  have valid : ValidKey (replicate 16 7) := by decide
  have back := (objects_read_back .threeBytes Gcm.threeBytes_lawful .zeros valid [[1], [2, 3]]).1
  rw [if_pos (by decide)] at back
  obtain ⟨file, finished, reads, _⟩ := back
  exact ⟨file, finished, reads.range "object" 1 9 (by decide) (by decide)⟩

end Euclid.Core
