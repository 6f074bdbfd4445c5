/-
This file says what the readers of encrypted objects make of any file that begins with a header.

Every reader looks for the frames one behind the other, each a full one except for the last. So what
it returns is what the frames at these places open to, one after the other, or the first error among
them.
-/

import Euclid.Core.ObjectCipher

namespace Euclid.Core.ObjectCipher

open List Nat Int

/-! ### Lists of results -/

section Results

variable {Entry Fault Result : Type} {first second : Entry → Except Fault Result}
  {entries : List Entry}

theorem mapM_congr (same : ∀ entry ∈ entries, first entry = second entry) :
    entries.mapM first = entries.mapM second := by
  induction entries with
  | nil => rfl
  | cons entry rest ih =>
    rw [mapM_cons, mapM_cons, same entry (.head _),
      ih fun other mem => same other (.tail _ mem)]

theorem mapM_ok {result : Entry → Result}
    (fine : ∀ entry ∈ entries, first entry = .ok (result entry)) :
    entries.mapM first = .ok (entries.map result) := by
  have same : entries.mapM first = entries.mapM fun entry => pure (result entry) := mapM_congr fine
  rw [same, mapM_pure]
  rfl

theorem mapM_ok_imp {results : List Result}
    (same : ∀ entry result, first entry = .ok result → second entry = .ok result)
    (maps : entries.mapM first = .ok results) : entries.mapM second = .ok results := by
  induction entries generalizing results with
  | nil => exact maps
  | cons entry rest ih =>
    rw [mapM_cons] at maps ⊢
    cases head : first entry with
    | error fault =>
      rw [head] at maps
      nomatch maps
    | ok result =>
      cases tail : rest.mapM first with
      | error fault =>
        rw [head, tail] at maps
        nomatch maps
      | ok others =>
        rw [head, tail] at maps
        rw [same entry result head, ih tail]
        exact maps

theorem ok_bind {Next : Type} (entry : Entry) (next : Entry → Except Fault Next) :
    (Except.ok entry >>= next) = next entry := rfl

end Results

/-! ### Headers -/

/-- What a header has that was read from a file. -/
structure Header.Fits (header : Header) : Prop where
  positive : 0 < header.chunkSize
  small : header.plaintextSize < 2 ^ 63

theorem parseHeader_fits {bytes : Bytes} {what : String} {header : Header}
    (parsed : parseHeader bytes what = .ok header) : header.Fits := by
  unfold parseHeader at parsed
  split at parsed
  · nomatch parsed
  · dsimp only at parsed
    split at parsed
    · nomatch parsed
    · rename_i nonzero
      rw [← Except.ok.inj parsed]
      refine ⟨pos_of_ne_zero nonzero, ?_⟩
      dsimp only
      exact int64_lt _

namespace Header

variable (header : Header)

/-- The number of frames that a header promises. -/
def frames : ℕ := chunkCount header.chunkSize header.plaintextSize.toNat

/-- How many plaintext bytes it promises in the frame of an index. -/
def length (index : ℕ) : ℕ :=
  min header.chunkSize (header.plaintextSize.toNat - index * header.chunkSize)

/-- How far frames are apart. -/
def stride : ℕ := header.chunkSize + kFrameOverhead

variable {header} {index : ℕ}

theorem Fits.lt_frames (fits : header.Fits) :
    index < header.frames ↔ index * header.chunkSize < header.plaintextSize.toNat :=
  lt_chunkCount fits.positive

theorem Fits.length_pos (fits : header.Fits) (within : index < header.frames) :
    0 < header.length index := by
  have below := fits.lt_frames.mp within
  exact Nat.lt_min.mpr ⟨fits.positive, by omega⟩

theorem Fits.length_full (fits : header.Fits) (within : index + 1 < header.frames) :
    header.length index = header.chunkSize := by
  have below := fits.lt_frames.mp within
  rw [succ_mul] at below
  exact min_eq_left (by omega)

theorem Fits.chunkLengthAt_eq (fits : header.Fits) (within : index < header.frames) :
    chunkLengthAt header index = header.length index := by
  have below := fits.lt_frames.mp within
  have small := fits.small
  have consumed : int64 (index * header.chunkSize) = ((index * header.chunkSize : ℕ) : Int) := by
    rw [← natCast_mul]
    exact int64_of_lt (by omega) (by omega)
  rw [chunkLengthAt, consumed, int64_of_lt (by omega) (by omega), length]
  omega

end Header

/-! ### Frames -/

section Frames

variable (gcm : Gcm) (key : Bytes)

/-- What the bytes at the place of a frame open to. -/
def openFrame (header : Header) (truncated : String) (index : ℕ) (window : Bytes) :
    Except String Bytes :=
  if window.length < header.length index + kFrameOverhead then .error truncated
  else aesGcmDecrypt gcm key window (frameAad index)

/-- What frames from an index on open to, that lie one behind the other. -/
def openFrames (header : Header) (truncated : String) (index count : ℕ) (left : Bytes) :
    Except String (List Bytes) :=
  (List.range' index count).mapM fun other => openFrame gcm key header truncated other
    (slice left ((other - index) * header.stride) (header.length other + kFrameOverhead))

variable {gcm key} {header : Header} {truncated path : String} {index count : ℕ} {left : Bytes}

theorem aesGcmDecrypt_append (valid : ValidKey key) {iv ciphertext tag aad : Bytes}
    (ivLength : iv.length = 12) (tagLength : tag.length = 16) :
    aesGcmDecrypt gcm key (iv ++ ciphertext ++ tag) aad =
      match gcm.decipher key iv aad ciphertext tag with
      | some plaintext => .ok plaintext
      | none => .error "AES-GCM authentication failed - wrong key or tampered/truncated data" := by
  have length : (iv ++ ciphertext ++ tag).length - 28 = ciphertext.length := by
    simp only [length_append]
    omega
  have long : ¬(iv ++ ciphertext ++ tag).length < 28 := by
    simp only [length_append]
    omega
  have first : (iv ++ ciphertext ++ tag).take 12 = iv := by
    rw [append_assoc, take_left' ivLength]
  have middle : slice (iv ++ ciphertext ++ tag) 12 ciphertext.length = ciphertext := by
    rw [append_assoc, slice, drop_left' ivLength, take_left]
  have last : (iv ++ ciphertext ++ tag).drop (12 + ciphertext.length) = tag := by
    rw [drop_left' (by rw [length_append, ivLength])]
  rw [aesGcmDecrypt, if_pos valid, if_neg long]
  dsimp only
  cases opened : gcm.decipher key iv aad ciphertext tag <;> rw [length, first, middle, last, opened]

theorem aesGcmDecrypt_ok {window aad plaintext : Bytes}
    (decrypted : aesGcmDecrypt gcm key window aad = .ok plaintext) :
    ∃ iv ciphertext tag, window = iv ++ ciphertext ++ tag ∧
      gcm.decipher key iv aad ciphertext tag = some plaintext := by
  unfold aesGcmDecrypt at decrypted
  split at decrypted
  · split at decrypted
    · cases decrypted
    · dsimp only at decrypted
      split at decrypted
      · rename_i opened
        obtain rfl := Except.ok.inj decrypted
        refine ⟨_, _, _, ?_, opened⟩
        rw [slice, append_assoc, ← drop_drop, take_append_drop,
          take_append_drop]
      · cases decrypted
  · cases decrypted

theorem aesGcmDecrypt_length (sized : gcm.Sized) {ciphertext aad plaintext : Bytes}
    (decrypted : aesGcmDecrypt gcm key ciphertext aad = .ok plaintext) :
    ciphertext.length = plaintext.length + kFrameOverhead := by
  unfold aesGcmDecrypt at decrypted
  split at decrypted
  · split at decrypted
    · nomatch decrypted
    · rename_i long
      dsimp only at decrypted
      split at decrypted
      · rename_i opened
        obtain rfl := Except.ok.inj decrypted
        have same := sized.plaintext_length _ _ _ _ _ _ opened
        rw [slice_length] at same
        simp only [kFrameOverhead]
        omega
      · nomatch decrypted
  · nomatch decrypted

theorem openFrame_whole {window chunk : Bytes}
    (opened : openFrame gcm key header truncated index window = .ok chunk) :
    header.length index + kFrameOverhead ≤ window.length := by
  unfold openFrame at opened
  split at opened
  · nomatch opened
  · omega

theorem openFrame_length (sized : gcm.Sized) {window chunk : Bytes}
    (bounded : window.length ≤ header.length index + kFrameOverhead)
    (opened : openFrame gcm key header truncated index window = .ok chunk) :
    chunk.length = header.length index := by
  have whole := openFrame_whole opened
  rw [openFrame, if_neg (by omega)] at opened
  have length := aesGcmDecrypt_length sized opened
  omega

section

variable (fits : header.Fits)

include fits

theorem openFrames_succ (within : index + count < header.frames) :
    openFrames gcm key header truncated index (count + 1) left = (do
      let chunk ← openFrame gcm key header truncated index
        (left.take (header.length index + kFrameOverhead))
      let others ← openFrames gcm key header truncated (index + 1) count
        (left.drop (header.length index + kFrameOverhead)) return chunk :: others) := by
  have first : slice left ((index - index) * header.stride) (header.length index + kFrameOverhead) =
      left.take (header.length index + kFrameOverhead) := by
    rw [Nat.sub_self, Nat.zero_mul, slice, drop_zero]
  rw [openFrames, List.range'_succ, mapM_cons, first]
  refine congrArg _ (funext fun chunk => ?_)
  refine congrArg (· >>= fun others => pure (chunk :: others)) ?_
  refine mapM_congr fun other mem => ?_
  have later := (mem_range'_1.mp mem).1
  have before := (mem_range'_1.mp mem).2
  have full : header.length index = header.chunkSize := fits.length_full (by omega)
  rw [slice_drop, full, show other - index = 1 + (other - (index + 1)) by omega, add_mul,
    one_mul]
  rfl

theorem readFrame_eq (within : index < header.frames) :
    readFrame gcm key header index path left = (do
      let chunk ← openFrame gcm key header s!"Encrypted object is truncated: {path}" index
        (left.take (header.length index + kFrameOverhead))
      return (chunk, left.drop (header.length index + kFrameOverhead))) := by
  have length : (chunkLengthAt header index + kFrameOverhead).toNat =
      header.length index + kFrameOverhead := by
    rw [fits.chunkLengthAt_eq within]
    omega
  rw [readFrame, length, openFrame, length_take]
  by_cases short : left.length < header.length index + kFrameOverhead
  · rw [if_pos (by omega), if_pos (by omega)]
    rfl
  · rw [if_neg (by omega), if_neg (by omega)]

theorem readFrames_eq (within : index + count ≤ header.frames) :
    readFrames gcm key header path count index left =
      (openFrames gcm key header s!"Encrypted object is truncated: {path}" index count left).map
        List.flatten := by
  induction count generalizing index left with
  | zero => rfl
  | succ count ih =>
    rw [readFrames, readFrame_eq fits (by omega), openFrames_succ fits (by omega)]
    cases openFrame gcm key header s!"Encrypted object is truncated: {path}" index
        (left.take (header.length index + kFrameOverhead)) with
    | error fault => rfl
    | ok chunk =>
      have rest : readFrames gcm key header path count (index + 1)
          (left.drop (header.length index + kFrameOverhead)) = _ := ih (by omega)
      simp only [Except.bind, bind, pure, Except.pure, rest]
      cases openFrames gcm key header s!"Encrypted object is truncated: {path}" (index + 1) count
        (left.drop (header.length index + kFrameOverhead)) <;> rfl

theorem openFrames_short (within : index + count < header.frames)
    (short : left.length < header.length index + kFrameOverhead) :
    openFrames gcm key header truncated index (count + 1) left = .error truncated := by
  rw [openFrames_succ fits within, openFrame, if_pos (by rw [length_take]; omega)]
  rfl

theorem delivered_lt (delivered : Int)
    (delivers : delivered = (min (index * header.chunkSize) header.plaintextSize.toNat : ℕ)) :
    delivered < header.plaintextSize ↔ index < header.frames := by
  rw [fits.lt_frames, delivers]
  omega

end

theorem delivered_succ :
    min (index * header.chunkSize) header.plaintextSize.toNat + header.length index =
      min ((index + 1) * header.chunkSize) header.plaintextSize.toNat := by
  rw [Header.length, succ_mul]
  omega

theorem streamFrames_eq (sized : gcm.Sized) (fits : header.Fits) {fuel : ℕ} {delivered : Int}
    (enough : left.length < fuel)
    (delivers : delivered = (min (index * header.chunkSize) header.plaintextSize.toNat : ℕ)) :
    streamFrames gcm key header path fuel index delivered left =
      openFrames gcm key header s!"Encrypted object is truncated: {path}" index
        (header.frames - index) left := by
  induction fuel generalizing index delivered left with
  | zero => exact absurd enough (not_lt_zero _)
  | succ fuel ih =>
    rw [streamFrames]
    by_cases within : index < header.frames
    · rw [if_pos ((delivered_lt fits _ delivers).mpr within), readFrame_eq fits within,
        show header.frames - index = (header.frames - (index + 1)) + 1 by omega,
        openFrames_succ fits (by omega)]
      cases opened : openFrame gcm key header s!"Encrypted object is truncated: {path}" index
          (left.take (header.length index + kFrameOverhead)) with
      | error fault => rfl
      | ok chunk =>
        have length := openFrame_length sized (length_take_le ..) opened
        have shrinks : (left.drop (header.length index + kFrameOverhead)).length < fuel := by
          have whole := openFrame_whole opened
          rw [length_take, kFrameOverhead] at whole
          rw [length_drop, kFrameOverhead]
          omega
        have delivers' : delivered + chunk.length =
            (min ((index + 1) * header.chunkSize) header.plaintextSize.toNat : ℕ) := by
          rw [delivers, length, ← delivered_succ]
          rfl
        simp only [Except.bind, bind, pure, Except.pure, ih shrinks delivers']
    · rw [if_neg (fun less => within ((delivered_lt fits _ delivers).mp less)),
        Nat.sub_eq_zero_of_le (by omega)]
      rfl

/-- The loop over a buffer opens what lies in the places of the frames. -/
theorem decryptFrames_eq (sized : gcm.Sized) (fits : header.Fits) {encrypted plaintext : Bytes}
    {fuel position : ℕ} (enough : encrypted.length - position < fuel)
    (delivers : plaintext.length = min (index * header.chunkSize) header.plaintextSize.toNat) :
    decryptFrames gcm key encrypted header fuel index position plaintext =
      (openFrames gcm key header "Encrypted object is truncated" index
        (header.frames - index) (encrypted.drop position)).map (plaintext ++ ·.flatten) := by
  induction fuel generalizing index position plaintext with
  | zero => exact absurd enough (not_lt_zero _)
  | succ fuel ih =>
    rw [decryptFrames]
    have delivered := delivered_lt fits plaintext.length (by rw [delivers])
    by_cases within : index < header.frames
    · have length : (chunkLengthAt header index).toNat = header.length index := by
        rw [fits.chunkLengthAt_eq within]
        rfl
      rw [if_pos (delivered.mpr within), length,
        show header.frames - index = (header.frames - (index + 1)) + 1 by omega]
      by_cases short : position + (header.length index + kFrameOverhead) > encrypted.length
      · rw [openFrames_short fits (by omega)]
        · simp only [if_pos short]
          rfl
        · rw [length_drop]
          rw [kFrameOverhead] at short ⊢
          omega
      · have whole : ¬(slice encrypted position (header.length index + kFrameOverhead)).length <
            header.length index + kFrameOverhead := by
          rw [slice_length]
          omega
        rw [openFrames_succ fits (by omega), openFrame, ← slice, if_neg whole]
        simp only [if_neg short]
        cases opened : aesGcmDecrypt gcm key
            (slice encrypted position (header.length index + kFrameOverhead)) (frameAad index) with
        | error fault => rfl
        | ok chunk =>
          have longer : chunk.length = header.length index := by
            have length := aesGcmDecrypt_length sized opened
            rw [slice_length] at length
            omega
          have delivers' : (plaintext ++ chunk).length =
              min ((index + 1) * header.chunkSize) header.plaintextSize.toNat := by
            rw [length_append, delivers, longer, delivered_succ]
          have shrinks : encrypted.length -
              (position + (header.length index + kFrameOverhead)) < fuel := by
            rw [kFrameOverhead] at short ⊢
            omega
          simp only [Except.bind, bind, pure, Except.pure, ih shrinks delivers', drop_drop]
          cases openFrames gcm key header "Encrypted object is truncated" (index + 1)
              (header.frames - (index + 1))
              (encrypted.drop (position + (header.length index + kFrameOverhead))) with
          | error fault => rfl
          | ok others => simp [Except.map]
    · rw [if_neg (fun less => within (delivered.mp less)), Nat.sub_eq_zero_of_le (by omega)]
      simp [openFrames, Except.map, pure, Except.pure]

theorem frameOffsetAt_eq (small : kHeaderSize + index * header.stride < 2 ^ 63) :
    frameOffsetAt header index = ((kHeaderSize + index * header.stride : ℕ) : Int) := by
  rw [Header.stride] at small ⊢
  rw [frameOffsetAt, ← natCast_add, ← natCast_mul, ← natCast_add]
  exact int64_of_lt (by omega) (by omega)

theorem last_lt_frames (fits : header.Fits) {offset wanted : ℕ} (some : 0 < wanted)
    (within : offset + wanted ≤ header.plaintextSize.toNat) :
    (offset + wanted - 1) / header.chunkSize < header.frames := by
  have below := div_mul_le_self (offset + wanted - 1) header.chunkSize
  exact fits.lt_frames.mpr (by omega)

/-- A range opens the frames that it falls in, from where the first of them is looked for, and cuts
out its bytes. -/
theorem decryptRange_eq {file : Bytes} {offset wanted : ℕ} {length : Int}
    (read : readHeader file path = .ok header) (fits : header.Fits) (positive : 0 < length)
    (below : (offset : Int) < header.plaintextSize)
    (wants : (wanted : Int) = min length (header.plaintextSize - offset)) :
    decryptRange gcm key file path offset length = (do
      let opened ← openFrames gcm key header s!"Encrypted object is truncated: {path}"
        (offset / header.chunkSize)
        ((offset + wanted - 1) / header.chunkSize + 1 - offset / header.chunkSize)
        (leftFrom file (frameOffsetAt header (offset / header.chunkSize)))
      substr opened.flatten (offset % header.chunkSize) wanted) := by
  have some : 0 < wanted := by omega
  have first : ((offset : Int) / (header.chunkSize : Int)).toNat = offset / header.chunkSize := by
    rw [← natCast_div, toNat_natCast]
  have last : (((offset : Int) + (wanted : Int) - 1) / (header.chunkSize : Int)).toNat =
      (offset + wanted - 1) / header.chunkSize := by
    rw [show (offset : Int) + (wanted : Int) - 1 = ((offset + wanted - 1 : ℕ) : Int) by omega,
      ← natCast_div, toNat_natCast]
  have cut : ((offset : Int) - (offset / header.chunkSize : ℕ) * (header.chunkSize : Int)).toNat =
      offset % header.chunkSize := by
    have split := div_add_mod' offset header.chunkSize
    rw [← natCast_mul]
    omega
  have enough : (offset + wanted - 1) / header.chunkSize < header.frames :=
    last_lt_frames fits some (by omega)
  have ordered : offset / header.chunkSize ≤ (offset + wanted - 1) / header.chunkSize :=
    Nat.div_le_div_right (by omega)
  have within : offset / header.chunkSize +
      ((offset + wanted - 1) / header.chunkSize + 1 - offset / header.chunkSize) ≤
        header.frames := by
    omega
  rw [decryptRange, if_neg (by omega), if_neg (by omega), read, ok_bind, if_neg (by omega)]
  dsimp only
  rw [← wants, first, last, readFrames_eq fits within, cut, toNat_natCast]
  cases openFrames gcm key header s!"Encrypted object is truncated: {path}"
    (offset / header.chunkSize)
    ((offset + wanted - 1) / header.chunkSize + 1 - offset / header.chunkSize)
    (leftFrom file (frameOffsetAt header (offset / header.chunkSize))) <;> rfl

end Frames

end Euclid.Core.ObjectCipher
