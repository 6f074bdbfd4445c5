/-
This file translates the files in which objects are stored encrypted: the writers, which take the
plaintext whole, in pieces or from another file, and the readers, which give it back whole or one
range of it.

AES-GCM itself is a parameter. The IV of a frame is the one that the random source has for its
index. A file is shorter than two to the sixty-third bytes: a stream that is made to write more goes
bad.
-/

import Euclid.Bytes

namespace Euclid.Core

/-! ### AES-GCM -/

/-- AES-GCM of one key size or the other: the ciphertext and the tag of a plaintext, and back. -/
structure Gcm where
  encipher : (key iv aad plaintext : Bytes) → Bytes × Bytes
  decipher : (key iv aad ciphertext tag : Bytes) → Option Bytes

/-- A ciphertext is as long as its plaintext, and a tag has its length. -/
structure Gcm.Sized (gcm : Gcm) : Prop where
  ciphertext_length : ∀ key iv aad plaintext,
    (gcm.encipher key iv aad plaintext).1.length = plaintext.length
  tag_length : ∀ key iv aad plaintext, (gcm.encipher key iv aad plaintext).2.length = 16
  plaintext_length : ∀ key iv aad ciphertext tag plaintext,
    gcm.decipher key iv aad ciphertext tag = some plaintext → plaintext.length = ciphertext.length

/-- What was encrypted under a key, an IV and associated data decrypts under these. -/
structure Gcm.Lawful (gcm : Gcm) : Prop extends gcm.Sized where
  decipher_encipher : ∀ key iv aad plaintext,
    gcm.decipher key iv aad (gcm.encipher key iv aad plaintext).1
      (gcm.encipher key iv aad plaintext).2 = some plaintext

/-- Bytes under a keystream. -/
def mask : (keystream : ℕ → UInt8) → Bytes → Bytes
  | _, [] => []
  | keystream, byte :: rest =>
    (byte ^^^ keystream 0) :: mask (fun index => keystream (index + 1)) rest

@[simp] theorem mask_length (keystream : ℕ → UInt8) (bytes : Bytes) :
    (mask keystream bytes).length = bytes.length := by
  induction bytes generalizing keystream with
  | nil => rfl
  | cons byte rest ih => exact congrArg (· + 1) (ih _)

@[simp] theorem mask_mask (keystream : ℕ → UInt8) (bytes : Bytes) :
    mask keystream (mask keystream bytes) = bytes := by
  induction bytes generalizing keystream with
  | nil => rfl
  | cons byte rest ih => rw [mask, mask, ih, UInt8.xor_assoc, UInt8.xor_self, UInt8.xor_zero]

/-- An encryption that AES-GCM has made. -/
structure Recorded where
  key : Bytes
  iv : Bytes
  aad : Bytes
  plaintext : Bytes
  ciphertext : Bytes
  tag : Bytes
  tag_length : tag.length = 16

/-- The keystream under a key and an IV, as far as an encryption shows it. -/
def Recorded.keystream (records : List Recorded) (key iv : Bytes) (index : ℕ) : UInt8 :=
  match records.find? fun record => record.key = key ∧ record.iv = iv with
  | some record => record.plaintext.getD index 0 ^^^ record.ciphertext.getD index 0
  | none => 0

def Recorded.tagOf (records : List Recorded) (key iv aad ciphertext : Bytes) : Bytes :=
  match records.find? fun record => record.key = key ∧ record.iv = iv ∧ record.aad = aad ∧
      record.ciphertext = ciphertext with
  | some record => record.tag
  | none => List.replicate 16 0

/-- A cipher that masks with a keystream and tags the ciphertext, as AES-GCM does: on what was
recorded it is AES-GCM. -/
def Gcm.recorded (records : List Recorded) : Gcm where
  encipher key iv aad plaintext :=
    let ciphertext := mask (Recorded.keystream records key iv) plaintext
    (ciphertext, Recorded.tagOf records key iv aad ciphertext)
  decipher key iv aad ciphertext tag :=
    if tag = Recorded.tagOf records key iv aad ciphertext then
      some (mask (Recorded.keystream records key iv) ciphertext)
    else none

theorem Gcm.recorded_lawful (records : List Recorded) : (Gcm.recorded records).Lawful := by
  refine ⟨⟨fun _ _ _ _ => mask_length .., fun _ _ _ _ => ?_, ?_⟩, fun _ _ _ _ => ?_⟩
  · dsimp only [Gcm.recorded, Recorded.tagOf]
    split
    · exact Recorded.tag_length _
    · exact List.length_replicate
  · intro key iv aad ciphertext tag plaintext opened
    dsimp only [Gcm.recorded] at opened
    split at opened
    · rw [← Option.some.inj opened, mask_length]
    · cases opened
  · exact (if_pos rfl).trans (congrArg some (mask_mask _ _))

/-- What `randomBytes(12)` gives for each frame. -/
structure Ivs where
  iv : ℕ → Bytes
  iv_length : ∀ index, (iv index).length = 12

/-- Raw AES key material. -/
def ValidKey (key : Bytes) : Prop := key.length = 16 ∨ key.length = 32

instance (key : Bytes) : Decidable (ValidKey key) := inferInstanceAs (Decidable (_ ∨ _))

def unsupportedKey (key : Bytes) : String := s!"Unsupported AES key size: {key.length}"

/-- `CryptoUtils::AesGcmEncrypt`: IV, ciphertext and tag. -/
def aesGcmEncrypt (gcm : Gcm) (key iv plaintext aad : Bytes) : Except String Bytes :=
  if ValidKey key then
    let encrypted := gcm.encipher key iv aad plaintext
    .ok (iv ++ encrypted.1 ++ encrypted.2)
  else .error (unsupportedKey key)

def aesGcmDecrypt (gcm : Gcm) (key ciphertext aad : Bytes) : Except String Bytes :=
  if ValidKey key then
    if ciphertext.length < 28 then
      .error "Ciphertext too short to contain an IV and authentication tag"
    else
      let bodyLength := ciphertext.length - 28
      match gcm.decipher key (ciphertext.take 12) aad (slice ciphertext 12 bodyLength)
          (ciphertext.drop (12 + bodyLength)) with
      | some plaintext => .ok plaintext
      | none => .error "AES-GCM authentication failed - wrong key or tampered/truncated data"
  else .error (unsupportedKey key)

namespace ObjectCipher

/-! ### The layout -/

/-- `kMagic`, "EUCOBJ01". -/
def kMagic : Bytes := [69, 85, 67, 79, 66, 74, 48, 49]

def kChunkSize : ℕ := 64 * 1024

def kHeaderSize : ℕ := 20

def kFrameOverhead : ℕ := 28

def frameAad (index : ℕ) : Bytes := littleEndian 8 index

def makeHeader (chunkSize plaintextSize : ℕ) : Bytes :=
  kMagic ++ littleEndian 4 chunkSize ++ littleEndian 8 plaintextSize

structure Header where
  chunkSize : ℕ
  plaintextSize : Int
deriving DecidableEq

def parseHeader (bytes : Bytes) (what : String) : Except String Header :=
  if bytes.length < kHeaderSize ∨ bytes.take kMagic.length ≠ kMagic then
    .error s!"Not an encrypted object: {what}"
  else
    let chunkSize := ofLittleEndian (slice bytes kMagic.length 4)
    if chunkSize = 0 then .error s!"Encrypted object has a zero chunk size: {what}"
    else .ok ⟨chunkSize, int64 (ofLittleEndian (slice bytes (kMagic.length + 4) 8))⟩

def readHeader (file : Bytes) (path : String) : Except String Header :=
  parseHeader (file.take kHeaderSize) path

def chunkLengthAt (header : Header) (index : ℕ) : Int :=
  let consumed := int64 (index * header.chunkSize)
  min (header.chunkSize : Int) (int64 (header.plaintextSize - consumed))

def frameOffsetAt (header : Header) (index : ℕ) : Int :=
  int64 (kHeaderSize + index * (header.chunkSize + kFrameOverhead))

def substr (bytes : Bytes) (position count : ℕ) : Except String Bytes :=
  if bytes.length <
    position then .error "basic_string::substr" else .ok (slice bytes position count)

/-! ### Readers -/

section Readers

variable (gcm : Gcm) (key : Bytes)

/-- `readFrame`, from what is left of the file: the plaintext, and what is left behind the frame. -/
def readFrame (header : Header) (index : ℕ) (path : String) (left : Bytes) :
    Except String (Bytes × Bytes) := do
  let frameLength := (chunkLengthAt header index + kFrameOverhead).toNat
  if left.length < frameLength then throw s!"Encrypted object is truncated: {path}"
  let plaintext ← aesGcmDecrypt gcm key (left.take frameLength) (frameAad index)
  return (plaintext, left.drop frameLength)

/-- The loop of `streamPlaintext` over the frames: the pieces handed to the sink. A frame takes at
least one byte of the file, so there is fuel for every frame that it has. -/
def streamFrames (header : Header) (path : String) :
    (fuel index : ℕ) → (delivered : Int) → (left : Bytes) → Except String (List Bytes)
  | 0, _, _, _ => .error s!"Encrypted object is truncated: {path}"
  | fuel + 1, index, delivered, left =>
    if delivered < header.plaintextSize then do
      let (chunk, left) ← readFrame gcm key header index path left
      let others ← streamFrames header path fuel (index + 1) (delivered + chunk.length) left
      return chunk :: others
    else .ok []

/-- `streamPlaintext`: the pieces handed to the sink. -/
def streamPlaintext (file : Bytes) (path : String) : Except String (List Bytes) :=
  if key = [] then .ok (chunks kChunkSize file)
  else do
    let header ← readHeader file path
    streamFrames gcm key header path (file.length + 1) 0 0 (file.drop kHeaderSize)

def decryptWholeFile (file : Bytes) (path : String) : Except String Bytes := do
  let pieces ← streamPlaintext gcm key file path
  return pieces.flatten

/-- The loop of `Decrypt`. -/
def decryptFrames (encrypted : Bytes) (header : Header) :
    (fuel index position : ℕ) → (plaintext : Bytes) → Except String Bytes
  | 0, _, _, _ => .error "Encrypted object is truncated"
  | fuel + 1, index, position, plaintext =>
    if (plaintext.length : Int) < header.plaintextSize then do
      let frameLength := (chunkLengthAt header index).toNat + kFrameOverhead
      if position + frameLength > encrypted.length then throw "Encrypted object is truncated"
      let chunk ← aesGcmDecrypt gcm key (slice encrypted position frameLength) (frameAad index)
      decryptFrames encrypted header fuel (index + 1) (position + frameLength) (plaintext ++ chunk)
    else .ok plaintext

/-- `Decrypt`: room for the plaintext is reserved first, and a negative length is too much. -/
def decrypt (encrypted : Bytes) : Except String Bytes := do
  let header ← parseHeader encrypted "buffer"
  if header.plaintextSize < 0 then throw "basic_string::_M_create"
  decryptFrames gcm key encrypted header (encrypted.length + 1) 0 kHeaderSize []

def expectedFileSize (file : Bytes) (path : String) : Except String Int := do
  let header ← readHeader file path
  let chunk := max 1 (header.chunkSize : Int)
  let frames := (int64 (header.plaintextSize + chunk - 1)).tdiv chunk
  return int64 (kHeaderSize + header.plaintextSize + frames * kFrameOverhead)

/-- So many frames from an index on, read one behind the other. -/
def readFrames (header : Header) (path : String) :
    (count index : ℕ) → (left : Bytes) → Except String Bytes
  | 0, _, _ => .ok []
  | count + 1, index, left => do
    let (chunk, left) ← readFrame gcm key header index path left
    let others ← readFrames header path count (index + 1) left
    return chunk ++ others

/-- What is left of a file from a position on. Nothing can be read from before its beginning. -/
def leftFrom (file : Bytes) (position : Int) : Bytes :=
  if position < 0 then [] else file.drop position.toNat

def decryptRange (file : Bytes) (path : String) (offset length : Int) : Except String Bytes :=
  if offset < 0 then .error s!"Negative offset into object: {path}"
  else if length ≤ 0 then .ok []
  else do
    let header ← readHeader file path
    if offset ≥ header.plaintextSize then return []
    let wanted := min length (header.plaintextSize - offset)
    let firstFrame := (offset / header.chunkSize).toNat
    let lastFrame := ((offset + wanted - 1) / header.chunkSize).toNat
    let decoded ← readFrames gcm key header path (lastFrame + 1 - firstFrame) firstFrame
      (leftFrom file (frameOffsetAt header firstFrame))
    let within := (offset - firstFrame * header.chunkSize).toNat
    substr decoded within wanted.toNat

end Readers

/-! ### Writers -/

def fileLimit : ℕ := 2 ^ 63

end ObjectCipher

open ObjectCipher

/-- `ObjectEncryptor`, its stream with what it has written. -/
structure ObjectEncryptor where
  key : Bytes
  file : Bytes
  good : Bool
  buffer : Bytes
  frameIndex : ℕ
  plaintextSize : ℕ

namespace ObjectEncryptor

def create (key : Bytes) : ObjectEncryptor :=
  ⟨key, makeHeader kChunkSize 0, true, [], 0, 0⟩

/-- The stream writes at its end, unless the file would become too long. -/
def append (encryptor : ObjectEncryptor) (data : Bytes) : ObjectEncryptor :=
  if encryptor.good ∧ encryptor.file.length + data.length < fileLimit then
    { encryptor with file := encryptor.file ++ data }
  else { encryptor with good := false }

variable (gcm : Gcm) (ivs : Ivs)

def flushChunk (encryptor : ObjectEncryptor) : Except String ObjectEncryptor := do
  let frame ← aesGcmEncrypt gcm encryptor.key (ivs.iv encryptor.frameIndex) encryptor.buffer
    (frameAad encryptor.frameIndex)
  return { encryptor.append frame with
    buffer := []
    frameIndex := encryptor.frameIndex + 1
    plaintextSize := encryptor.plaintextSize + encryptor.buffer.length }

/-- The loop of `write`. Every turn takes a byte, because the buffer has room. -/
def writeLoop : (fuel : ℕ) → ObjectEncryptor → (remaining : Bytes) → Except String ObjectEncryptor
  | 0, encryptor, _ => .ok encryptor
  | fuel + 1, encryptor, remaining =>
    if remaining = [] then .ok encryptor
    else
      let take := min remaining.length (kChunkSize - encryptor.buffer.length)
      let filled := { encryptor with buffer := encryptor.buffer ++ remaining.take take }
      if filled.buffer.length = kChunkSize then do
        let flushed ← filled.flushChunk gcm ivs
        writeLoop fuel flushed (remaining.drop take)
      else writeLoop fuel filled (remaining.drop take)

def write (encryptor : ObjectEncryptor) (data : Bytes) : Except String ObjectEncryptor :=
  writeLoop gcm ivs data.length encryptor data

/-- The end of `finish`: the header is written again, now with the length. -/
def complete (encryptor : ObjectEncryptor) : Except String (ℕ × Bytes) :=
  if encryptor.good = false then .error "Could not write encrypted object"
  else .ok (encryptor.plaintextSize,
    overwrite encryptor.file 0 (makeHeader kChunkSize encryptor.plaintextSize))

/-- `finish`: what it returns, and the file. -/
def finish (encryptor : ObjectEncryptor) : Except String (ℕ × Bytes) :=
  if encryptor.buffer = [] then encryptor.complete
  else do
    let flushed ← encryptor.flushChunk gcm ivs
    flushed.complete

/-- An encryptor is created, given pieces of the plaintext one after the other, and finished. -/
def encryptPieces (key : Bytes) (pieces : List Bytes) : Except String (ℕ × Bytes) := do
  let written ← pieces.foldlM (fun encryptor piece => encryptor.write gcm ivs piece) (create key)
  written.finish gcm ivs

end ObjectEncryptor

/-- `Transcode` from one file to another: what it returns, and the target. -/
def ObjectCipher.transcode (gcm : Gcm) (ivs : Ivs) (sourceKey source : Bytes) (path : String)
    (targetKey : Bytes) (targetPath : String) : Except String (ℕ × Bytes) := do
  let pieces ← streamPlaintext gcm sourceKey source path
  if targetKey = [] then
    if pieces.flatten.length < fileLimit then return (pieces.flatten.length, pieces.flatten)
    else throw s!"Could not write object file: {targetPath}"
  else ObjectEncryptor.encryptPieces gcm ivs targetKey pieces

end Euclid.Core
