/-
This file proves that what an archive says of its members is read back as it was written.

A header is a fixed part, a name and an extra field; each number in it is a slice at a fixed offset.
From that, one member is read where it stands, the walk over complete members finds them in order,
the end records lead to the directory, and the directory lists what was put into it.
-/

import Euclid.Core.ArchiveZip

namespace Euclid.Core.ArchiveZip

open List Nat

/-! ### Slices -/

/-- A slice behind the first of two is one of the second. -/
theorem slice_append_right (before after : Bytes) (offset length : ℕ) :
    slice (before ++ after) (before.length + offset) length = slice after offset length := by
  rw [← slice_drop, drop_left]

variable {offset : ℕ} {before : Bytes} {length : ℕ}

theorem slice_append_left {after : Bytes} (within : offset + length ≤ before.length) :
    slice (before ++ after) offset length = slice before offset length := by
  unfold slice
  rw [drop_append_of_le_length (by omega), take_append_of_le_length]
  rw [length_drop]
  omega

theorem slice_middle (before middle after : Bytes) :
    slice (before ++ (middle ++ after)) before.length middle.length = middle := by
  have behind := slice_append_right before (middle ++ after) 0 middle.length
  rw [add_zero] at behind
  rw [behind, slice_append_left (by omega), slice_of_le (le_refl _)]

/-- What is read where a part begins is that part. -/
theorem readAt_middle {middle after : Bytes} (at_ : offset = before.length)
    (whole : length = middle.length) :
    readAt (before ++ (middle ++ after)) offset length = .ok middle := by
  subst at_ whole
  unfold readAt
  rw [slice_middle, if_pos rfl]

variable {value : ℕ} {bytes : Bytes}

theorem get16_of_slice (there : slice bytes offset 2 = put16 value) (small : value < 2 ^ 16) :
    get16 bytes offset = value := by
  unfold get16
  rw [there]
  exact ofLittleEndian_of_lt small

theorem get32_of_slice (there : slice bytes offset 4 = put32 value) (small : value < 2 ^ 32) :
    get32 bytes offset = value := by
  unfold get32
  rw [there]
  exact ofLittleEndian_of_lt small

theorem get64_of_slice (there : slice bytes offset 8 = put64 value) (small : value < 2 ^ 64) :
    get64 bytes offset = value := by
  unfold get64
  rw [there]
  exact ofLittleEndian_of_lt small

/-- A number of 64 bits is not cut. -/
theorem u64_of_lt {number : ℕ} (small : number < 2 ^ 64) : u64 number = number :=
  mod_eq_of_lt small

/-! ### Parts of the records -/

/-- What precedes the name in a local header. -/
def localFixed (nameLength : ℕ) (member : ZipMember) (dos : DosTime) (complete : Bool) : Bytes :=
  put32 (if complete then kLocalSignature else 0) ++ put16 kVersion ++ put16 kUtf8Names ++
    put16 member.method ++ put16 dos.time.toNat ++ put16 dos.date.toNat ++ put32 member.crc.toNat ++
    put32 kInZip64 ++ put32 kInZip64 ++ put16 nameLength ++ put16 kLocalExtraSize

def localExtra (member : ZipMember) : Bytes :=
  put16 1 ++ put16 16 ++ put64 member.size ++ put64 member.compressedSize

/-- The part of fixed length of an entry of the directory. -/
def centralFixed (nameLength : ℕ) (member : ZipMember) (dos : DosTime) : Bytes :=
  put32 kCentralSignature ++ (put16 kMadeBy ++ (put16 kVersion ++ (put16 kUtf8Names ++
    (put16 member.method ++ (put16 dos.time.toNat ++ (put16 dos.date.toNat ++
      (put32 member.crc.toNat ++ (put32 kInZip64 ++ (put32 kInZip64 ++ (put16 nameLength ++
        (put16 28 ++ (put16 0 ++ (put16 0 ++ (put16 0 ++ (put32 kRegularFile ++
          put32 kInZip64)))))))))))))))

def centralExtra (member : ZipMember) : Bytes :=
  put16 1 ++ put16 24 ++ put64 member.size ++ put64 member.compressedSize ++ put64 member.offset

theorem localHeader_eq (name : Bytes) (member : ZipMember) (dos : DosTime) (complete : Bool) :
    localHeader name member dos complete =
      localFixed name.length member dos complete ++ (name ++ localExtra member) := by
  simp only [localHeader, localFixed, localExtra, append_assoc]

theorem centralHeader_eq (name : Bytes) (member : ZipMember) (dos : DosTime) :
    centralHeader name member dos =
      centralFixed name.length member dos ++ (name ++ centralExtra member) := by
  unfold centralHeader centralFixed centralExtra
  simp only [append_assoc]

@[simp] theorem localFixed_length (nameLength : ℕ) (member : ZipMember) (dos : DosTime)
    (complete : Bool) : (localFixed nameLength member dos complete).length = 30 := by
  simp only [localFixed, put16, put32, length_append, littleEndian_length]

@[simp] theorem localExtra_length (member : ZipMember) : (localExtra member).length = 20 := by
  simp only [localExtra, put16, put64, length_append, littleEndian_length]

@[simp] theorem centralFixed_length (nameLength : ℕ) (member : ZipMember) (dos : DosTime) :
    (centralFixed nameLength member dos).length = 46 := by
  simp only [centralFixed, put16, put32, length_append, littleEndian_length]

@[simp] theorem centralExtra_length (member : ZipMember) : (centralExtra member).length = 28 := by
  simp only [centralExtra, put16, put64, length_append, littleEndian_length]

@[simp] theorem trailer_length (directoryOffset directorySize entries : ℕ) :
    (trailer directoryOffset directorySize entries).length = 98 := by
  simp only [trailer, put16, put32, put64, length_append, littleEndian_length]

@[simp] theorem localHeader_length (name : Bytes) (member : ZipMember) (dos : DosTime)
    (complete : Bool) : (localHeader name member dos complete).length = 50 + name.length := by
  rw [localHeader_eq, length_append, length_append, localFixed_length, localExtra_length]
  omega

@[simp] theorem centralHeader_length (name : Bytes) (member : ZipMember) (dos : DosTime) :
    (centralHeader name member dos).length = 74 + name.length := by
  rw [centralHeader_eq, length_append, length_append, centralFixed_length,
    centralExtra_length]
  omega

/-- A member whose numbers have room in the records. -/
structure ZipMember.Fits (member : ZipMember) : Prop where
  method : member.method < 2 ^ 16
  size : member.size < 2 ^ 64
  compressedSize : member.compressedSize < 2 ^ 64
  offset : member.offset < 2 ^ 64

/-! ### Local headers -/

section Local

variable {name : Bytes} {member : ZipMember} {dos : DosTime}

theorem localFixed_signature (nameLength : ℕ) (complete : Bool) :
    get32 (localFixed nameLength member dos complete) 0 = if complete
      then kLocalSignature else 0 := by
  refine get32_of_slice rfl ?_
  cases complete <;> decide

theorem localFixed_nameLength {nameLength : ℕ} {complete : Bool} (short : nameLength < 2 ^ 16) :
    get16 (localFixed nameLength member dos complete) 26 = nameLength :=
  get16_of_slice rfl short

section

variable (nameLength : ℕ)

include nameLength

theorem localFixed_extraLength (complete : Bool) :
    get16 (localFixed nameLength member dos complete) 28 = 20 :=
  get16_of_slice rfl (by decide)

theorem localFixed_size (complete : Bool) :
    get32 (localFixed nameLength member dos complete) 22 = kInZip64 :=
  get32_of_slice rfl (by decide)

theorem localFixed_compressedSize (complete : Bool) :
    get32 (localFixed nameLength member dos complete) 18 = kInZip64 :=
  get32_of_slice rfl (by decide)

theorem localFixed_crc (complete : Bool) :
    UInt32.ofNat (get32 (localFixed nameLength member dos complete) 14) = member.crc := by
  have same : get32 (localFixed nameLength member dos complete) 14 = member.crc.toNat :=
    get32_of_slice rfl member.crc.toNat_lt
  rw [same, UInt32.ofNat_toNat]

variable {complete : Bool}

theorem localFixed_method (fits : member.Fits) :
    get16 (localFixed nameLength member dos complete) 8 = member.method :=
  get16_of_slice rfl fits.method

theorem localFixed_dos (complete : Bool) :
    (⟨.ofNat (get16 (localFixed nameLength member dos complete) 10),
      .ofNat (get16 (localFixed nameLength member dos complete) 12)⟩ : DosTime) = dos := by
  have time : get16 (localFixed nameLength member dos complete) 10 = dos.time.toNat :=
    get16_of_slice rfl dos.time.toNat_lt
  have date : get16 (localFixed nameLength member dos complete) 12 = dos.date.toNat :=
    get16_of_slice rfl dos.date.toNat_lt
  rw [time, date, UInt16.ofNat_toNat, UInt16.ofNat_toNat]

/-- The sizes are read from the extra field, which has them in 64 bits. -/
theorem localSizes_localExtra (fits : member.Fits) (sizes : ℕ × ℕ) :
    localSizes (localFixed nameLength member dos complete) 21 (localExtra member) sizes =
      (member.size, member.compressedSize) := by
  have length : get16 (localExtra member) 2 = 16 := get16_of_slice rfl (by decide)
  have id : get16 (localExtra member) 0 = 1 := get16_of_slice rfl (by decide)
  have size : get64 (localExtra member) 4 = member.size := get64_of_slice rfl fits.size
  have compressed : get64 (localExtra member) 12 = member.compressedSize :=
    get64_of_slice rfl fits.compressedSize
  have rest : (localExtra member).drop 20 = [] := rfl
  rw [localSizes, localFixed_size, localFixed_compressedSize, length, id, localExtra_length,
    if_neg (by decide)]
  show localSizes _ 20 ((localExtra member).drop 20)
    (get64 (localExtra member) 4, get64 (localExtra member) 12) = _
  rw [rest, size, compressed]
  rfl

end

/-- A header that was written is read back, if its signature is there. -/
theorem readLocal_member {data after : Bytes} (short : name.length < 2 ^ 16)
    (fits : member.Fits) (offset : member.offset = before.length)
    (compressed : member.compressedSize = data.length)
    (small : (before ++ (localHeader name member dos true ++ (data ++ after))).length < 2 ^ 63) :
    readLocal (before ++ (localHeader name member dos true ++ (data ++ after))) before.length =
      .ok (some ⟨name, member, dos, before.length + (50 + name.length)⟩) := by
  have whole : (before ++ (localHeader name member dos true ++ (data ++ after))).length =
      before.length + (50 + name.length + (data.length + after.length)) := by
    simp only [length_append, localHeader_length]
  rw [whole] at small
  have u64_eq : ∀ more, more ≤ 50 + name.length + data.length →
      u64 (before.length + more) = before.length + more := fun more _ => u64_of_lt (by omega)
  have header : readAt (before ++ (localHeader name member dos true ++ (data ++ after)))
      before.length kLocalHeaderSize = .ok (localFixed name.length member dos true) := by
    rw [localHeader_eq, append_assoc]
    exact readAt_middle rfl rfl
  have rest : readAt (before ++ (localHeader name member dos true ++ (data ++ after)))
      (before.length + 30) (name.length + 20) = .ok (name ++ localExtra member) := by
    rw [localHeader_eq, append_assoc, ← append_assoc before]
    exact readAt_middle (by simp) (by simp)
  unfold readLocal
  rw [whole, u64_eq kLocalHeaderSize (by show 30 ≤ _; omega), if_neg (by show ¬_ < _ + 30; omega),
    header]
  dsimp only [bind, Except.bind]
  rw [localFixed_nameLength short, localFixed_extraLength, localFixed_signature, if_pos rfl,
    show before.length + kLocalHeaderSize + name.length + 20 = before.length + (50 + name.length) by
      show before.length + 30 + name.length + 20 = _; omega, u64_eq _ (by omega), if_neg (by
      rintro (other | long)
      · exact other rfl
      · omega)]
  rw [show before.length + kLocalHeaderSize = before.length + 30 from rfl, rest]
  dsimp only [pure, Except.pure]
  rw [drop_left, take_left, localExtra_length, localSizes_localExtra _ fits,
    localFixed_crc, localFixed_method _ fits, localFixed_dos]
  rw [compressed, u64_of_lt (by omega), if_neg (by omega), ← compressed, ← offset]

/-- Where another signature stands no header is read, and recovery ends. -/
theorem readLocal_of_signature {after header : Bytes} (signature : ℕ)
    (is : header = put32 signature ++ header.drop 4) (small : signature < 2 ^ 32)
    (other : signature ≠ kLocalSignature) (length : (before ++ (header ++ after)).length < 2 ^ 63) :
    readLocal (before ++ (header ++ after)) before.length = .ok none := by
  unfold readLocal
  split
  · rfl
  rename_i within
  have start : before.length ≤ (before ++ (header ++ after)).length := by
    rw [length_append]
    omega
  rw [u64_of_lt (by show _ + 30 < _; omega)] at within
  have fixed : readAt (before ++ (header ++ after)) before.length kLocalHeaderSize =
      .ok (slice (before ++ (header ++ after)) before.length kLocalHeaderSize) := by
    refine if_pos ?_
    rw [slice_length]
    omega
  have read : get32 (slice (before ++ (header ++ after)) before.length kLocalHeaderSize) 0 =
      signature := by
    refine get32_of_slice ?_ small
    rw [slice_slice (by decide), add_zero, is, append_assoc]
    exact slice_middle before (put32 signature) _
  rw [fixed]
  dsimp only [bind, Except.bind]
  rw [read, if_pos (.inl other)]
  rfl

end Local

/-! ### End records -/

/-- The first of the end records. -/
def zip64End (directoryOffset directorySize entries : ℕ) : Bytes :=
  put32 kZip64EndSignature ++ put64 (kZip64EndSize - 12) ++ put16 kMadeBy ++ put16 kVersion ++
    put32 0 ++ put32 0 ++ put64 entries ++ put64 entries ++ put64 directorySize ++
    put64 directoryOffset

/-- What says where the first one is. -/
def locator (zip64EndAt : ℕ) : Bytes :=
  put32 kZip64LocatorSignature ++ put32 0 ++ put64 zip64EndAt ++ put32 1

def ends : Bytes :=
  put32 kEndSignature ++ put16 0 ++ put16 0 ++ put16 0xffff ++ put16 0xffff ++ put32 kInZip64 ++
    put32 kInZip64 ++ put16 0

theorem trailer_eq (directoryOffset directorySize entries : ℕ) :
    trailer directoryOffset directorySize entries =
      zip64End directoryOffset directorySize entries ++
        (locator (directoryOffset + directorySize) ++ ends) := rfl

/-- The directory is found by what stands at the end of the archive. -/
theorem fromDirectory_of_trailer {directory : Bytes} {entries : ℕ}
    (starts : directory ≠ [] ∧ get32 directory 0 = kCentralSignature) (few : entries < 2 ^ 64)
    (small : (before ++ (directory ++
      trailer before.length directory.length entries)).length < 2 ^ 63) :
    fromDirectory (before ++ (directory ++ trailer before.length directory.length entries)) =
      .ok (some ⟨before.length, directory, entries⟩) := by
  have whole : (before ++ (directory ++ trailer before.length directory.length entries)).length =
      before.length + directory.length + 98 := by
    simp only [length_append, trailer_length]
    omega
  rw [whole] at small
  have zip64Length : (zip64End before.length directory.length entries).length = 56 := by
    simp only [zip64End, put16, put32, put64, length_append, littleEndian_length]
  have locatorLength : (locator (before.length + directory.length)).length = 20 := by
    simp only [locator, put32, put64, length_append, littleEndian_length]
  have endsLength : ends.length = 22 := by
    simp only [ends, put16, put32, length_append, littleEndian_length]
  have readEnds : readAt (before ++ (directory ++ trailer before.length directory.length entries))
      (before.length + directory.length + 76) 22 = .ok ends := by
    rw [trailer_eq, ← append_nil ends, ← append_assoc, ← append_assoc,
      ← append_assoc]
    exact readAt_middle (by simp only [length_append]; omega) endsLength.symm
  have readLocator :
    readAt (before ++ (directory ++ trailer before.length directory.length entries))
      (before.length + directory.length + 56) 20 =
        .ok (locator (before.length + directory.length)) := by
    rw [trailer_eq, ← append_assoc, ← append_assoc]
    exact readAt_middle (by simp only [length_append]; omega) locatorLength.symm
  have readEnd : readAt (before ++ (directory ++ trailer before.length directory.length entries))
      (before.length + directory.length) 56 =
        .ok (zip64End before.length directory.length entries) := by
    rw [trailer_eq, ← append_assoc]
    exact readAt_middle (by simp only [length_append]) zip64Length.symm
  have readDirectory :
      readAt (before ++ (directory ++ trailer before.length directory.length entries))
        before.length directory.length = .ok directory := readAt_middle rfl rfl
  have endSignature : get32 ends 0 = kEndSignature := get32_of_slice rfl (by decide)
  have locatorSignature : get32 (locator (before.length + directory.length)) 0 =
      kZip64LocatorSignature := get32_of_slice rfl (by decide)
  have located : get64 (locator (before.length + directory.length)) 8 =
      before.length + directory.length := get64_of_slice rfl (by omega)
  have zip64Signature : get32 (zip64End before.length directory.length entries) 0 =
      kZip64EndSignature := get32_of_slice rfl (by decide)
  have directorySize : get64 (zip64End before.length directory.length entries) 40 =
      directory.length := get64_of_slice rfl (by omega)
  have appendAt : get64 (zip64End before.length directory.length entries) 48 = before.length :=
    get64_of_slice rfl (by omega)
  have count : get64 (zip64End before.length directory.length entries) 32 = entries :=
    get64_of_slice rfl few
  unfold fromDirectory
  rw [whole, if_neg (by show ¬_ < 98; omega),
    show before.length + directory.length + 98 - kEndSize - kLocatorSize =
      before.length + directory.length + 56 by show _ - 22 - 20 = _; omega,
    show before.length + directory.length + 98 - kEndSize = before.length + directory.length + 76 by
      show _ - 22 = _; omega,
    show kEndSize = 22 from rfl, show kLocatorSize = 20 from rfl,
    show kZip64EndSize = 56 from rfl, readEnds, readLocator]
  dsimp only [bind, Except.bind]
  rw [endSignature, locatorSignature, located, u64_of_lt (by omega), if_neg (by
    rintro (other | other | beyond)
    · exact other rfl
    · exact other rfl
    · omega), readEnd]
  dsimp only
  rw [zip64Signature, directorySize, appendAt, u64_of_lt (by omega), if_neg (by
    rintro (other | other)
    · exact other rfl
    · exact other rfl), readDirectory]
  dsimp only
  rw [if_neg (fun both => both.2 starts.2), count]
  rfl

/-! ### The directory -/

section Central

variable {name rest : Bytes} {member : ZipMember} {dos : DosTime}

theorem slice_fixed (within : offset + length ≤ 46) :
    slice (centralHeader name member dos ++ rest) offset length =
      slice (centralFixed name.length member dos) offset length := by
  rw [centralHeader_eq, append_assoc, slice_append_left (by rwa [centralFixed_length])]

theorem get16_fixed (there : slice (centralFixed name.length member dos) offset 2 = put16 value)
    (within : offset + 2 ≤ 46) (small : value < 2 ^ 16) :
    get16 (centralHeader name member dos ++ rest) offset = value :=
  get16_of_slice ((slice_fixed within).trans there) small

theorem get32_fixed (there : slice (centralFixed name.length member dos) offset 4 = put32 value)
    (within : offset + 4 ≤ 46) (small : value < 2 ^ 32) :
    get32 (centralHeader name member dos ++ rest) offset = value :=
  get32_of_slice ((slice_fixed within).trans there) small

theorem centralHeader_signature : get32 (centralHeader name member dos ++ rest) 0 =
    kCentralSignature :=
  get32_fixed rfl (by decide) (by decide)

theorem slice_extra (within : offset + length ≤ 28) :
    slice (centralHeader name member dos ++ rest) (46 + name.length + offset) length =
      slice (centralExtra member) offset length := by
  have front : (centralFixed name.length member dos ++ name).length = 46 + name.length := by
    rw [length_append, centralFixed_length]
  rw [centralHeader_eq, ← append_assoc, append_assoc, ← front, slice_append_right,
    slice_append_left (by rwa [centralExtra_length])]

variable (name rest member dos) in
theorem get16_extra (offset : ℕ)
    (there : slice (centralExtra member) offset 2 = put16 value) (within : offset + 2 ≤ 28)
    (small : value < 2 ^ 16) :
    get16 (centralHeader name member dos ++ rest) (46 + name.length + offset) = value :=
  get16_of_slice ((slice_extra within).trans there) small

variable (name rest member dos) in
theorem get64_extra (offset : ℕ)
    (there : slice (centralExtra member) offset 8 = put64 value) (within : offset + 8 ≤ 28)
    (small : value < 2 ^ 64) :
    get64 (centralHeader name member dos ++ rest) (46 + name.length + offset) = value :=
  get64_of_slice ((slice_extra within).trans there) small

theorem centralFields_extra (fits : member.Fits) (read : ZipMember) :
    centralFields (centralHeader name member dos ++ rest)
      (46 + name.length + 28) 29 (46 + name.length) read =
        { read with
          size := member.size
          compressedSize := member.compressedSize
          offset := member.offset } := by
  have id := get16_extra name rest member dos 0 rfl (by decide) (by decide)
  have length := get16_extra name rest member dos 2 rfl (by decide) (by decide)
  have size := get64_extra name rest member dos 4 rfl (by decide) fits.size
  have compressed := get64_extra name rest member dos 12 rfl (by decide) fits.compressedSize
  have offset := get64_extra name rest member dos 20 rfl (by decide) fits.offset
  have sizeZip64 : get32 (centralHeader name member dos ++ rest) 24 = kInZip64 :=
    get32_fixed rfl (by decide) (by decide)
  have compressedZip64 : get32 (centralHeader name member dos ++ rest) 20 = kInZip64 :=
    get32_fixed rfl (by decide) (by decide)
  have offsetZip64 : get32 (centralHeader name member dos ++ rest) 42 = kInZip64 :=
    get32_fixed rfl (by decide) (by decide)
  rw [add_zero] at id
  generalize centralHeader name member dos ++ rest = central at *
  rw [centralFields, if_neg (by omega)]
  dsimp only
  rw [id, length, sizeZip64, compressedZip64, offsetZip64, if_pos rfl, if_pos rfl, if_pos rfl,
    if_pos rfl, if_pos rfl, if_pos rfl]
  rw [add_assoc (46 + name.length) 4 8, add_assoc (46 + name.length) (4 + 8) 8, size,
    compressed, offset, centralFields, if_pos (by omega)]

/-- An entry of the directory is read back as the member it was written for. -/
theorem entryAt_centralHeader (short : name.length < 2 ^ 16) (fits : member.Fits) :
    entryAt (centralHeader name member dos ++ rest) = ⟨name, member⟩ := by
  have nameLength : get16 (centralHeader name member dos ++ rest) 28 = name.length :=
    get16_fixed rfl (by decide) short
  have extraLength : get16 (centralHeader name member dos ++ rest) 30 = 28 :=
    get16_fixed rfl (by decide) (by decide)
  have method : get16 (centralHeader name member dos ++ rest) 10 = member.method :=
    get16_fixed rfl (by decide) fits.method
  have crc : get32 (centralHeader name member dos ++ rest) 16 = member.crc.toNat :=
    get32_fixed rfl (by decide) member.crc.toNat_lt
  have named : slice (centralHeader name member dos ++ rest) 46 name.length = name := by
    rw [centralHeader_eq, append_assoc, append_assoc name]
    exact slice_middle _ _ _
  unfold entryAt
  rw [nameLength, extraLength, crc, method, show kCentralHeaderSize = 46 from rfl, named]
  rw [centralFields_extra fits, UInt32.ofNat_toNat]

theorem afterEntry_centralHeader (short : name.length < 2 ^ 16) :
    afterEntry (centralHeader name member dos ++ rest) = rest := by
  have whole : (centralHeader name member dos).length = 46 + name.length + 28 + 0 := by
    rw [centralHeader_length]
    omega
  have nameLength : get16 (centralHeader name member dos ++ rest) 28 = name.length :=
    get16_fixed rfl (by decide) short
  have extraLength : get16 (centralHeader name member dos ++ rest) 30 = 28 :=
    get16_fixed rfl (by decide) (by decide)
  have commentLength : get16 (centralHeader name member dos ++ rest) 32 = 0 :=
    get16_fixed rfl (by decide) (by decide)
  unfold afterEntry
  rw [nameLength, extraLength, commentLength, show kCentralHeaderSize = 46 from rfl, ← whole,
    drop_left]

end Central

end Euclid.Core.ArchiveZip
