/-
This file translates the zip files that `ArchiveZip` appends to.

A member is a local header and its data; behind the last one stand a directory, which says of every
member where it is, and the end records, which say where the directory is. An append writes a member
over the directory, under a header without a signature until all of its data are there, and a new
directory behind it. A process may stop after any of these writes. What cannot be read from the end
records is made out from the members, one after the other.

Compression is a parameter: a stream that is given data, and puts out what they give as far as there
is room. Offsets and sizes are numbers of 64 bits.
-/

import Euclid.Bytes

namespace Euclid.Core

/-! ### Checksums -/

def crcBit (crc : UInt32) : UInt32 :=
  if crc &&& 1 = 1 then (crc >>> 1) ^^^ 0xedb88320 else crc >>> 1

def crcByte (crc : UInt32) (byte : UInt8) : UInt32 :=
  (List.range 8).foldl (fun crc _ => crcBit crc) (crc ^^^ byte.toUInt32)

/-- `crc32`: a checksum goes on with more bytes. -/
def crc32 (crc : UInt32) (bytes : Bytes) : UInt32 := ~~~(bytes.foldl crcByte (~~~crc))

/-- What a call of `inflate` returns. -/
inductive ZStatus where
  | ok
  | streamEnd
  | bufError
  | dataError
  deriving DecidableEq

/-- What a call of `inflate` has put out, what it has left of the data it was given, and the stream
after it. -/
structure Inflated (Stream : Type) where
  status : ZStatus
  output : Bytes
  rest : Bytes
  stream : Stream

/-- Compression: the pieces that a content is deflated to, a stream that is to be inflated, a call
of `inflate` with some data and room for some output, and how long a content the front of its data
gives. -/
structure Zlib where
  deflate : Bytes → List Bytes
  Stream : Type
  inflateInit : Stream
  inflate : Stream → Bytes → ℕ → Inflated Stream
  yields : Bytes → ℕ

/-- What a call of `inflate` is documented to do, on a stream that was given some data of a content
and has put out some of the content, with more data to come after this call's. The call goes on
until the data are used up, the room is full, or the stream is at its end. It is an error that there
is nothing to do. -/
structure Zlib.Goes (zlib : Zlib) (content : Bytes) (follows : zlib.Stream → Bytes → ℕ → Prop)
    (taken : Bytes) (put : ℕ) (input more : Bytes) (room : ℕ) (call : Inflated zlib.Stream) :
    Prop where
  output : call.output = slice content put call.output.length
  within : put + call.output.length ≤ zlib.yields (taken ++ input)
  fits : call.output.length ≤ room
  status : call.status = .streamEnd ∧ put + call.output.length = content.length ∨
    (call.status = .ok ∧ ∃ used, input = used ++ call.rest ∧
      follows call.stream (taken ++ used) (put + call.output.length) ∧
      (call.output.length = room ∨
        call.rest = [] ∧ put + call.output.length = zlib.yields (taken ++ input)) ∧
      (more = [] → put + call.output.length < content.length)) ∨
    call.status = .bufError ∧ input = [] ∧ put = zlib.yields taken

/-- `inflate` inverts `deflate` on a content. -/
def Zlib.Inverts (zlib : Zlib) (content : Bytes) : Prop :=
  zlib.yields [] = 0 ∧ zlib.yields (zlib.deflate content).flatten = content.length ∧
    ∃ follows : zlib.Stream → Bytes → ℕ → Prop, follows zlib.inflateInit [] 0 ∧
      ∀ stream taken put input more room, follows stream taken put →
        (zlib.deflate content).flatten = taken ++ (input ++ more) → 0 < room →
          zlib.Goes content follows taken put input more room (zlib.inflate stream input room)

namespace ArchiveZip

/-! ### Records -/

def kLocalSignature : ℕ := 0x04034b50

def kCentralSignature : ℕ := 0x02014b50

def kZip64EndSignature : ℕ := 0x06064b50

def kZip64LocatorSignature : ℕ := 0x07064b50

def kEndSignature : ℕ := 0x06054b50

def kVersion : ℕ := 45

def kMadeBy : ℕ := 3 * 256 + kVersion

def kRegularFile : ℕ := 0o100644 * 65536

def kUtf8Names : ℕ := 0x0800

def kInZip64 : ℕ := 0xffffffff

def kLocalHeaderSize : ℕ := 30

def kLocalExtraSize : ℕ := 20

def kCentralHeaderSize : ℕ := 46

def kEndSize : ℕ := 22

def kLocatorSize : ℕ := 20

def kZip64EndSize : ℕ := 56

def kChunk : ℕ := 64 * 1024

structure ZipMember where
  offset : ℕ
  compressedSize : ℕ
  size : ℕ
  crc : UInt32
  method : ℕ
  deriving DecidableEq

structure DosTime where
  time : UInt16
  date : UInt16
  deriving DecidableEq

def put16 (value : ℕ) : Bytes := littleEndian 2 value

def put32 (value : ℕ) : Bytes := littleEndian 4 value

def put64 (value : ℕ) : Bytes := littleEndian 8 value

def get16 (bytes : Bytes) (offset : ℕ) : ℕ := ofLittleEndian (slice bytes offset 2)

def get32 (bytes : Bytes) (offset : ℕ) : ℕ := ofLittleEndian (slice bytes offset 4)

def get64 (bytes : Bytes) (offset : ℕ) : ℕ := ofLittleEndian (slice bytes offset 8)

def localHeader (name : Bytes) (member : ZipMember) (dos : DosTime) (complete : Bool) : Bytes :=
  put32 (if complete then kLocalSignature else 0) ++ put16 kVersion ++ put16 kUtf8Names ++
    put16 member.method ++ put16 dos.time.toNat ++ put16 dos.date.toNat ++ put32 member.crc.toNat ++
    put32 kInZip64 ++ put32 kInZip64 ++ put16 name.length ++ put16 kLocalExtraSize ++ name ++
    put16 1 ++ put16 16 ++ put64 member.size ++ put64 member.compressedSize

def centralHeader (name : Bytes) (member : ZipMember) (dos : DosTime) : Bytes :=
  put32 kCentralSignature ++ put16 kMadeBy ++ put16 kVersion ++ put16 kUtf8Names ++
    put16 member.method ++ put16 dos.time.toNat ++ put16 dos.date.toNat ++ put32 member.crc.toNat ++
    put32 kInZip64 ++ put32 kInZip64 ++ put16 name.length ++ put16 28 ++ put16 0 ++ put16 0 ++
    put16 0 ++ put32 kRegularFile ++ put32 kInZip64 ++ name ++ put16 1 ++ put16 24 ++
    put64 member.size ++ put64 member.compressedSize ++ put64 member.offset

def trailer (directoryOffset directorySize entries : ℕ) : Bytes :=
  put32 kZip64EndSignature ++ put64 (kZip64EndSize - 12) ++ put16 kMadeBy ++ put16 kVersion ++
    put32 0 ++ put32 0 ++ put64 entries ++ put64 entries ++ put64 directorySize ++
    put64 directoryOffset ++
    (put32 kZip64LocatorSignature ++ put32 0 ++
      put64 (directoryOffset + directorySize) ++ put32 1 ++
      (put32 kEndSignature ++ put16 0 ++ put16 0 ++ put16 0xffff ++ put16 0xffff ++
        put32 kInZip64 ++
        put32 kInZip64 ++ put16 0))

/-! ### Reading -/

inductive ZipError where
  | shortRead
  | endless
  | badName
  deriving DecidableEq

def u64 (number : ℕ) : ℕ := number % 2 ^ 64

def readAt (file : Bytes) (offset length : ℕ) : Except ZipError Bytes :=
  if (slice file offset length).length = length then .ok (slice file offset length)
  else .error .shortRead

structure Local where
  name : Bytes
  member : ZipMember
  dos : DosTime
  dataAt : ℕ
  deriving DecidableEq

/-- The extra fields of a local header give the sizes that are not in it. -/
def localSizes (header : Bytes) : ℕ → Bytes → ℕ × ℕ → ℕ × ℕ
  | 0, _, sizes => sizes
  | fuel + 1, extra, sizes =>
    let length := get16 extra 2
    if extra.length < 4 ∨ extra.length < 4 + length then sizes
    else
      let takesSize := get32 header 22 = kInZip64 ∧ 8 ≤ length
      let next := if takesSize then 8 else 0
      let takesCompressed := get32 header 18 = kInZip64 ∧ next + 8 ≤ length
      localSizes header fuel (extra.drop (4 + length))
        (if get16 extra 0 = 1 then
          (if takesSize then get64 extra 4 else sizes.1,
            if takesCompressed then get64 extra (4 + next) else sizes.2)
        else sizes)

def readLocal (file : Bytes) (offset : ℕ) : Except ZipError (Option Local) :=
  if file.length < u64 (offset + kLocalHeaderSize) then .ok none
  else do
    let header ← readAt file offset kLocalHeaderSize
    let nameLength := get16 header 26
    let extraLength := get16 header 28
    if get32 header 0 ≠ kLocalSignature ∨
        file.length < u64 (offset + kLocalHeaderSize + nameLength + extraLength) then return none
    else
      let rest ← readAt file (u64 (offset + kLocalHeaderSize)) (nameLength + extraLength)
      let extra := rest.drop nameLength
      let sizes := localSizes header (extra.length + 1) extra (get32 header 22, get32 header 18)
      let dataAt := u64 (offset + kLocalHeaderSize + nameLength + extraLength)
      if file.length < u64 (dataAt + sizes.2) then return none
      else
        return some {
          name := rest.take nameLength
          member := ⟨offset, sizes.2, sizes.1, .ofNat (get32 header 14), get16 header 8⟩
          dos := ⟨.ofNat (get16 header 10), .ofNat (get16 header 12)⟩
          dataAt }

structure Layout where
  appendAt : ℕ
  directory : Bytes
  entries : ℕ
  deriving DecidableEq

def Layout.empty : Layout := ⟨0, [], 0⟩

def fromDirectory (file : Bytes) : Except ZipError (Option Layout) :=
  if file.length < kEndSize + kLocatorSize + kZip64EndSize then .ok none
  else do
    let ends ← readAt file (file.length - kEndSize) kEndSize
    let locator ← readAt file (file.length - kEndSize - kLocatorSize) kLocatorSize
    let zip64EndAt := get64 locator 8
    if get32 ends 0 ≠ kEndSignature ∨ get32 locator 0 ≠ kZip64LocatorSignature ∨
        file.length < u64 (zip64EndAt + kZip64EndSize) then return none
    else
      let zip64End ← readAt file zip64EndAt kZip64EndSize
      let directorySize := get64 zip64End 40
      let appendAt := get64 zip64End 48
      if get32 zip64End 0 ≠ kZip64EndSignature ∨ u64 (appendAt + directorySize) ≠ zip64EndAt then
        return none
      else
        let directory ← readAt file appendAt directorySize
        if directory ≠ [] ∧ get32 directory 0 ≠ kCentralSignature then return none
        else return some ⟨appendAt, directory, get64 zip64End 32⟩

def Layout.adding (layout : Layout) (found : Local) : Layout where
  appendAt := u64 (found.dataAt + found.member.compressedSize)
  directory := layout.directory ++ centralHeader found.name found.member found.dos
  entries := layout.entries + 1

/-- `recover`, from some layout on. Every member that is walked over is one offset more, so that a
walk of more steps than there are offsets does not end. -/
def recover (file : Bytes) : ℕ → Layout → Except ZipError Layout
  | 0, _ => .error .endless
  | fuel + 1, layout => do
    match ← readLocal file layout.appendAt with
    | none => return layout
    | some found => recover file fuel (layout.adding found)

/-- `layoutOf`, of a file that may not be there. -/
def layoutOf : Option Bytes → Except ZipError Layout
  | none => .ok .empty
  | some file => do
    match ← fromDirectory file with
    | some layout => return layout
    | none => recover file (file.length + 1) .empty

/-! ### Listing -/

structure Entry where
  name : Bytes
  member : ZipMember
  deriving DecidableEq

/-- The extra fields of a directory's entry give what is not in it. -/
def centralFields (central : Bytes) (stop : ℕ) : ℕ → ℕ → ZipMember → ZipMember
  | 0, _, member => member
  | fuel + 1, at_, member =>
    if stop < at_ + 4 then member
    else
      let size := get32 central 24 = kInZip64
      let compressed := get32 central 20 = kInZip64
      let first := at_ + 4
      let second := if size then first + 8 else first
      let third := if compressed then second + 8 else second
      centralFields central stop fuel (at_ + 4 + get16 central (at_ + 2))
        (if get16 central at_ = 1 then
          { member with
            size := if size then get64 central first else member.size
            compressedSize := if compressed then get64 central second else member.compressedSize
            offset := if get32 central 42 = kInZip64 then get64 central third else member.offset }
        else member)

/-- The entry at the start of a directory. -/
def entryAt (central : Bytes) : Entry where
  name := slice central kCentralHeaderSize (get16 central 28)
  member :=
    let extraAt := kCentralHeaderSize + get16 central 28
    centralFields central (extraAt + get16 central 30) (get16 central 30 + 1) extraAt
      ⟨get32 central 42, get32 central 20, get32 central 24, .ofNat (get32 central 16),
        get16 central 10⟩

/-- What follows the entry at the start of a directory. -/
def afterEntry (central : Bytes) : Bytes :=
  central.drop (kCentralHeaderSize + get16 central 28 + get16 central 30 + get16 central 32)

def entriesOf : ℕ → Bytes → List Entry
  | 0, _ => []
  | fuel + 1, directory =>
    if directory.length < kCentralHeaderSize ∨ get32 directory 0 ≠ kCentralSignature then []
    else entryAt directory :: entriesOf fuel (afterEntry directory)

def list (file : Option Bytes) : Except ZipError (List Entry) := do
  let layout ← layoutOf file
  return entriesOf (layout.directory.length + 1) layout.directory

/-! ### Extracting -/

section Inflate

variable (zlib : Zlib)

/-- One chunk of data: the buffer is written out and filled again, as long as it was full. A member
that has more calls than bytes does not match its size in the end. -/
def inflateChunk : ℕ → zlib.Stream → Bytes → Option (ZStatus × zlib.Stream × List Bytes)
  | 0, _, _ => none
  | fuel + 1, stream, input =>
    let call := zlib.inflate stream input kChunk
    if call.status ≠ .ok ∧ call.status ≠ .streamEnd then none
    else if call.output.length = kChunk ∧ call.status ≠ .streamEnd then
      (inflateChunk fuel call.stream call.rest).map fun (status, stream, pieces) =>
        (status, stream, call.output :: pieces)
    else some (call.status, call.stream, [call.output])

/-- The chunks of a member, until the stream is at its end. -/
def inflateChunks (fuel : ℕ) : zlib.Stream → List Bytes → Option (List Bytes)
  | _, [] => some []
  | stream, chunk :: rest =>
    match inflateChunk zlib fuel stream chunk with
    | none => none
    | some (status, after, pieces) =>
      if status = .streamEnd then some pieces
      else (inflateChunks fuel after rest).map (pieces ++ ·)

end Inflate

/-- `Extract`: what is written of a member, if it checks out. -/
def extract (zlib : Zlib) (file : Bytes) (member : ZipMember) : Option Bytes :=
  match readLocal file member.offset with
  | .ok (some found) =>
    if found.member.compressedSize ≠ member.compressedSize ∨
      found.member.method ≠ member.method then
      none
    else
      match readAt file found.dataAt member.compressedSize with
      | .error _ => none
      | .ok data =>
        let pieces := chunks kChunk data
        let written := if member.method = 0 then some pieces
          else inflateChunks zlib (member.size + 1) zlib.inflateInit pieces
        (written.filter fun pieces => pieces.flatten.length = member.size ∧
          pieces.foldl crc32 0 = member.crc).map List.flatten
  | _ => none

/-! ### Appending -/

/-- What is appended. A source is shorter than two to the sixty-third bytes. -/
structure Attempt where
  name : Bytes
  content : Bytes
  deflate : Bool
  dos : DosTime
  small : content.length < 2 ^ 63

namespace Attempt

/-- A name has between one and 65535 bytes. -/
def NameFits (attempt : Attempt) : Prop := 0 < attempt.name.length ∧ attempt.name.length ≤ 0xffff

instance (attempt : Attempt) : Decidable attempt.NameFits := by
  unfold NameFits
  infer_instance

/-- The pieces that `writeData` writes. -/
def pieces (zlib : Zlib) (attempt : Attempt) : List Bytes :=
  if attempt.deflate then zlib.deflate attempt.content else chunks kChunk attempt.content

def data (zlib : Zlib) (attempt : Attempt) : Bytes := (attempt.pieces zlib).flatten

/-- The member before its data are written. -/
def opened (attempt : Attempt) (offset : ℕ) : ZipMember :=
  ⟨offset, 0, 0, 0, if attempt.deflate then 8 else 0⟩

def member (zlib : Zlib) (attempt : Attempt) (offset : ℕ) : ZipMember where
  offset := offset
  compressedSize := (attempt.data zlib).length
  size := attempt.content.length
  crc := (chunks kChunk attempt.content).foldl crc32 0
  method := if attempt.deflate then 8 else 0

end Attempt

inductive Write where
  | create
  | put (offset : ℕ) (bytes : Bytes)
  | resize (length : ℕ)

/-- What becomes of the file. -/
def Write.perform : Write → Option Bytes → Option Bytes
  | .create, _ => some []
  | .put offset bytes, file => file.map fun file => overwrite file offset bytes
  | .resize length, file =>
    file.map fun file => file.take length ++ List.replicate (length - file.length) 0

def putAll : ℕ → List Bytes → List Write
  | _, [] => []
  | offset, piece :: pieces => .put offset piece :: putAll (offset + piece.length) pieces

namespace Attempt

section

variable (zlib : Zlib) (attempt : Attempt)

/-- What is written before the member has a signature. -/
def opening (file : Option Bytes) (layout : Layout) : List Write :=
  let placeholder := localHeader attempt.name (attempt.opened layout.appendAt) attempt.dos false
  (if file = none then [.create] else []) ++ .put layout.appendAt placeholder ::
    putAll (layout.appendAt + placeholder.length) (attempt.pieces zlib)

def header (offset : ℕ) : Bytes :=
  localHeader attempt.name (attempt.member zlib offset) attempt.dos true

def dataEnd (offset : ℕ) : ℕ :=
  offset + (localHeader attempt.name (attempt.opened offset) attempt.dos false).length +
    (attempt.data zlib).length

def directory (layout : Layout) : Bytes :=
  layout.directory ++ centralHeader attempt.name (attempt.member zlib layout.appendAt) attempt.dos

/-- What is written from then on. Resizing to the size that the file has does nothing. -/
def closing (layout : Layout) : List Write :=
  let dataEnd := attempt.dataEnd zlib layout.appendAt
  let directory := attempt.directory zlib layout
  let ends := trailer dataEnd directory.length (layout.entries + 1)
  [.put layout.appendAt (attempt.header zlib layout.appendAt), .put dataEnd directory,
    .put (dataEnd + directory.length) ends, .resize (dataEnd + directory.length + ends.length)]

/-- `Append`: what is written. -/
def writes (file : Option Bytes) : Except ZipError (List Write) :=
  if ¬attempt.NameFits then .error .badName
  else do
    let layout ← layoutOf file
    return attempt.opening zlib file layout ++ attempt.closing zlib layout

end

end Attempt

/-- What is left of a file when so many writes are done. -/
def perform (file : Option Bytes) (writes : List Write) : Option Bytes :=
  writes.foldl (fun file write => write.perform file) file

/-- An append that stops after so many writes, if it has not returned before. -/
structure Step where
  attempt : Attempt
  stopsAfter : ℕ

/-- What an append leaves of a file. -/
def Step.left (zlib : Zlib) (step : Step) (file : Option Bytes) : Option Bytes :=
  match step.attempt.writes zlib file with
  | .error _ => file
  | .ok writes => perform file (writes.take step.stopsAfter)

/-- What appends leave of a file, one after the other. -/
def run (zlib : Zlib) (file : Option Bytes) (steps : List Step) : Option Bytes :=
  steps.foldl (fun file step => step.left zlib file) file

end ArchiveZip

end Euclid.Core
