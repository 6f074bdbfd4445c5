/-
This file collects what files of bytes are made of: numbers in a fixed number of bytes, the least
significant first, slices of a file, a file cut into chunks of one size, and writing over a part of
a file. A signed machine number of 64 bits wraps around.
-/

import Mathlib.Data.Int.DivMod
import Mathlib.Data.List.Range
import Mathlib.Tactic.NormNum

namespace Euclid

open List

abbrev Bytes := List UInt8

/-! ### Numbers -/

/-- A number in so many bytes, the least significant first. Higher bits are dropped. -/
def littleEndian : ℕ → ℕ → Bytes
  | 0, _ => []
  | count + 1, value => UInt8.ofNat value :: littleEndian count (value / 256)

/-- The number that bytes stand for, the least significant first. -/
def ofLittleEndian : Bytes → ℕ
  | [] => 0
  | byte :: rest => byte.toNat + 256 * ofLittleEndian rest

@[simp] theorem littleEndian_length (count value : ℕ) :
    (littleEndian count value).length = count := by
  induction count generalizing value with
  | zero => rfl
  | succ count ih => simp [littleEndian, ih]

theorem ofLittleEndian_littleEndian (count value : ℕ) :
    ofLittleEndian (littleEndian count value) = value % 256 ^ count := by
  induction count generalizing value with
  | zero => simp [littleEndian, ofLittleEndian, Nat.mod_one]
  | succ count ih =>
    rw [littleEndian, ofLittleEndian, ih, Nat.pow_succ', Nat.mod_mul]
    rfl

variable {count : ℕ}

theorem ofLittleEndian_of_lt {value : ℕ} (small : value < 256 ^ count) :
    ofLittleEndian (littleEndian count value) = value := by
  rw [ofLittleEndian_littleEndian, Nat.mod_eq_of_lt small]

theorem littleEndian_inj {first second : ℕ} (small : first < 256 ^ count)
    (too : second < 256 ^ count) (same : littleEndian count first = littleEndian count second) :
    first = second := by
  rw [← ofLittleEndian_of_lt small, ← ofLittleEndian_of_lt too, same]

/-- A signed 64-bit number. What does not fit wraps around. -/
def int64 (value : Int) : Int := value.bmod (2 ^ 64)

theorem int64_of_lt {value : Int} (least : 0 ≤ value) (small : value < 2 ^ 63) :
    int64 value = value :=
  Int.bmod_eq_of_le_mul_two (by norm_num; omega) (by norm_num; omega)

theorem int64_lt (value : Int) : int64 value < 2 ^ 63 := by
  have bound := Int.bmod_lt (x := value) (m := 2 ^ 64) (by decide)
  unfold int64
  omega

def int32 (value : Int) : Int := value.bmod (2 ^ 32)

theorem int32_of_lt {value : Int} (least : 0 ≤ value) (small : value < 2 ^ 31) :
    int32 value = value :=
  Int.bmod_eq_of_le_mul_two (by norm_num; omega) (by norm_num; omega)

theorem int32_lt (value : Int) : int32 value < 2 ^ 31 := by
  have bound := Int.bmod_lt (x := value) (m := 2 ^ 32) (by decide)
  unfold int32
  omega

/-! ### Slices -/

/-- The bytes from an offset on, as many as there are up to a length. -/
def slice (bytes : Bytes) (offset length : ℕ) : Bytes := (bytes.drop offset).take length

@[simp] theorem slice_length (bytes : Bytes) (offset length : ℕ) :
    (slice bytes offset length).length = min length (bytes.length - offset) := by
  simp [slice]

theorem slice_drop (bytes : Bytes) (start offset length : ℕ) :
    slice (bytes.drop start) offset length = slice bytes (start + offset) length := by
  rw [slice, slice, drop_drop]

variable {length : ℕ} {bytes : Bytes}

theorem slice_slice {start whole offset : ℕ} (within : offset + length ≤ whole) :
    slice (slice bytes start whole) offset length = slice bytes (start + offset) length := by
  rw [slice, slice, slice, drop_take, take_take, drop_drop,
    Nat.min_eq_left (by omega)]

theorem slice_append (bytes : Bytes) (offset first second : ℕ) :
    slice bytes offset first ++ slice bytes (offset + first) second =
      slice bytes offset (first + second) := by
  rw [slice, slice, slice, take_add, drop_drop]

theorem slice_of_le (whole : bytes.length ≤ length) : slice bytes 0 length = bytes := by
  rw [slice, drop_zero, take_of_length_le whole]

theorem slice_eq_nil {offset : ℕ} (beyond : bytes.length ≤ offset) (length : ℕ) :
    slice bytes offset length = [] := by
  rw [slice, drop_of_length_le beyond, take_nil]

/-! ### Chunks -/

/-- How many chunks of a size a length makes, a last short one among them. -/
def chunkCount (size length : ℕ) : ℕ := (length + size - 1) / size

/-- The bytes cut into chunks of one size, a last short one among them. -/
def chunks (size : ℕ) (bytes : Bytes) : List Bytes :=
  (List.range (chunkCount size bytes.length)).map fun index => slice bytes (index * size) size

variable {size : ℕ}

theorem lt_chunkCount {index : ℕ} (positive : 0 < size) :
    index < chunkCount size length ↔ index * size < length := by
  rw [chunkCount, Nat.lt_div_iff_mul_lt positive]
  omega

theorem le_chunkCount_mul (positive : 0 < size) (length : ℕ) :
    length ≤ chunkCount size length * size := by
  by_contra short
  exact absurd ((lt_chunkCount positive).mpr (Nat.lt_of_not_le short)) (lt_irrefl _)

theorem chunkCount_eq (positive : 0 < size) (covers : length ≤ count * size)
    (reached : ∀ index, index < count → index * size < length) :
      chunkCount size length = count := by
  rcases lt_trichotomy (chunkCount size length) count with less | same | more
  · exact absurd (reached _ less) (Nat.not_lt_of_le (le_chunkCount_mul positive length))
  · exact same
  · exact absurd ((lt_chunkCount positive).mp more) (Nat.not_lt_of_le covers)

theorem flatten_slices (bytes : Bytes) (size start count : ℕ) :
    ((range' start count).map fun index => slice bytes (index * size) size).flatten =
      slice bytes (start * size) (count * size) := by
  induction count generalizing start with
  | zero => simp [slice]
  | succ count ih =>
    rw [range'_succ, map_cons, flatten_cons, ih,
      show (start + 1) * size = start * size + size by rw [Nat.succ_mul], slice_append,
      show (count + 1) * size = size + count * size by rw [Nat.succ_mul, Nat.add_comm]]

theorem flatten_chunks (positive : 0 < size) (bytes : Bytes) :
    (chunks size bytes).flatten = bytes := by
  rw [chunks, range_eq_range', flatten_slices, Nat.zero_mul,
    slice_of_le (le_chunkCount_mul positive _)]

theorem drop_flatMap_range (entry : ℕ → Bytes) {skipped : ℕ} (within : skipped ≤ count)
    (uniform : ∀ index, index < skipped → (entry index).length = length) :
    ((range count).flatMap entry).drop (skipped * length) =
      (range' skipped (count - skipped)).flatMap entry := by
  induction skipped with
  | zero => simp [range_eq_range']
  | succ skipped ih =>
    have before := ih (by omega) fun index less => uniform index (by omega)
    rw [Nat.succ_mul, ← drop_drop, before,
      show count - skipped = (count - (skipped + 1)) + 1 by omega, range'_succ,
      flatMap_cons, ← uniform skipped (Nat.lt_succ_self _), drop_left]

/-! ### Writing -/

/-- Bytes are written over a file from a position on. A gap before it is filled with zeros. -/
def overwrite (file : Bytes) (position : ℕ) (bytes : Bytes) : Bytes :=
  file.take position ++ List.replicate (position - file.length) 0 ++ bytes ++
    file.drop (position + bytes.length)

end Euclid
