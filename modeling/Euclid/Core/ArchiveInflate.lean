/-
This file proves that what was deflated is inflated again, chunk by chunk.

A chunk of the data gives some of the content, and goes through a buffer of one size. The buffer is
filled again whenever it was full, so a chunk that gives a whole number of buffers is inflated once
more than there is something to do, and that is an error unless the stream has come to its end. Any
other chunk always has something to do: that is the invariant of the calls.
-/

import Euclid.Core.ArchiveZip

namespace Euclid.Core

open List

/-! ### Checksums -/

theorem crc32_nil (crc : UInt32) : crc32 crc [] = crc := UInt32.not_not

theorem crc32_append (crc : UInt32) (first second : Bytes) :
    crc32 crc (first ++ second) = crc32 (crc32 crc first) second := by
  unfold crc32
  rw [foldl_append, UInt32.not_not]

theorem foldl_crc32 (pieces : List Bytes) (crc : UInt32) :
    pieces.foldl crc32 crc = crc32 crc pieces.flatten := by
  induction pieces generalizing crc with
  | nil => exact (crc32_nil crc).symm
  | cons piece pieces ih => rw [foldl_cons, ih, flatten_cons, crc32_append]

namespace ArchiveZip

/-! ### The calls on a chunk -/

section Chunk

variable {zlib : Zlib} {content taken input more : Bytes} {put : ℕ} {stream : zlib.Stream}
  {follows : zlib.Stream → Bytes → ℕ → Prop}

/-- There is something for a call to do, and for the calls after it. -/
def Moves (zlib : Zlib) (content taken : Bytes) (put : ℕ) (input more : Bytes) : Prop :=
  if more = [] then input ≠ [] ∨ put < content.length
  else put = zlib.yields (taken ++ input) ∧ input ≠ [] ∨
    ¬kChunk ∣ zlib.yields (taken ++ input) - put

variable (inverts : ∀ stream taken put input more room, follows stream taken put →
    (zlib.deflate content).flatten = taken ++ (input ++ more) → 0 < room →
      zlib.Goes content follows taken put input more room (zlib.inflate stream input room))
  (full : zlib.yields (zlib.deflate content).flatten = content.length)

include inverts full

theorem inflateChunk_some {fuel : ℕ} (begun : follows stream taken put)
    (whole : (zlib.deflate content).flatten = taken ++ (input ++ more))
    (moves : Moves zlib content taken put input more) (enough : content.length - put < fuel) :
    ∃ status after pieces, inflateChunk zlib fuel stream input = some (status, after, pieces) ∧
      pieces.flatten = slice content put pieces.flatten.length ∧
      (status = .streamEnd ∧ put + pieces.flatten.length = content.length ∨
        status ≠ .streamEnd ∧ follows after (taken ++ input) (put + pieces.flatten.length) ∧
          put + pieces.flatten.length = zlib.yields (taken ++ input)) := by
  induction fuel generalizing stream taken put input with
  | zero => exact absurd enough (Nat.not_lt_zero _)
  | succ fuel ih =>
    have goes := inverts stream taken put input more kChunk begun whole (by decide)
    rw [inflateChunk]
    generalize zlib.inflate stream input kChunk = call at goes
    obtain ⟨output, within, fits, ended | ⟨ok, used, rfl, goesOn, stops, unfinished⟩ | stuck⟩ :=
      goes
    · -- the stream has come to its end
      refine ⟨.streamEnd, call.stream, [call.output], ?_, by simpa using output,
        .inl ⟨rfl, by simpa using ended.2⟩⟩
      simp [ended.1]
    · by_cases again : call.output.length = kChunk
      · -- the buffer is full: the rest of the chunk still has something to do
        have still : Moves zlib content (taken ++ used) (put + call.output.length) call.rest
            more := by
          unfold Moves at moves ⊢
          rw [append_assoc]
          split at moves
          · rename_i last
            rw [if_pos last]
            exact .inr (unfinished last)
          · rename_i goesOn
            rw [if_neg goesOn]
            have some : 0 < kChunk := by decide
            refine .inr fun divides => ?_
            rcases moves with ⟨same, -⟩ | uneven
            · omega
            · refine uneven ?_
              have parts : zlib.yields (taken ++ (used ++ call.rest)) - put = kChunk +
                  (zlib.yields (taken ++ (used ++ call.rest)) - (put + call.output.length)) := by
                omega
              rw [parts]
              exact Nat.dvd_add (Nat.dvd_refl _) divides
        have length := congrArg List.length output
        rw [slice_length] at length
        have some : 0 < kChunk := by decide
        obtain ⟨status, after, pieces, done, given, ends⟩ := ih goesOn
          (by rw [whole]; simp only [append_assoc]) still (by omega)
        refine ⟨status, after, call.output :: pieces, ?_, ?_, ?_⟩
        · simp [ok, again, done]
        · rw [flatten_cons, length_append, ← slice_append, ← output, ← given]
        · rw [flatten_cons, length_append, ← Nat.add_assoc]
          rwa [append_assoc] at ends
      · obtain ⟨drained, reached⟩ := stops.resolve_left again
        refine ⟨.ok, call.stream, [call.output], ?_, by simpa using output,
          .inr ⟨by decide, ?_, by simpa using reached⟩⟩
        · simp [ok, again]
        · rw [drained, append_nil]
          simpa using goesOn
    · -- the error is ruled out
      obtain ⟨-, rfl, drained⟩ := stuck
      exfalso
      unfold Moves at moves
      rw [append_nil] at moves
      split at moves
      · rename_i last
        subst last
        rw [append_nil, append_nil] at whole
        rw [whole, ← drained] at full
        rcases moves with filled | unfinished
        · exact filled rfl
        · omega
      · rcases moves with ⟨-, filled⟩ | uneven
        · exact filled rfl
        · exact uneven (by rw [← drained, Nat.sub_self]; exact Nat.dvd_zero _)

end Chunk

/-! ### All chunks -/

/-- No chunk but the last gives a whole number of buffers of content. -/
def Uneven (zlib : Zlib) : Bytes → List Bytes → Prop
  | _, [] => True
  | taken, chunk :: rest =>
    (rest ≠ [] → zlib.yields (taken ++ chunk) = zlib.yields taken ∨
      ¬kChunk ∣ zlib.yields (taken ++ chunk) - zlib.yields taken) ∧
    Uneven zlib (taken ++ chunk) rest

theorem inflateChunks_some {zlib : Zlib} {content : Bytes} {follows : zlib.Stream →
    Bytes → ℕ → Prop}
    (inverts : ∀ stream taken put input more room, follows stream taken put →
      (zlib.deflate content).flatten = taken ++ (input ++ more) → 0 < room →
        zlib.Goes content follows taken put input more room (zlib.inflate stream input room))
    (full : zlib.yields (zlib.deflate content).flatten = content.length)
    {fuel : ℕ} (enough : content.length < fuel) {stream : zlib.Stream} {taken : Bytes}
    {chunks : List Bytes} (begun : follows stream taken (zlib.yields taken))
    (whole : (zlib.deflate content).flatten = taken ++ chunks.flatten)
    (filled : ∀ chunk ∈ chunks, chunk ≠ []) (uneven : Uneven zlib taken chunks) :
    ∃ pieces, inflateChunks zlib fuel stream chunks = some pieces ∧
      pieces.flatten = content.drop (zlib.yields taken) := by
  induction chunks generalizing stream taken with
  | nil =>
    rw [flatten_nil, append_nil] at whole
    refine ⟨[], rfl, ?_⟩
    rw [← whole, full, drop_length]
    rfl
  | cons chunk rest ih =>
    obtain ⟨here, later⟩ := uneven
    have moves : Moves zlib content taken (zlib.yields taken) chunk rest.flatten := by
      unfold Moves
      split
      · exact .inl (filled chunk (.head _))
      · rename_i more
        have goesOn : rest ≠ [] := by
          rintro rfl
          exact more rfl
        exact (here goesOn).imp (fun same => ⟨same.symm, filled chunk (.head _)⟩) id
    obtain ⟨status, after, pieces, done, given, ends⟩ := inflateChunk_some inverts full begun
      (by rw [whole, flatten_cons]) moves (by omega : _ < fuel)
    rw [inflateChunks, done]
    rcases ends with ⟨rfl, finished⟩ | ⟨goesOn, follows, reached⟩
    · refine ⟨pieces, rfl, ?_⟩
      rw [given, slice, take_of_length_le]
      rw [length_drop]
      omega
    · rw [reached] at follows
      obtain ⟨others, alsoDone, rest⟩ := ih follows
        (by rw [whole, flatten_cons, append_assoc])
          (fun other mem => filled other (.tail _ mem)) later
      refine ⟨pieces ++ others, ?_, ?_⟩
      · simp [goesOn, alsoDone]
      · rw [flatten_append, rest, given, ← reached, slice, ← drop_drop]
        exact take_append_drop _ _

theorem ne_nil_of_mem_chunks {size : ℕ} (positive : 0 < size) {bytes chunk : Bytes}
    (mem : chunk ∈ chunks size bytes) : chunk ≠ [] := by
  obtain ⟨index, inside, rfl⟩ := mem_map.mp mem
  have reached := (lt_chunkCount positive).mp (mem_range.mp inside)
  intro empty
  have length := congrArg List.length empty
  rw [slice_length, length_nil] at length
  omega

/-- What a content is deflated to is inflated to the content, unless a chunk but the last gives a
whole number of buffers. -/
theorem inflateChunks_deflate {zlib : Zlib} {content : Bytes} (inverts : zlib.Inverts content)
    (uneven : Uneven zlib [] (chunks kChunk (zlib.deflate content).flatten)) :
    ∃ pieces, inflateChunks zlib (content.length + 1) zlib.inflateInit
      (chunks kChunk (zlib.deflate content).flatten) = some pieces ∧ pieces.flatten = content := by
  obtain ⟨empty, full, follows, begun, goes⟩ := inverts
  rw [← empty] at begun
  obtain ⟨pieces, done, given⟩ := inflateChunks_some goes full (Nat.lt_succ_self _) begun
    (by rw [nil_append, flatten_chunks (by decide)])
    (fun chunk mem => ne_nil_of_mem_chunks (by decide) mem) uneven
  rw [empty, drop_zero] at given
  exact ⟨pieces, done, given⟩

/-- What is appended is inflated as it was deflated, if it is deflated. -/
def Attempt.Inflates (zlib : Zlib) (attempt : Attempt) : Prop :=
  attempt.deflate → zlib.Inverts attempt.content ∧
    Uneven zlib [] (chunks kChunk (zlib.deflate attempt.content).flatten)

end ArchiveZip

end Euclid.Core
