/-
This file proves that an upload does not depend on the pieces in which its bytes arrive, and when it
is what it should be.

The calls of a stream are a program, and for the bytes as a whole there is a simpler one: a single
call, or one part after the other. The two are the same program, whatever the pieces. By induction
on the pieces: a stream that has settled goes on like the simpler program on what it holds back and
what is to come. What the calls are then is read off the simpler program.
-/

import Euclid.Transfer.UploadStream

namespace Euclid.Transfer

open Program List Nat
open Core (Text)

/-! ### Chunks -/

variable {size : ℕ}

theorem chunks_append (positive : 0 < size) {first : Bytes} (whole : first.length = size)
    (rest : Bytes) : chunks size (first ++ rest) = first :: chunks size rest := by
  have count : chunkCount size (first ++ rest).length = chunkCount size rest.length + 1 := by
    unfold chunkCount
    rw [length_append, whole, show size + rest.length + size - 1 = rest.length + size - 1 + size by
      omega, add_div_right _ positive]
  unfold chunks
  rw [count, range_succ_eq_map, map_cons, map_map]
  congr 1
  · rw [slice, zero_mul, drop_zero, ← whole, take_left]
  · refine map_congr_left fun index _ => ?_
    show slice (first ++ rest) ((index + 1) * size) size = slice rest (index * size) size
    rw [slice, slice, succ_mul, add_comm, ← drop_drop, ← whole, drop_left]

theorem chunks_nil (positive : 0 < size) : chunks size [] = [] := by
  have none : chunkCount size 0 = 0 := div_eq_of_lt (by omega)
  unfold chunks
  rw [length_nil, none]
  rfl

theorem chunks_of_short {bytes : Bytes} (some : bytes ≠ [])
    (short : bytes.length ≤ size) : chunks size bytes = [bytes] := by
  have positive : 0 < bytes.length := length_pos_iff.mpr some
  have one : chunkCount size bytes.length = 1 :=
    chunkCount_eq (by omega) (by omega) fun index less => by
      rw [lt_one_iff.mp less, zero_mul]
      exact positive
  unfold chunks
  rw [one, range_one, map_singleton, zero_mul, slice_of_le short]

/-! ### The whole at once -/

/-- Send parts one after the other, from a number on, until one fails, and complete the upload. -/
def sendAll (uploadId : String) : ℕ → List Bytes → Op Bool
  | _, [] => completeUpload uploadId
  | partNumber, body :: rest => do
    if ← uploadPart uploadId partNumber body then sendAll uploadId (partNumber + 1) rest
    else return false

def Settings.InOneCall (settings : Settings) (length : ℕ) : Prop :=
  (length : Int) ≤ settings.inlineMaxSize ∨ length < settings.partSize

instance (settings : Settings) (length : ℕ) : Decidable (settings.InOneCall length) :=
  inferInstanceAs (Decidable (_ ∨ _))

/-- What an upload comes to, for the bytes as a whole. -/
def uploadWhole (settings : Settings) (key : Text) (bytes : Bytes) : Op Bool := do
  if settings.InOneCall bytes.length then putObject key bytes
  else
    match ← createUpload key with
    | none => return false
    | some uploadId => sendAll uploadId.1 1 (chunks settings.partSize bytes)

/-- What a stream comes to, if so many bytes are still to come. -/
def resume (settings : Settings) (stream : UploadStream) (rest : Bytes) : Op Bool :=
  if stream.uploadId = "" then uploadWhole settings stream.key (stream.buffer ++ rest)
  else sendAll stream.uploadId (stream.partNumber + 1)
    (chunks settings.partSize (stream.buffer ++ rest))

/-- A stream between two writes: it has not failed, what it holds back may go in one call or is less
than a part, and parts are numbered from the start. -/
structure Settled (settings : Settings) (stream : UploadStream) : Prop where
  sound : stream.failed = false
  inOneCall : stream.uploadId = "" → settings.InOneCall stream.buffer.length
  short : stream.uploadId ≠ "" → stream.buffer.length < settings.partSize
  fresh : stream.uploadId = "" → stream.partNumber = 0

theorem settled_beginUpload {settings : Settings} {key : Text} :
    Settled settings (beginUpload key) :=
  ⟨rfl, fun _ => .inr settings.partSize_pos, fun some => absurd rfl some, fun _ => rfl⟩

theorem sendNumbered_bind (size : ℕ) (stream : UploadStream)
    (continuation : Bool × UploadStream → Op Bool) :
    (sendNumbered size stream >>= continuation) = (do
      if ← uploadPart stream.uploadId (stream.partNumber + 1) (stream.buffer.take size) then
        continuation (true,
          { stream with
            partNumber := stream.partNumber + 1
            buffer := stream.buffer.drop size
            total := stream.total + size })
      else continuation (false, { stream with partNumber := stream.partNumber + 1 })) := by
  refine congrArg (Program.ask _) (funext fun succeeded => ?_)
  change Bool at succeeded
  cases succeeded with
  | true => rfl
  | false => rfl

variable {settings : Settings} {stream : UploadStream}

theorem finish_eq (settled : Settled settings stream) :
    finish stream = resume settings stream [] := by
  unfold finish resume
  rw [settled.sound, append_nil]
  by_cases none : stream.uploadId = ""
  · rw [if_pos none]
    unfold uploadWhole
    rw [if_pos (settled.inOneCall none)]
    simp [none]
  · rw [if_neg none]
    have short := le_of_lt (settled.short none)
    by_cases empty : stream.buffer = []
    · rw [empty, chunks_nil settings.partSize_pos]
      simp [none, sendAll]
    · rw [chunks_of_short empty short]
      simp only [Bool.false_eq_true, if_false, if_neg none, ne_eq, empty, not_false_eq_true,
        if_true]
      unfold sendPart
      simp only [if_neg none]
      rw [sendNumbered_bind]
      rw [take_length]
      refine congrArg (Program.ask _) ?_
      funext succeeded
      change Bool at succeeded
      cases succeeded with
      | true => rfl
      | false => rfl

/-- What follows a part: the others, or the end of the loop. -/
def sendOthers (settings : Settings) (fuel : ℕ) : Bool × UploadStream → Op (Bool × UploadStream)
  | (false, stream) => return (false, { stream with failed := true })
  | (true, stream) => sendFullParts settings fuel stream

/-- What follows a write: the rest, or the end. -/
def goOn (continuation : UploadStream → Op Bool) : Bool × UploadStream → Op Bool
  | (false, _) => return false
  | (true, stream) => continuation stream

variable {continuation : UploadStream → Op Bool} {rest : Bytes}

theorem sendNumbered_goOn {fuel : ℕ} (full : settings.partSize ≤ stream.buffer.length)
    (others : ∀ next : UploadStream, next.uploadId = stream.uploadId →
      next.partNumber = stream.partNumber + 1 →
      next.buffer = stream.buffer.drop settings.partSize → next.failed = stream.failed →
      (sendFullParts settings fuel next >>= goOn continuation) =
        sendAll stream.uploadId (stream.partNumber + 2)
          (chunks settings.partSize (stream.buffer.drop settings.partSize ++ rest))) :
    (sendNumbered settings.partSize stream >>= sendOthers settings fuel >>= goOn continuation) =
      sendAll stream.uploadId (stream.partNumber + 1)
        (chunks settings.partSize (stream.buffer ++ rest)) := by
  have cut : stream.buffer ++ rest = stream.buffer.take settings.partSize ++
      (stream.buffer.drop settings.partSize ++ rest) := by
    rw [← append_assoc, take_append_drop]
  rw [cut, chunks_append settings.partSize_pos (by rw [length_take]; omega)]
  refine congrArg (Program.ask _) ?_
  funext succeeded
  change Bool at succeeded
  cases succeeded with
  | true => exact others _ rfl rfl rfl rfl
  | false => rfl

/-- The loop of a write, and what comes after it, goes on like the whole. -/
theorem sendFullParts_goOn (continues : ∀ stream, Settled settings stream →
      continuation stream = resume settings stream rest) (fuel : ℕ) (stream : UploadStream)
    (enough : stream.buffer.length ≤ fuel) (sound : stream.failed = false)
    (fresh : stream.uploadId = "" → stream.partNumber = 0)
    (long : stream.uploadId = "" → settings.inlineMaxSize < stream.buffer.length) :
    (sendFullParts settings fuel stream >>= goOn continuation) = resume settings stream rest := by
  have positive := settings.partSize_pos
  have stops (short : stream.buffer.length < settings.partSize) :
      continuation stream = resume settings stream rest :=
    continues stream ⟨sound, fun _ => .inr short, fun _ => short, fresh⟩
  induction fuel generalizing stream with
  | zero => exact stops (by omega)
  | succ fuel ih =>
    unfold sendFullParts
    by_cases full : settings.partSize ≤ stream.buffer.length
    · rw [if_pos full]
      have others (known : UploadStream) (some : known.uploadId ≠ "")
          (same : known.buffer = stream.buffer) (soundToo : known.failed = false) :
          (sendNumbered settings.partSize known >>= sendOthers settings fuel >>=
            goOn continuation) =
            sendAll known.uploadId (known.partNumber + 1)
              (chunks settings.partSize (known.buffer ++ rest)) := by
        refine sendNumbered_goOn (same ▸ full) fun next id number buffer failed => ?_
        have shorter : next.buffer.length ≤ fuel := by
          rw [buffer, same, length_drop]
          omega
        rw [ih next shorter (failed.trans soundToo) (fun none => absurd (id.symm.trans none) some)
          (fun none => absurd (id.symm.trans none) some)
          (fun short => continues next ⟨failed.trans soundToo, fun _ => .inr short, fun _ => short,
            fun none => absurd (id.symm.trans none) some⟩)]
        unfold resume
        rw [if_neg (id ▸ some), id, number, buffer]
      by_cases none : stream.uploadId = ""
      · have several : ¬settings.InOneCall (stream.buffer ++ rest).length := by
          have larger := long none
          rintro (small | short)
          · rw [length_append] at small
            omega
          · rw [length_append] at short
            omega
        unfold resume uploadWhole sendPart
        rw [if_pos none, if_pos none, if_neg several]
        refine congrArg (Program.ask _) ?_
        funext created
        change Option UploadId at created
        cases created with
        | none => rfl
        | some uploadId =>
          have goesOn := others { stream with uploadId := uploadId.1 } uploadId.2 rfl sound
          have first : stream.partNumber + 1 = 1 := by rw [fresh none]
          refine Eq.trans goesOn ?_
          show sendAll uploadId.1 (stream.partNumber + 1) _ = _
          rw [first]
          rfl
      · unfold resume sendPart
        rw [if_neg none, if_neg none]
        exact others stream none rfl sound
    · rw [if_neg full]
      exact stops (by omega)

theorem write_goOn {data : Bytes} (settled : Settled settings stream)
    (continues : ∀ stream, Settled settings stream →
      continuation stream = resume settings stream rest) :
    (write settings data stream >>= goOn continuation) = resume settings stream (data ++ rest) := by
  have later (kept : UploadStream) (same : kept = { stream with buffer := stream.buffer ++ data }) :
      resume settings kept rest = resume settings stream (data ++ rest) := by
    rw [same]
    unfold resume
    rw [append_assoc]
  have sound : ¬stream.failed = true := by simp [settled.sound]
  unfold write
  rw [if_neg sound]
  by_cases held : stream.uploadId = "" ∧
      ((stream.buffer ++ data).length : Int) ≤ settings.inlineMaxSize
  · rw [if_pos held, ← later _ rfl]
    exact continues _ ⟨settled.sound, fun _ => .inl held.2,
      fun some => absurd held.1 some, settled.fresh⟩
  · rw [if_neg held, ← later _ rfl]
    exact sendFullParts_goOn continues _ _ le_rfl settled.sound settled.fresh
      fun none => not_le.mp fun small => held ⟨none, small⟩

theorem writeAll_eq {pieces : List Bytes} (settled : Settled settings stream) :
    writeAll settings pieces stream = resume settings stream pieces.flatten := by
  induction pieces generalizing stream with
  | nil => exact finish_eq settled
  | cons data rest ih =>
    exact write_goOn settled fun next settledToo => ih settledToo

theorem upload_eq (settings : Settings) (key : Text) (pieces : List Bytes) :
    upload settings key pieces = uploadWhole settings key pieces.flatten :=
  writeAll_eq settled_beginUpload

end Euclid.Transfer
