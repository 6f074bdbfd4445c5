/-
This file proves what a stream asks of ESM, and when that is what it should be.

The bytes as a whole decide it, and which calls succeed. A stream that sends parts sends the chunks
of the bytes, the first of them that fails being the last. It has no call that gives up an upload.
An upload is completed if all calls succeed, and stays behind if one fails after it was created.
Bytes beyond what may go in one call go in one call all the same if they are less than a part.
-/

import Euclid.Transfer.Chunking
import Mathlib.Data.List.Infix

namespace Euclid.Transfer

open Program List Bool Nat
open Core (Text)

/-! ### What was sent -/

/-- The parts of a log, in the order in which they were sent. -/
def partsOf (log : Log) : List (ℕ × Bytes) :=
  log.filterMap fun entry =>
    match entry.1 with
    | .uploadPart _ partNumber body => some (partNumber, body)
    | _ => none

/-- The data that was sent, as parts or in one call. -/
def bodiesOf (log : Log) : List Bytes :=
  log.filterMap fun entry =>
    match entry.1 with
    | .uploadPart _ _ body => some body
    | .putObject _ body => some body
    | _ => none

/-- What an upload should be: its data is the bytes, its parts are numbered from one on and are all
full but the last, the bytes go in one call exactly if they may, and no upload is left open. -/
structure Streams (settings : Settings) (key : Text) (bytes : Bytes)
    (run : Except Empty Bool × Log) : Prop where
  sent : (bodiesOf run.2).flatten <+: bytes
  whole : run.1 = .ok true → (bodiesOf run.2).flatten = bytes
  numbered : ∀ index part, (partsOf run.2)[index]? = some part → part.1 = index + 1 ∧
    (index + 1 < (partsOf run.2).length → part.2.length = settings.partSize)
  inOneCall : run.2.map Sigma.fst = [.putObject key bytes] ↔
    (bytes.length : Int) ≤ settings.inlineMaxSize
  inParts : settings.inlineMaxSize < bytes.length →
    ∀ other body, .putObject other body ∉ run.2.map Sigma.fst
  closed : ∀ other uploadId, ⟨.createUpload other, some uploadId⟩ ∈ run.2 →
    ⟨.completeUpload uploadId.1, true⟩ ∈ run.2 ∨ ⟨.abortUpload uploadId.1, true⟩ ∈ run.2

/-- The bytes may go in one call; or they are a part at least, and if the upload is created then all
its calls succeed. -/
def Suits (settings : Settings) (env : Env) (length : ℕ) : Prop :=
  (length : Int) ≤ settings.inlineMaxSize ∨
    settings.partSize ≤ length ∧
      (env.succeeds 0 → ∀ moment ≤ chunkCount settings.partSize length + 1, env.succeeds moment)

/-! ### Sending parts -/

section Sending

variable (env : Env) (uploadId : String)

/-- What is asked from a moment on, for the parts from a number on. -/
def sendLog : ℕ → ℕ → List Bytes → Log
  | moment, _, [] => [⟨.completeUpload uploadId, env.succeeds moment⟩]
  | moment, partNumber, body :: rest =>
    if env.succeeds moment then
      ⟨.uploadPart uploadId partNumber body, true⟩ :: sendLog (moment + 1) (partNumber + 1) rest
    else [⟨.uploadPart uploadId partNumber body, false⟩]

/-- All calls for so many parts succeed from a moment on. -/
def allSucceed : ℕ → ℕ → Bool
  | moment, 0 => env.succeeds moment
  | moment, rest + 1 => env.succeeds moment && allSucceed (moment + 1) rest

variable {env uploadId} {moment : ℕ}

theorem allSucceed_iff {count : ℕ} : allSucceed env moment count ↔
      ∀ later ≤ count, env.succeeds (moment + later) := by
  induction count generalizing moment with
  | zero =>
    refine ⟨fun succeeds later least => ?_, fun succeed => succeed 0 le_rfl⟩
    rw [le_zero.mp least]
    exact succeeds
  | succ count ih =>
    show (env.succeeds moment && allSucceed env (moment + 1) count) = true ↔ _
    rw [and_eq_true, ih]
    constructor
    · rintro ⟨first, others⟩ later least
      cases later with
      | zero => exact first
      | succ later =>
        have same : moment + (later + 1) = moment + 1 + later := by omega
        rw [same]
        exact others later (by omega)
    · intro succeed
      refine ⟨succeed 0 (by omega), fun later least => ?_⟩
      have same : moment + 1 + later = moment + (later + 1) := by omega
      rw [same]
      exact succeed (later + 1) (by omega)

theorem run_sendAll {partNumber : ℕ} {bodies : List Bytes} {log : Log} :
    (sendAll uploadId partNumber bodies).run (machine env) log =
      (.ok (allSucceed env log.length bodies.length),
        log ++ sendLog env uploadId log.length partNumber bodies) := by
  induction bodies generalizing partNumber log with
  | nil => rfl
  | cons body rest ih =>
    show ((if env.succeeds log.length then sendAll uploadId (partNumber + 1) rest
      else return false : Op Bool).run (machine env)
        (log ++ [⟨.uploadPart uploadId partNumber body, env.succeeds log.length⟩])) = _
    unfold sendLog
    rw [length_cons]
    unfold allSucceed
    cases succeeds : env.succeeds log.length with
    | true =>
      simp only [if_true, Bool.true_and]
      rw [ih, length_append, length_singleton, append_assoc]
      rfl
    | false => rfl

variable {bodies : List Bytes}

theorem bodiesOf_sendLog_eq (partNumber : ℕ) (succeed : allSucceed env moment bodies.length) :
    bodiesOf (sendLog env uploadId moment partNumber bodies) = bodies := by
  induction bodies generalizing moment partNumber with
  | nil => rfl
  | cons body rest ih =>
    obtain ⟨first, others⟩ := and_eq_true_iff.mp succeed
    unfold sendLog
    rw [if_pos first]
    exact congrArg (body :: ·) (ih _ others)

theorem length_partsOf_sendLog (moment partNumber : ℕ) (bodies : List Bytes) :
    (partsOf (sendLog env uploadId moment partNumber bodies)).length ≤ bodies.length := by
  induction bodies generalizing moment partNumber with
  | nil => exact le_rfl
  | cons body rest ih =>
    unfold sendLog
    split
    · exact succ_le_succ (ih _ _)
    · exact succ_le_succ (zero_le _)

theorem partsOf_sendLog (moment partNumber : ℕ) (bodies : List Bytes) {index : ℕ} {part : ℕ × Bytes}
    (sent : (partsOf (sendLog env uploadId moment partNumber bodies))[index]? = some part) :
    part.1 = partNumber + index ∧ bodies[index]? = some part.2 := by
  induction bodies generalizing moment partNumber index with
  | nil => exact absurd sent (by simp [sendLog, partsOf])
  | cons body rest ih =>
    unfold sendLog at sent
    cases index with
    | zero =>
      have first : (partNumber, body) = part := by
        split at sent <;> exact Option.some.inj sent
      subst first
      exact ⟨rfl, rfl⟩
    | succ index =>
      split at sent
      · obtain ⟨number, same⟩ := ih _ _ sent
        exact ⟨by omega, same⟩
      · exact absurd sent (by simp [partsOf])

variable {partNumber : ℕ}

theorem mem_sendLog {entry : Σ call : Call, call.Answer}
    (asked : entry ∈ sendLog env uploadId moment partNumber bodies) :
    (∃ number body, entry.1 = .uploadPart uploadId number body) ∨
      entry.1 = .completeUpload uploadId := by
  induction bodies generalizing moment partNumber with
  | nil =>
    rw [mem_singleton.mp asked]
    exact .inr rfl
  | cons body rest ih =>
    unfold sendLog at asked
    split at asked
    · obtain rfl | later := mem_cons.mp asked
      · exact .inl ⟨_, _, rfl⟩
      · exact ih later
    · rw [mem_singleton.mp asked]
      exact .inl ⟨_, _, rfl⟩

theorem completed_ne_sent {body : Bytes} {completed sent : Bool} :
    (⟨.completeUpload uploadId, completed⟩ : Σ call : Call, call.Answer) ≠
      ⟨.uploadPart uploadId partNumber body, sent⟩ :=
  fun same => Call.noConfusion (congrArg Sigma.fst same)

theorem completed_sendLog :
    ⟨.completeUpload uploadId, true⟩ ∈ sendLog env uploadId moment partNumber bodies ↔
      allSucceed env moment bodies.length := by
  induction bodies generalizing moment partNumber with
  | nil =>
    unfold sendLog
    rw [mem_singleton]
    refine ⟨fun same => ?_, fun succeeds => ?_⟩
    · injection same with _ same
      exact same.symm
    · rw [show env.succeeds moment = true from succeeds]
  | cons body rest ih =>
    unfold sendLog
    rw [length_cons]
    unfold allSucceed
    split
    case isTrue succeeds =>
      rw [succeeds, Bool.true_and, mem_cons, ih]
      exact or_iff_right completed_ne_sent
    case isFalse fails =>
      rw [not_eq_true] at fails
      rw [fails, Bool.false_and, mem_singleton]
      exact iff_of_false completed_ne_sent false_ne_true

end Sending

/-! ### The whole upload -/

section Upload

variable (settings : Settings) (key : Text) (bytes : Bytes) (env : Env)

def uploadLog : Log :=
  if settings.InOneCall bytes.length then [⟨.putObject key bytes, env.succeeds 0⟩]
  else if env.succeeds 0 then
    ⟨.createUpload key, some (env.uploadId 0)⟩ ::
      sendLog env (env.uploadId 0).1 1 1 (chunks settings.partSize bytes)
  else [⟨.createUpload key, none⟩]

def uploads : Bool :=
  if settings.InOneCall bytes.length then env.succeeds 0
  else env.succeeds 0 && allSucceed env 1 (chunks settings.partSize bytes).length

theorem run_uploadWhole : (uploadWhole settings key bytes).run (machine env) [] =
      (.ok (uploads settings bytes env), uploadLog settings key bytes env) := by
  unfold uploadWhole uploads uploadLog
  by_cases one : settings.InOneCall bytes.length
  · simp only [if_pos one]
    rfl
  · simp only [if_neg one]
    refine (run_ask (machine env) (.createUpload key) _ []).trans ?_
    have answered : machine env (.createUpload key) [] =
        (if env.succeeds 0 then some (env.uploadId 0) else none,
          [⟨.createUpload key, if env.succeeds 0 then some (env.uploadId 0) else none⟩]) := rfl
    rw [answered]
    cases created : env.succeeds 0 with
    | true => exact run_sendAll
    | false => rfl

/-! ### When an upload is what it should be -/

variable {settings key bytes env}

theorem streams_inOneCall (one : settings.InOneCall bytes.length) :
    Streams settings key bytes ((uploadWhole settings key bytes).run (machine env) []) ↔
      (bytes.length : Int) ≤ settings.inlineMaxSize := by
  rw [run_uploadWhole]
  unfold uploadLog
  rw [if_pos one]
  constructor
  · intro streams
    exact streams.inOneCall.mp rfl
  · intro small
    have body : (bodiesOf
        [⟨.putObject key bytes, env.succeeds 0⟩]).flatten = bytes :=
      append_nil bytes
    refine ⟨(body : _ = bytes).symm ▸ prefix_rfl, fun _ => body, fun index part sent => ?_,
      iff_of_true rfl small, fun large => absurd small (not_le.mpr large),
      fun other uploadId created => ?_⟩
    · exact absurd sent (by simp [partsOf])
    · exact absurd (congrArg Sigma.fst (mem_singleton.mp created)) Call.noConfusion

theorem length_chunk {size : ℕ} (positive : 0 < size) {index : ℕ} {body : Bytes}
    (chunk : (chunks size bytes)[index]? = some body)
      (later : index + 1 < (chunks size bytes).length) :
    body.length = size := by
  have count : (chunks size bytes).length = chunkCount size bytes.length := by
    unfold chunks
    rw [length_map, length_range]
  have next : (index + 1) * size < bytes.length := (lt_chunkCount positive).mp (count ▸ later)
  unfold chunks at chunk
  rw [List.getElem?_map] at chunk
  obtain ⟨number, found, same⟩ := Option.map_eq_some_iff.mp chunk
  obtain ⟨_, rfl⟩ := List.getElem?_eq_some_iff.mp found
  rw [← same, getElem_range, slice_length]
  rw [succ_mul] at next
  omega

/-- What goes in parts is what it should be if no call fails once the upload was created. -/
theorem streams_inParts (several : ¬settings.InOneCall bytes.length) :
    Streams settings key bytes ((uploadWhole settings key bytes).run (machine env) []) ↔
      (env.succeeds 0 → allSucceed env 1 (chunks settings.partSize bytes).length) := by
  have large : settings.inlineMaxSize < bytes.length := not_le.mp fun small => several (.inl small)
  rw [run_uploadWhole]
  unfold uploadLog
  rw [if_neg several]
  cases created : env.succeeds 0 with
  | false =>
    refine iff_of_true ⟨ nil_prefix, fun succeeded => ?_, fun index part sent => ?_,
      iff_of_false (fun same => ?_) (not_le.mpr large), fun _ other body asked => ?_,
      fun other uploadId asked => ?_⟩ fun absent => absurd absent false_ne_true
    · unfold uploads at succeeded
      rw [if_neg several, created] at succeeded
      nomatch succeeded
    · exact absurd sent (by simp [partsOf])
    · exact absurd (head_eq_of_cons_eq same) Call.noConfusion
    · exact absurd (mem_singleton.mp asked) Call.noConfusion
    · have same := mem_singleton.mp asked
      injection same with _ same
      nomatch same
  | true =>
    rw [if_pos rfl]
    have started : ∀ log : Log,
        bodiesOf (⟨.createUpload key, some (env.uploadId 0)⟩ :: log) = bodiesOf log ∧
        partsOf (⟨.createUpload key, some (env.uploadId 0)⟩ :: log) = partsOf log :=
      fun log => ⟨rfl, rfl⟩
    constructor
    · intro streams _
      obtain completed | aborted := streams.closed key (env.uploadId 0) (.head _)
      · obtain same | completed := mem_cons.mp completed
        · exact absurd (congrArg Sigma.fst same) Call.noConfusion
        · exact completed_sendLog.mp completed
      · obtain same | aborted := mem_cons.mp aborted
        · exact absurd (congrArg Sigma.fst same) Call.noConfusion
        · obtain ⟨_, _, same⟩ | same := mem_sendLog aborted
          · exact Call.noConfusion same
          · exact Call.noConfusion same
    · intro succeed
      have all := succeed rfl
      have bodies : bodiesOf (sendLog env (env.uploadId 0).1 _ 1 _) = _ := bodiesOf_sendLog_eq 1 all
      refine ⟨?_, fun _ => ?_, fun index part sent => ?_,
        iff_of_false (fun same => ?_) (not_le.mpr large), fun _ other body asked => ?_,
        fun other uploadId asked => ?_⟩
      · rw [(started _).1, bodies, flatten_chunks settings.partSize_pos]
      · rw [(started _).1, bodies, flatten_chunks settings.partSize_pos]
      · rw [(started _).2] at sent ⊢
        obtain ⟨number, chunk⟩ := partsOf_sendLog _ _ _ sent
        refine ⟨number.trans (add_comm _ _), fun later => ?_⟩
        exact length_chunk settings.partSize_pos chunk
          (lt_of_lt_of_le later (length_partsOf_sendLog _ _ _))
      · exact absurd (head_eq_of_cons_eq same) Call.noConfusion
      · obtain ⟨entry, asked, same⟩ := mem_map.mp asked
        obtain rfl | asked := mem_cons.mp asked
        · exact Call.noConfusion same
        · obtain ⟨_, _, part⟩ | complete := mem_sendLog asked
          · exact Call.noConfusion (same.symm.trans part)
          · exact Call.noConfusion (same.symm.trans complete)
      · obtain same | asked := mem_cons.mp asked
        · injection same with _ same
          injection same with same
          rw [same]
          exact .inl (.tail _ (completed_sendLog.mpr all))
        · obtain ⟨_, _, same⟩ | same := mem_sendLog asked
          · exact Call.noConfusion same
          · exact Call.noConfusion same

theorem suits_of_inParts (several : ¬settings.InOneCall bytes.length) :
    Suits settings env bytes.length ↔
      (env.succeeds 0 → allSucceed env 1 (chunks settings.partSize bytes).length) := by
  have count : (chunks settings.partSize bytes).length =
      chunkCount settings.partSize bytes.length := by
    unfold chunks
    rw [length_map, length_range]
  rw [allSucceed_iff, count]
  unfold Suits
  rw [or_iff_right fun small => several (.inl small),
    and_iff_right (Nat.le_of_not_lt fun short => several (.inr short))]
  refine ⟨fun succeed first later least => ?_, fun succeed first moment least => ?_⟩
  · exact succeed first (1 + later) (by omega)
  · cases moment with
    | zero => exact first
    | succ later =>
      rw [Nat.add_comm]
      exact succeed first later (by omega)

theorem suits_of_inOneCall (one : settings.InOneCall bytes.length) :
    Suits settings env bytes.length ↔ (bytes.length : Int) ≤ settings.inlineMaxSize := by
  constructor
  · rintro (small | ⟨full, _⟩)
    · exact small
    · obtain small | short := one
      · exact small
      · exact absurd full (Nat.not_le_of_lt short)
  · exact .inl

end Upload

end Euclid.Transfer
