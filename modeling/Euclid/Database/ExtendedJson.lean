/-
This file is relaxed Extended JSON, and what a document that is written as it and read back has
become.

The text has no width for a number: one that fits thirty-two bits is read back as an `int32`, any
other as an `int64`. Everything else that has no JSON of its own, such as an ObjectId, a date or
a binary, is an object whose only names begin with a dollar sign, and is read back as it was.
-/

import Euclid.Emd.Fields

namespace Euclid.Database

open Emd

/-- A value of the text. An object that stands for a value, such as `\x7b"$oid": …\x7d`, is that
value. -/
inductive Json where
  | integer (value : Int)
  | real (bits : UInt64)
  | text (value : String)
  | flag (value : Bool)
  | null
  | object (fields : List (String × Json))
  | list (entries : List Json)
  | wrapped (value : Value)

/-- Whether a number fits thirty-two bits. -/
def Fits (number : Int) : Prop := -2 ^ 31 ≤ number ∧ number < 2 ^ 31

instance (number : Int) : Decidable (Fits number) := inferInstanceAs (Decidable (_ ∧ _))

/-- What a number without a width is read as. -/
def ofNumber (number : Int) : Value :=
  if Fits number then .int32 (Int32.ofInt number) else .int64 (Int64.ofInt number)

/-- Whether a name is one an ordinary field has. -/
def isPlainName (name : String) : Bool := !beginsWith "$" name

/-! ### Writing -/

mutual

/-- `to_json`, of a value. -/
def toJson : Value → Json
  | .int32 value => .integer value.toInt
  | .int64 value => .integer value.toInt
  | .double bits => .real bits
  | .string value => .text value
  | .bool value => .flag value
  | .null => .null
  | .document fields => .object (toJsonFields fields)
  | .array entries => .list (toJsonEntries entries)
  | .date milliseconds => .wrapped (.date milliseconds)
  | .oid value => .wrapped (.oid value)
  | .other kind bytes => .wrapped (.other kind bytes)
termination_by structural value => value

def toJsonField : String × Value → String × Json
  | (name, value) => (name, toJson value)
termination_by structural entry => entry

def toJsonFields : List (String × Value) → List (String × Json)
  | [] => []
  | entry :: rest => toJsonField entry :: toJsonFields rest
termination_by structural fields => fields

def toJsonEntries : List Value → List Json
  | [] => []
  | entry :: rest => toJson entry :: toJsonEntries rest
termination_by structural entries => entries

end

/-! ### Reading -/

section

-- What an object is read as that has a name of its own beginning with a dollar sign.
variable (special : List (String × Json) → Except Fault Value)

mutual

/-- `from_json`, of a value. -/
def fromJson : Json → Except Fault Value
  | .integer value => .ok (ofNumber value)
  | .real bits => .ok (.double bits)
  | .text value => .ok (.string value)
  | .flag value => .ok (.bool value)
  | .null => .ok .null
  | .object fields =>
    if fields.all fun entry => isPlainName entry.1 then
      (fromJsonFields fields).map Value.document
    else special fields
  | .list entries => (fromJsonEntries entries).map Value.array
  | .wrapped value => .ok value
termination_by structural json => json

def fromJsonField : String × Json → Except Fault (String × Value)
  | (name, json) => (fromJson json).map fun value => (name, value)
termination_by structural entry => entry

def fromJsonFields : List (String × Json) → Except Fault Document
  | [] => .ok []
  | entry :: rest => do
    let read ← fromJsonField entry
    let others ← fromJsonFields rest
    return read :: others
termination_by structural fields => fields

def fromJsonEntries : List Json → Except Fault (List Value)
  | [] => .ok []
  | entry :: rest => do
    let read ← fromJson entry
    let others ← fromJsonEntries rest
    return read :: others
termination_by structural entries => entries

end

end

/-! ### There and back -/

mutual

/-- A value whose numbers have the width they are read back at. -/
def narrow : Value → Value
  | .int64 value => ofNumber value.toInt
  | .document fields => .document (narrowFields fields)
  | .array entries => .array (narrowEntries entries)
  | .int32 value => .int32 value
  | .double bits => .double bits
  | .string value => .string value
  | .bool value => .bool value
  | .date milliseconds => .date milliseconds
  | .oid value => .oid value
  | .null => .null
  | .other kind bytes => .other kind bytes
termination_by structural value => value

def narrowField : String × Value → String × Value
  | (name, value) => (name, narrow value)
termination_by structural entry => entry

def narrowFields : List (String × Value) → List (String × Value)
  | [] => []
  | entry :: rest => narrowField entry :: narrowFields rest
termination_by structural fields => fields

def narrowEntries : List Value → List Value
  | [] => []
  | entry :: rest => narrow entry :: narrowEntries rest
termination_by structural entries => entries

end

mutual

/-- Whether no document in a value has a field whose name begins with a dollar sign. -/
def isPlain : Value → Bool
  | .document fields => isPlainFields fields
  | .array entries => isPlainEntries entries
  | _ => true
termination_by structural value => value

def isPlainField : String × Value → Bool
  | (name, value) => isPlainName name && isPlain value
termination_by structural entry => entry

def isPlainFields : List (String × Value) → Bool
  | [] => true
  | entry :: rest => isPlainField entry && isPlainFields rest
termination_by structural fields => fields

def isPlainEntries : List Value → Bool
  | [] => true
  | entry :: rest => isPlain entry && isPlainEntries rest
termination_by structural entries => entries

end

theorem ofNumber_int32 (value : Int32) : ofNumber value.toInt = .int32 value := by
  have fits : Fits value.toInt := ⟨value.le_toInt, value.toInt_lt⟩
  rw [ofNumber, if_pos fits, Int32.ofInt_toInt]

theorem ofNumber_fits {number : Int} (fits : Fits number) :
    ofNumber number = .int32 (Int32.ofInt number) := if_pos fits

theorem ofNumber_int64 {value : Int64} (wide : ¬Fits value.toInt) :
    ofNumber value.toInt = .int64 value := by
  rw [ofNumber, if_neg wide, Int64.ofInt_toInt]

theorem toJsonFields_eq_map (fields : List (String × Value)) :
    toJsonFields fields = fields.map fun entry => (entry.1, toJson entry.2) := by
  induction fields with
  | nil => rfl
  | cons entry rest ih =>
    obtain ⟨name, value⟩ := entry
    rw [toJsonFields, ih]
    rfl

theorem narrowFields_eq_map (fields : List (String × Value)) :
    narrowFields fields = fields.map fun entry => (entry.1, narrow entry.2) := by
  induction fields with
  | nil => rfl
  | cons entry rest ih =>
    obtain ⟨name, value⟩ := entry
    rw [narrowFields, ih]
    rfl

theorem narrowEntries_eq_map (entries : List Value) :
    narrowEntries entries = entries.map narrow := by
  induction entries with
  | nil => rfl
  | cons entry rest ih =>
    rw [narrowEntries, ih]
    rfl

theorem isPlainFields_iff {fields : List (String × Value)} : isPlainFields fields = true ↔
      ∀ entry ∈ fields, isPlainName entry.1 = true ∧ isPlain entry.2 = true := by
  induction fields with
  | nil => simp [isPlainFields]
  | cons entry rest ih =>
    obtain ⟨name, value⟩ := entry
    simp [isPlainFields, isPlainField, ih]

section

variable (special : List (String × Json) → Except Fault Value)

mutual

theorem fromJson_toJson : ∀ value : Value, isPlain value = true →
    fromJson special (toJson value) = .ok (narrow value)
  | .int32 value, _ => congrArg Except.ok (ofNumber_int32 value)
  | .int64 _, _ => rfl
  | .double _, _ => rfl
  | .string _, _ => rfl
  | .bool _, _ => rfl
  | .null, _ => rfl
  | .date _, _ => rfl
  | .oid _, _ => rfl
  | .other _ _, _ => rfl
  | .document fields, plain => by
    have names : (toJsonFields fields).all (fun entry => isPlainName entry.1) = true := by
      rw [toJsonFields_eq_map, List.all_map, List.all_eq_true]
      exact fun entry stored => (isPlainFields_iff.mp plain entry stored).1
    show (if _ then _ else _) = _
    rw [if_pos names, fromJson_toJsonFields fields plain]
    rfl
  | .array entries, plain => by
    show (fromJsonEntries special (toJsonEntries entries)).map Value.array = _
    rw [fromJson_toJsonEntries entries plain]
    rfl
termination_by structural value => value

theorem fromJson_toJsonField : ∀ entry : String × Value, isPlainField entry = true →
    fromJsonField special (toJsonField entry) = .ok (narrowField entry)
  | (name, value), plain => by
    have own : isPlain value = true := (Bool.and_eq_true_iff.mp plain).2
    show (fromJson special (toJson value)).map _ = _
    rw [fromJson_toJson value own]
    rfl
termination_by structural entry => entry

theorem fromJson_toJsonFields : ∀ fields : List (String × Value), isPlainFields fields = true →
    fromJsonFields special (toJsonFields fields) = .ok (narrowFields fields)
  | [], _ => rfl
  | entry :: rest, plain => by
    have both := Bool.and_eq_true_iff.mp plain
    show (do
      let read ← fromJsonField special (toJsonField entry)
      let others ← fromJsonFields special (toJsonFields rest)
      return read :: others : Except Fault Document) = _
    rw [fromJson_toJsonField entry both.1, fromJson_toJsonFields rest both.2]
    rfl
termination_by structural fields => fields

theorem fromJson_toJsonEntries : ∀ entries : List Value, isPlainEntries entries = true →
    fromJsonEntries special (toJsonEntries entries) = .ok (narrowEntries entries)
  | [], _ => rfl
  | entry :: rest, plain => by
    have both := Bool.and_eq_true_iff.mp plain
    show (do
      let read ← fromJson special (toJson entry)
      let others ← fromJsonEntries special (toJsonEntries rest)
      return read :: others : Except Fault (List Value)) = _
    rw [fromJson_toJson entry both.1, fromJson_toJsonEntries rest both.2]
    rfl
termination_by structural entries => entries

end

end

/-! ### What the widths do not change -/

theorem field_narrowFields (fields : Document) (name : String) :
    Document.field (narrowFields fields) name = (fields.field name).map narrow := by
  induction fields with
  | nil => rfl
  | cons entry rest ih =>
    obtain ⟨own, value⟩ := entry
    rw [narrowFields, field_cons, field_cons, ih]
    show (if own = name then some (narrow value) else _) = Option.map narrow
      (if own = name then _ else _)
    split <;> rfl

theorem names_narrowFields (fields : Document) :
    (narrowFields fields).map Prod.fst = fields.map Prod.fst := by
  rw [narrowFields_eq_map, List.map_map]
  rfl

theorem distinct_narrowFields {fields : Document} (distinct : fields.Distinct) :
    Document.Distinct (narrowFields fields) := by
  unfold Document.Distinct
  rw [names_narrowFields]
  exact distinct

end Euclid.Database
