/-
This file is how an entity is read from a document: field by field, each with the reader its
type has in the entity.

Every entity decides for each of its fields which BSON types it takes. A reader is the table of
these decisions, and reading a document folds over its fields. What a reader takes does not
depend on the width of a number for any kind of field but four: a member that is read with
`get_int64`, one that is skipped unless it is an `int64` or an `int32`, and attributes.
-/

import Euclid.Database.ExtendedJson

namespace Euclid.Database

open Emd

/-! ### Elements -/

def getString : Value → Except Fault String
  | .string text => .ok text
  | _ => .error .elementType

def getBool : Value → Except Fault Bool
  | .bool flag => .ok flag
  | _ => .error .elementType

def getDate : Value → Except Fault Int64
  | .date milliseconds => .ok milliseconds
  | _ => .error .elementType

def getOid : Value → Except Fault Oid
  | .oid id => .ok id
  | _ => .error .elementType

def getInt32 : Value → Except Fault Int32
  | .int32 number => .ok number
  | _ => .error .elementType

def getInt64 : Value → Except Fault Int64
  | .int64 number => .ok number
  | _ => .error .elementType

def getDouble : Value → Except Fault Float
  | .double bits => .ok (Float.ofBits bits)
  | _ => .error .elementType

def getBinary : Value → Except Fault (List UInt8)
  | .other .binary bytes => .ok bytes
  | _ => .error .elementType

/-- `getBsonInt`: a number of either width, else zero. -/
def getBsonInt : Value → Int64
  | .int64 number => number
  | .int32 number => number.toInt64
  | _ => 0

/-- `number`: a number of whatever type. -/
def number (value : Value) : Option Float :=
  if value.isNumeric then some value.asDouble else none

/-! ### Attributes -/

inductive Variant where
  | int (value : Int32)
  | long (value : Int64)
  | double (value : Float)
  | float (value : Float32)
  | bool (value : Bool)
  | string (value : String)
  | binary (value : List UInt8)

namespace Variant

def toDocument : Variant → Document
  | .binary value => [("type", .string "binary"), ("value", .other .binary value)]
  | .int value => [("type", .string "int"), ("value", .int32 value)]
  | .long value => [("type", .string "long"), ("value", .int64 value)]
  | .double value => [("type", .string "double"), ("value", .double value.toBits)]
  | .float value => [("type", .string "float"), ("value", .double value.toFloat.toBits)]
  | .bool value => [("type", .string "bool"), ("value", .bool value)]
  | .string value => [("type", .string "string"), ("value", .string value)]

/-- What the value of an attribute is read as. A type that is none of these leaves it alone. -/
def ofValue (type : String) (value : Value) : Except Fault Variant :=
  if type = "int" then (getInt32 value).map .int
  else if type = "long" then (getInt64 value).map .long
  else if type = "double" then (getDouble value).map .double
  else if type = "float" then (getDouble value).map fun value => .float value.toFloat32
  else if type = "bool" then (getBool value).map .bool
  else if type = "string" then (getString value).map .string
  else if type = "binary" then (getBinary value).map .binary
  else .ok (.int 0)

def fromDocument (doc : Document) : Except Fault Variant :=
  match doc.field "type" with
  | none => .ok (.int 0)
  | some type => do
    let text ← getString type
    match doc.field "value" with
    | none => .ok (.int 0)
    | some value => ofValue text value

/-- Whether an attribute is read back from a file: a `long` must not fit an `int`. -/
def Keeps : Variant → Prop
  | .long value => ¬Fits value.toInt
  | _ => True

instance : DecidablePred Keeps := fun variant => by
  unfold Keeps
  split <;> infer_instance

end Variant

/-! ### The kinds of a field -/

/-- How a single value is read. The `optional` kinds skip a value of another type and the
`lenient` ones read it as the empty one; the others throw. -/
inductive Scalar where
  | string (meaning : String → String)
  | optionalString (meaning : String → String)
  | lenientString (meaning : String → String)
  | bool
  | optionalBool
  | lenientBool
  | date
  | optionalDate
  | lenientDate
  | oid
  | lenientOid
  | long
  | int
  | optionalLong
  | double
  | number
  | optionalNumber
  | truncatedNumber
  | doubleOrLong

/-- A member that is a single value. `initial` is whatever it is constructed with. -/
inductive Part where
  | initial
  | text (value : String)
  | flag (value : Bool)
  | moment (milliseconds : Int64)
  | oid (value : Oid)
  | long (value : Int64)
  | int (value : Int32)
  | real (value : Float)
  | optionalReal (value : Option Float)

/-- The member a single value is read as, if it is not skipped. -/
def Scalar.read : Scalar → Value → Except Fault (Option Part)
  | .string meaning, value => (getString value).map fun text => some (.text (meaning text))
  | .optionalString meaning, value =>
    .ok ((getString value).toOption.map fun text => .text (meaning text))
  | .lenientString meaning, value =>
    .ok (some (.text (meaning ((getString value).toOption.getD ""))))
  | .bool, value => (getBool value).map fun flag => some (.flag flag)
  | .optionalBool, value => .ok ((getBool value).toOption.map .flag)
  | .lenientBool, value => .ok (some (.flag ((getBool value).toOption.getD false)))
  | .date, value => (getDate value).map fun moment => some (.moment moment)
  | .optionalDate, value => .ok ((getDate value).toOption.map .moment)
  | .lenientDate, value => .ok (some (.moment ((getDate value).toOption.getD 0)))
  | .oid, value => (getOid value).map fun id => some (.oid id)
  | .lenientOid, value => .ok (some (((getOid value).toOption.map Part.oid).getD (.text "")))
  | .long, value => .ok (some (.long (getBsonInt value)))
  | .int, value => .ok (some (.int (getBsonInt value).toInt32))
  | .optionalLong, value =>
    match value with
    | .int64 _ => .ok (some (.long (getBsonInt value)))
    | .int32 _ => .ok (some (.long (getBsonInt value)))
    | _ => .ok none
  | .double, value => (getDouble value).map fun real => some (.real real)
  | .number, value => .ok (some (.real ((Database.number value).getD 0)))
  | .optionalNumber, value => .ok (some (.optionalReal (Database.number value)))
  | .truncatedNumber, value => .ok (some (.long ((Database.number value).getD 0).toInt64))
  | .doubleOrLong, value =>
    match value with
    | .double bits => .ok (some (.real (Float.ofBits bits)))
    | _ => .ok (some (.real (Float.ofInt (getBsonInt value).toInt)))

/-- The type a single value is stored with. -/
def Scalar.Writes : Scalar → Value → Prop
  | .string _, value | .optionalString _, value | .lenientString _, value =>
    ∃ text, value = .string text
  | .bool, value | .optionalBool, value | .lenientBool, value => ∃ flag, value = .bool flag
  | .date, value | .optionalDate, value | .lenientDate, value => ∃ moment, value = .date moment
  | .oid, value | .lenientOid, value => ∃ id, value = .oid id
  | .long, value | .int, value | .optionalLong, value | .truncatedNumber, value =>
    (∃ number, value = .int32 number) ∨ ∃ number, value = .int64 number
  | .double, value | .number, value | .optionalNumber, value | .doubleOrLong, value =>
    ∃ bits, value = .double bits

inductive Kind where
  | scalar (kind : Scalar)
  /-- `get_int64`. -/
  | strictLong
  /-- Skipped unless it is an `int64`, then cast to an unsigned number of so many bits. -/
  | unsigned (bits : Nat)
  /-- Skipped unless it is an `int32`, then cast to sixteen bits. -/
  | short
  | strings
  | lenientStrings
  | stringMap
  | lenientStringMap
  | optionalStringMap
  | variants
  | documents (fields : List (String × Scalar))
  | lenientDocuments (fields : List (String × Scalar))

inductive Member where
  | part (value : Part)
  | unsigned (value : Nat)
  | texts (values : List String)
  | textMap (entries : List (String × String))
  | variants (entries : List (String × Variant))
  | documents (entries : List (String → Part))

def castUnsigned (bits : Nat) (number : Int) : Nat := (number % 2 ^ bits).toNat

def readPart (fields : List (String × Scalar)) (parts : String → Part)
    (entry : String × Value) : Except Fault (String → Part) :=
  match fields.lookup entry.1 with
  | none => .ok parts
  | some kind => (kind.read entry.2).map fun
    | none => parts
    | some part => fun name => if name = entry.1 then part else parts name

def readParts (fields : List (String × Scalar)) (doc : Document) : Except Fault (String → Part) :=
  doc.foldlM (readPart fields) fun _ => .initial

/-- The strings of a map, and what else it holds refused. -/
def readText (entry : String × Value) : Except Fault (String × String) :=
  (getString entry.2).map fun text => (entry.1, text)

def readVariant (entry : String × Value) : Except Fault (String × Variant) := do
  let doc ← entry.2.getDocument
  let variant ← Variant.fromDocument doc
  return (entry.1, variant)

/-- The strings of a map, and what else it holds skipped. -/
def textsOf (fields : Document) : List (String × String) :=
  fields.filterMap fun entry => (readText entry).toOption

def readDocument (fields : List (String × Scalar)) (value : Value) :
    Except Fault (String → Part) := do
  let doc ← value.getDocument
  readParts fields doc

/-- The member a field is read as, if it is not skipped. -/
def Kind.read : Kind → Value → Except Fault (Option Member)
  | .scalar kind, value => (kind.read value).map fun part => part.map .part
  | .strictLong, value => (getInt64 value).map fun number => some (.part (.long number))
  | .unsigned bits, value =>
    .ok ((getInt64 value).toOption.map fun number => .unsigned (castUnsigned bits number.toInt))
  | .short, value =>
    .ok ((getInt32 value).toOption.map fun number => .unsigned (castUnsigned 16 number.toInt))
  | .strings, value => do
    let entries ← value.getArray
    let texts ← entries.mapM getString
    return some (.texts texts)
  | .lenientStrings, value =>
    .ok (value.getArray.toOption.map fun entries =>
      .texts (entries.filterMap fun entry => (getString entry).toOption))
  | .stringMap, value => do
    let fields ← value.getDocument
    let texts ← fields.mapM readText
    return some (.textMap texts)
  | .lenientStringMap, value =>
    .ok (some (.textMap ((value.getDocument.toOption.map textsOf).getD [])))
  | .optionalStringMap, value => .ok (value.getDocument.toOption.map fun fields =>
      .textMap (textsOf fields))
  | .variants, value => do
    let fields ← value.getDocument
    let variants ← fields.mapM readVariant
    return some (.variants variants)
  | .documents fields, value => do
    let entries ← value.getArray
    let docs ← entries.mapM (readDocument fields)
    return some (.documents docs)
  | .lenientDocuments fields, value =>
    match value with
    | .array entries => do
      let docs ← (entries.filterMap fun entry => entry.getDocument.toOption).mapM (readParts fields)
      return some (.documents docs)
    | _ => .ok none

/-- What a member is constructed with, where a skipped field has to be told from one that is
read. -/
def Kind.initial : Kind → Member
  | .unsigned _ => .unsigned 0
  | .short => .unsigned 0
  | _ => .part .initial

/-- A nested document as it is stored. -/
def WritesParts (fields : List (String × Scalar)) (doc : Document) : Prop :=
  ∀ entry ∈ doc, ∀ kind, fields.lookup entry.1 = some kind → kind.Writes entry.2

/-- The attributes a field holds, as `Variant::ToDocument` writes each. -/
def attributes (entries : List (String × Variant)) : Document :=
  entries.map fun entry => (entry.1, .document entry.2.toDocument)

/-- The type a field is stored with. -/
def Kind.Writes : Kind → Value → Prop
  | .scalar kind, value => kind.Writes value
  | .strictLong, value | .unsigned _, value => ∃ number, value = .int64 number
  | .short, value => ∃ number, value = .int32 number
  | .strings, value | .lenientStrings, value =>
    ∃ texts : List String, value = .array (texts.map .string)
  | .stringMap, value | .lenientStringMap, value =>
    ∃ texts : List (String × String),
      value = .document (texts.map fun text => (text.1, .string text.2))
  | .optionalStringMap, value => value = .null ∨
    ∃ texts : List (String × String),
      value = .document (texts.map fun text => (text.1, .string text.2))
  | .variants, value => ∃ entries, value = .document (attributes entries)
  | .documents fields, value | .lenientDocuments fields, value =>
    ∃ docs : List Document, value = .array (docs.map .document) ∧
      ∀ doc ∈ docs, WritesParts fields doc

/-- Whether a field is read from a file as it was before. -/
def Kind.Keeps : Kind → Value → Prop
  | .strictLong, .int64 number => ¬Fits number.toInt
  | .unsigned bits, .int64 number => Fits number.toInt → castUnsigned bits number.toInt = 0
  | .variants, .document fields => ∀ name variant,
    (name, Value.document (Variant.toDocument variant)) ∈ fields → variant.Keeps
  | _, _ => True

end Euclid.Database
