/-
This file is the values an EMD document holds, and how the store compares them.

A document is a list of fields in the order they are stored; a field name may occur twice,
and then the first one is read. Numbers compare as doubles whatever width they were stored
at, values of different types are never equal, and a type the store has no comparison for
compares as equal to itself.
-/

import Euclid.Binary64
import Euclid.Program

namespace Euclid.Emd

/-- An ObjectId: twelve bytes, the first one the most significant. -/
abbrev Oid := BitVec 96

/-- The BSON types the store copies without looking into them. -/
inductive OtherType where
  | binary
  | undefined
  | regex
  | dbPointer
  | code
  | symbol
  | codeWithScope
  | timestamp
  | decimal128
  | maxKey
  | minKey
  deriving DecidableEq

/-- A BSON value. A double is its bits. -/
inductive Value where
  | int32 (value : Int32)
  | int64 (value : Int64)
  | double (bits : UInt64)
  | string (value : String)
  | bool (value : Bool)
  | date (milliseconds : Int64)
  | oid (value : Oid)
  | null
  | document (fields : List (String × Value))
  | array (entries : List Value)
  | other (kind : OtherType) (bytes : List UInt8)

abbrev Document := List (String × Value)

/-- The code of a type in a BSON element. -/
def OtherType.typeCode : OtherType → Nat
  | .binary => 5
  | .undefined => 6
  | .regex => 11
  | .dbPointer => 12
  | .code => 13
  | .symbol => 14
  | .codeWithScope => 15
  | .timestamp => 17
  | .decimal128 => 19
  | .maxKey => 127
  | .minKey => 255

namespace Value

/-- The code of the type of a value in a BSON element. -/
def type : Value → Nat
  | .double _ => 1
  | .string _ => 2
  | .document _ => 3
  | .array _ => 4
  | .oid _ => 7
  | .bool _ => 8
  | .date _ => 9
  | .null => 10
  | .int32 _ => 16
  | .int64 _ => 18
  | .other kind _ => kind.typeCode

def IsScalar : Value → Prop
  | .document _ => False
  | .array _ => False
  | _ => True

instance (value : Value) : Decidable value.IsScalar := by
  unfold IsScalar
  split <;> infer_instance

def isNumeric : Value → Bool
  | .int32 _ => true
  | .int64 _ => true
  | .double _ => true
  | _ => false

def asDouble : Value → Float
  | .int32 value => Float.ofInt value.toInt
  | .int64 value => Float.ofInt value.toInt
  | .double bits => Float.ofBits bits
  | _ => 0

/-- Where a number stands among the doubles once it is one. -/
def rank : Value → Option Int
  | .int32 value => some (Binary64.ofInt value.toInt)
  | .int64 value => some (Binary64.ofInt value.toInt)
  | .double bits => Binary64.rank bits
  | _ => none

def asLong : Value → Int64
  | .int32 value => value.toInt64
  | .int64 value => value
  | .double bits => (Float.ofBits bits).toInt64
  | _ => 0

/-- -1, 0 or 1 for two things of a type with an order. -/
def sign {Ordered : Type} (less : Ordered → Ordered → Bool) (left right : Ordered) : Int :=
  if less left right then -1 else if less right left then 1 else 0

/-- The order of two values of one type. -/
def compareAlike : Value → Value → Int
  | .string left, .string right => sign (fun first second : String => first < second) left right
  | .bool left, .bool right => sign (fun first second => !first && second) left right
  | .date left, .date right => sign (fun first second : Int64 => first < second) left right
  | .oid left, .oid right => sign (fun first second : Oid => first < second) left right
  | _, _ => 0

/-- The order of a sort. -/
def compare (left right : Value) : Int :=
  if left.isNumeric && right.isNumeric then
    sign Binary64.below left.rank right.rank
  else if left.type = right.type then compareAlike left right
  else if left.type < right.type then -1
  else 1

def equals (left right : Value) : Bool :=
  if left.isNumeric && right.isNumeric then decide (compare left right = 0)
  else decide (left.type = right.type ∧ compare left right = 0)

mutual

/-- Whether two values are the same bytes. -/
def same : Value → Value → Bool
  | .int32 left, .int32 right => left == right
  | .int64 left, .int64 right => left == right
  | .double left, .double right => left == right
  | .string left, .string right => left == right
  | .bool left, .bool right => left == right
  | .date left, .date right => left == right
  | .oid left, .oid right => left == right
  | .null, .null => true
  | .document left, .document right => sameFields left right
  | .array left, .array right => sameEntries left right
  | .other kind left, .other kind' right => kind == kind' && left == right
  | _, _ => false
termination_by structural left => left

def sameField : String × Value → String × Value → Bool
  | (left, value), (right, value') => left == right && same value value'
termination_by structural left => left

def sameFields : List (String × Value) → List (String × Value) → Bool
  | [], [] => true
  | left :: lefts, right :: rights => sameField left right && sameFields lefts rights
  | _, _ => false
termination_by structural left => left

def sameEntries : List Value → List Value → Bool
  | [], [] => true
  | left :: lefts, right :: rights => same left right && sameEntries lefts rights
  | _, _ => false
termination_by structural left => left

end

theorem sign_comm {Ordered : Type} (less : Ordered → Ordered → Bool) (left right : Ordered) :
    sign less left right = 0 ↔ sign less right left = 0 := by
  unfold sign
  cases less left right <;> cases less right left <;> decide

theorem compareAlike_comm (left right : Value) :
    compareAlike left right = 0 ↔ compareAlike right left = 0 := by
  cases left <;> cases right <;> simp only [compareAlike] <;> exact sign_comm _ _ _

theorem equals_comm (left right : Value) : equals left right = equals right left := by
  unfold equals compare
  rw [Bool.and_comm]
  split
  · exact decide_eq_decide.mpr (sign_comm _ _ _)
  refine decide_eq_decide.mpr ?_
  by_cases alike : left.type = right.type
  · rw [if_pos alike, if_pos alike.symm]
    exact and_congr eq_comm (compareAlike_comm left right)
  · exact ⟨fun same => absurd same.1 alike, fun same => absurd same.1.symm alike⟩

end Value

/-- The first field of a document with a name. -/
def Document.field (doc : Document) (name : String) : Option Value :=
  (doc.find? fun entry => entry.1 = name).map Prod.snd

end Euclid.Emd
