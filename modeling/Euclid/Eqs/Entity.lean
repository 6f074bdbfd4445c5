/-
This file holds the entities of the queue service: messages, queues, and the four
counters a queue carries about the messages in it.

The fields are those of `Message.h` and `Queue.h`. A date is a number of milliseconds, a
`long` is an integer, a byte string is a string, and a floating-point attribute is kept
as its bit pattern, since the service only carries it. The four counters are grouped in
one value, because every operation that moves messages moves several of them together.
-/

import Euclid.Bus.Entity
import Euclid.Bytes
import Mathlib.Algebra.Group.Basic

namespace Euclid.Eqs

/-! ### Enumerations -/

inductive MessageStatus where
  | available
  | delayed
  | invisible
  | unknown
  deriving DecidableEq

inductive MessagePriority where
  | low
  | medium
  | high
  deriving DecidableEq

inductive QueueStatus where
  | available
  | stopped
  | unknown
  deriving DecidableEq

/-- A typed attribute value of a message. -/
inductive Variant where
  | int (value : Int)
  | long (value : Int)
  | double (bits : UInt64)
  | float (bits : UInt32)
  | bool (value : Bool)
  | string (value : String)
  | binary (bytes : List UInt8)
  deriving DecidableEq

/-- The identity a document is stored under: when it was made, and its place among those made
then. -/
abbrev Oid := Nat × Nat

/-- Milliseconds, as the store stamps them. -/
abbrev Time := Int

/-- Attributes by name, each name at most once. -/
abbrev Attributes := List (String × Variant)

/-- Assign one attribute, replacing the value its name has. -/
def Attributes.assign (attributes : Attributes) (name : String) (value : Variant) : Attributes :=
  attributes.filter (fun entry => entry.1 ≠ name) ++ [(name, value)]

/-! ### Counters -/

/-- What a queue says it holds: messages by status, and their bytes. -/
@[ext] structure Counters where
  available : Int
  invisible : Int
  delayed : Int
  size : Int
  deriving DecidableEq

namespace Counters

instance : Zero Counters := ⟨⟨0, 0, 0, 0⟩⟩
instance : Add Counters := ⟨fun first second =>
  ⟨first.available + second.available, first.invisible + second.invisible,
    first.delayed + second.delayed, first.size + second.size⟩⟩
instance : Neg Counters := ⟨fun counters =>
  ⟨-counters.available, -counters.invisible, -counters.delayed, -counters.size⟩⟩
instance : Sub Counters := ⟨fun first second =>
  ⟨first.available - second.available, first.invisible - second.invisible,
    first.delayed - second.delayed, first.size - second.size⟩⟩

instance : AddCommGroup Counters where
  add_assoc first second third := by ext <;> exact Int.add_assoc _ _ _
  zero_add counters := by ext <;> exact Int.zero_add _
  add_zero counters := by ext <;> exact Int.add_zero _
  add_comm first second := by ext <;> exact Int.add_comm _ _
  neg_add_cancel counters := by ext <;> exact Int.add_left_neg _
  sub_eq_add_neg first second := by ext <;> exact Int.sub_eq_add_neg
  nsmul := nsmulRec
  zsmul := zsmulRec

/-- The counters in the order `writeCounters` clamps them. -/
inductive Field where
  | available
  | invisible
  | delayed
  | size
  deriving DecidableEq

def get (counters : Counters) : Field → Int
  | .available => counters.available
  | .invisible => counters.invisible
  | .delayed => counters.delayed
  | .size => counters.size

def set (counters : Counters) (field : Field) (value : Int) : Counters :=
  match field with
  | .available => { counters with available := value }
  | .invisible => { counters with invisible := value }
  | .delayed => { counters with delayed := value }
  | .size => { counters with size := value }

@[simp] theorem get_zero (field : Field) : (0 : Counters).get field = 0 := by
  cases field <;> rfl

@[simp] theorem get_add (first second : Counters) (field : Field) :
    (first + second).get field = first.get field + second.get field := by
  cases field <;> rfl

@[simp] theorem get_sub (first second : Counters) (field : Field) :
    (first - second).get field = first.get field - second.get field := by
  cases field <;> rfl

@[simp] theorem get_set_self (counters : Counters) (field : Field) (value : Int) :
    (counters.set field value).get field = value := by
  cases field <;> rfl

theorem get_set_of_ne (counters : Counters) {field other : Field} (different : other ≠ field)
    (value : Int) : (counters.set field value).get other = counters.get other := by
  cases field <;> cases other <;> first | rfl | exact absurd rfl different

theorem ext_get {first second : Counters}
    (same : ∀ field, first.get field = second.get field) : first = second :=
  Counters.ext (same .available) (same .invisible) (same .delayed) (same .size)

/-- No counter is below zero. -/
def Nonnegative (counters : Counters) : Prop := ∀ field, 0 ≤ counters.get field

theorem nonnegative_zero : Nonnegative 0 := fun field => by simp

theorem nonnegative_iff {counters : Counters} : counters.Nonnegative ↔
    0 ≤ counters.available ∧ 0 ≤ counters.invisible ∧ 0 ≤ counters.delayed ∧ 0 ≤ counters.size := by
  constructor
  · exact fun nonneg => ⟨nonneg .available, nonneg .invisible, nonneg .delayed, nonneg .size⟩
  · rintro ⟨available, invisible, delayed, size⟩ field
    cases field with
    | available => exact available
    | invisible => exact invisible
    | delayed => exact delayed
    | size => exact size

instance (counters : Counters) : Decidable counters.Nonnegative :=
  decidable_of_iff' _ nonnegative_iff

theorem Nonnegative.eq_zero {first second : Counters} (left : first.Nonnegative)
    (right : second.Nonnegative) (sum : first + second = 0) : first = 0 ∧ second = 0 := by
  have parts : ∀ field, first.get field = 0 ∧ second.get field = 0 := by
    intro field
    have total := congrArg (get · field) sum
    have aboveFirst := left field
    have aboveSecond := right field
    simp only [get_add, get_zero] at total
    omega
  exact ⟨ext_get fun field => by rw [get_zero]; exact (parts field).1,
    ext_get fun field => by rw [get_zero]; exact (parts field).2⟩

theorem Nonnegative.add {first second : Counters} (left : first.Nonnegative)
    (right : second.Nonnegative) : (first + second).Nonnegative := fun field => by
  rw [get_add]
  exact Int.add_nonneg (left field) (right field)

end Counters

/-! ### Messages -/

structure Message where
  oid : Oid
  ern : String
  queueErn : String
  sourceQueueErn : String
  body : String
  status : MessageStatus
  priority : MessagePriority
  receivedCount : Int
  size : Int
  visibilityTimeout : Int
  visibilityPinned : Bool
  messageId : String
  receiptHandle : String
  contentType : String
  delayUntil : Time
  lastReceived : Time
  expiresAt : Time
  created : Time
  modified : Time
  attributes : Attributes
  systemAttributes : Attributes
  deriving DecidableEq

/-- The entity as its constructor leaves it. The identity is given when it is stored. -/
def Message.blank : Message where
  oid := (0, 0)
  ern := ""
  queueErn := ""
  sourceQueueErn := ""
  body := ""
  status := .available
  priority := .medium
  receivedCount := 0
  size := 0
  visibilityTimeout := 30
  visibilityPinned := false
  messageId := ""
  receiptHandle := ""
  contentType := ""
  delayUntil := 0
  lastReceived := 0
  expiresAt := 0
  created := 0
  modified := 0
  attributes := []
  systemAttributes := []

/-- What `ToDocument` writes: the timeout has 32 bits there. -/
def Message.toDocument (msg : Message) : Message :=
  { msg with visibilityTimeout := int32 msg.visibilityTimeout }

/-- When the lease on a claimed message runs out: the last receive plus the timeout, which is
in seconds. -/
def Message.leaseEnd (msg : Message) : Time :=
  msg.lastReceived + 1000 * msg.visibilityTimeout

/-! ### Queues -/

structure Queue where
  oid : Oid
  region : String
  accountId : String
  nameSpace : String
  owner : String
  name : String
  ern : String
  counters : Counters
  delay : Int
  visibility : Int
  maxMessageLength : Int
  maxReceiveCount : Int
  retentionPeriod : Int
  deadLetterQueueErn : String
  priority : MessagePriority
  internal : Bool
  status : QueueStatus
  tags : List (String × String)
  created : Time
  modified : Time
  deriving DecidableEq

def kDefaultMaxMessageLength : Int := 1024 * 1024

/-- The entity as its constructor leaves it: no counter, no traffic. -/
def Queue.blank : Queue where
  oid := (0, 0)
  region := ""
  accountId := ""
  nameSpace := ""
  owner := ""
  name := ""
  ern := ""
  counters := 0
  delay := 0
  visibility := 30
  maxMessageLength := kDefaultMaxMessageLength
  maxReceiveCount := 3
  retentionPeriod := 0
  deadLetterQueueErn := ""
  priority := .medium
  internal := false
  status := .available
  tags := []
  created := 0
  modified := 0

/-- The key a queue is unique by within the installation. -/
def Queue.key (queue : Queue) : String × String × String :=
  (queue.accountId, queue.nameSpace, queue.name)

/-- The parts of a queue that decide what happens to a message. -/
structure QueueConfig where
  visibility : Int
  delay : Int
  maxReceiveCount : Int
  retentionPeriod : Int
  deadLetterQueueErn : String
  deriving DecidableEq

def Queue.config (queue : Queue) : QueueConfig where
  visibility := queue.visibility
  delay := queue.delay
  maxReceiveCount := queue.maxReceiveCount
  retentionPeriod := queue.retentionPeriod
  deadLetterQueueErn := queue.deadLetterQueueErn

end Euclid.Eqs
