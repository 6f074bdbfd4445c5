/-
This file proves when an entity is read from a document that was written as text and read back as
it was read before.

A field is read alone, and a name occurs once in a document, so the members an entity is read
with are the fields of the document looked up one by one. For each kind of field the width of a
number then either does not matter, or the condition is the one `Kind.Keeps` states: otherwise a
field is refused or skipped that was read before, and the entity shows it.
-/

import Euclid.Database.Reader

namespace Euclid.Database

open Emd List Value

/-! ### Elements of any width -/

section

variable (value : Value)

theorem read_ofNumber {Read : Type} {read : Value → Read} {refused : Read}
    (int32 : ∀ number, read (.int32 number) = refused)
    (int64 : ∀ number, read (.int64 number) = refused) (number : Int) :
    read (ofNumber number) = refused := by
  unfold ofNumber
  split
  · exact int32 _
  · exact int64 _

@[simp] theorem getString_narrow : getString (narrow value) = getString value := by
  cases value with
  | int64 number => exact read_ofNumber (fun _ => rfl) (fun _ => rfl) number.toInt
  | _ => rfl

@[simp] theorem getBool_narrow : getBool (narrow value) = getBool value := by
  cases value with
  | int64 number => exact read_ofNumber (fun _ => rfl) (fun _ => rfl) number.toInt
  | _ => rfl

@[simp] theorem getDate_narrow : getDate (narrow value) = getDate value := by
  cases value with
  | int64 number => exact read_ofNumber (fun _ => rfl) (fun _ => rfl) number.toInt
  | _ => rfl

@[simp] theorem getOid_narrow : getOid (narrow value) = getOid value := by
  cases value with
  | int64 number => exact read_ofNumber (fun _ => rfl) (fun _ => rfl) number.toInt
  | _ => rfl

@[simp] theorem getDouble_narrow : getDouble (narrow value) = getDouble value := by
  cases value with
  | int64 number => exact read_ofNumber (fun _ => rfl) (fun _ => rfl) number.toInt
  | _ => rfl

@[simp] theorem getDocument_narrow :
    (narrow value).getDocument = value.getDocument.map narrowFields := by
  cases value with
  | int64 number => exact read_ofNumber (fun _ => rfl) (fun _ => rfl) number.toInt
  | _ => rfl

@[simp] theorem getArray_narrow : (narrow value).getArray = value.getArray.map narrowEntries := by
  cases value with
  | int64 number => exact read_ofNumber (fun _ => rfl) (fun _ => rfl) number.toInt
  | _ => rfl

@[simp] theorem getBsonInt_narrow : getBsonInt (narrow value) = getBsonInt value := by
  cases value with
  | int64 number =>
    show getBsonInt (ofNumber number.toInt) = number
    unfold ofNumber
    split
    · rename_i fits
      apply Int64.toInt_inj.mp
      rw [getBsonInt, Int32.toInt_toInt64, Int32.toInt_ofInt_of_le fits.1 fits.2]
    · exact Int64.ofInt_toInt number
  | _ => rfl

@[simp] theorem number_narrow : number (narrow value) = number value := by
  cases value with
  | int64 number =>
    show Database.number (ofNumber number.toInt) = some (Float.ofInt number.toInt)
    unfold ofNumber
    split
    · rename_i fits
      show some (Float.ofInt (Int32.ofInt number.toInt).toInt) = _
      rw [Int32.toInt_ofInt_of_le fits.1 fits.2]
    · rw [Int64.ofInt_toInt]
      rfl
  | _ => rfl

theorem Scalar.read_narrow (kind : Scalar) : kind.read (narrow value) = kind.read value := by
  cases kind with
  | optionalLong =>
    cases value with
    | int64 number =>
      have same := getBsonInt_narrow (.int64 number)
      show Scalar.read .optionalLong (ofNumber number.toInt) = .ok (some (.long number))
      rw [show narrow (.int64 number) = ofNumber number.toInt from rfl] at same
      unfold ofNumber at same ⊢
      split at same <;> rename_i fits
      · rw [if_pos fits, Scalar.read, same]
        rfl
      · rw [if_neg fits, Scalar.read, same]
        rfl
    | _ => rfl
  | doubleOrLong =>
    cases value with
    | int64 number =>
      have same := getBsonInt_narrow (.int64 number)
      show Scalar.read .doubleOrLong (ofNumber number.toInt) = _
      rw [show narrow (.int64 number) = ofNumber number.toInt from rfl] at same
      unfold ofNumber at same ⊢
      split at same <;> rename_i fits
      · rw [if_pos fits, Scalar.read, same]
        · rfl
        · exact fun _ => nofun
      · rw [if_neg fits, Scalar.read, same]
        · rfl
        · exact fun _ => nofun
    | _ => rfl
  | _ => simp only [Scalar.read, getString_narrow, getBool_narrow, getDate_narrow, getOid_narrow,
      getDouble_narrow, getBsonInt_narrow, number_narrow]

end

/-! ### Documents and arrays of any width -/

theorem readPart_narrow (fields : List (String × Scalar)) (parts : String → Part)
    (entry : String × Value) :
    readPart fields parts (entry.1, narrow entry.2) = readPart fields parts entry := by
  unfold readPart
  cases fields.lookup entry.1 with
  | none => rfl
  | some kind =>
    dsimp only
    rw [Scalar.read_narrow]

theorem readParts_narrow (fields : List (String × Scalar)) (doc : Document) :
    readParts fields (narrowFields doc) = readParts fields doc := by
  unfold readParts
  rw [narrowFields_eq_map, foldlM_map]
  congr 1
  funext parts entry
  exact readPart_narrow fields parts entry

variable {Read : Type}

theorem mapM_narrowEntries {read : Value → Except Fault Read}
    (same : ∀ value, read (narrow value) = read value) (entries : List Value) :
    (narrowEntries entries).mapM read = entries.mapM read := by
  rw [narrowEntries_eq_map, mapM_map]
  congr 1
  funext value
  exact same value

theorem mapM_narrowFields {read : String × Value → Except Fault Read}
    (same : ∀ entry : String × Value, read (entry.1, narrow entry.2) = read entry)
    (fields : Document) : (narrowFields fields).mapM read = mapM read fields := by
  rw [narrowFields_eq_map, mapM_map]
  congr 1
  funext entry
  exact same entry

theorem readText_narrow (entry : String × Value) :
    readText (entry.1, narrow entry.2) = readText entry := by
  unfold readText
  rw [getString_narrow]

theorem textsOf_narrow (fields : Document) : textsOf (narrowFields fields) = textsOf fields := by
  unfold textsOf
  rw [narrowFields_eq_map, filterMap_map]
  congr 1
  funext entry
  exact congrArg Except.toOption (readText_narrow entry)

theorem readDocument_narrow (fields : List (String × Scalar)) (value : Value) :
    readDocument fields (narrow value) = readDocument fields value := by
  unfold readDocument
  rw [getDocument_narrow]
  cases value.getDocument with
  | error fault => rfl
  | ok doc => exact readParts_narrow fields doc

/-! ### Attributes of any width -/

namespace Variant

theorem fromDocument_toDocument (variant : Variant) :
    ∃ read, fromDocument variant.toDocument = .ok read := by
  cases variant <;> exact ⟨_, rfl⟩

variable {variant : Variant}

theorem narrowFields_toDocument (keeps : variant.Keeps) :
    narrowFields variant.toDocument = variant.toDocument := by
  cases variant with
  | long value =>
    show [("type", Value.string "long"), ("value", ofNumber value.toInt)] = _
    rw [ofNumber_int64 keeps]
    rfl
  | _ => rfl

/-- A `long` that fits an `int` is refused once it has been read as one. -/
theorem fromDocument_narrowFields (lost : ¬variant.Keeps) :
    fromDocument (narrowFields variant.toDocument) = .error .elementType := by
  cases variant with
  | long value =>
    have fits : Fits value.toInt := Decidable.not_not.mp lost
    show fromDocument [("type", Value.string "long"), ("value", ofNumber value.toInt)] = _
    rw [ofNumber_fits fits]
    rfl
  | _ => exact absurd trivial lost

end Variant

theorem readVariant_toDocument (name : String) (variant : Variant) :
    ∃ read, readVariant (name, .document variant.toDocument) = .ok read := by
  obtain ⟨read, ok⟩ := variant.fromDocument_toDocument
  refine ⟨(name, read), ?_⟩
  show (do
    let variant ← Variant.fromDocument variant.toDocument
    return (name, variant) : Except Fault (String × Variant)) = _
  rw [ok]
  rfl

/-- The attributes of an entity are read as they were when each of them is, and refused
otherwise. -/
theorem mapM_readVariant_narrow (entries : List (String × Variant)) :
    (narrowFields (attributes entries)).mapM readVariant =
      if ∀ entry ∈ entries, entry.2.Keeps then (attributes entries).mapM readVariant
      else .error .elementType := by
  induction entries with
  | nil => rfl
  | cons entry rest ih =>
    obtain ⟨name, variant⟩ := entry
    obtain ⟨read, ok⟩ := readVariant_toDocument name variant
    show mapM readVariant
      ((name, document (narrowFields variant.toDocument)) :: narrowFields (attributes rest)) =
      if _ then mapM readVariant ((name, document variant.toDocument) :: attributes rest)
      else _
    have whole : (∀ entry ∈ (name, variant) :: rest, entry.2.Keeps) ↔
        variant.Keeps ∧ ∀ entry ∈ rest, entry.2.Keeps := forall_mem_cons
    rw [mapM_cons, mapM_cons, ih, ok]
    by_cases keeps : variant.Keeps
    · rw [variant.narrowFields_toDocument keeps, ok]
      by_cases others : ∀ entry ∈ rest, entry.2.Keeps
      · rw [if_pos others, if_pos (whole.mpr ⟨keeps, others⟩)]
      · rw [if_neg others, if_neg fun all => others (whole.mp all).2]
        rfl
    · rw [if_neg fun all => keeps (whole.mp all).1]
      have refused : readVariant (name, .document (narrowFields variant.toDocument)) =
          .error .elementType := by
        show (do
          let variant ← Variant.fromDocument (narrowFields variant.toDocument)
          return (name, variant) : Except Fault (String × Variant)) = _
        rw [variant.fromDocument_narrowFields keeps]
        rfl
      rw [refused]
      rfl

theorem mapM_readVariant (entries : List (String × Variant)) :
    ∃ read, (attributes entries).mapM readVariant = .ok read := by
  induction entries with
  | nil => exact ⟨[], rfl⟩
  | cons entry rest ih =>
    obtain ⟨read, ok⟩ := readVariant_toDocument entry.1 entry.2
    obtain ⟨others, same⟩ := ih
    refine ⟨read :: others, ?_⟩
    show mapM readVariant ((entry.1, document entry.2.toDocument) :: attributes rest) = _
    rw [mapM_cons, ok, same]
    rfl

theorem keeps_attributes {entries : List (String × Variant)} :
    Kind.Keeps .variants (.document (attributes entries)) ↔ ∀ entry ∈ entries, entry.2.Keeps := by
  constructor
  · intro keeps entry stored
    exact keeps entry.1 entry.2 (mem_map_of_mem stored)
  · intro keeps name variant stored
    obtain ⟨entry, own, same⟩ := mem_map.mp stored
    have written : entry.2.toDocument = variant.toDocument :=
      document.inj (congrArg Prod.snd same)
    have all := keeps entry own
    cases variant with
    | long value =>
      cases found : entry.2 with
      | long other =>
        rw [found] at written all
        have equal : other = value := by simpa [Variant.toDocument] using written
        rwa [equal] at all
      | _ => simp [found, Variant.toDocument] at written
    | _ => trivial

/-! ### A field of any width -/

/-- What a field leaves in a member that held something before. -/
def Kind.readInto (kind : Kind) (value : Value) (before : Member) : Except Fault Member :=
  (kind.read value).map fun mem => mem.getD before

open Kind

variable {value : Value}

theorem Scalar.read_ok {kind : Scalar} (writes : kind.Writes value) :
    ∃ part, kind.read value = .ok part := by
  cases kind with
  | string => obtain ⟨text, rfl⟩ := writes; exact ⟨_, rfl⟩
  | bool => obtain ⟨flag, rfl⟩ := writes; exact ⟨_, rfl⟩
  | date => obtain ⟨moment, rfl⟩ := writes; exact ⟨_, rfl⟩
  | oid => obtain ⟨id, rfl⟩ := writes; exact ⟨_, rfl⟩
  | double => obtain ⟨bits, rfl⟩ := writes; exact ⟨_, rfl⟩
  | optionalLong => obtain ⟨number, rfl⟩ | ⟨number, rfl⟩ := writes <;> exact ⟨_, rfl⟩
  | doubleOrLong => obtain ⟨bits, rfl⟩ := writes; exact ⟨_, rfl⟩
  | _ => exact ⟨_, rfl⟩

theorem mapM_ok {Given : Type} {read : Given → Except Fault Read} {entries : List Given}
    (ok : ∀ entry ∈ entries, ∃ result, read entry = .ok result) :
    ∃ results, entries.mapM read = .ok results := by
  induction entries with
  | nil => exact ⟨[], rfl⟩
  | cons entry rest ih =>
    obtain ⟨result, first⟩ := ok entry (.head _)
    obtain ⟨results, others⟩ := ih fun entry stored => ok entry (.tail _ stored)
    refine ⟨result :: results, ?_⟩
    rw [mapM_cons, first, others]
    rfl

variable {doc : Document}

theorem readParts_ok {fields : List (String × Scalar)}
    (writes : WritesParts fields doc) : ∃ parts, readParts fields doc = .ok parts := by
  unfold readParts
  generalize (fun _ : String => Part.initial) = start
  induction doc generalizing start with
  | nil => exact ⟨start, rfl⟩
  | cons entry rest ih =>
    have read : ∃ parts, readPart fields start entry = .ok parts := by
      unfold readPart
      cases found : fields.lookup entry.1 with
      | none => exact ⟨_, rfl⟩
      | some kind =>
        obtain ⟨part, ok⟩ := Scalar.read_ok (writes entry (.head _) kind found)
        dsimp only
        rw [ok]
        exact ⟨_, rfl⟩
    obtain ⟨parts, ok⟩ := read
    rw [foldlM_cons, ok]
    exact ih (fun entry stored => writes entry (.tail _ stored)) parts

theorem filterMap_documents (docs : List Document) :
    (docs.map document).filterMap (fun entry => entry.getDocument.toOption) = docs := by
  rw [filterMap_map]
  exact filterMap_some

variable {kind : Kind}

theorem Kind.read_ok (writes : kind.Writes value) : ∃ mem, kind.read value = .ok mem := by
  cases kind with
  | scalar kind =>
    obtain ⟨part, ok⟩ := Scalar.read_ok writes
    exact ⟨part.map .part, by rw [read, ok]; rfl⟩
  | strictLong => obtain ⟨number, rfl⟩ := writes; exact ⟨_, rfl⟩
  | strings =>
    obtain ⟨texts, rfl⟩ := writes
    obtain ⟨results, ok⟩ : ∃ results, (texts.map string).mapM getString = .ok results :=
      mapM_ok fun entry stored => by
        obtain ⟨text, -, rfl⟩ := mem_map.mp stored
        exact ⟨text, rfl⟩
    exact ⟨some (.texts results), by
      show (do
        let texts ← mapM getString (texts.map string)
        return some (Member.texts texts) : Except Fault (Option Member)) = _
      rw [ok]
      rfl⟩
  | stringMap =>
    obtain ⟨texts, rfl⟩ := writes
    obtain ⟨results, ok⟩ : ∃ results,
        (texts.map fun text => (text.1, string text.2)).mapM readText = .ok results :=
      mapM_ok fun entry stored => by
        obtain ⟨text, -, rfl⟩ := mem_map.mp stored
        exact ⟨text, rfl⟩
    exact ⟨some (.textMap results), by
      show (do
        let texts ← mapM readText (texts.map fun text => (text.1, string text.2))
        return some (Member.textMap texts) : Except Fault (Option Member)) = _
      rw [ok]
      rfl⟩
  | variants =>
    obtain ⟨entries, rfl⟩ := writes
    obtain ⟨read, ok⟩ := mapM_readVariant entries
    exact ⟨some (.variants read), by
      show (do
        let variants ← (attributes entries).mapM readVariant
        return some (Member.variants variants) : Except Fault (Option Member)) = _
      rw [ok]
      rfl⟩
  | documents fields =>
    obtain ⟨docs, rfl, each⟩ := writes
    obtain ⟨results, ok⟩ : ∃ results,
        (docs.map document).mapM (readDocument fields) = .ok results :=
      mapM_ok fun entry stored => by
        obtain ⟨doc, own, rfl⟩ := mem_map.mp stored
        exact readParts_ok (each doc own)
    exact ⟨some (.documents results), by
      show (do
        let docs ← mapM (readDocument fields) (docs.map document)
        return some (Member.documents docs) : Except Fault (Option Member)) = _
      rw [ok]
      rfl⟩
  | lenientDocuments fields =>
    obtain ⟨docs, rfl, each⟩ := writes
    obtain ⟨results, ok⟩ := mapM_ok fun doc own => readParts_ok (each doc own)
    exact ⟨some (.documents results), by
      show (do
        let docs ← ((docs.map document).filterMap
          fun entry => entry.getDocument.toOption).mapM (readParts fields)
        return some (Member.documents docs) : Except Fault (Option Member)) = _
      rw [filterMap_documents, ok]
      rfl⟩
  | _ => exact ⟨_, rfl⟩

/-- A number that is not of its width is cut to nothing where a file gave it at another one. -/
theorem Kind.readInto_ofNumber {bits : ℕ} {number : Int64}
    (keeps : (Kind.unsigned bits).Keeps (.int64 number)) :
    (Kind.unsigned bits).readInto (ofNumber number.toInt) (Kind.unsigned bits).initial =
      (Kind.unsigned bits).readInto (.int64 number) (Kind.unsigned bits).initial := by
  by_cases fits : Fits number.toInt
  · have zero : castUnsigned bits number.toInt = 0 := keeps fits
    rw [ofNumber_fits fits]
    show Except.ok (Member.unsigned 0) = .ok (.unsigned (castUnsigned bits number.toInt))
    rw [zero]
  · rw [ofNumber_int64 fits]

theorem filterMap_getString_narrow (entries : List Value) :
    (narrowEntries entries).filterMap (fun entry => (getString entry).toOption) =
      entries.filterMap fun entry => (getString entry).toOption := by
  rw [narrowEntries_eq_map, filterMap_map]
  congr 1
  funext entry
  exact congrArg Except.toOption (getString_narrow entry)

/-- The documents of an array are read alike from it and from the narrowed one. -/
theorem mapM_readParts_documents (fields : List (String × Scalar)) (docs : List Document) :
    ((narrowEntries (docs.map document)).filterMap
        fun entry => entry.getDocument.toOption).mapM (readParts fields) =
      ((docs.map document).filterMap fun entry => entry.getDocument.toOption).mapM
        (readParts fields) := by
  have narrowed : narrowEntries (docs.map document) = (docs.map narrowFields).map document := by
    rw [narrowEntries_eq_map, map_map, map_map]
    rfl
  rw [narrowed, filterMap_documents, filterMap_documents, mapM_map]
  congr 1
  funext doc
  exact readParts_narrow fields doc

/-- A field that keeps what it holds leaves the same in a member at either width. -/
theorem Kind.readInto_narrow (writes : kind.Writes value) (keeps : kind.Keeps value) :
    kind.readInto (narrow value) kind.initial = kind.readInto value kind.initial := by
  cases kind with
  | scalar kind => rw [readInto, readInto, read, read, Scalar.read_narrow]
  | strictLong =>
    obtain ⟨number, rfl⟩ := writes
    show readInto _ (ofNumber number.toInt) _ = _
    rw [ofNumber_int64 keeps]
  | unsigned bits =>
    obtain ⟨number, rfl⟩ := writes
    exact readInto_ofNumber keeps
  | short =>
    obtain ⟨number, rfl⟩ := writes
    rfl
  | strings =>
    simp only [readInto, read, getArray_narrow]
    cases value.getArray with
    | error fault => rfl
    | ok entries =>
      show Except.map _ (do
        let texts ← (narrowEntries entries).mapM getString
        return some (Member.texts texts)) = _
      rw [mapM_narrowEntries getString_narrow]
      rfl
  | lenientStrings =>
    simp only [readInto, read, getArray_narrow]
    cases value.getArray with
    | error fault => rfl
    | ok entries =>
      exact congrArg (fun texts => Except.ok (Member.texts texts))
        (filterMap_getString_narrow entries)
  | stringMap =>
    simp only [readInto, read, getDocument_narrow]
    cases value.getDocument with
    | error fault => rfl
    | ok fields =>
      show Except.map _ (do
        let texts ← (narrowFields fields).mapM readText
        return some (Member.textMap texts)) = _
      rw [mapM_narrowFields readText_narrow]
      rfl
  | lenientStringMap =>
    simp only [readInto, read, getDocument_narrow]
    cases value.getDocument with
    | error fault => rfl
    | ok fields =>
      exact congrArg (fun texts => Except.ok (Member.textMap texts)) (textsOf_narrow fields)
  | optionalStringMap =>
    simp only [readInto, read, getDocument_narrow]
    cases value.getDocument with
    | error fault => rfl
    | ok fields =>
      exact congrArg (fun texts => Except.ok (Member.textMap texts)) (textsOf_narrow fields)
  | variants =>
    obtain ⟨entries, rfl⟩ := writes
    show Except.map _ (do
      let variants ← (narrowFields (attributes entries)).mapM readVariant
      return some (Member.variants variants)) = _
    rw [mapM_readVariant_narrow, if_pos (keeps_attributes.mp keeps)]
    rfl
  | documents fields =>
    simp only [readInto, read, getArray_narrow]
    cases value.getArray with
    | error fault => rfl
    | ok entries =>
      show Except.map _ (do
        let docs ← (narrowEntries entries).mapM (readDocument fields)
        return some (Member.documents docs)) = _
      rw [mapM_narrowEntries (readDocument_narrow fields)]
      rfl
  | lenientDocuments fields =>
    obtain ⟨docs, rfl, -⟩ := writes
    show Except.map _ (do
      let docs ← ((narrowEntries (docs.map document)).filterMap
        fun entry => entry.getDocument.toOption).mapM (readParts fields)
      return some (Member.documents docs)) = Except.map _ (do
      let docs ← ((docs.map document).filterMap
        fun entry => entry.getDocument.toOption).mapM (readParts fields)
      return some (Member.documents docs))
    rw [mapM_readParts_documents]

/-- A field that was stored and is read after a file gave the same keeps what it holds. -/
theorem Kind.keeps_of_readInto {before after : Member}
    (writes : kind.Writes value) (stored : kind.readInto value kind.initial = .ok before)
    (restored : kind.readInto (narrow value) kind.initial = .ok after)
    (same : ∀ number number', before = .unsigned number → after = .unsigned number' →
      number = number') : kind.Keeps value := by
  cases kind with
  | strictLong =>
    obtain ⟨number, rfl⟩ := writes
    intro fits
    rw [show narrow (.int64 number) = ofNumber number.toInt from rfl,
      ofNumber_fits fits] at restored
    exact absurd restored (by simp [readInto, read, getInt64, Except.map])
  | unsigned bits =>
    obtain ⟨number, rfl⟩ := writes
    intro fits
    rw [show narrow (.int64 number) = ofNumber number.toInt from rfl,
      ofNumber_fits fits] at restored
    exact same _ _ (Except.ok.inj stored).symm (Except.ok.inj restored).symm
  | variants =>
    obtain ⟨entries, rfl⟩ := writes
    refine keeps_attributes.mpr (Decidable.by_contra fun lost => ?_)
    have refused : readInto .variants (narrow (.document (attributes entries)))
        (initial .variants) = .error .elementType := by
      show Except.map _ (do
        let variants ← (narrowFields (attributes entries)).mapM readVariant
        return some (Member.variants variants)) = _
      rw [mapM_readVariant_narrow, if_neg lost]
      rfl
    rw [refused] at restored
    nomatch restored
  | _ => trivial

/-! ### Entities -/

/-- The reader of an entity: its fields, and whether labels stored before there was a map of them
are read into it. -/
structure Reader where
  fields : List (String × Kind)
  legacyLabels : Bool := false

namespace Reader

def kindOf (reader : Reader) (name : String) : Option Kind := reader.fields.lookup name

def initial (reader : Reader) (name : String) : Member :=
  match reader.kindOf name with
  | some kind => kind.initial
  | none => .part .initial

/-- What a field leaves in the member of its name. -/
def readField (reader : Reader) (name : String) (value : Value) (before : Member) :
    Except Fault Member :=
  match reader.kindOf name with
  | none => .ok before
  | some kind => kind.readInto value before

/-- One field of a document. -/
def step (reader : Reader) (members : String → Member) (entry : String × Value) :
    Except Fault (String → Member) :=
  (reader.readField entry.1 entry.2 (members entry.1)).map fun mem name =>
    if name = entry.1 then mem else members name

def textOf : Member → String
  | .part (.text text) => text
  | _ => ""

/-- The labels of a map, unless there are none. -/
def orLabels (labels : Member) : Member → Member
  | .part .initial => labels
  | .textMap [] => labels
  | others => others

/-- Labels from before the map, when there is no map. -/
def labelsFromLegacy (members : String → Member) : String → Member :=
  let legacyName := textOf (members "labelName")
  let legacyValue := textOf (members "labelValue")
  if legacyName = "" then members
  else fun name =>
    if name = "labels" then orLabels (.textMap [(legacyName, legacyValue)]) (members "labels")
    else members name

def finish (reader : Reader) (members : String → Member) : String → Member :=
  if reader.legacyLabels then labelsFromLegacy members else members

def fromDocument (reader : Reader) (doc : Document) : Except Fault (String → Member) :=
  (doc.foldlM reader.step reader.initial).map reader.finish

/-- A document as the repositories store it: every field that is read has the type it is stored
with. -/
structure Stored (reader : Reader) (doc : Document) : Prop where
  distinct : doc.Distinct
  plain : isPlainFields doc = true
  identified : ∃ id, doc.field "_id" = some (.oid id)
  written : ∀ name value kind, doc.field name = some value →
    reader.kindOf name = some kind → kind.Writes value

/-- Whether a document is read from a file as it was before. -/
def Keeps (reader : Reader) (doc : Document) : Prop :=
  ∀ name value kind, doc.field name = some value → reader.kindOf name = some kind → kind.Keeps value

variable {reader : Reader} {members : String → Member}

theorem labelsFromLegacy_unsigned {name : String} {number : Nat}
    (unsigned : members name = .unsigned number) :
    labelsFromLegacy members name = .unsigned number := by
  unfold labelsFromLegacy
  split
  · exact unsigned
  · show (if name = "labels" then _ else _) = _
    split
    · rename_i labels
      rw [← labels, unsigned]
      rfl
    · exact unsigned

theorem finish_unsigned {name : String} {number : Nat}
    (unsigned : members name = .unsigned number) :
    reader.finish members name = .unsigned number := by
  unfold finish
  split
  · exact labelsFromLegacy_unsigned unsigned
  · exact unsigned

/-- What a document leaves in a member that held something before. -/
def memberOf (reader : Reader) (members : String → Member) (doc : Document)
    (name : String) : Except Fault Member :=
  match doc.field name with
  | none => .ok (members name)
  | some value => reader.readField name value (members name)

theorem foldlM_step_iff (distinct : doc.Distinct) {start : String → Member} :
    doc.foldlM reader.step start = .ok members ↔
      ∀ name, reader.memberOf start doc name = .ok (members name) := by
  induction doc generalizing start with
  | nil =>
    show Except.ok start = Except.ok members ↔ ∀ name, Except.ok (start name) = .ok (members name)
    rw [Except.ok.injEq, funext_iff]
    exact forall_congr' fun name => by rw [Except.ok.injEq]
  | cons entry rest ih =>
    obtain ⟨own, value⟩ := entry
    obtain ⟨absent, others⟩ := nodup_cons.mp distinct
    have gone : Document.field rest own = none := field_eq_none.mpr absent
    have first : ∀ start, reader.memberOf start ((own, value) :: rest) own =
        reader.readField own value (start own) := fun start => by
      rw [memberOf, field_cons, if_pos rfl]
    have later : ∀ start name, name ≠ own → reader.memberOf start ((own, value) :: rest) name =
        reader.memberOf start rest name := fun start name other => by
      rw [memberOf, field_cons, if_neg (Ne.symm other)]
      rfl
    rw [foldlM_cons]
    cases read : reader.readField own value (start own) with
    | error fault =>
      rw [step, read]
      refine iff_of_false (fun same => absurd same (by simp [Except.map, bind, Except.bind])) ?_
      intro all
      have same := all own
      rw [first, read] at same
      nomatch same
    | ok mem =>
      rw [step, read]
      show rest.foldlM reader.step (fun name => if name = own then mem else start name) = _ ↔ _
      rw [ih others]
      refine forall_congr' fun name => ?_
      by_cases same : name = own
      · rw [same, first, read, memberOf, gone]
        show Except.ok (if own = own then mem else start own) = _ ↔ _
        rw [if_pos rfl]
      · rw [later _ _ same, memberOf, memberOf, if_neg same]

theorem readField_ok (stored : reader.Stored doc) (name : String) :
    ∃ mem, reader.memberOf reader.initial doc name = .ok mem := by
  unfold memberOf
  cases found : doc.field name with
  | none => exact ⟨_, rfl⟩
  | some value =>
    dsimp only [readField]
    cases known : reader.kindOf name with
    | none => exact ⟨_, rfl⟩
    | some kind =>
      obtain ⟨mem, ok⟩ := read_ok (stored.written name value kind found known)
      refine ⟨mem.getD (reader.initial name), ?_⟩
      show (kind.read value).map _ = _
      rw [ok]
      rfl

theorem fromDocument_ok (stored : reader.Stored doc) :
    ∃ members, doc.foldlM reader.step reader.initial = .ok members := by
  refine ⟨fun name => (reader.memberOf reader.initial doc name).toOption.getD
    (.part .initial), (foldlM_step_iff stored.distinct).mpr fun name => ?_⟩
  obtain ⟨mem, ok⟩ := readField_ok stored name
  rw [ok]
  rfl

/-- Two documents whose fields are the same but for their widths are read as the same entity
exactly when the fields keep what they hold. -/
theorem fromDocument_eq_iff {restored : Document} (stored : reader.Stored doc)
    (distinct : restored.Distinct)
    (fields : ∀ name, restored.field name = (doc.field name).map narrow) :
    reader.fromDocument restored = reader.fromDocument doc ↔ reader.Keeps doc := by
  obtain ⟨members, read⟩ := fromDocument_ok stored
  have each := (foldlM_step_iff stored.distinct).mp read
  constructor
  · intro same name value kind found known
    unfold fromDocument at same
    rw [read] at same
    cases again : restored.foldlM reader.step reader.initial with
    | error fault =>
      rw [again] at same
      exact absurd same (by simp [Except.map])
    | ok members' =>
      rw [again] at same
      have finished : reader.finish members' = reader.finish members := Except.ok.inj same
      have before := each name
      have after := (foldlM_step_iff distinct).mp again name
      rw [memberOf, found, initial] at before
      rw [memberOf, fields, found, initial] at after
      dsimp only [readField, Option.map_some] at before after
      rw [known] at before after
      refine keeps_of_readInto (stored.written name value kind found known) before after ?_
      intro number number' held held'
      have shown := congrFun finished name
      rw [finish_unsigned held, finish_unsigned held'] at shown
      exact (Member.unsigned.inj shown).symm
  · intro keeps
    have again : restored.foldlM reader.step reader.initial = .ok members := by
      refine (foldlM_step_iff distinct).mpr fun name => ?_
      rw [← each name, memberOf, memberOf, fields]
      cases found : doc.field name with
      | none => rfl
      | some value =>
        dsimp only [readField, Option.map_some]
        cases known : reader.kindOf name with
        | none => rfl
        | some kind =>
          have initial : reader.initial name = kind.initial := by rw [Reader.initial, known]
          rw [initial]
          exact readInto_narrow (stored.written name value kind found known)
            (keeps name value kind found known)
    rw [fromDocument, fromDocument, read, again]

end Reader

end Euclid.Database
