/-
This file describes requests as the parser hands them over, and the texts that signatures are made
of.

A text is a list of bytes, written as characters. The parser takes the blanks around the value of a
field away and lets no line end into a method, a target or a value; fields of one name may come more
than once, and a lookup finds the first. Digests are bytes, in hexadecimal digits or in base 64.
-/

import Euclid.Bytes

namespace Euclid.Core

open List

abbrev Text := List Char

/-! ### Texts -/

def isBlank (character : Char) : Bool := character = ' ' ∨ character = '\t'

def trim (text : Text) : Text :=
  ((text.dropWhile isBlank).reverse.dropWhile isBlank).reverse

def toLower (text : Text) : Text := text.map Char.toLower

/-- What comes before a character, as far as there is one. -/
def upTo (character : Char) (text : Text) : Text := text.takeWhile (· ≠ character)

/-- What comes after a character. -/
def beyond (character : Char) (text : Text) : Text :=
  (text.dropWhile (· ≠ character)).drop 1

@[grind] def parts (separates : Char → Bool) : Text → List Text
  | [] => [[]]
  | character :: rest =>
    if separates character then [] :: parts separates rest
    else
      match parts separates rest with
      | [] => [[character]]
      | part :: others => (character :: part) :: others

def split (separator : Char) (text : Text) : List Text := parts (· = separator) text

/-- The number that decimal digits stand for. -/
def decimal (digits : Text) : ℕ :=
  digits.foldl (fun number digit => 10 * number + (digit.toNat - '0'.toNat)) 0

def OneLine (text : Text) : Prop := '\n' ∉ text

instance (text : Text) : Decidable (OneLine text) := by
  unfold OneLine
  infer_instance

variable {text : Text}

theorem OneLine.of_subset {part : Text} (clean : OneLine text) (inside : part ⊆ text) :
    OneLine part :=
  fun mem => clean (inside mem)

theorem OneLine.append {first second : Text} (clean : OneLine first) (cleanToo : OneLine second) :
    OneLine (first ++ second) :=
  fun mem => (mem_append.mp mem).elim clean cleanToo

theorem OneLine.upTo (clean : OneLine text) (character : Char) : OneLine (upTo character text) :=
  clean.of_subset (takeWhile_sublist _).subset

theorem OneLine.trim (clean : OneLine text) : OneLine (trim text) := by
  refine clean.of_subset fun character mem => ?_
  have once := (dropWhile_sublist _).subset (mem_reverse.mp mem)
  exact (dropWhile_sublist _).subset (mem_reverse.mp once)

theorem OneLine.intercalate {separator : Text} (clean : OneLine separator) :
    ∀ {lines : List Text}, (∀ line ∈ lines, OneLine line) → OneLine (separator.intercalate lines)
  | [], _ => not_mem_nil
  | [line], all => by
    rw [intercalate_singleton]
    exact all line (.head _)
  | line :: next :: lines, all => by
    rw [intercalate_cons_cons]
    have rest := clean.intercalate fun line mem => all line (.tail _ mem)
    exact ((all line (.head _)).append clean).append rest

theorem toLower_ne {character : Char} (clean : character ≠ '\n') : character.toLower ≠ '\n' := by
  intro lowered
  unfold Char.toLower at lowered
  split at lowered
  · rename_i upper
    obtain ⟨least, most⟩ := upper
    have value : character.val + ('a'.val - 'A'.val) = '\n'.val := congrArg Char.val lowered
    have least' : 65 ≤ character.val.toNat := least
    have most' : character.val.toNat ≤ 90 := most
    have numbers : (character.val.toNat + 32) % 2 ^ 32 = 10 := congrArg UInt32.toNat value
    omega
  · exact clean lowered

theorem OneLine.toLower (clean : OneLine text) : OneLine (toLower text) := by
  intro mem
  obtain ⟨character, inside, lowered⟩ := mem_map.mp mem
  exact toLower_ne (fun same => clean (same ▸ inside)) lowered

theorem line_inj {first second rest rest' : Text} (clean : OneLine first)
    (cleanToo : OneLine second)
    (same : first ++ '\n' :: rest = second ++ '\n' :: rest') : first = second ∧ rest = rest' := by
  induction first generalizing second with
  | nil =>
    cases second with
    | nil => exact ⟨rfl, (List.cons.inj same).2⟩
    | cons character second =>
      exact absurd (List.cons.inj same).1 fun head => cleanToo (head ▸ .head _)
  | cons character first ih =>
    cases second with
    | nil => exact absurd (List.cons.inj same).1 fun head => clean (head ▸ .head _)
    | cons other second =>
      obtain ⟨head, tail⟩ := List.cons.inj same
      obtain ⟨texts, rests⟩ := ih (fun mem => clean (.tail _ mem))
        (fun mem => cleanToo (.tail _ mem)) tail
      exact ⟨by rw [head, texts], rests⟩

/-! ### Hexadecimal digits -/

def hexDigits : Text := "0123456789abcdef".toList

def hexDigit (number : ℕ) : Char := hexDigits.getD number '0'

/-- The number that a digit stands for, in either case. -/
def hexValue (digit : Char) : Option ℕ :=
  if digit.toLower ∈ hexDigits then some (hexDigits.idxOf digit.toLower) else none

/-- `toHex`, `toHexLower`: two digits a byte. -/
def toHex (bytes : Bytes) : Text :=
  bytes.flatMap fun byte => [hexDigit (byte.toNat / 16), hexDigit (byte.toNat % 16)]

@[grind] def fromHex : Text → Bytes
  | high :: low :: rest =>
    UInt8.ofNat (16 * (hexValue high).getD 0 + (hexValue low).getD 0) :: fromHex rest
  | _ => []

theorem hexValue_hexDigit : ∀ number < 16, hexValue (hexDigit number) = some number := by
  decide

theorem fromHex_toHex (bytes : Bytes) : fromHex (toHex bytes) = bytes := by
  induction bytes with
  | nil => rfl
  | cons byte rest ih =>
    have small : byte.toNat < 256 := byte.toNat_lt
    show fromHex (hexDigit _ :: hexDigit _ :: toHex rest) = _
    rw [fromHex, ih, hexValue_hexDigit _ (by omega), hexValue_hexDigit _ (by omega)]
    rw [Option.getD_some, Option.getD_some, Nat.div_add_mod, UInt8.ofNat_toNat]

theorem toHex_injective : Function.Injective toHex :=
  Function.LeftInverse.injective fromHex_toHex

/-! ### Base 64 -/

def base64Digits : Text :=
  "ABCDEFGHIJKLMNOPQRSTUVWXYZabcdefghijklmnopqrstuvwxyz0123456789+/".toList

def base64Digit (number : ℕ) : Char := base64Digits.getD number 'A'

/-- `Base64Encode`: four digits for three bytes. -/
@[grind] def base64Encode : Bytes → Text
  | [] => []
  | [first] => [base64Digit (first.toNat / 4), base64Digit (first.toNat % 4 * 16), '=', '=']
  | [first, second] =>
    [base64Digit (first.toNat / 4), base64Digit (first.toNat % 4 * 16 + second.toNat / 16),
      base64Digit (second.toNat % 16 * 4), '=']
  | first :: second :: third :: rest =>
    base64Digit (first.toNat / 4) :: base64Digit (first.toNat % 4 * 16 + second.toNat / 16) ::
      base64Digit (second.toNat % 16 * 4 + third.toNat / 64) :: base64Digit (third.toNat % 64) ::
        base64Encode rest

def base64Value (digit : Char) : ℕ := base64Digits.idxOf digit

/-- `Base64Decode`: three bytes for four digits, or fewer where there is padding. -/
@[grind] def base64Decode : Text → Bytes
  | first :: second :: third :: fourth :: rest =>
    let high := UInt8.ofNat (base64Value first * 4 + base64Value second / 16)
    let middle := UInt8.ofNat (base64Value second % 16 * 16 + base64Value third / 4)
    let low := UInt8.ofNat (base64Value third % 4 * 64 + base64Value fourth)
    if third = '=' then [high]
    else if fourth = '=' then [high, middle]
    else high :: middle :: low :: base64Decode rest
  | _ => []

theorem base64Value_base64Digit : ∀ number < 64, base64Value (base64Digit number) = number := by
  decide +kernel

theorem base64Digit_ne : ∀ number < 64, base64Digit number ≠ '=' := by
  decide +kernel

theorem ofNat_of_eq {number : ℕ} (byte : UInt8) (same : number = byte.toNat) :
    UInt8.ofNat number = byte := by
  rw [same, UInt8.ofNat_toNat]

theorem base64Decode_base64Encode (bytes : Bytes) : base64Decode (base64Encode bytes) = bytes := by
  induction bytes using base64Encode.induct with
  | case1 => rfl
  | case2 first =>
    have small := first.toNat_lt
    rw [base64Encode, base64Decode, if_pos rfl, base64Value_base64Digit _ (by omega),
      base64Value_base64Digit _ (by omega), ofNat_of_eq first (by omega)]
  | case3 first second =>
    have small := first.toNat_lt
    have smallToo := second.toNat_lt
    rw [base64Encode, base64Decode, if_neg (base64Digit_ne _ (by omega)), if_pos rfl,
      base64Value_base64Digit _ (by omega), base64Value_base64Digit _ (by omega),
      base64Value_base64Digit _ (by omega), ofNat_of_eq first (by omega),
      ofNat_of_eq second (by omega)]
  | case4 first second third rest ih =>
    have small := first.toNat_lt
    have smallToo := second.toNat_lt
    have smallThird := third.toNat_lt
    rw [base64Encode, base64Decode, if_neg (base64Digit_ne _ (by omega)),
      if_neg (base64Digit_ne _ (by omega)), ih,
      base64Value_base64Digit _ (by omega), base64Value_base64Digit _ (by omega),
      base64Value_base64Digit _ (by omega), base64Value_base64Digit _ (by omega),
      ofNat_of_eq first (by omega), ofNat_of_eq second (by omega),
      ofNat_of_eq third (by omega)]

theorem base64Encode_injective : Function.Injective base64Encode :=
  Function.LeftInverse.injective base64Decode_base64Encode

/-! ### Requests -/

structure HttpField where
  name : Text
  value : Text
  oneLine : OneLine value
  trimmed : trim value = value

structure HttpRequest where
  method : Text
  target : Text
  fields : List HttpField
  body : Text
  methodOneLine : OneLine method
  targetOneLine : OneLine target

namespace HttpRequest

/-- The field has a name, in whatever case. -/
def named (name : Text) (field : HttpField) : Bool := toLower field.name = toLower name

section

variable (req : HttpRequest)

/-- The first field of a name, and no text if there is none. -/
def field (name : Text) : Text :=
  ((req.fields.find? (named name)).map (·.value)).getD []

/-- What the target names, without its query. -/
def path : Text := upTo '?' req.target

def query : Text := beyond '?' req.target

theorem field_congr {name other : Text} (same : toLower name = toLower other) :
    req.field name = req.field other := by
  unfold field named
  rw [same]

theorem field_oneLine (name : Text) : OneLine (req.field name) := by
  unfold field
  cases req.fields.find? (named name) with
  | none => exact not_mem_nil
  | some found => exact found.oneLine

theorem trim_field (name : Text) : trim (req.field name) = req.field name := by
  unfold field
  cases req.fields.find? (named name) with
  | none => rfl
  | some found => exact found.trimmed

theorem path_oneLine : OneLine req.path :=
  req.targetOneLine.upTo '?'

end

end HttpRequest

/-! ### Digests -/

structure Cryptography where
  sha256 : Text → Bytes
  hmacSha256 : Bytes → Text → Bytes

/-- Different texts have different digests. -/
structure Cryptography.IsIdeal (cryptography : Cryptography) : Prop where
  sha256 : Function.Injective cryptography.sha256
  hmacSha256 : ∀ key, Function.Injective (cryptography.hmacSha256 key)

def Cryptography.sha256Hex (cryptography : Cryptography) (text : Text) : Text :=
  toHex (cryptography.sha256 text)

def toBytes (text : Text) : Bytes := text.map fun character => UInt8.ofNat character.toNat

end Euclid.Core
