/-
This file translates the HTTP message signatures of `HttpSignature`.

A signature is made over a base: a line for each covered component, and a last line that repeats the
parameters as they were presented. What is covered is fixed. Times are in seconds.
-/

import Euclid.Core.HttpRequest

namespace Euclid.Core

namespace HttpSignature

open List Option

/-! ### Components -/

def algorithm : Text := "hmac-sha256".toList

def coveredComponents : List Text :=
  ["@method".toList, "@path".toList, "@authority".toList, "content-digest".toList,
    "x-euclid-account-id".toList, "x-euclid-action".toList, "x-euclid-region".toList,
    "x-euclid-target".toList, "x-euclid-user-id".toList]

def fieldValue (req : HttpRequest) (name : Text) : Option Text :=
  if req.field name = [] then none else some (trim (req.field name))

def derivedValue (req : HttpRequest) (name : Text) : Option Text :=
  if name = "@method".toList then some req.method
  else if name = "@path".toList then some req.path
  else if name = "@authority".toList then
    if req.field "host".toList = [] then none
    else some (toLower (trim (req.field "host".toList)))
  else none

def componentValue (req : HttpRequest) (component : Text) : Option Text :=
  if component.head? = some '@' then derivedValue req component
  else fieldValue req component

def componentLine (component value : Text) : Text :=
  "\"".toList ++ component ++ "\": ".toList ++ value ++ ['\n']

def buildSignatureBase (req : HttpRequest) (parameters : Text) : List Text → Option Text
  | [] => some ("\"@signature-params\": ".toList ++ parameters)
  | component :: components => do
    let value ← componentValue req component
    let rest ← buildSignatureBase req parameters components
    return componentLine component value ++ rest

/-! ### Parameters -/

/-- White space, as a stream skips it. -/
def isSpace (character : Char) : Bool :=
  character = ' ' ∨ '\t' ≤ character ∧ character ≤ '\r'

/-- The items that a stream reads. -/
def items (text : Text) : List Text := (parts isSpace text).filter (· ≠ [])

/-- What comes after the first place where a text is found. -/
def afterFirst (needle : Text) : Text → Option Text
  | [] => none
  | character :: rest =>
    if needle.isPrefixOf (character :: rest) then some ((character :: rest).drop needle.length)
    else afterFirst needle rest

def parameterValue (parameters name : Text) : Text :=
  match afterFirst (";".toList ++ name ++ "=".toList) parameters with
  | none => []
  | some [] => []
  | some ('"' :: rest) => if '"' ∈ rest then upTo '"' rest else []
  | some (character :: rest) => upTo ';' (character :: rest)

/-- `stol`: a number as far as there are digits, unless there are none or it does not fit. -/
def stol (text : Text) : Option Int :=
  let start := text.dropWhile isSpace
  let signed := start.head? = some '-' ∨ start.head? = some '+'
  let digits := (if signed then start.drop 1 else start).takeWhile Char.isDigit
  let number : Int := if start.head? = some '-' then -decimal digits else decimal digits
  if digits ≠ [] ∧ -2 ^ 63 ≤ number ∧ number < 2 ^ 63 then some number else none

def parameterNumber (parameters name : Text) : Int := (stol (parameterValue parameters name)).getD 0

structure ParsedSignatureInput where
  label : Text
  components : List Text
  keyId : Text
  algorithm : Text
  created : Int
  expires : Int
  parameters : Text

/-- A component as it is quoted in the list. -/
def unquoted (item : Text) : Option Text :=
  if item.length < 2 ∨ item.head? ≠ some '"' ∨ item.getLast? ≠ some '"' then none
  else some (item.drop 1).dropLast

def parseSignatureInput (headerValue : Text) : Option ParsedSignatureInput :=
  let label := trim (upTo '=' headerValue)
  let parameters := trim (beyond '=' headerValue)
  if '=' ∉ headerValue ∨ label = [] ∨ parameters.head? ≠ some '(' ∨ ')' ∉ parameters then none
  else do
    let components ← (items (upTo ')' (parameters.drop 1))).mapM unquoted
    let given := beyond ')' parameters
    if components = [] then none
    else
      return {
        label
        components
        keyId := parameterValue given "keyid".toList
        algorithm := parameterValue given "alg".toList
        created := parameterNumber given "created".toList
        expires := parameterNumber given "expires".toList
        parameters }

/-! ### Signing -/

def label : Text := "sig1".toList

def contentDigest (cryptography : Cryptography) (body : Text) : Text :=
  "sha-256=:".toList ++ base64Encode (fromHex (cryptography.sha256Hex body)) ++ ":".toList

/-- The parameters that `Sign` presents. -/
def signatureParameters (created : ℕ) (accessKeyId : Text) : Text :=
  '(' :: [' '].intercalate (coveredComponents.map fun component => '"' :: component ++ ['"']) ++
    ");created=".toList ++ Nat.toDigits 10 created ++ ";keyid=\"".toList ++ accessKeyId ++
      "\";alg=\"".toList ++ algorithm ++ ['"']

/-! ### Verification -/

/-- The parameters are those of a signature that may be looked at: it covers what it must, is made
the way it must be, names a key, and is neither stale nor from the future. -/
def ParsedSignatureInput.IsAcceptable (parsed : ParsedSignatureInput) (now maxSkew : Int) : Prop :=
  parsed.components = coveredComponents ∧ parsed.algorithm = HttpSignature.algorithm ∧
    parsed.keyId ≠ [] ∧ parsed.created ≠ 0 ∧
      (now - parsed.created ≤ maxSkew ∧ -maxSkew ≤ now - parsed.created) ∧
        (parsed.expires = 0 ∨ now ≤ parsed.expires)

instance (parsed : ParsedSignatureInput) (now maxSkew : Int) :
    Decidable (parsed.IsAcceptable now maxSkew) := by
  unfold ParsedSignatureInput.IsAcceptable
  infer_instance

structure VerifyResult where
  accessKeyId : Text
  contentDigest : Text

/-- The `Signature` header that a base should come with. -/
def signatureHeader (cryptography : Cryptography) (label secret base : Text) : Text :=
  label ++ "=:".toList ++ base64Encode (cryptography.hmacSha256 (toBytes secret) base) ++ ":".toList

section

variable (cryptography : Cryptography) (lookupSecret : Text → Option Text) (now maxSkew : Int)
  (req : HttpRequest)

def verifySignature : Option VerifyResult := do
  let parsed ← parseSignatureInput (req.field "Signature-Input".toList)
  if ¬parsed.IsAcceptable now maxSkew then none
  else if req.field "Content-Digest".toList = [] then none
  else
    let secret ← lookupSecret parsed.keyId
    let base ← buildSignatureBase req parsed.parameters parsed.components
    if trim (req.field "Signature".toList) ≠
        signatureHeader cryptography parsed.label secret base then none
    else return ⟨parsed.keyId, req.field "Content-Digest".toList⟩

def verify : Option VerifyResult := do
  let verified ← verifySignature cryptography lookupSecret now maxSkew req
  if verified.contentDigest ≠ contentDigest cryptography req.body then none
  else return verified

end

/-! ### What verification shows -/

variable {cryptography : Cryptography} {req : HttpRequest}

theorem verify_eq_some {lookupSecret : Text → Option Text}
    {now maxSkew : Int} {result : VerifyResult}
    (accepted : verify cryptography lookupSecret now maxSkew req = some result) :
    ∃ parsed secret base,
      parseSignatureInput (req.field "Signature-Input".toList) = some parsed ∧
        parsed.IsAcceptable now maxSkew ∧ lookupSecret parsed.keyId = some secret ∧
          buildSignatureBase req parsed.parameters coveredComponents = some base ∧
            req.field "Signature".toList =
              signatureHeader cryptography parsed.label secret base ∧
                result.accessKeyId = parsed.keyId ∧
                  req.field "Content-Digest".toList = contentDigest cryptography req.body := by
  obtain ⟨verified, signed, digested⟩ := bind_eq_some_iff.mp accepted
  obtain ⟨parsed, input, signed⟩ := bind_eq_some_iff.mp signed
  split at signed
  · nomatch signed
  rename_i acceptable
  split at signed
  · nomatch signed
  obtain ⟨secret, known, signed⟩ := bind_eq_some_iff.mp signed
  obtain ⟨base, built, signed⟩ := bind_eq_some_iff.mp signed
  split at signed
  · nomatch signed
  rename_i matching
  obtain rfl := some.inj signed
  split at digested
  · nomatch digested
  rename_i digest
  obtain rfl := some.inj digested
  have fits := not_not.mp acceptable
  refine ⟨parsed, secret, base, input, fits, known, ?_, ?_, rfl, not_not.mp digest⟩
  · rw [← fits.1]
    exact built
  · rw [← HttpRequest.trim_field]
    exact not_not.mp matching

theorem componentValue_method (req : HttpRequest) :
    componentValue req "@method".toList = some req.method := by
  unfold componentValue derivedValue
  rw [if_pos (by decide), if_pos rfl]

theorem componentValue_path (req : HttpRequest) :
    componentValue req "@path".toList = some req.path := by
  unfold componentValue derivedValue
  rw [if_pos (by decide), if_neg (by decide), if_pos rfl]

theorem componentValue_oneLine {component value : Text}
    (is : componentValue req component = some value) : OneLine value := by
  unfold componentValue derivedValue fieldValue at is
  split at is
  · split at is
    · exact some.inj is ▸ req.methodOneLine
    split at is
    · exact some.inj is ▸ req.path_oneLine
    split at is
    · split at is
      · nomatch is
      · exact some.inj is ▸ (req.field_oneLine _).trim.toLower
    · nomatch is
  · split at is
    · nomatch is
    · exact some.inj is ▸ (req.field_oneLine _).trim

theorem buildSignatureBase_inj {first second : HttpRequest} {parameters : Text} :
    ∀ {components : List Text} {base : Text},
      buildSignatureBase first parameters components = some base →
        buildSignatureBase second parameters components = some base →
          ∀ component ∈ components, componentValue first component = componentValue second component
  | [], _, _, _, _, mem => absurd mem not_mem_nil
  | component :: components, base, built, builtToo, other, mem => by
    obtain ⟨value, is, built⟩ := bind_eq_some_iff.mp built
    obtain ⟨rest, rests, built⟩ := bind_eq_some_iff.mp built
    obtain ⟨value', is', builtToo⟩ := bind_eq_some_iff.mp builtToo
    obtain ⟨rest', rests', builtToo⟩ := bind_eq_some_iff.mp builtToo
    have same : componentLine component value ++ rest = componentLine component value' ++ rest' :=
      (some.inj built).trans (some.inj builtToo).symm
    unfold componentLine at same
    simp only [append_assoc, append_cancel_left_eq] at same
    obtain ⟨rfl, rfl⟩ := line_inj (componentValue_oneLine is) (componentValue_oneLine is') same
    rcases mem_cons.mp mem with rfl | later
    · exact is.trans is'.symm
    · exact buildSignatureBase_inj rests rests' other later

theorem fieldValue_inj {first second : HttpRequest} {name : Text}
    (same : fieldValue first name = fieldValue second name) :
    first.field name = second.field name := by
  unfold fieldValue at same
  rw [HttpRequest.trim_field, HttpRequest.trim_field] at same
  split at same
  · rename_i empty
    split at same
    · rename_i emptyToo
      rw [empty, emptyToo]
    · nomatch same
  · split at same
    · nomatch same
    · exact some.inj same

theorem contentDigest_injective (ideal : cryptography.IsIdeal) :
    Function.Injective (contentDigest cryptography) := by
  intro first second same
  unfold contentDigest Cryptography.sha256Hex at same
  rw [fromHex_toHex, fromHex_toHex, append_cancel_right_eq, append_cancel_left_eq] at same
  exact ideal.sha256 (base64Encode_injective same)

theorem signatureHeader_injective (ideal : cryptography.IsIdeal)
    (label secret : Text) : Function.Injective (signatureHeader cryptography label secret) := by
  intro first second same
  unfold signatureHeader at same
  rw [append_cancel_right_eq, append_cancel_left_eq] at same
  exact ideal.hmacSha256 _ (base64Encode_injective same)

end HttpSignature

end Euclid.Core
