/-
This file translates the signatures of `SigV4`.

A signature is made over the digest of a canonical request: the method, the path, the query in a
canonical form, the headers that are always signed, and the digest of the body. Of a header that
comes more than once the last is signed. Time is in nanoseconds.
-/

import Mathlib.Data.List.Sort
import Euclid.Core.HttpRequest

namespace Euclid.Core

namespace SigV4

open List Option Function HttpRequest

/-! ### Queries -/

/-- Letters, digits and four signs stand for themselves. -/
def isUnreserved (character : Char) : Bool :=
  character.isAlphanum ∨ character ∈ ['-', '_', '.', '~']

def uriEncode (encodeSlash : Bool) (value : Text) : Text :=
  value.flatMap fun character =>
    if isUnreserved character ∨ character = '/' ∧ ¬encodeSlash then [character]
    else ['%', (hexDigit (character.toNat / 16)).toUpper, (hexDigit (character.toNat % 16)).toUpper]

/-- A percent sign without two hexadecimal digits stands for itself. -/
@[grind] def percentDecode : Text → Text
  | [] => []
  | '%' :: high :: low :: rest =>
    match hexValue high, hexValue low with
    | some first, some second => Char.ofNat (16 * first + second) :: percentDecode rest
    | _, _ => '%' :: percentDecode (high :: low :: rest)
  | character :: rest => character :: percentDecode rest

def parameter (pair : Text) : Text × Text :=
  (uriEncode true (percentDecode (upTo '=' pair)), uriEncode true (percentDecode (beyond '=' pair)))

/-- By name, then by value. -/
def precedes (first second : Text × Text) : Prop :=
  first.1 < second.1 ∨ first.1 = second.1 ∧ ¬second.2 < first.2

instance : DecidableRel precedes := fun first second => by
  unfold precedes
  infer_instance

def canonicalizeQueryString (rawQuery : Text) : Text :=
  let parameters := ((split '&' rawQuery).filter (· ≠ [])).map parameter
  ['&'].intercalate ((parameters.insertionSort precedes).map fun pair => pair.1 ++ '=' :: pair.2)

/-! ### What is signed -/

def kAlgorithm : Text := "AWS4-HMAC-SHA256".toList

def kScopeTerminator : Text := "aws4_request".toList

def signedHeaderNames : List Text :=
  ["host".toList, "x-amz-content-sha256".toList, "x-amz-date".toList, "x-euclid-account-id".toList,
    "x-euclid-action".toList, "x-euclid-region".toList, "x-euclid-target".toList,
    "x-euclid-user-id".toList]

def signedHeaders (names : List Text) : Text := [';'].intercalate names

/-- The headers by their names in lower case; of two of a name the later counts. -/
def headerMap (req : HttpRequest) : Text → Option Text :=
  req.fields.foldl
    (fun headers field => Function.update headers (toLower field.name) (some (trim field.value)))
    fun _ => none

def headerLine (headers : Text → Option Text) (name : Text) : Text :=
  name ++ ':' :: ((headers name).getD [] ++ ['\n'])

def buildCanonicalRequest (method canonicalUri canonicalQuery : Text)
    (headers : Text → Option Text) (names : List Text) (payloadHashHex : Text) : Text :=
  method ++ '\n' :: (canonicalUri ++ '\n' :: (canonicalQuery ++ '\n' ::
    (names.flatMap (headerLine headers) ++
      '\n' :: (signedHeaders names ++ '\n' :: payloadHashHex))))

def buildStringToSign (amzDate credentialScope canonicalRequestHashHex : Text) : Text :=
  kAlgorithm ++ '\n' :: (amzDate ++ '\n' :: (credentialScope ++ '\n' :: canonicalRequestHashHex))

def deriveSigningKey (cryptography : Cryptography)
    (secretAccessKey dateStamp region service : Text) :
    Bytes :=
  let kDate := cryptography.hmacSha256 (toBytes ("AWS4".toList ++ secretAccessKey)) dateStamp
  let kRegion := cryptography.hmacSha256 kDate region
  let kService := cryptography.hmacSha256 kRegion service
  cryptography.hmacSha256 kService kScopeTerminator

/-! ### Authorizations -/

structure CredentialScope where
  accessKeyId : Text
  dateStamp : Text
  region : Text
  service : Text

structure ParsedAuthorization where
  scope : CredentialScope
  signedHeaders : Text
  signature : Text

/-- What the parts of a header give. -/
structure Given where
  credential : Text
  signedHeaders : Text
  signature : Text

def Given.adding (given : Given) (part : Text) : Given :=
  if "Credential=".toList.isPrefixOf part then { given with credential := part.drop 11 }
  else if "SignedHeaders=".toList.isPrefixOf part then { given with signedHeaders := part.drop 14 }
  else if "Signature=".toList.isPrefixOf part then { given with signature := part.drop 10 }
  else given

def parseAuthorizationHeader (headerValue : Text) : Option ParsedAuthorization :=
  let rest := trim (headerValue.drop kAlgorithm.length)
  let given := ((split ',' rest).map trim).foldl Given.adding ⟨[], [], []⟩
  if ¬kAlgorithm.isPrefixOf headerValue ∨ given.credential = [] ∨ given.signedHeaders = [] ∨
      given.signature = [] then none
  else
    match split '/' given.credential with
    | [accessKeyId, dateStamp, region, service, terminator] =>
      if terminator ≠ kScopeTerminator then none
      else some ⟨⟨accessKeyId, dateStamp, region, service⟩, given.signedHeaders, given.signature⟩
    | _ => none

/-! ### Dates -/

/-- A number of at most so many digits in a range, as `std::get_time` takes it, and what follows. -/
def digitsOf (width least most : ℕ) (text : Text) : Option (ℕ × Text) :=
  let digits := (text.take width).takeWhile Char.isDigit
  let number := decimal digits
  if digits ≠ [] ∧ least ≤ number ∧ number ≤ most then some (number, text.drop digits.length)
  else none

/-- A character that must come next, and what follows. -/
def literal (character : Char) (text : Text) : Option Text :=
  if text.head? = some character then some text.tail else none

/-- `timegm`: the seconds since 1970. -/
def timegm (year month day hour minute second : Int) : Int :=
  let shifted := if month ≤ 2 then year - 1 else year
  let era := shifted.fdiv 400
  let yearOfEra := shifted - era * 400
  let dayOfYear := (153 * (month + (if month > 2 then -3 else 9)) + 2) / 5 + day - 1
  let dayOfEra := yearOfEra * 365 + yearOfEra / 4 - yearOfEra / 100 + dayOfYear
  (era * 146097 + dayOfEra - 719468) * 86400 + hour * 3600 + minute * 60 + second

def parseAmzDate (amzDate : Text) : Option Int := do
  let (year, rest) ← digitsOf 4 0 9999 amzDate
  let (month, rest) ← digitsOf 2 1 12 rest
  let (day, rest) ← digitsOf 2 1 31 rest
  let rest ← literal 'T' rest
  let (hour, rest) ← digitsOf 2 0 23 rest
  let (minute, rest) ← digitsOf 2 0 59 rest
  let (second, rest) ← digitsOf 2 0 60 rest
  let _ ← literal 'Z' rest
  return int64 (timegm year month day hour minute second * 1000000000)

example : parseAmzDate "20260818T120000Z".toList = some 1787054400000000000 := by decide

/-! ### Verification -/

structure VerifyResult where
  accessKeyId : Text

def CredentialScope.text (scope : CredentialScope) : Text :=
  scope.dateStamp ++ '/' :: (scope.region ++ '/' :: (scope.service ++ '/' :: kScopeTerminator))

/-- The signature that a request should come with. -/
def expectedSignature (cryptography : Cryptography) (req : HttpRequest) (scope : CredentialScope)
    (secret amzDate payloadHashHex : Text) : Text :=
  let canonicalRequest := buildCanonicalRequest req.method req.path
    (canonicalizeQueryString req.query) (headerMap req) signedHeaderNames payloadHashHex
  let stringToSign := buildStringToSign amzDate scope.text (cryptography.sha256Hex canonicalRequest)
  toHex (cryptography.hmacSha256
    (deriveSigningKey cryptography secret scope.dateStamp scope.region scope.service) stringToSign)

def verify (cryptography : Cryptography) (lookupSecret : Text → Option Text) (now maxSkew : Int)
    (req : HttpRequest) : Option VerifyResult := do
  let parsed ← parseAuthorizationHeader (req.field "authorization".toList)
  if parsed.signedHeaders ≠ signedHeaders signedHeaderNames then none
  else
    let secret ← lookupSecret parsed.scope.accessKeyId
    let amzDate ← headerMap req "x-amz-date".toList
    if amzDate.take 8 ≠ parsed.scope.dateStamp then none
    else
      let requestTime ← parseAmzDate amzDate
      if int64 (now - requestTime) > maxSkew ∨ int64 (now - requestTime) < -maxSkew then none
      else
        let payloadHash ← headerMap req "x-amz-content-sha256".toList
        if payloadHash ≠ cryptography.sha256Hex req.body then none
        else if expectedSignature cryptography req parsed.scope secret amzDate payloadHash ≠
            parsed.signature then none
        else return ⟨parsed.scope.accessKeyId⟩

/-! ### What verification shows -/

variable {req : HttpRequest}

theorem verify_eq_some {cryptography : Cryptography} {lookupSecret : Text → Option Text}
    {now maxSkew : Int} {result : VerifyResult}
    (accepted : verify cryptography lookupSecret now maxSkew req = some result) :
    ∃ parsed secret amzDate,
      parseAuthorizationHeader (req.field "authorization".toList) = some parsed ∧
        lookupSecret parsed.scope.accessKeyId = some secret ∧
          headerMap req "x-amz-date".toList = some amzDate ∧
            expectedSignature cryptography req parsed.scope secret amzDate
              (cryptography.sha256Hex req.body) = parsed.signature ∧
                result.accessKeyId = parsed.scope.accessKeyId := by
  obtain ⟨parsed, authorization, accepted⟩ := bind_eq_some_iff.mp accepted
  split at accepted
  · nomatch accepted
  obtain ⟨secret, known, accepted⟩ := bind_eq_some_iff.mp accepted
  obtain ⟨amzDate, dated, accepted⟩ := bind_eq_some_iff.mp accepted
  split at accepted
  · nomatch accepted
  obtain ⟨requestTime, _, accepted⟩ := bind_eq_some_iff.mp accepted
  split at accepted
  · nomatch accepted
  obtain ⟨payloadHash, _, accepted⟩ := bind_eq_some_iff.mp accepted
  split at accepted
  · nomatch accepted
  rename_i digest
  split at accepted
  · nomatch accepted
  rename_i signed
  obtain rfl := some.inj accepted
  refine ⟨parsed, secret, amzDate, authorization, known, dated, ?_, rfl⟩
  rw [← not_not.mp digest]
  exact not_not.mp signed

/-! ### Headers -/

variable {name : Text}

theorem headers_of_none (fields : List HttpField) (headers : Text → Option Text)
    (none : ∀ field ∈ fields, toLower field.name ≠ name) :
    fields.foldl (fun headers field =>
      update headers (toLower field.name) (some (trim field.value))) headers name =
        headers name := by
  induction fields generalizing headers with
  | nil => rfl
  | cons field fields ih =>
    rw [foldl_cons, ih _ fun field mem => none field (.tail _ mem)]
    exact update_of_ne (none field (.head _)).symm _ _

theorem headers_of_once (fields : List HttpField) (headers : Text → Option Text)
    (once : fields.countP (named name) ≤ 1) :
    fields.foldl (fun headers field =>
      update headers (toLower field.name) (some (trim field.value))) headers (toLower name) =
        ((fields.find? (named name)).map (·.value)).or (headers (toLower name)) := by
  induction fields generalizing headers with
  | nil => rfl
  | cons field fields ih =>
    by_cases this : named name field
    · have same : toLower field.name = toLower name := of_decide_eq_true this
      rw [countP_cons_of_pos this] at once
      have rest := countP_eq_zero.mp (Nat.le_zero.mp (Nat.le_of_succ_le_succ once))
      rw [foldl_cons, headers_of_none _ _ fun other mem named =>
        rest other mem (decide_eq_true named), List.find?_cons_of_pos this, same,
        update_self, field.trimmed]
      rfl
    · have other : toLower name ≠ toLower field.name := fun same => this (decide_eq_true same.symm)
      rw [countP_cons_of_neg this] at once
      rw [foldl_cons, ih _ once, List.find?_cons_of_neg this, update_of_ne other]

theorem headerMap_of_once (once : req.fields.countP (named name) ≤ 1) :
    (headerMap req (toLower name)).getD [] = req.field name := by
  unfold headerMap field
  rw [headers_of_once _ _ once, or_none]

theorem headerMap_oneLine (req : HttpRequest) (name : Text) :
    OneLine ((headerMap req name).getD []) := by
  unfold headerMap
  have start : OneLine (((fun _ => none : Text → Option Text) name).getD []) := not_mem_nil
  revert start
  generalize (fun _ => none : Text → Option Text) = headers
  induction req.fields generalizing headers with
  | nil => exact id
  | cons field fields ih =>
    intro start
    refine ih _ ?_
    dsimp only
    rw [update_apply]
    split
    · exact field.oneLine.trim
    · exact start

/-! ### The canonical request -/

theorem isUnreserved_hexDigit {number : ℕ} : isUnreserved (hexDigit number).toUpper := by
  unfold hexDigit
  rw [getD_eq_getElem?_getD]
  cases found : hexDigits[number]? with
  | none => decide
  | some digit =>
    have digits : hexDigits.all (fun digit => isUnreserved digit.toUpper) = true := by decide
    exact all_eq_true.mp digits digit (mem_of_getElem? found)

theorem uriEncode_free {separator : Char} (reserved : ¬isUnreserved separator)
    (apart : separator ≠ '/' ∧ separator ≠ '%') (encodeSlash : Bool) (value : Text) :
    separator ∉ uriEncode encodeSlash value := by
  intro mem
  obtain ⟨character, _, encoded⟩ := mem_flatMap.mp mem
  split at encoded
  · rename_i kept
    obtain rfl := mem_singleton.mp encoded
    exact kept.elim reserved fun slash => apart.1 slash.1
  · rcases mem_cons.mp encoded with same | encoded
    · exact apart.2 same
    rcases mem_cons.mp encoded with same | encoded
    · exact reserved (same ▸ isUnreserved_hexDigit)
    · exact reserved (mem_singleton.mp encoded ▸ isUnreserved_hexDigit)

theorem uriEncode_oneLine {encodeSlash : Bool} {value : Text} :
    OneLine (uriEncode encodeSlash value) :=
  uriEncode_free (by decide) (by decide) _ _

theorem canonicalizeQueryString_oneLine {rawQuery : Text} :
    OneLine (canonicalizeQueryString rawQuery) := by
  refine OneLine.intercalate (by decide) fun line mem => ?_
  obtain ⟨pair, sorted, rfl⟩ := mem_map.mp mem
  obtain ⟨given, _, rfl⟩ := mem_map.mp ((perm_insertionSort _ _).mem_iff.mp sorted)
  have equals : OneLine ['='] := by decide
  exact uriEncode_oneLine.append (equals.append uriEncode_oneLine)

theorem headerLines_inj {first second : HttpRequest} {rest rest' : Text} :
    ∀ {names : List Text}, names.flatMap (headerLine (headerMap first)) ++ rest =
      names.flatMap (headerLine (headerMap second)) ++ rest' →
        (∀ name ∈ names, (headerMap first name).getD [] = (headerMap second name).getD []) ∧
          rest = rest'
  | [], same => ⟨nofun, same⟩
  | name :: names, same => by
    simp only [flatMap_cons, headerLine, append_assoc, cons_append, nil_append,
      append_cancel_left_eq, List.cons.injEq, true_and] at same
    obtain ⟨value, later⟩ :=
      line_inj (headerMap_oneLine first name) (headerMap_oneLine second name) same
    obtain ⟨values, rests⟩ := headerLines_inj later
    exact ⟨forall_mem_cons.mpr ⟨value, values⟩, rests⟩

/-- The canonical request tells apart all that it covers. -/
theorem buildCanonicalRequest_inj {first second : HttpRequest} {names : List Text}
    {hash hash' : Text}
    (same : buildCanonicalRequest first.method first.path (canonicalizeQueryString first.query)
        (headerMap first) names hash =
      buildCanonicalRequest second.method second.path (canonicalizeQueryString second.query)
        (headerMap second) names hash') :
    first.method = second.method ∧ first.path = second.path ∧
      canonicalizeQueryString first.query = canonicalizeQueryString second.query ∧
        (∀ name ∈ names, (headerMap first name).getD [] = (headerMap second name).getD []) ∧
          hash = hash' := by
  obtain ⟨method, same⟩ := line_inj first.methodOneLine second.methodOneLine same
  obtain ⟨path, same⟩ := line_inj first.path_oneLine second.path_oneLine same
  obtain ⟨query, same⟩ := line_inj canonicalizeQueryString_oneLine
    canonicalizeQueryString_oneLine same
  obtain ⟨headers, same⟩ := headerLines_inj same
  have hashes := append_cancel_left ((List.cons.inj same).2)
  exact ⟨method, path, query, headers, (List.cons.inj hashes).2⟩

theorem buildStringToSign_inj {amzDate amzDate' scope digest digest' : Text}
    (clean : OneLine amzDate)
    (cleanToo : OneLine amzDate')
    (same : buildStringToSign amzDate scope digest = buildStringToSign amzDate' scope digest') :
    amzDate = amzDate' ∧ digest = digest' := by
  have dates := (List.cons.inj (append_cancel_left same)).2
  obtain ⟨date, scopes⟩ := line_inj clean cleanToo dates
  exact ⟨date, (List.cons.inj (append_cancel_left scopes)).2⟩

end SigV4

end Euclid.Core
