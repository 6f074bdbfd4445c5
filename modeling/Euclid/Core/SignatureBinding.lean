/-
This file proves what a signature binds.

Two requests that are accepted with the same signature agree on what the signature covers: what was
signed is the same text, and a text that is made of lines tells what its lines were made of. An HTTP
message signature does not cover the query, and neither scheme covers the namespace.
-/

import Euclid.Core.HttpSignature
import Euclid.Core.SigV4

namespace Euclid.Core

open List Option

/-! ### Schemes -/

inductive Scheme where
  | httpSignature
  | sigV4
  deriving DecidableEq

namespace Scheme

/-- The key that a request is accepted with. -/
def verify (scheme : Scheme) (cryptography : Cryptography) (lookupSecret : Text → Option Text)
    (now maxSkew : Int) (req : HttpRequest) : Option Text :=
  match scheme with
  | .httpSignature =>
    (HttpSignature.verify cryptography lookupSecret now maxSkew req).map (·.accessKeyId)
  | .sigV4 => (SigV4.verify cryptography lookupSecret now maxSkew req).map (·.accessKeyId)

def headers : Scheme → List Text
  | .httpSignature => ["Signature".toList, "Signature-Input".toList]
  | .sigV4 => ["authorization".toList]

/-- The header that is signed is the one that a lookup finds. -/
def Signs (scheme : Scheme) (name : Text) (req : HttpRequest) : Prop :=
  match scheme with
  | .httpSignature => True
  | .sigV4 => req.fields.countP (HttpRequest.named name) ≤ 1

end Scheme

/-- The headers that name the module, the action, the account, the region and the user. -/
def routingHeaders : List Text :=
  ["x-euclid-target".toList, "x-euclid-action".toList, "x-euclid-account-id".toList,
    "x-euclid-region".toList, "x-euclid-user-id".toList]

/-- Two requests agree on all that routing and authorization read. -/
structure Agree (first second : HttpRequest) : Prop where
  method : first.method = second.method
  path : first.path = second.path
  query : first.query = second.query
  body : first.body = second.body
  header : ∀ name ∈ "x-euclid-namespace".toList :: routingHeaders,
    first.field name = second.field name

/-- Two requests agree on what a scheme covers. -/
structure Bound (scheme : Scheme) (first second : HttpRequest) : Prop where
  method : first.method = second.method
  path : first.path = second.path
  query : scheme = .sigV4 →
    SigV4.canonicalizeQueryString first.query = SigV4.canonicalizeQueryString second.query
  body : first.body = second.body
  header : ∀ name ∈ routingHeaders, scheme.Signs name first → scheme.Signs name second →
    first.field name = second.field name

/-! ### What each scheme binds -/

section Binding

variable {cryptography : Cryptography} {lookupSecret : Text → Option Text}
  {firstNow secondNow maxSkew : Int} {first second : HttpRequest}

theorem HttpSignature.bound_of_verify (ideal : cryptography.IsIdeal)
    {result result' : HttpSignature.VerifyResult}
    (accepted : HttpSignature.verify cryptography lookupSecret firstNow maxSkew first = some result)
    (acceptedToo :
      HttpSignature.verify cryptography lookupSecret secondNow maxSkew second = some result')
    (input : first.field "Signature-Input".toList = second.field "Signature-Input".toList)
    (signature : first.field "Signature".toList = second.field "Signature".toList) :
    Bound .httpSignature first second := by
  obtain ⟨parsed, secret, base, parses, acceptable, known, built, signed, _, digest⟩ :=
    HttpSignature.verify_eq_some accepted
  obtain ⟨parsed', secret', base', parses', _, known', built', signed', _, digest'⟩ :=
    HttpSignature.verify_eq_some acceptedToo
  rw [← input, parses] at parses'
  obtain rfl := some.inj parses'
  obtain rfl := some.inj (known.symm.trans known')
  obtain rfl := HttpSignature.signatureHeader_injective ideal _ _
    ((signed.symm.trans signature).trans signed')
  have component := HttpSignature.buildSignatureBase_inj built built'
  have field : ∀ name ∈ "content-digest".toList :: routingHeaders,
      first.field name = second.field name := by
    have all : ∀ name ∈ "content-digest".toList :: routingHeaders,
        name ∈ HttpSignature.coveredComponents ∧ name.head? ≠ some '@' := by
      decide
    intro name mem
    obtain ⟨covered, plain⟩ := all name mem
    have same := component name covered
    unfold HttpSignature.componentValue at same
    rw [if_neg plain, if_neg plain] at same
    exact HttpSignature.fieldValue_inj same
  refine ⟨?_, ?_, fun other => absurd other (by decide), ?_, fun name mem _ _ =>
    field name (.tail _ mem)⟩
  · have same := component "@method".toList (by decide)
    rw [HttpSignature.componentValue_method, HttpSignature.componentValue_method] at same
    exact some.inj same
  · have same := component "@path".toList (by decide)
    rw [HttpSignature.componentValue_path, HttpSignature.componentValue_path] at same
    exact some.inj same
  · have same := field "content-digest".toList (.head _)
    have lower : toLower "Content-Digest".toList = toLower "content-digest".toList := by
      decide
    refine HttpSignature.contentDigest_injective ideal ?_
    rw [← digest, ← digest', first.field_congr lower, second.field_congr lower]
    exact same

theorem SigV4.bound_of_verify (ideal : cryptography.IsIdeal) {result result' : SigV4.VerifyResult}
    (accepted : SigV4.verify cryptography lookupSecret firstNow maxSkew first = some result)
    (acceptedToo : SigV4.verify cryptography lookupSecret secondNow maxSkew second = some result')
    (authorization : first.field "authorization".toList = second.field "authorization".toList) :
    Bound .sigV4 first second := by
  obtain ⟨parsed, secret, amzDate, parses, known, dated, signed, _⟩ := SigV4.verify_eq_some accepted
  obtain ⟨parsed', secret', amzDate', parses', known', dated', signed', _⟩ :=
    SigV4.verify_eq_some acceptedToo
  rw [← authorization, parses] at parses'
  obtain rfl := some.inj parses'
  obtain rfl := some.inj (known.symm.trans known')
  have clean := SigV4.headerMap_oneLine first "x-amz-date".toList
  have cleanToo := SigV4.headerMap_oneLine second "x-amz-date".toList
  rw [dated] at clean
  rw [dated'] at cleanToo
  have strings := ideal.hmacSha256 _ (toHex_injective (signed.trans signed'.symm))
  obtain ⟨_, digests⟩ := SigV4.buildStringToSign_inj clean cleanToo strings
  obtain ⟨method, path, query, headers, hashes⟩ :=
    SigV4.buildCanonicalRequest_inj (ideal.sha256 (toHex_injective digests))
  refine ⟨method, path, fun _ => query, ideal.sha256 (toHex_injective hashes), ?_⟩
  have all : ∀ name ∈ routingHeaders, name ∈ SigV4.signedHeaderNames ∧ toLower name = name := by
    decide
  intro name mem once onceToo
  obtain ⟨covered, lower⟩ := all name mem
  have same := headers name covered
  rw [← lower, SigV4.headerMap_of_once once, SigV4.headerMap_of_once onceToo] at same
  exact same

/-- Two requests that are accepted with the same key and the same signature have the same method,
path and body, and name the same module, action, account, region and user, as far as no such header
comes twice in a request signed with SigV4; and with SigV4 their queries are the same in canonical
form. -/
theorem signature_binds (scheme : Scheme) (ideal : cryptography.IsIdeal) {accessKeyId : Text}
    (accepted : scheme.verify cryptography lookupSecret firstNow maxSkew first = some accessKeyId)
    (acceptedToo :
      scheme.verify cryptography lookupSecret secondNow maxSkew second = some accessKeyId)
    (same : ∀ name ∈ scheme.headers, first.field name = second.field name) :
    Bound scheme first second := by
  cases scheme with
  | httpSignature =>
    obtain ⟨result, verified, _⟩ := map_eq_some_iff.mp accepted
    obtain ⟨result', verified', _⟩ := map_eq_some_iff.mp acceptedToo
    exact HttpSignature.bound_of_verify ideal verified verified'
      (same _ (.tail _ (.head _))) (same _ (.head _))
  | sigV4 =>
    obtain ⟨result, verified, _⟩ := map_eq_some_iff.mp accepted
    obtain ⟨result', verified', _⟩ := map_eq_some_iff.mp acceptedToo
    exact SigV4.bound_of_verify ideal verified verified' (same _ (.head _))

end Binding

/-! ### One signature, two requests -/

/-- What is not known stands for itself. -/
def unknownDigest (text : Text) : Bytes :=
  List.replicate 33 0 ++ text.flatMap fun character => littleEndian 4 character.toNat

theorem unknownDigest_injective : Function.Injective unknownDigest := by
  intro first second same
  have bytes := append_cancel_left same
  clear same
  induction first generalizing second with
  | nil =>
    cases second with
    | nil => rfl
    | cons character second =>
      have lengths := congrArg length bytes
      rw [flatMap_cons, length_append, littleEndian_length] at lengths
      exact absurd lengths (by simp only [flatMap_nil, length_nil]; omega)
  | cons character first ih =>
    cases second with
    | nil =>
      have lengths := congrArg length bytes
      rw [flatMap_cons, length_append, littleEndian_length] at lengths
      exact absurd lengths (by simp only [flatMap_nil, length_nil]; omega)
    | cons other second =>
      rw [flatMap_cons, flatMap_cons] at bytes
      obtain ⟨head, tail⟩ := append_inj bytes (by simp)
      have small : ∀ character : Char, character.toNat < 256 ^ 4 := fun character => by
        have bound := character.val.toNat_lt
        exact bound
      rw [Char.toNat_inj.mp (littleEndian_inj (small _) (small _) head), ih tail]

def digestOf (known : Text) (digest : Bytes) (text : Text) : Bytes :=
  if text = known then digest else unknownDigest text

theorem digestOf_injective {known : Text} {digest : Bytes} (length : digest.length = 32) :
    Function.Injective (digestOf known digest) := by
  intro first second same
  have other : ∀ text, unknownDigest text ≠ digest := fun text same => by
    have lengths := congrArg List.length same
    rw [unknownDigest, length_append, length_replicate, length] at lengths
    omega
  unfold digestOf at same
  split at same
  · rename_i isKnown
    split at same
    · rename_i isKnownToo
      rw [isKnown, isKnownToo]
    · exact absurd same.symm (other second)
  · split at same
    · exact absurd same (other first)
    · exact unknownDigest_injective same

def header (name : String) (value : Text) (oneLine : OneLine value := by decide +kernel)
    (trimmed : trim value = value := by decide +kernel) : HttpField :=
  ⟨name.toList, value, oneLine, trimmed⟩

def exampleKey : Text := "AKIAEXAMPLE0000000001".toList

def exampleSecret : Text := "wJalrXUtnFEMI/K7MDENG/bPxRfiCYEXAMPLEKEY".toList

def exampleLookup (accessKeyId : Text) : Option Text :=
  if accessKeyId = exampleKey then some exampleSecret else none

def exampleParameters : Text := HttpSignature.signatureParameters 1787054400 exampleKey

/-- A signed request that lists the objects of a namespace. -/
def listObjects (target nameSpace : Text) (targetOneLine : OneLine target := by decide)
    (oneLine : OneLine nameSpace := by decide)
    (trimmed : trim nameSpace = nameSpace := by decide) : HttpRequest where
  method := "POST".toList
  target := target
  fields := [header "Host" "localhost:5566".toList, header "x-euclid-target" "esm".toList,
    header "x-euclid-action" "list-objects".toList, header "x-euclid-region" "eu-central-1".toList,
    header "x-euclid-account-id" "000000000000".toList, header "x-euclid-user-id" "admin".toList,
    header "x-euclid-namespace" nameSpace oneLine trimmed,
    header "Content-Digest" "sha-256=:47DEQpj8HBSa+/TImW+5JCeuQeRkm5NMpJWZG3hSuFU=:".toList,
    header "Signature-Input" (HttpSignature.label ++ '=' :: exampleParameters),
    header "Signature" "sig1=:gfOszDfjioTMh6W57VsyAAuAT6bSwaVDhe8PgA2K8Y8=:".toList]
  body := []
  methodOneLine := by decide
  targetOneLine := targetOneLine

def asSigned : HttpRequest := listObjects "/".toList "development".toList

/-- The request with another query and another namespace. -/
def redirected : HttpRequest := listObjects "/?all".toList "production".toList

def signedBase : Text :=
  (HttpSignature.buildSignatureBase asSigned exampleParameters
    HttpSignature.coveredComponents).getD []

/-- The digests of an empty body, and of the signed text under the secret. -/
def exampleCryptography : Cryptography where
  sha256 := digestOf []
    (fromHex "e3b0c44298fc1c149afbf4c8996fb92427ae41e4649b934ca495991b7852b855".toList)
  hmacSha256 key :=
    if key = toBytes exampleSecret then digestOf signedBase
      (fromHex "81f3accc37e38a84cc87a5b9ed5b32000b804fa6d2c1a54385ef0f800d8af18f".toList)
    else unknownDigest

theorem exampleCryptography_isIdeal : exampleCryptography.IsIdeal := by
  refine ⟨digestOf_injective (by decide), fun key => ?_⟩
  unfold exampleCryptography
  dsimp only
  split
  · exact digestOf_injective (by decide)
  · exact unknownDigest_injective

theorem asSigned_accepted : Scheme.httpSignature.verify exampleCryptography exampleLookup
    1787054400 900 asSigned = some exampleKey := by
  decide +kernel

theorem redirected_accepted : Scheme.httpSignature.verify exampleCryptography exampleLookup
    1787054460 900 redirected = some exampleKey := by
  decide +kernel

theorem same_signature :
    ∀ name ∈ Scheme.httpSignature.headers, asSigned.field name = redirected.field name := by
  decide +kernel

/-- What the signature covers is the same in both requests. -/
theorem listObjects_bound : Bound .httpSignature asSigned redirected :=
  signature_binds .httpSignature exampleCryptography_isIdeal asSigned_accepted redirected_accepted
    same_signature

/-- Both requests are accepted with one signature, and neither their queries nor their namespaces
are the same. -/
theorem redirected_differs :
    ¬∀ (scheme : Scheme) (cryptography : Cryptography), cryptography.IsIdeal →
      ∀ (lookupSecret : Text → Option Text) (firstNow secondNow maxSkew : Int)
        (first second : HttpRequest) (accessKeyId : Text),
        scheme.verify cryptography lookupSecret firstNow maxSkew first = some accessKeyId →
          scheme.verify cryptography lookupSecret secondNow maxSkew second = some accessKeyId →
            (∀ name ∈ scheme.headers, first.field name = second.field name) →
              Agree first second := by
  intro agree
  have same := agree .httpSignature exampleCryptography exampleCryptography_isIdeal exampleLookup
    1787054400 1787054460 900 asSigned redirected exampleKey asSigned_accepted redirected_accepted
    same_signature
  exact absurd same.query (by decide)

end Euclid.Core
