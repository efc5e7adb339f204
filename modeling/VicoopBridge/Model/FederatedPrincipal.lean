import VicoopBridge.Library.Utf16
import VicoopBridge.Model.ExecutionScope

/-! # Federated principals, unit by unit

The codec on the strings of the source's language themselves: their lengths and cuts count UTF-16
units, the lengths in the text count UTF-8 bytes, and a surrogate may stand alone. -/

namespace VicoopBridge

open Library

/-- A string of the source's language. -/
abbrev JsText := List UInt16

instance : LawfulBEq JsText := inferInstance

namespace JsText

def ofAscii (s : String) : JsText := s.toList.map fun c => UInt16.ofNat c.toNat

def isWhitespace (u : UInt16) : Bool :=
  u ∈ [0x9, 0xA, 0xB, 0xC, 0xD, 0x20, 0xA0, 0x1680, 0x2028, 0x2029, 0x202F, 0x205F, 0x3000,
    0xFEFF] || (0x2000 ≤ u && u ≤ 0x200A)

def trim (s : JsText) : JsText :=
  ((s.dropWhile isWhitespace).reverse.dropWhile isWhitespace).reverse

end JsText

structure FederatedTuple where
  issuer : JsText
  method : JsText
  subject : JsText
  deriving DecidableEq

namespace FederatedTuple

def colon : UInt16 := 0x3A

/-- The loop of `takeLengthPrefixed` over the characters: where `end` is when so many bytes have
been consumed. -/
def consume (byteLength : ℕ) : ℕ → ℕ → List (List UInt16) → Option ℕ
  | consumedBytes, stop, [] => if consumedBytes ≠ byteLength then none else some stop
  | consumedBytes, stop, ch :: rest =>
      let consumedBytes := consumedBytes + Utf16.charBytes ch
      if byteLength < consumedBytes then none
      else
        let stop := stop + ch.length
        if consumedBytes = byteLength then some stop else consume byteLength consumedBytes stop rest

/-- The value, and the rest of the input. -/
def takeLengthPrefixed (input : JsText) : Option (JsText × JsText) :=
  match input.span (· ≠ colon) with
  | ([], _) | (_, []) => none
  | (rawLength, _ :: body) =>
      match parseLength (rawLength.map fun u => Char.ofNat u.toNat) with
      | none => none
      | some byteLength =>
          if !isSafeInteger byteLength || byteLength = 0 then none
          else (consume byteLength 0 0 (Utf16.chars body)).map fun stop =>
            (body.take stop, body.drop stop)

def component (value : JsText) : JsText :=
  JsText.ofAscii (toString (Utf16.utf8Length value)) ++ colon :: value

/-- `formatFederatedPrincipal` -/
def format (input : FederatedTuple) : Option JsText :=
  let issuer := JsText.trim input.issuer
  let method := JsText.trim input.method
  let subject := JsText.trim input.subject
  if issuer ≠ input.issuer ∨ method ≠ input.method ∨ subject ≠ input.subject then none
  else if ¬ JsText.ofAscii "did:web:" <+: issuer ∨ method = [] ∨ subject = [] then none
  else if issuer.any JsText.isWhitespace then none
  else if 512 < issuer.length ∨ 256 < method.length ∨ 512 < subject.length then none
  else
    let encoded := JsText.ofAscii federatedPrefix ++ component issuer ++ component method ++
      component subject
    if Utf16.utf8Length encoded ≤ maxFederatedPrincipalBytes then some encoded else none

/-- `parseFederatedPrincipal` -/
def parse (value : JsText) : Option FederatedTuple := do
  if ¬ JsText.ofAscii federatedPrefix <+: value then none
  let rest := value.drop federatedPrefix.length
  let (issuer, rest) ← takeLengthPrefixed rest
  let (method, rest) ← takeLengthPrefixed rest
  let (subject, rest) ← takeLengthPrefixed rest
  if rest ≠ [] then none
  let canonical := format ⟨issuer, method, subject⟩
  if canonical = some value then some ⟨issuer, method, subject⟩ else none

end FederatedTuple

end VicoopBridge
