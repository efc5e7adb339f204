import VicoopBridge.Model.FederatedPrincipal

/-! # Principals of an allow list

How an entry is parsed, normalised where an administrator writes it, and matched with the caller
that the server has verified. -/

namespace VicoopBridge

open Library

namespace JsText

/-! ## `toLowerCase` -/

def isSurrogate (u : UInt16) : Bool := Utf16.isHigh u || Utf16.isLow u

/-- A character that is no surrogate standing alone. -/
def isScalar : JsText → Bool
  | [u] => !isSurrogate u
  | [u, v] => Utf16.isHigh u && Utf16.isLow v
  | _ => false

def asciiLower (u : UInt16) : UInt16 := if 0x41 ≤ u && u ≤ 0x5A then u + 0x20 else u

def isAsciiLetter (u : UInt16) : Bool := (0x41 ≤ u && u ≤ 0x5A) || (0x61 ≤ u && u ≤ 0x7A)

def capitalSigma : JsText := [0x3A3]

def smallSigma (final : Bool) : JsText := if final then [0x3C2] else [0x3C3]

/-- The case data of a version of Unicode, character by character, and what it keeps from version to
version: a lower-case text stays as it is, and what is no letter comes of itself alone. -/
structure CaseTable where
  lower : JsText → List JsText
  cased : JsText → Bool
  caseIgnorable : JsText → Bool
  lower_ascii : ∀ u : UInt16, u.toNat < 0x80 → lower [u] = [[asciiLower u]]
  lower_surrogate : ∀ u, isSurrogate u = true → lower [u] = [[u]]
  lower_sigma : lower capitalSigma = [smallSigma false]
  lower_finalSigma : lower (smallSigma true) = [smallSigma true]
  lower_scalar : ∀ ch, isScalar ch = true → lower ch ≠ [] ∧ ∀ d ∈ lower ch, isScalar d = true
  lower_lower : ∀ ch, ∀ d ∈ lower ch, d ≠ capitalSigma ∧ lower d = [d]
  lower_plain : ∀ (ch : JsText) (u : UInt16), [u] ∈ lower ch →
    (u.toNat < 0x80 ∧ isAsciiLetter u = false ∨ isWhitespace u = true) → ch = [u]

namespace CaseTable

variable (table : CaseTable)

/-- A cased letter comes next, behind what the case of a word leaves out. -/
def seesCased : List JsText → Bool
  | [] => false
  | ch :: rest => table.cased ch || (table.caseIgnorable ch && seesCased rest)

/-- What becomes of a character between the ones before it, the last first, and those behind it. A
sigma is final at the end of a word. -/
def image (before : List JsText) (ch : JsText) (rest : List JsText) : List JsText :=
  if ch = capitalSigma then
    [smallSigma (table.seesCased before && !table.seesCased rest)]
  else table.lower ch

def lowerFrom (before : List JsText) : List JsText → List JsText
  | [] => []
  | ch :: rest => table.image before ch rest ++ lowerFrom (ch :: before) rest

end CaseTable

def toLowerCase (table : CaseTable) (s : JsText) : JsText :=
  (table.lowerFrom [] (Utf16.chars s)).flatten

end JsText

/-! ## Principals -/

inductive ParsedPrincipal where
  | eth (address : JsText)
  | googleSub (sub : JsText)
  | googleEmail (email : JsText)
  | googleDomain (domain : JsText)
  | apikey (keyId : JsText)
  | federated (tuple : FederatedTuple)
  deriving DecidableEq

namespace Principal

open JsText

/-- The fields of a verified caller that an entry is matched with. `allowedCaller` is that of its
token exchange. -/
structure VerifiedCaller where
  principalId : JsText
  allowedCaller : Option JsText := none
  email : Option JsText := none
  emailVerified : Bool := false
  hostedDomain : Option JsText := none
  deriving DecidableEq

def isHexDigit (u : UInt16) : Bool :=
  (0x30 ≤ u && u ≤ 0x39) || (0x41 ≤ u && u ≤ 0x46) || (0x61 ≤ u && u ≤ 0x66)

/-- `/^0x[0-9a-f]{40}$/i` -/
def isEthAddr : JsText → Bool
  | z :: x :: digits =>
      z = 0x30 && (x = 0x78 || x = 0x58) && digits.length = 40 && digits.all isHexDigit
  | _ => false

/-- `[a-z0-9-]` -/
def isLabelUnit (u : UInt16) : Bool :=
  (0x61 ≤ u && u ≤ 0x7A) || (0x30 ≤ u && u ≤ 0x39) || u = 0x2D

/-- `/^[a-z0-9-]+(?:\.[a-z0-9-]+)+$/` -/
def isDomain (s : JsText) : Bool :=
  let labels := s.splitOn 0x2E
  2 ≤ labels.length && labels.all fun label => label ≠ [] && label.all isLabelUnit

/-- `/^[A-Za-z0-9_-]+$/` -/
def isApiKeyId (s : JsText) : Bool :=
  s ≠ [] && s.all fun u =>
    isAsciiLetter u || (0x30 ≤ u && u ≤ 0x39) || u = 0x5F || u = 0x2D

/-- What follows the prefix. -/
def afterPrefix (pre : String) (s : JsText) : Option JsText :=
  if ofAscii pre <+: s then some (s.drop pre.length) else none

def at_ : UInt16 := 0x40

/-- Exactly one `@`, with something on both sides. -/
def isEmail (email : JsText) : Bool :=
  match email.span (· ≠ at_) with
  | (_, []) => false
  | (localPart, _ :: domain) => localPart ≠ [] && domain ≠ [] && at_ ∉ domain

variable (table : CaseTable)

def parsePrincipal (s : JsText) : Option ParsedPrincipal :=
  match afterPrefix "eth:" s with
  | some addr => if isEthAddr addr then some (.eth (toLowerCase table addr)) else none
  | none =>
  match afterPrefix "google:sub:" s with
  | some sub => if sub = [] then none else some (.googleSub sub)
  | none =>
  match afterPrefix "google:email:" s with
  | some email => if isEmail email then some (.googleEmail (toLowerCase table email)) else none
  | none =>
  match afterPrefix "google:domain:" s with
  | some domain =>
      if isDomain (toLowerCase table domain) then some (.googleDomain (toLowerCase table domain))
      else none
  | none =>
  match afterPrefix "apikey:" s with
  | some keyId => if isApiKeyId keyId then some (.apikey keyId) else none
  | none => (FederatedTuple.parse s).map .federated

def validatePrincipal (raw : JsText) : Option JsText :=
  let trimmed := JsText.trim raw
  if trimmed = [] then none
  else if isEthAddr trimmed then some (ofAscii "eth:" ++ toLowerCase table trimmed)
  else match parsePrincipal table trimmed with
    | none => none
    | some (.eth address) => some (ofAscii "eth:" ++ address)
    | some (.googleSub sub) => some (ofAscii "google:sub:" ++ sub)
    | some (.googleEmail email) => some (ofAscii "google:email:" ++ email)
    | some (.googleDomain domain) => some (ofAscii "google:domain:" ++ domain)
    | some (.apikey keyId) => some (ofAscii "apikey:" ++ keyId)
    | some (.federated tuple) => tuple.format

def matchPrincipal (entry : JsText) (caller : VerifiedCaller) : Bool :=
  match parsePrincipal table entry with
  | none => false
  | some (.eth address) =>
      (afterPrefix "eth:" caller.principalId).any fun addr => toLowerCase table addr = address
  | some (.googleSub sub) => caller.principalId = ofAscii "google:" ++ sub
  | some (.googleEmail email) =>
      caller.emailVerified && caller.email.any fun e => e ≠ [] && toLowerCase table e = email
  | some (.googleDomain target) =>
      caller.emailVerified &&
        ((caller.hostedDomain.any fun d => d ≠ [] && toLowerCase table d = target) ||
          caller.email.any fun e => e ≠ [] && at_ :: target <:+ toLowerCase table e)
  | some (.apikey keyId) => caller.principalId = ofAscii "apikey:" ++ keyId
  | some (.federated _) => caller.allowedCaller = some entry

end Principal

end VicoopBridge
